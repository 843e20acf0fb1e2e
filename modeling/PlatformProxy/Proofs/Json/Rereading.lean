import PlatformProxy.Proofs.Floating.Rounding
import PlatformProxy.Proofs.Json.Depth

/-!
# Typed values read again

The JSON value of a typed value is written, read, and taken for a value of the same type. Where
there are no doubles nothing has changed in between. The fields of a record are unchanged one by
one, because its members stay under their names.

A single is written as the double that it is widened to, and read as some number, which will do for
a single. There are no numbers for the infinities and for what is not a number. They are written as
null, and null is not read as a single.

## Main results

* `Json.ofJson_reread_of_plain` — values without doubles
* `Json.exists_ofJson_reread_single_iff` — singles, if and only if they are finite
* `Json.ofJson_reread_record_eq_ok_iff` — records, field by field
-/

namespace PlatformProxy

namespace Json

theorem ofJson_reread_of_plain {s : Shape} {d : Nat} {v : s.Value} (h : s.Plain d v) :
    s.ofJson (s.toJson v).reread = .ok v := by
  rw [reread_of_plain (s.plain_toJson d v h), s.ofJson_toJson d v h]

/-! ### Singles -/

theorem exists_reread_number (n : Number) : ∃ n' : Number, n.reread = number n' := by
  cases n with
  | natural n => exact ⟨.natural n, (reads_number 0 _).unique (reads_natural 0 n)⟩
  | negative n => exact ⟨.negative n, (reads_number 0 _).unique (reads_negative 0 n)⟩
  | real x hx =>
    obtain ⟨n', hn'⟩ := reads_real x hx
    exact ⟨n', (reads_number 0 _).unique (hn' 0)⟩

/-- **A single is read again** if and only if it is finite. -/
theorem exists_ofJson_reread_single_iff (x : Floating .single) :
    (∃ y, Shape.single.ofJson (Shape.single.toJson x).reread = .ok y) ↔ x.isFinite = true := by
  rw [Shape.toJson, real, ← x.isFinite_convert]
  split
  · rename_i hfinite
    obtain ⟨n, hn⟩ := exists_reread_number (.real (x.convert .double) hfinite)
    rw [reread, hn]
    exact iff_of_true ⟨n.toSingle, rfl⟩ hfinite
  · rename_i hinfinite
    refine iff_of_false ?_ hinfinite
    rintro ⟨_, h⟩
    cases h

/-! ### Records -/

/-- The members of a record keep their names, and their order does not matter. -/
theorem perm_reread_members {fields : Fields} (hnames : fields.names.Nodup) (slots : fields.Slots) :
    ∃ members, (ofMembers (fields.members slots)).reread = object members ∧
      members.Perm (fields.changed reread slots) := by
  have hnodup := hnames.sublist (fields.sublist_names slots)
  have hsorted : ((fields.members slots).foldl (fun acc m => insertMember m.1 m.2 acc) []).Perm
      (fields.members slots) := perm_foldl_insertMember hnodup
  have hreread := hsorted.map fun m => (m.1, m.2.reread)
  rw [← rereadMembers_eq] at hreread
  have hnodup' : ((rereadMembers
      ((fields.members slots).foldl (fun acc m => insertMember m.1 m.2 acc) [])).map
        Prod.fst).Nodup := by
    refine ((hreread.map Prod.fst).nodup_iff).mpr ?_
    rwa [List.map_map]
  exact ⟨_, rfl, (perm_foldl_insertMember hnodup').trans hreread⟩

/-- **A record is read again** field by field. -/
theorem ofJson_reread_record_eq_ok_iff {title : String} {fields : Fields}
    (hnames : fields.names.Nodup) {values values' : fields.Values} :
    (Shape.record title fields).ofJson ((Shape.record title fields).toJson values).reread =
        .ok values' ↔
      ∃ slots, fields.Refills reread (fields.filled values) slots ∧
        fields.complete slots = .ok values' := by
  obtain ⟨members, hmembers, hperm⟩ := perm_reread_members hnames (fields.filled values)
  rw [Shape.toJson, fields.toMembers_eq, hmembers, ofJson_record_eq_ok_iff]
  simp only [fields.ofMemberList_eq_ok_iff_refills _ _ hnames hperm]

end Json

end PlatformProxy
