import PlatformProxy.Proofs.Settings.Scalars
import PlatformProxy.Proofs.Text.Utf8

/-!
# Saved settings are loaded again

The file that is saved is one mapping of three sections. Reading it gives back each member for
itself, as no two members of a section have a name in common and none is a table. So loading never
fails, and it gives back the settings when each number and each text among them comes back.

What does not come back are whole numbers of 64 bits that lie between two floating-point numbers,
and texts that are numbers only to the reader, such as `1e400`. A line separator of Unicode ends a
line for the writer, but not for the reader: the blanks that the writer puts behind one, in single
quotes or in a block, become part of the text.

## Main definitions

* `Settings.reread` — settings as they come back
* `Settings.Survives` — settings that come back as they were

## Main results

* `Settings.Store.load_after_save` — what is loaded after settings are saved
* `Settings.Store.load_after_save_changed` — settings that change
-/

namespace PlatformProxy

namespace Settings

open Yaml (Tree Form formOf textNode valueNode pairsNodes KeepsLines ArePairs IsKey)

/-! ### Members of mappings -/

/-- A pair of a mapping is read as a member. -/
structure IsReadAs (p : String × Tree) (m : String × Value) : Prop where
  name : m.1 = p.1
  key : Scalar.ofPlain p.1 = .text p.1
  value : Value.ofNode? (valueNode p.2) = some m.2

theorem isReadAs_of_value {name : String} {tree : Tree} {v : Value}
    (hkey : Scalar.ofPlain name = .text name) (h : Value.ofNode? (valueNode tree) = some v) :
    IsReadAs (name, tree) (name, v) := ⟨rfl, hkey, h⟩

namespace Value

variable {g : Gathered} {old ms : List (String × Value)}

theorem ofPair?_of_isReadAs {p : String × Tree} {m : String × Value} (h : IsReadAs p m)
    (hkey : g.key = none) (hkeys : Scalar.text m.1 ∉ g.keys)
    (hmembers : ∀ m' ∈ g.members, m'.1 ≠ m.1) :
    ofPair? g (Yaml.pairNodes p) = some ⟨none, .text m.1 :: g.keys, g.members ++ [m]⟩ := by
  obtain ⟨key, tree⟩ := p
  obtain ⟨name, v⟩ := m
  obtain ⟨rfl, hread, hvalue⟩ := h
  have hscalar : Scalar.ofNode name .plain none = .text name := hread
  have hbegin : g.add (.scalar name .plain none) (ofNode? (.scalar name .plain none)) =
      some { g with key := some (.text name) } := by
    rw [Gathered.add, hkey]
    dsimp only
    rw [hscalar]
    rfl
  have hcontains : g.keys.contains (Scalar.text name) = false := by
    rwa [List.contains_eq_mem, decide_eq_false_iff_not]
  have hend : ∀ n, Gathered.add ⟨some (.text name), g.keys, g.members⟩ n (some v) =
      if g.keys.contains (.text name) then none
      else some ⟨none, .text name :: g.keys, changeMember name (fun _ => v) g.members⟩ :=
    fun _ => rfl
  rw [Yaml.pairNodes, ofPair?, hbegin, Option.bind_some, hvalue, hend, hcontains,
    if_neg Bool.false_ne_true, changeMember_of_fresh _ hmembers]

theorem ofPairs?_of_forall₂ {pairs : List (String × Tree)} (h : List.Forall₂ IsReadAs pairs ms)
    (hkey : g.key = none) (hnodup : (ms.map Prod.fst).Nodup)
    (hkeys : ∀ m ∈ ms, Scalar.text m.1 ∉ g.keys)
    (hmembers : ∀ m ∈ ms, ∀ m' ∈ g.members, m'.1 ≠ m.1) :
    ofPairs? g (pairsNodes pairs) = some (g.members ++ ms) := by
  induction h generalizing g with
  | nil => rw [pairsNodes, ofPairs?, List.append_nil]
  | cons hp hrest ih =>
    rename_i p m pairs ms
    obtain ⟨hm, hnodup⟩ := List.nodup_cons.mp hnodup
    obtain ⟨hkey₁, hkeys⟩ := List.forall_mem_cons.mp hkeys
    obtain ⟨hmember₁, hmembers⟩ := List.forall_mem_cons.mp hmembers
    have hne : ∀ m' ∈ ms, m.1 ≠ m'.1 := fun m' hm' heq =>
      hm (List.mem_map.mpr ⟨m', hm', heq.symm⟩)
    rw [pairsNodes, ofPairs?, ofPair?_of_isReadAs hp hkey hkey₁ hmember₁, Option.bind_some,
      ih rfl hnodup]
    · rw [List.append_assoc, List.singleton_append]
    · intro m' hm' hkey'
      rcases List.mem_cons.mp hkey' with heq | hkey'
      · exact hne m' hm' (Scalar.text.inj heq).symm
      · exact hkeys m' hm' hkey'
    · exact fun m' hm' => List.forall_mem_append.mpr
        ⟨hmembers m' hm', List.forall_mem_singleton.mpr (hne m' hm')⟩

theorem mergeMembers_of_fresh (hflat : ∀ m ∈ ms, ∀ ts, m.2 ≠ table ts)
    (hnodup : (ms.map Prod.fst).Nodup) (hfresh : ∀ m ∈ ms, ∀ m' ∈ old, m'.1 ≠ m.1) :
    mergeMembers old ms = old ++ ms := by
  induction ms generalizing old with
  | nil => rw [mergeMembers, List.append_nil]
  | cons m ms ih =>
    obtain ⟨name, v⟩ := m
    obtain ⟨hm, hnodup⟩ := List.nodup_cons.mp hnodup
    obtain ⟨hv, hflat⟩ := List.forall_mem_cons.mp hflat
    obtain ⟨hfresh₁, hfresh⟩ := List.forall_mem_cons.mp hfresh
    have hreplaces : (nothing : Value).merge v = v := by rw [merge]; exact hv
    rw [mergeMembers, changeMember_of_fresh _ hfresh₁, hreplaces, ih hflat hnodup]
    · rw [List.append_assoc, List.singleton_append]
    · exact fun m' hm' => List.forall_mem_append.mpr ⟨hfresh m' hm',
        List.forall_mem_singleton.mpr fun heq => hm (List.mem_map.mpr ⟨m', hm', heq.symm⟩)⟩

end Value

/-- A section that is saved: its members are no tables, and no two have a name in common. -/
structure IsSection (tree : Tree) (ms : List (String × Value)) : Prop where
  read : Value.ofNode? (valueNode tree) = some (.table ms)
  flat : ∀ m ∈ ms, ∀ ts, m.2 ≠ .table ts
  nodup : (ms.map Prod.fst).Nodup

/-! ### What comes back -/

def Server.reread (s : Server) : Server :=
  ⟨rereadText s.bindAddress, .ofNat (rereadNumber s.maxConnections.toNat),
    .ofNat (rereadNumber s.maxMessageSize.toNat)⟩

def Steam.reread (s : Steam) : Steam :=
  ⟨s.app, s.requiredTags.map rereadText, .ofNat (rereadNumber s.pollInterval.toNat),
    s.snapshot.map rereadText⟩

def Logging.reread (s : Logging) : Logging :=
  ⟨rereadText s.directory, rereadText s.fileStem, s.debug, s.console, s.json⟩

/-- The settings as they come back from their file. -/
def reread (s : Settings) : Settings := ⟨s.server.reread, s.steam.reread, s.logging.reread⟩

theorem ofNode?_mapping {pairs : List (String × Tree)} {ms : List (String × Value)}
    (h : List.Forall₂ IsReadAs pairs ms) (hnodup : (ms.map Prod.fst).Nodup) :
    Value.ofNode? (.mapping (pairsNodes pairs) none) = some (.table ms) := by
  have hpairs := Value.ofPairs?_of_forall₂ (g := .empty) h rfl hnodup
    (fun _ _ => List.not_mem_nil) (fun _ _ _ hm => absurd hm List.not_mem_nil)
  rw [Value.ofNode?, hpairs]
  rfl

theorem isSection_of_forall₂ {pairs : List (String × Tree)} {ms : List (String × Value)}
    (h : List.Forall₂ IsReadAs pairs ms) (hflat : ∀ m ∈ ms, ∀ ts, m.2 ≠ .table ts)
    (hnodup : (ms.map Prod.fst).Nodup) : IsSection (.mapping pairs) ms where
  read := by rw [valueNode, ofNode?_mapping h hnodup]
  flat := hflat
  nodup := hnodup

theorem IsSection.merge {tree : Tree} {ms : List (String × Value)} (h : IsSection tree ms) :
    Value.merge .nothing (.table ms) = .table ms := by
  have hmerge : Value.mergeMembers [] ms = ms :=
    Value.mergeMembers_of_fresh h.flat h.nodup fun _ _ _ hm => absurd hm List.not_mem_nil
  rw [Value.merge, Value.members, hmerge]
  intro _ htable
  cases htable

/-! ### The sections -/

theorem exists_tagsValue (tags : List String) :
    ∃ vs, Value.ofNode? (valueNode (.sequence tags)) = some (.list vs) ∧
      (Value.list vs).texts? = some (tags.map rereadText) := by
  have hread : ∃ vs, Value.ofNodes? (tags.map textNode) = some vs ∧
      vs.mapM Value.text? = some (tags.map rereadText) := by
    induction tags with
    | nil => exact ⟨[], by rw [List.map_nil, Value.ofNodes?], rfl⟩
    | cons t tags ih =>
      obtain ⟨v, hv, -, htext, -⟩ := exists_textValue t
      obtain ⟨vs, hvs, htexts⟩ := ih
      refine ⟨v :: vs, ?_, ?_⟩
      · rw [List.map_cons, Value.ofNodes?, hv, hvs]
        rfl
      · rw [List.mapM_cons, htext, htexts]
        rfl
  obtain ⟨vs, hvs, htexts⟩ := hread
  exact ⟨vs, by rw [valueNode, Value.ofNode?, hvs]; rfl, htexts⟩

theorem exists_snapshotValue (snapshot : Option String) :
    ∃ v, Value.ofNode? (valueNode (snapshot.elim (.word "null") .text)) = some v ∧
      (∀ ms, v ≠ .table ms) ∧ v.optionalText? = some (snapshot.map rereadText) := by
  cases snapshot with
  | none =>
    exact ⟨.nothing, by rw [Option.elim_none, valueNode, Value.ofNode?]; rfl, nofun, rfl⟩
  | some t =>
    obtain ⟨v, hv, hflat, -, htext⟩ := exists_textValue t
    exact ⟨v, by rw [Option.elim_some, valueNode, hv], hflat, htext⟩

theorem ofNode?_truth (b : Bool) : Value.ofNode? (valueNode (truth b)) = some (.flag b) := by
  rw [truth, valueNode, Value.ofNode?]
  cases b <;> rfl

theorem exists_server (s : Server) :
    ∃ ms, IsSection s.tree ms ∧ Server.ofValue? (.table ms) = some s.reread := by
  obtain ⟨address, haddress, haddress_flat, htext, -⟩ := exists_textValue s.bindAddress
  obtain ⟨connections, hconnections, hconnections_flat, hcount⟩ :=
    exists_numberValue s.maxConnections.toNat
  obtain ⟨size, hsize, hsize_flat, hlimit⟩ := exists_numberValue s.maxMessageSize.toNat
  refine ⟨[("bind_address", address), ("max_connections", connections),
    ("max_message_size", size)], isSection_of_forall₂ ?_ ?_
      (show ["bind_address", "max_connections", "max_message_size"].Nodup by decide), ?_⟩
  · exact .cons (isReadAs_of_value (by decide) haddress)
      (.cons (isReadAs_of_value (by decide) hconnections)
        (.cons (isReadAs_of_value (by decide) hsize) .nil))
  · simp only [List.forall_mem_cons, List.not_mem_nil, false_imp_iff, implies_true, and_true]
    exact ⟨haddress_flat, hconnections_flat, hsize_flat⟩
  · have hcount := hcount _ (rereadNumber_lt s.maxConnections)
    have hlimit := hlimit _ (rereadNumber_lt s.maxMessageSize)
    simp [Server.ofValue?, fields?_table, field?_some, Value.lookup_cons_eq, htext, hcount, hlimit,
      Server.reread]

theorem rereadNumber_toUInt64 (n : UInt32) : rereadNumber n.toUInt64.toNat = n.toNat := by
  have hlt : n.toNat < 2 ^ 63 := Nat.lt_trans n.toNat_lt (by decide)
  rw [UInt32.toNat_toUInt64, rereadNumber, if_pos hlt]

theorem exists_steam (s : Steam) :
    ∃ ms, IsSection s.tree ms ∧ Steam.ofValue? (.table ms) = some s.reread := by
  obtain ⟨app, happ, happ_flat, hid⟩ := exists_numberValue s.app.toUInt64.toNat
  obtain ⟨tags, htags, htexts⟩ := exists_tagsValue s.requiredTags
  obtain ⟨interval, hinterval, hinterval_flat, hpoll⟩ := exists_numberValue s.pollInterval.toNat
  obtain ⟨snapshot, hsnapshot, hsnapshot_flat, hpath⟩ := exists_snapshotValue s.snapshot
  refine ⟨[("app_id", app), ("required_tags", .list tags), ("poll_interval_ms", interval),
    ("snapshot", snapshot)], isSection_of_forall₂ ?_ ?_
      (show ["app_id", "required_tags", "poll_interval_ms", "snapshot"].Nodup by decide), ?_⟩
  · exact .cons (isReadAs_of_value (by decide) happ)
      (.cons (isReadAs_of_value (by decide) htags)
        (.cons (isReadAs_of_value (by decide) hinterval)
          (.cons (isReadAs_of_value (by decide) hsnapshot) .nil)))
  · simp only [List.forall_mem_cons, List.not_mem_nil, false_imp_iff, implies_true, and_true]
    exact ⟨happ_flat, nofun, hinterval_flat, hsnapshot_flat⟩
  · rw [rereadNumber_toUInt64] at hid
    have hid := hid _ s.app.toNat_lt
    have hpoll := hpoll _ (rereadNumber_lt s.pollInterval)
    simp [Steam.ofValue?, fields?_table, field?_some, Value.lookup_cons_eq, hid, htexts, hpoll,
      hpath, Steam.reread]

theorem exists_logging (s : Logging) :
    ∃ ms, IsSection s.tree ms ∧ Logging.ofValue? (.table ms) = some s.reread := by
  obtain ⟨directory, hdirectory, hdirectory_flat, hpath, -⟩ := exists_textValue s.directory
  obtain ⟨stem, hstem, hstem_flat, htext, -⟩ := exists_textValue s.fileStem
  refine ⟨[("dir", directory), ("prefix", stem), ("debug", .flag s.debug),
    ("console", .flag s.console), ("json", .flag s.json)], isSection_of_forall₂ ?_ ?_
      (show ["dir", "prefix", "debug", "console", "json"].Nodup by decide), ?_⟩
  · exact .cons (isReadAs_of_value (by decide) hdirectory)
      (.cons (isReadAs_of_value (by decide) hstem)
        (.cons (isReadAs_of_value (by decide) (ofNode?_truth s.debug))
          (.cons (isReadAs_of_value (by decide) (ofNode?_truth s.console))
            (.cons (isReadAs_of_value (by decide) (ofNode?_truth s.json)) .nil))))
  · simp only [List.forall_mem_cons, List.not_mem_nil, false_imp_iff, implies_true, and_true]
    exact ⟨hdirectory_flat, hstem_flat, nofun, nofun, nofun⟩
  · simp [Logging.ofValue?, fields?_table, field?_some, Value.lookup_cons_eq, hpath, htext,
      Value.flag?, Logging.reread]

/-- The texts among the settings. -/
def texts (s : Settings) : List String :=
  s.server.bindAddress :: s.logging.directory :: s.logging.fileStem ::
    (s.steam.snapshot.toList ++ s.steam.requiredTags)

/-- The numbers among the settings that need not fit in 63 bits. -/
def numbers (s : Settings) : List UInt64 :=
  [s.server.maxConnections, s.server.maxMessageSize, s.steam.pollInterval]

/-! ### The file -/

theorem isKey_of_check {w : List Char} (h : w ≠ [] ∧ w.all Yaml.isWordChar = true ∧
    w.head?.all Char.isAlphanum = true ∧ w.length ≤ 1024) : IsKey w where
  ne_nil := h.1
  chars := List.all_eq_true.mp h.2.1
  first := fun c hc => by
    have hfirst := h.2.2.1
    rwa [Option.mem_def.mp hc] at hfirst
  length_le := h.2.2.2

theorem isKey_decimal (n : UInt64) : IsKey (toString n.toNat).toList where
  ne_nil := Text.decimal_ne_nil n.toNat
  chars := fun c hc => by
    rw [Yaml.isWordChar, Char.isAlphanum, Text.isDigit_of_mem_decimal hc, Bool.or_true,
      Bool.true_or, Bool.true_or]
  first := fun c hc => by
    rw [Char.isAlphanum, Text.isDigit_of_mem_decimal (List.mem_of_mem_head? hc), Bool.or_true]
  length_le := by
    have hlt : n.toNat < 10 ^ 20 := Nat.lt_trans n.toNat_lt (by decide)
    have hlength : (Text.decimal n.toNat).length ≤ 20 := by
      rw [Text.decimal_eq]
      exact (Nat.length_toDigits_le_iff (by decide) (by decide)).mpr hlt
    exact Nat.le_trans hlength (by decide)

theorem legible_truth (b : Bool) : (truth b).Legible := by
  cases b <;> exact isKey_of_check (by decide)

theorem arePairs_tree {s : Settings} (h : ∀ t ∈ s.texts, KeepsLines t) :
    ArePairs [("server", s.server.tree), ("steam", s.steam.tree), ("logging", s.logging.tree)] := by
  simp only [texts, List.forall_mem_cons, List.forall_mem_append] at h
  obtain ⟨haddress, hdirectory, hstem, hsnapshot, htags⟩ := h
  have hpath : (s.steam.snapshot.elim (.word "null") Tree.text).Legible := by
    cases hs : s.steam.snapshot with
    | none => exact isKey_of_check (by decide)
    | some t => exact hsnapshot t (by rw [hs]; exact List.mem_singleton_self t)
  refine ⟨⟨isKey_of_check (by decide), nofun, ?_⟩, ⟨isKey_of_check (by decide), nofun, ?_⟩,
    ⟨isKey_of_check (by decide), nofun, ?_⟩, trivial⟩
  · exact ⟨⟨isKey_of_check (by decide), haddress⟩,
      ⟨isKey_of_check (by decide), isKey_decimal s.server.maxConnections⟩,
      ⟨isKey_of_check (by decide), isKey_decimal s.server.maxMessageSize⟩, trivial⟩
  · exact ⟨⟨isKey_of_check (by decide), isKey_decimal s.steam.app.toUInt64⟩,
      ⟨isKey_of_check (by decide), htags⟩,
      ⟨isKey_of_check (by decide), isKey_decimal s.steam.pollInterval⟩,
      ⟨isKey_of_check (by decide), hpath⟩, trivial⟩
  · exact ⟨⟨isKey_of_check (by decide), hdirectory⟩, ⟨isKey_of_check (by decide), hstem⟩,
      ⟨isKey_of_check (by decide), legible_truth s.logging.debug⟩,
      ⟨isKey_of_check (by decide), legible_truth s.logging.console⟩,
      ⟨isKey_of_check (by decide), legible_truth s.logging.json⟩, trivial⟩

/-- A layer of whole sections over nothing. -/
theorem ofLayers?_sections {a b c : List (String × Value)}
    (ha : Value.merge .nothing (.table a) = .table a)
    (hb : Value.merge .nothing (.table b) = .table b)
    (hc : Value.merge .nothing (.table c) = .table c) :
    ofLayers? [[("server", .table a), ("steam", .table b), ("logging", .table c)], []] =
      ofValue? (.table [("server", .table a), ("steam", .table b), ("logging", .table c)]) := by
  have hname : ∀ name ∈ ["server", "steam", "logging"], Path.ofText name = ⟨name, []⟩ := by
    decide +kernel
  have hset : ∀ (name : String) (v : Value) (ms : List (String × Value)),
      (⟨name, []⟩ : Path).set v (.table ms) =
        .table (Value.changeMember name (fun old => old.merge v) ms) := fun _ _ _ => rfl
  simp only [ofLayers?, Layer.apply, List.foldl_cons, List.foldl_nil, hname "server" (by decide),
    hname "steam" (by decide), hname "logging" (by decide), hset, Value.changeMember,
    String.reduceEq, if_false, ha, hb, hc]

/-! ### What survives -/

/-- The reader takes no text for a number that the writer takes for a text, and the numbers fit in
63 bits or are among those that floating-point numbers hold. -/
structure Survives (s : Settings) : Prop where
  texts : ∀ t ∈ s.texts, formOf t = .plain → Scalar.ofPlain t = .text t
  numbers : ∀ n ∈ s.numbers,
    n.toNat < 2 ^ 63 ∨ Value.nearestNatural (.ofNat .double n.toNat) = n.toNat

/-- The instance is named because there are others, which go through all numbers there are. -/
instance (s : Settings) : Decidable s.Survives :=
  have : Decidable (∀ n ∈ s.numbers,
      n.toNat < 2 ^ 63 ∨ Value.nearestNatural (.ofNat .double n.toNat) = n.toNat) :=
    List.decidableBAll _ _
  decidable_of_iff ((∀ t ∈ s.texts, formOf t = .plain → Scalar.ofPlain t = .text t) ∧
      ∀ n ∈ s.numbers,
        n.toNat < 2 ^ 63 ∨ Value.nearestNatural (.ofNat .double n.toNat) = n.toNat)
    ⟨fun h => ⟨h.1, h.2⟩, fun h => ⟨h.texts, h.numbers⟩⟩

theorem ofNat_rereadNumber_eq_iff {n : UInt64} : UInt64.ofNat (rereadNumber n.toNat) = n ↔
    n.toNat < 2 ^ 63 ∨ Value.nearestNatural (.ofNat .double n.toNat) = n.toNat := by
  have hlt := rereadNumber_lt n
  have heq : UInt64.ofNat (rereadNumber n.toNat) = n ↔ rereadNumber n.toNat = n.toNat := by
    rw [← UInt64.toNat_inj, UInt64.toNat_ofNat_of_lt' hlt]
  rw [heq, rereadNumber]
  by_cases h : n.toNat < 2 ^ 63
  · simp only [h, if_true, true_or]
  · simp only [h, if_false, false_or]

theorem map_eq_self_iff {α : Type} {f : α → α} {xs : List α} :
    xs.map f = xs ↔ ∀ x ∈ xs, f x = x := by
  induction xs with
  | nil => simp
  | cons x xs ih => rw [List.map_cons, List.cons.injEq, ih, List.forall_mem_cons]

theorem reread_eq_iff {s : Settings} : s.reread = s ↔ s.Survives := by
  have htexts : s.reread = s ↔ (∀ t ∈ s.texts, rereadText t = t) ∧
      ∀ n ∈ s.numbers, UInt64.ofNat (rereadNumber n.toNat) = n := by
    obtain ⟨⟨address, connections, size⟩, ⟨app, tags, interval, snapshot⟩,
      ⟨directory, stem, debug, console, json⟩⟩ := s
    have hsnapshot : snapshot.map rereadText = snapshot ↔
        ∀ t ∈ snapshot.toList, rereadText t = t := by
      cases snapshot <;> simp
    simp only [reread, Server.reread, Steam.reread, Logging.reread, Settings.mk.injEq,
      Server.mk.injEq, Steam.mk.injEq, Logging.mk.injEq, texts, numbers, List.forall_mem_cons,
      List.forall_mem_append, map_eq_self_iff, hsnapshot, List.not_mem_nil, false_imp_iff,
      implies_true, true_and, and_true]
    tauto
  simp only [htexts, rereadText_eq_iff, ofNat_rereadNumber_eq_iff]
  exact ⟨fun h => ⟨h.1, h.2⟩, fun h => ⟨h.texts, h.numbers⟩⟩

namespace Store

/-- What is saved has no byte order mark, and its bytes are those of a text. -/
theorem decodeLossy_documentText (s : Settings) :
    Utf8.decodeLossy (Layer.dropMark (Utf8.ofString s.documentText)) = s.documentText.toList := by
  obtain ⟨rest, hrest⟩ : ∃ rest, s.documentText.toList = 's' :: rest := ⟨_, String.toList_ofList⟩
  have hmark : Layer.dropMark (Utf8.ofString s.documentText) = Utf8.ofString s.documentText := by
    rw [Utf8.ofString, hrest]
    rfl
  rw [hmark, Utf8.ofString, Utf8.decodeLossy_encode]

/-- The file of saved settings can be loaded, and everything in it comes back by itself. -/
theorem load_saved (store : Store) {s : Settings} (h : ∀ t ∈ s.texts, KeepsLines t) :
    store.load (.file (Utf8.ofString s.documentText)) [] = .ok s.reread := by
  obtain ⟨server, hserver, hserver_read⟩ := exists_server s.server
  obtain ⟨steam, hsteam, hsteam_read⟩ := exists_steam s.steam
  obtain ⟨logging, hlogging, hlogging_read⟩ := exists_logging s.logging
  have hlayer : fileLayer? (.file (Utf8.ofString s.documentText)) =
      some [("server", .table server), ("steam", .table steam), ("logging", .table logging)] := by
    have hdocuments : Yaml.documents .modern s.documentText.toList = _ :=
      Yaml.documents_documentText (List.cons_ne_nil _ _) (arePairs_tree h)
    have hnode := ofNode?_mapping
      (.cons (isReadAs_of_value (by decide) hserver.read)
        (.cons (isReadAs_of_value (by decide) hsteam.read)
          (.cons (isReadAs_of_value (by decide) hlogging.read) .nil)))
      (show ["server", "steam", "logging"].Nodup by decide)
    rw [fileLayer?, Layer.ofFile?, decodeLossy_documentText, hdocuments]
    dsimp only
    rw [Layer.ofNode?, hnode]
  have hvalue : ofValue? (.table [("server", .table server), ("steam", .table steam),
      ("logging", .table logging)]) = some s.reread := by
    simp [ofValue?, fields?_table, field?_some, Value.lookup_cons_eq, hserver_read, hsteam_read,
      hlogging_read, reread]
  have hlayers := ofLayers?_sections hserver.merge hsteam.merge hlogging.merge
  rw [hvalue] at hlayers
  rw [load, loadIn, hlayer]
  dsimp only [id]
  rw [show Layer.ofEnvironment [] = [] from rfl, hlayers]

/-- **Saved settings are loaded again.** The file that settings leave behind can always be loaded,
and what is loaded are the settings themselves if and only if no text is taken for a number and
every number can be kept. No text may have line separators in single quotes or in a block. -/
theorem load_after_save (store : Store) {place place' : Place} {s : Settings}
    (hlines : ∀ t ∈ s.texts, KeepsLines t) (hsave : store.save place s = .ok place') :
    store.load place' [] = .ok s.reread ∧ (store.load place' [] = .ok s ↔ s.Survives) := by
  obtain rfl : .file (Utf8.ofString s.documentText) = place' := by
    cases place with
    | absent | file contents => exact Except.ok.inj hsave
    | directory | blocked => exact absurd hsave nofun
  have hload := store.load_saved hlines
  refine ⟨hload, ?_⟩
  rw [hload, Except.ok.injEq, reread_eq_iff]

/-- Settings that are written in every form there is. -/
def unusual : Settings where
  server := ⟨"::1 # loopback", 9223372036854775808, 0⟩
  steam := ⟨1, ["", "true", "007", "it's", "\t", "- x: y"], 18446744073709551615, some "a\n b\n\n"⟩
  logging := ⟨"null", "steam proxy", true, false, true⟩

/-- They survive. -/
theorem load_after_save_unusual :
    (∀ t ∈ unusual.texts, KeepsLines t) ∧
      ((⟨"."⟩ : Store).save .absent unusual = .ok (.file (Utf8.ofString unusual.documentText))) ∧
      (⟨"."⟩ : Store).load (.file (Utf8.ofString unusual.documentText)) [] = .ok unusual := by
  have hlines : ∀ t ∈ unusual.texts, KeepsLines t := by decide +kernel
  have hsave : (⟨"."⟩ : Store).save .absent unusual =
      .ok (.file (Utf8.ofString unusual.documentText)) := rfl
  have hsurvives : unusual.Survives := by decide +kernel
  exact ⟨hlines, hsave, (load_after_save ⟨"."⟩ hlines hsave).2.mpr hsurvives⟩

/-- A text that reads as a number, and a number between two that floating-point numbers hold. -/
def misread : Settings :=
  ⟨{ Server.default with maxConnections := 9223372036854775809 }, .default,
    { Logging.default with fileStem := "1e400" }⟩

/-- A text with a line separator. -/
def separated : Settings :=
  ⟨.default, .default, { Logging.default with fileStem := "a\u2028b" }⟩

theorem bind_save (store : Store) (s : Settings) :
    (store.save .absent s).bind (fun place => store.load place []) =
      store.load (.file (Utf8.ofString s.documentText)) [] := by
  simp only [save, Except.bind]

/-- What comes back is a word, the number in front, and blanks behind the separator. -/
theorem load_after_save_changed :
    ((⟨"."⟩ : Store).save .absent misread).bind (fun place => (⟨"."⟩ : Store).load place []) =
        .ok ⟨{ Server.default with maxConnections := 9223372036854775808 }, .default,
          { Logging.default with fileStem := "inf" }⟩ ∧
      ((⟨"."⟩ : Store).save .absent separated).bind (fun place => (⟨"."⟩ : Store).load place []) =
        .ok ⟨.default, .default, { Logging.default with fileStem := "a\u2028    b" }⟩ := by
  constructor
  · have hlines : ∀ t ∈ misread.texts, KeepsLines t := by decide +kernel
    have hreread : misread.reread = ⟨{ Server.default with maxConnections := 9223372036854775808 },
        .default, { Logging.default with fileStem := "inf" }⟩ := by decide +kernel
    rw [bind_save, load_saved ⟨"."⟩ hlines, hreread]
  · have htext : separated.documentText.toList = Yaml.pairsChars 0
        [("server", separated.server.tree), ("steam", separated.steam.tree),
          ("logging", separated.logging.tree)] := String.toList_ofList
    rewrite [bind_save, load, loadIn, fileLayer?, Layer.ofFile?, decodeLossy_documentText, htext]
    decide +kernel

end Store

end Settings

end PlatformProxy
