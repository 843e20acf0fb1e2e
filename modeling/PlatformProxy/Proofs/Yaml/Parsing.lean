import PlatformProxy.Proofs.Yaml.Scanning
import PlatformProxy.Yaml.Node

/-!
# The node of a written document

The tokens of a value are read to the node of the value, again by following the tree that is
written. Reading has fuel, of which a value takes no more than it has tokens. Behind the value
there must be no dash, which a sequence without brackets would take for one more entry.

## Main definitions

* `Yaml.valueNode`, `Yaml.pairsNodes` — the nodes of values and pairs

## Main results

* `Yaml.Parse.run_value`, `Yaml.Parse.run_pairs` — the tokens of values and pairs are read
* `Yaml.documents_documentText` — what is written as a document is read as one mapping
-/

namespace PlatformProxy

namespace Yaml

/-- A text that is a value, as a node. -/
def textNode (s : String) : Node := .scalar s (formOf s).style none

mutual

/-- The node of a value. -/
def valueNode : Tree → Node
  | .word s => .scalar s .plain none
  | .text s => textNode s
  | .sequence items => .sequence (items.map textNode) none
  | .mapping pairs => .mapping (pairsNodes pairs) none

/-- The nodes of the pairs of a mapping. -/
def pairsNodes : List (String × Tree) → List (Node × Node)
  | [] => []
  | p :: rest => pairNodes p :: pairsNodes rest

def pairNodes : String × Tree → Node × Node
  | (key, value) => (.scalar key .plain none, valueNode value)

end

namespace Parser

/-- Without directives and anchors only the tokens that are left count. -/
def before (ts : List Token) : Parser := ⟨.modern, ts, [], [], []⟩

end Parser

/-- A value does not begin like the end of one. -/
theorem exists_valueTokens (v : Tree) :
    ∃ t ts, valueTokens v = t :: ts ∧ Parse.endsBlockNode t = false := by
  rcases v with w | t | (_ | ⟨item, items⟩) | pairs <;> exact ⟨_, _, rfl, rfl⟩

namespace Parse

variable {fuel : Nat} {block indentless : Bool} {ts : List Token}

theorem run_node_scalar (text : List Char) (style : Style) :
    (node (fuel + 1) block indentless).run (.before (.scalar text style :: ts)) =
      .ok (.scalar (String.ofList text) style none, .before ts) := rfl

theorem run_node_text (s : String) :
    (node (fuel + 1) block indentless).run (.before (textToken s :: ts)) =
      .ok (textNode s, .before ts) := by
  rw [textToken, run_node_scalar, String.ofList_toList, textNode]

theorem run_node_mapping :
    (node (fuel + 1) true indentless).run (.before (.blockMappingStart :: ts)) =
      (blockPairs fuel []).run (.before ts) >>= fun x => .ok (.mapping x.1 none, x.2) := rfl

theorem run_node_entries :
    (node (fuel + 1) true true).run (.before (.blockEntry :: ts)) =
      (indentlessItems fuel []).run (.before (.blockEntry :: ts)) >>=
        fun x => .ok (.sequence x.1 none, x.2) := rfl

theorem run_take_of_ne {t : Token} (h : ts.headD .streamEnd ≠ t) :
    (take t).run (.before ts) = .ok (false, .before ts) := by
  have hpeek : peek.run (.before ts) = .ok (ts.headD .streamEnd, .before ts) := rfl
  simp only [take, StateT.run_bind, hpeek, Scan.ok_bind, h, if_false]
  rfl

theorem run_entries_cons (item : String) (acc : List Node) :
    (indentlessItems (fuel + 2) acc).run (.before (.blockEntry :: textToken item :: ts)) =
      (node (fuel + 1) true false).run (.before (textToken item :: ts)) >>= fun x =>
        (indentlessItems (fuel + 1) (x.1 :: acc)).run x.2 := rfl

theorem length_entries (items : List String) :
    (items.flatMap fun s => [.blockEntry, textToken s]).length = 2 * items.length := by
  induction items with
  | nil => rfl
  | cons item items ih =>
    simp only [List.flatMap_cons, List.length_append, List.length_cons, List.length_nil, ih]
    omega

theorem run_entries (items : List String) (acc : List Node) (hfuel : items.length + 1 ≤ fuel)
    (hrest : ts.headD .streamEnd ≠ .blockEntry) :
    (indentlessItems fuel acc).run
        (.before ((items.flatMap fun s => [.blockEntry, textToken s]) ++ ts)) =
      .ok (acc.reverse ++ items.map textNode, .before ts) := by
  induction items generalizing fuel acc with
  | nil =>
    obtain ⟨fuel, rfl⟩ := Nat.exists_eq_succ_of_ne_zero (Nat.ne_of_gt hfuel)
    simp only [List.flatMap_nil, List.nil_append, indentlessItems, StateT.run_bind,
      run_take_of_ne hrest, List.map_nil, List.append_nil]
    rfl
  | cons item items ih =>
    rw [List.length_cons] at hfuel
    obtain ⟨fuel, rfl⟩ : ∃ n, fuel = n + 2 := ⟨fuel - 2, by omega⟩
    have hih := ih (textNode item :: acc) (show items.length + 1 ≤ fuel + 1 by omega)
    rw [List.reverse_cons, List.append_assoc] at hih
    rw [List.flatMap_cons, List.append_assoc]
    exact (run_entries_cons item acc).trans (by rw [run_node_text]; exact hih)

theorem run_blockPairs_end (acc : List (Node × Node)) :
    (blockPairs (fuel + 1) acc).run (.before (.blockEnd :: ts)) = .ok (acc.reverse, .before ts) :=
  rfl

/-- A key and what stands behind its colon. -/
theorem run_blockPairs_key {key : List Char} {t : Token} (acc : List (Node × Node))
    (ht : endsBlockNode t = false) :
    (blockPairs (fuel + 2) acc).run
        (.before (.key :: .scalar key .plain :: .value :: t :: ts)) =
      (node (fuel + 1) true true).run (.before (t :: ts)) >>= fun x =>
        (blockPairs (fuel + 1)
          ((.scalar (String.ofList key) .plain none, x.1) :: acc)).run x.2 := by
  have hrun : (blockPairs (fuel + 2) acc).run
      (.before (.key :: .scalar key .plain :: .value :: t :: ts)) =
    (if endsBlockNode t then pure .empty else node (fuel + 1) true true).run (.before (t :: ts)) >>=
      fun x => (blockPairs (fuel + 1)
        ((.scalar (String.ofList key) .plain none, x.1) :: acc)).run x.2 := rfl
  rw [hrun, ht, if_neg Bool.false_ne_true]

theorem headD_pairsTokens (pairs : List (String × Tree)) (ts : List Token) :
    (pairsTokens pairs ++ .blockEnd :: ts).headD .streamEnd ≠ .blockEntry := by
  rcases pairs with _ | ⟨⟨key, value⟩, rest⟩ <;> exact nofun

mutual

theorem run_value {fuel : Nat} {ts : List Token} (v : Tree)
    (hfuel : (valueTokens v).length < fuel) (hrest : ts.headD .streamEnd ≠ .blockEntry) :
    (node fuel true true).run (.before (valueTokens v ++ ts)) = .ok (valueNode v, .before ts) := by
  obtain ⟨fuel, rfl⟩ := Nat.exists_eq_succ_of_ne_zero (Nat.ne_of_gt (Nat.zero_lt_of_lt hfuel))
  cases v with
  | word w =>
    have hscalar : (node (fuel + 1) true true).run (.before (.scalar w.toList .plain :: ts)) =
        .ok (.scalar (String.ofList w.toList) .plain none, .before ts) :=
      run_node_scalar w.toList .plain
    rwa [String.ofList_toList] at hscalar
  | text t => exact run_node_text t
  | sequence items =>
    cases items with
    | nil =>
      obtain ⟨fuel, rfl⟩ := Nat.exists_eq_succ_of_ne_zero
        (Nat.ne_of_gt (Nat.zero_lt_of_lt (Nat.lt_of_succ_lt_succ hfuel)))
      rfl
    | cons item items =>
      rw [valueTokens, length_entries, List.length_cons] at hfuel
      rotate_left
      · exact nofun
      have hlength : (item :: items).length + 1 ≤ fuel := by
        rw [List.length_cons]
        omega
      let behind := textToken item :: ((items.flatMap fun s => [.blockEntry, textToken s]) ++ ts)
      have hentries : (indentlessItems fuel []).run (.before (.blockEntry :: behind)) =
          .ok ((item :: items).map textNode, .before ts) :=
        run_entries (item :: items) [] hlength hrest
      have hrun : (node (fuel + 1) true true).run (.before (.blockEntry :: behind)) =
          .ok (valueNode (.sequence (item :: items)), .before ts) := by
        rw [run_node_entries, hentries]
        rfl
      exact hrun
  | mapping pairs =>
    simp only [valueTokens, List.length_append, List.length_cons] at hfuel
    rw [valueTokens, List.append_assoc, List.cons_append, List.singleton_append, run_node_mapping,
      run_pairs pairs [] (by omega)]
    rfl

theorem run_pairs {fuel : Nat} {ts : List Token} (pairs : List (String × Tree))
    (acc : List (Node × Node)) (hfuel : (pairsTokens pairs).length < fuel) :
    (blockPairs fuel acc).run (.before (pairsTokens pairs ++ .blockEnd :: ts)) =
      .ok (acc.reverse ++ pairsNodes pairs, .before ts) := by
  cases pairs with
  | nil =>
    obtain ⟨fuel, rfl⟩ := Nat.exists_eq_succ_of_ne_zero (Nat.ne_of_gt (Nat.zero_lt_of_lt hfuel))
    rw [pairsNodes, List.append_nil]
    exact run_blockPairs_end acc
  | cons p rest =>
    have hpair : 0 < (pairTokens p).length := by
      obtain ⟨key, value⟩ := p
      exact Nat.succ_pos _
    rw [pairsTokens, List.length_append] at hfuel
    obtain ⟨fuel, rfl⟩ := Nat.exists_eq_succ_of_ne_zero (Nat.ne_of_gt (Nat.zero_lt_of_lt hfuel))
    rw [pairsTokens, List.append_assoc, run_pair p acc (by omega) (headD_pairsTokens rest ts),
      run_pairs rest _ (by omega), pairsNodes, List.reverse_cons, List.append_assoc]
    rfl

theorem run_pair {fuel : Nat} {ts : List Token} (p : String × Tree) (acc : List (Node × Node))
    (hfuel : (pairTokens p).length ≤ fuel) (hrest : ts.headD .streamEnd ≠ .blockEntry) :
    (blockPairs (fuel + 1) acc).run (.before (pairTokens p ++ ts)) =
      (blockPairs fuel (pairNodes p :: acc)).run (.before ts) := by
  obtain ⟨key, value⟩ := p
  obtain ⟨t, behind, hvalue, ht⟩ := exists_valueTokens value
  rw [pairTokens, List.length_cons, List.length_cons, List.length_cons] at hfuel
  obtain ⟨fuel, rfl⟩ : ∃ n, fuel = n + 1 := ⟨fuel - 1, by omega⟩
  have hrun := run_value value (show (valueTokens value).length < fuel + 1 by omega) hrest
  rw [hvalue, List.cons_append] at hrun
  simp only [pairTokens, hvalue, List.cons_append]
  rw [run_blockPairs_key acc ht, hrun, String.ofList_toList]
  rfl

end

/-- A mapping in front of the end of the text is the only document. -/
theorem run_documents (count : Nat) {pairs : List (Node × Node)}
    (hpairs : (blockPairs fuel []).run (.before ts) = .ok (pairs, .before [.streamEnd])) :
    (documents (fuel + 1) (count + 2) true []).run (.before (.blockMappingStart :: ts)) =
      .ok ([.mapping pairs none], .before [.streamEnd]) := by
  have hrun : (documents (fuel + 1) (count + 2) true []).run (.before (.blockMappingStart :: ts)) =
      (node (fuel + 1) true false).run (.before (.blockMappingStart :: ts)) >>= fun x =>
        (documents (fuel + 1) (count + 1) false [x.1]).run x.2 := rfl
  rw [hrun, run_node_mapping, hpairs]
  rfl

end Parse

/-- What is written as a document is read as one mapping. -/
theorem documents_documentText {pairs : List (String × Tree)} (hne : pairs ≠ [])
    (h : ArePairs pairs) :
    documents .modern (Tree.documentText pairs).toList =
      .ok [.mapping (pairsNodes pairs) none] := by
  have htokens := tokenize_documentText hne h
  generalize hall : .blockMappingStart :: pairsTokens pairs ++ [Token.blockEnd, .streamEnd] = ts
    at htokens
  have hlength : ts.length = (pairsTokens pairs).length + 3 := by
    rw [← hall, List.length_append, List.length_cons]
    rfl
  have hpairs : (Parse.blockPairs (4 * ts.length + 7) []).run
      (.before (pairsTokens pairs ++ [.blockEnd, .streamEnd])) =
      .ok (pairsNodes pairs, .before [.streamEnd]) :=
    Parse.run_pairs pairs [] (by omega)
  have hrun : (Parse.documents (4 * ts.length + 8) (4 * ts.length + 8) true []).run
      ⟨.modern, ts, [], [], []⟩ =
      .ok ([.mapping (pairsNodes pairs) none], .before [.streamEnd]) := by
    have hrun := Parse.run_documents (4 * ts.length + 6) hpairs
    rwa [← List.cons_append, hall] at hrun
  simp only [documents, htokens, hrun]

end Yaml

end PlatformProxy
