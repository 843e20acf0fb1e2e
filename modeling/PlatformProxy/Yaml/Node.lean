import PlatformProxy.Yaml.Tokens

/-!
# YAML documents

The tokens of a text are put together to documents, each a tree of scalars, sequences and
mappings. An alias stands for a copy of the node with its anchor.

## Main definitions

* `Yaml.Tag`, `Yaml.Node` — a node of a document
* `Yaml.documents` — the documents of a text

## Implementation notes

An alias of a node that is not complete yet has no finite tree. It becomes `Node.cyclic`, which
no reader of values accepts.
-/

namespace PlatformProxy

namespace Yaml

/-- A tag: what its handle stands for, and the rest. -/
structure Tag where
  stem : String
  suffix : String
  deriving DecidableEq, Repr

namespace Tag

/-- The complete name of a tag. -/
def name (t : Tag) : String := t.stem ++ t.suffix

/-- What the tags of the language itself begin with. -/
def coreStem : String := "tag:yaml.org,2002:"

end Tag

/-- A node of a document. A mapping keeps all its pairs in order. -/
inductive Node
  | scalar (text : String) (style : Style) (tag : Option Tag)
  | sequence (items : List Node) (tag : Option Tag)
  | mapping (pairs : List (Node × Node)) (tag : Option Tag)
  | cyclic
  deriving Repr, Inhabited

namespace Node

/-- A node that is not written. -/
def empty : Node := scalar "" .plain none

end Node

/-! ### The state -/

structure Parser where
  dialect : Dialect
  tokens : List Token
  /-- The stems that tag handles stand for. -/
  handles : List (List Char × List Char)
  /-- Anchors, each with its slot, the latest first. -/
  anchors : List (List Char × Nat)
  /-- The slots in the order of their anchors' nodes, the latest first; a node is there once it is
  complete. -/
  slots : List (Nat × Option Node)

abbrev Parse (α : Type) : Type := StateT Parser (Except Fault) α

namespace Parse

def fail {α : Type} (problem : String) : Parse α := throw ⟨problem, 0⟩

def peek : Parse Token := do pure ((← get).tokens.headD .streamEnd)

def skip : Parse Unit := modify fun s => { s with tokens := s.tokens.tail }

/-- Take the next token if it is a given one. -/
def take (t : Token) : Parse Bool := do
  if (← peek) = t then
    skip
    pure true
  else pure false

def next : Parse Token := do
  let t ← peek
  skip
  pure t

/-! ### Properties -/

/-- Look up the handle of a tag. -/
def resolveTag (t : TagToken) : Parse Tag := do
  let suffix := String.ofList t.suffix
  if t.handle = [] then pure ⟨"", suffix⟩
  else
    match (← get).handles.find? fun h => h.1 = t.handle with
    | some (_, stem) => pure ⟨String.ofList stem, suffix⟩
    | none =>
      if t.handle = ['!', '!'] then pure ⟨Tag.coreStem, suffix⟩
      else if t.handle = ['!'] then pure ⟨"!", suffix⟩
      else fail "undefined tag handle"

/-- An anchor and a tag, in either order, each at most once. -/
def properties : Parse (Option (List Char) × Option TagToken) := do
  match ← peek with
  | .anchor name =>
    skip
    match ← peek with
    | .tag t =>
      skip
      pure (some name, some t)
    | _ => pure (some name, none)
  | .tag t =>
    skip
    match ← peek with
    | .anchor name =>
      skip
      pure (some name, some t)
    | _ => pure (none, some t)
  | _ => pure (none, none)

/-- The slot of the next anchor. In the first dialect names are counted, so that an anchor whose
name was there before shares its slot with the next new one. -/
def nextSlot (s : Parser) : Nat :=
  match s.dialect with
  | .classic => (s.anchors.map Prod.fst).eraseDups.length
  | .modern => s.anchors.length

/-- Begin the node of an anchor; how many were begun before it. -/
def openAnchor (name : Option (List Char)) : Parse (Option Nat) := do
  match name with
  | none => pure none
  | some name =>
    let s ← get
    let slot := nextSlot s
    set { s with anchors := (name, slot) :: s.anchors, slots := (slot, none) :: s.slots }
    pure (some s.slots.length)

/-- Keep the complete node of an anchor. -/
def closeAnchor (begun : Option Nat) (n : Node) : Parse Node := do
  match begun with
  | none => pure n
  | some begun =>
    modify fun s =>
      { s with slots := s.slots.modify (s.slots.length - 1 - begun) fun e => (e.1, some n) }
    pure n

def referenced (name : List Char) : Parse Node := do
  let s ← get
  match s.anchors.find? fun a => a.1 = name with
  | none => fail "unknown anchor"
  | some (_, slot) =>
    pure (((s.slots.find? fun e => e.1 = slot).bind Prod.snd).getD .cyclic)

/-! ### Nodes -/

/-- Whether nothing is written for a node before the given token of a block. -/
def endsBlockNode (t : Token) : Bool :=
  t = .key || t = .value || t = .blockEnd

mutual

/-- A node. Within brackets there are no blocks; the value of a mapping may be a sequence that is
not indented further. -/
def node : (fuel : Nat) → (block indentless : Bool) → Parse Node
  | 0, _, _ => fail "nested too deeply"
  | fuel + 1, block, indentless => do
    match ← peek with
    | .reference name =>
      skip
      referenced name
    | _ =>
      let (anchor, tagToken) ← properties
      let tag ← match tagToken with
        | none => pure none
        | some t => some <$> resolveTag t
      let begun ← openAnchor anchor
      let t ← peek
      let n ← match t with
        | .blockEntry =>
          if indentless then do pure (.sequence (← indentlessItems fuel []) tag)
          else if anchor.isSome || tag.isSome then pure (.scalar "" .plain tag)
          else fail "expected a node"
        | .scalar text style => do
          skip
          pure (.scalar (String.ofList text) style tag)
        | .flowSequenceStart => do
          skip
          pure (.sequence (← flowItems fuel true []) tag)
        | .flowMappingStart => do
          skip
          pure (.mapping (← flowPairs fuel true []) tag)
        | t =>
          if t = .blockSequenceStart ∧ block then do
            skip
            pure (.sequence (← blockItems fuel []) tag)
          else if t = .blockMappingStart ∧ block then do
            skip
            pure (.mapping (← blockPairs fuel []) tag)
          else if anchor.isSome || tag.isSome then pure (.scalar "" .plain tag)
          else fail "expected a node"
      closeAnchor begun n

/-- The items of a block sequence up to its end. -/
def blockItems : (fuel : Nat) → List Node → Parse (List Node)
  | 0, _ => fail "nested too deeply"
  | fuel + 1, acc => do
    match ← next with
    | .blockEnd => pure acc.reverse
    | .blockEntry =>
      let t ← peek
      let item ← if t = .blockEntry ∨ t = .blockEnd then pure .empty else node fuel true false
      blockItems fuel (item :: acc)
    | _ => fail "expected '-'"

/-- The items of a block sequence that is not indented. -/
def indentlessItems : (fuel : Nat) → List Node → Parse (List Node)
  | 0, _ => fail "nested too deeply"
  | fuel + 1, acc => do
    if ← take .blockEntry then
      let t ← peek
      let item ←
        if t = .blockEntry || endsBlockNode t then pure .empty else node fuel true false
      indentlessItems fuel (item :: acc)
    else pure acc.reverse

/-- The pairs of a block mapping up to its end. -/
def blockPairs : (fuel : Nat) → List (Node × Node) → Parse (List (Node × Node))
  | 0, _ => fail "nested too deeply"
  | fuel + 1, acc => do
    let t ← peek
    if t = .blockEnd then
      skip
      pure acc.reverse
    else if t = .key ∨ (t = .value ∧ (← get).dialect = .modern) then
      let key ← (do
        if ← take .key then
          if endsBlockNode (← peek) then pure .empty else node fuel true true
        else pure .empty)
      let value ← (do
        if ← take .value then
          if endsBlockNode (← peek) then pure .empty else node fuel true true
        else pure .empty)
      blockPairs fuel ((key, value) :: acc)
    else fail "expected a key"

/-- The items of a bracketed sequence up to its end. A pair among them is a mapping of its own. -/
def flowItems : (fuel : Nat) → (first : Bool) → List Node → Parse (List Node)
  | 0, _, _ => fail "nested too deeply"
  | fuel + 1, first, acc => do
    if ← take .flowSequenceEnd then pure acc.reverse
    else
      if !first then
        if !(← take .flowEntry) then fail "expected ',' or ']'"
      if ← take .key then
        let t ← peek
        let key ← if t = .value ∨ t = .flowEntry ∨ t = .flowSequenceEnd then pure .empty
          else node fuel false false
        let value ← (do
          if ← take .value then
            let t ← peek
            if t = .flowEntry ∨ t = .flowSequenceEnd then pure .empty else node fuel false false
          else pure .empty)
        flowItems fuel false (.mapping [(key, value)] none :: acc)
      else if ← take .flowSequenceEnd then pure acc.reverse
      else
        let item ← node fuel false false
        flowItems fuel false (item :: acc)

/-- The pairs of a bracketed mapping up to its end. A key may be there without a value. -/
def flowPairs : (fuel : Nat) → (first : Bool) → List (Node × Node) →
    Parse (List (Node × Node))
  | 0, _, _ => fail "nested too deeply"
  | fuel + 1, first, acc => do
    if ← take .flowMappingEnd then pure acc.reverse
    else
      if !first then
        if !(← take .flowEntry) then fail "expected ',' or '\x7d'"
      let isKey ← take .key
      let t ← peek
      if isKey ∨ (t = .value ∧ (← get).dialect = .modern) then
        let key ← if t = .value ∨ t = .flowEntry ∨ t = .flowMappingEnd then pure .empty
          else node fuel false false
        let value ← (do
          if ← take .value then
            let t ← peek
            if t = .flowEntry ∨ t = .flowMappingEnd then pure .empty else node fuel false false
          else pure .empty)
        flowPairs fuel false ((key, value) :: acc)
      else if ← take .flowMappingEnd then pure acc.reverse
      else
        let key ← node fuel false false
        flowPairs fuel false ((key, .empty) :: acc)

end

/-! ### Documents -/

/-- Directives in front of a document; whether there were any. -/
def directives : (fuel : Nat) → (seenVersion : Bool) → Parse Bool
  | 0, _ => fail "nested too deeply"
  | fuel + 1, seenVersion => do
    match ← peek with
    | .versionDirective major minor =>
      if seenVersion then fail "a second version directive"
      if (← get).dialect = .classic ∧ (major ≠ 1 ∨ (minor ≠ 1 ∧ minor ≠ 2)) then
        fail "incompatible version"
      skip
      let _ ← directives fuel true
      pure true
    | .tagDirective handle stem =>
      if (← get).handles.any (fun h => h.1 = handle) ∧ handle ≠ [] then
        fail "a second directive for a tag handle"
      modify fun s => { s with handles := (handle, stem) :: s.handles }
      skip
      let _ ← directives fuel seenVersion
      pure true
    | _ => pure false

/-- Whether a document without contents ends here. -/
def endsDocument : Token → Bool
  | .versionDirective _ _ | .tagDirective _ _ | .documentStart | .documentEnd | .streamEnd => true
  | _ => false

/-- The documents up to the end of the text. Only the first may begin without a marker. -/
def documents (fuel : Nat) : (count : Nat) → (first : Bool) → List Node → Parse (List Node)
  | 0, _, _ => fail "too many documents"
  | count + 1, first, acc => do
    let t ← peek
    if t = .documentEnd then
      if first ∧ (← get).dialect = .classic then fail "expected a document"
      skip
      documents fuel count first acc
    else if t = .streamEnd then pure acc.reverse
    else
      modify fun s => { s with handles := [], anchors := [], slots := [] }
      let hasDirectives ← directives fuel false
      let root ← (do
        if ← take .documentStart then
          if endsDocument (← peek) then pure .empty else node fuel true false
        else if first ∧ !hasDirectives then node fuel true false
        else fail "expected the start of a document")
      documents fuel count false (root :: acc)

end Parse

/-- The documents of a text. -/
def documents (dialect : Dialect) (text : List Char) : Except Fault (List Node) :=
  match tokenize dialect text with
  | .error f => .error f
  | .ok tokens =>
    let fuel := 4 * tokens.length + 8
    match (Parse.documents fuel fuel true []).run ⟨dialect, tokens, [], [], []⟩ with
    | .error f => .error f
    | .ok (docs, _) => .ok docs

end Yaml

end PlatformProxy
