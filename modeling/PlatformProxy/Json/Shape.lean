import PlatformProxy.Json.Reader

/-!
# Types of JSON values

The values the proxy exchanges are of a handful of types, built from a few kinds of scalars, lists
and records. A `Shape` describes such a type; from it come the values of the type, the JSON that
stands for a value, and two readers: one from a JSON value, one straight from a text. The two
differ in what they report and in the treatment of repeated names, which a JSON value cannot have.

## Main definitions

* `Json.Shape`, `Json.Fields` — descriptions of types
* `Json.Shape.Value` — the values of a shape
* `Json.Shape.ofJson` — the value a JSON value stands for
* `Json.Shape.read` — the value at the front of some bytes
* `Json.Shape.toJson` — the JSON value of a value
* `Json.Shape.chars` — its text, with fields in the order of their declaration

## Implementation notes

A field that need not be there holds an optional value. Optional fields without a value are left
out when a record is written.
-/

namespace PlatformProxy

namespace Json

/-! ### Integers -/

/-- The integer types in use. -/
inductive IntegerKind
  | int32
  | int64
  | nat32
  | nat64
  | size
  deriving DecidableEq, Repr

namespace IntegerKind

def name : IntegerKind → String
  | int32 => "i32"
  | int64 => "i64"
  | nat32 => "u32"
  | nat64 => "u64"
  | size => "usize"

abbrev Value : IntegerKind → Type
  | int32 => Int32
  | int64 => Int64
  | nat32 => UInt32
  | nat64 => UInt64
  | size => UInt64

def least : IntegerKind → Int
  | int32 => Int32.minValue.toInt
  | int64 => Int64.minValue.toInt
  | nat32 => 0
  | nat64 => 0
  | size => 0

/-- One more than the greatest value. -/
def bound : IntegerKind → Int
  | int32 => Int32.maxValue.toInt + 1
  | int64 => Int64.maxValue.toInt + 1
  | nat32 => UInt32.size
  | nat64 => UInt64.size
  | size => UInt64.size

/-- The value congruent to an integer. -/
def wrap : (k : IntegerKind) → Int → k.Value
  | int32, i => Int32.ofInt i
  | int64, i => Int64.ofInt i
  | nat32, i => UInt32.ofInt i
  | nat64, i => UInt64.ofInt i
  | size, i => UInt64.ofInt i

/-- The value equal to an integer. -/
def ofInt? (k : IntegerKind) (i : Int) : Option k.Value :=
  if k.least ≤ i ∧ i < k.bound then some (k.wrap i) else none

def toNumber : (k : IntegerKind) → k.Value → Number
  | int32, v => .ofInt32 v
  | int64, v => .ofInt64 v
  | nat32, v => .natural v.toUInt64
  | nat64, v => .natural v
  | size, v => .natural v

def ofNumber (k : IntegerKind) (n : Number) : Except Mismatch k.Value :=
  match n.toInt? with
  | none => .error (.wrongType n.found k.name)
  | some i =>
    match k.ofInt? i with
    | none => .error (.wrongValue n.found k.name)
    | some v => .ok v

end IntegerKind

namespace Number

/-- The nearest single-precision number, by way of a double unless the number is an integer. -/
def toSingle : Number → Floating .single
  | natural n => .ofNat .single n.toNat
  | negative n => .ofInt .single (-(n.val + 1 : Int))
  | real x _ => x.convert .single

end Number

/-! ### Shapes -/

mutual

/-- A type of values. -/
inductive Shape
  | any
  | text
  /-- A text that names a file or directory. -/
  | path
  | flag
  | single
  | integer (kind : IntegerKind)
  /-- Null, or a value of the item's type. -/
  | optional (item : Shape)
  | list (item : Shape)
  | record (title : String) (fields : Fields)

/-- The fields of a record, in the order of their declaration. -/
inductive Fields
  | nil
  | cons (name : String) (required : Bool) (shape : Shape) (rest : Fields)

end

mutual

/-- The values of a shape. -/
abbrev Shape.Value : Shape → Type
  | .any => Json
  | .text => String
  | .path => String
  | .flag => Bool
  | .single => Floating .single
  | .integer kind => kind.Value
  | .optional item => Option item.Value
  | .list item => List item.Value
  | .record _ fields => fields.Values

/-- The values of all fields. -/
abbrev Fields.Values : Fields → Type
  | .nil => Unit
  | .cons _ true shape rest => shape.Value × rest.Values
  | .cons _ false shape rest => Option shape.Value × rest.Values

end

namespace Fields

/-- What has been read of a record. -/
abbrev Slots : Fields → Type
  | nil => Unit
  | cons _ _ shape rest => Option shape.Value × rest.Slots

/-- Nothing has been read. -/
def empty : (fs : Fields) → fs.Slots
  | nil => ()
  | cons _ _ _ rest => (none, empty rest)

def count : Fields → Nat
  | nil => 0
  | cons _ _ _ rest => rest.count + 1

/-- The record that has been read, unless a field is missing. -/
def complete : (fs : Fields) → fs.Slots → Except Mismatch fs.Values
  | nil, () => .ok ()
  | cons name true _ rest, (slot, slots) =>
    match slot with
    | none => .error (.missingField name)
    | some v => (complete rest slots).map (v, ·)
  | cons _ false _ rest, (slot, slots) => (complete rest slots).map (slot, ·)

end Fields

namespace Shape

/-- What a shape is called where another value is found. -/
def expected : Shape → String
  | any => "any valid JSON value"
  | text => "a string"
  | path => "path string"
  | flag => "a boolean"
  | single => "f32"
  | integer kind => kind.name
  | optional _ => "option"
  | list _ => "a sequence"
  | record title _ => "struct " ++ title

end Shape

/-! ### Values from JSON values -/

/-- Apply a reader to all items. -/
def ofItems {α : Type} (item : Json → Except Mismatch α) : List Json → Except Mismatch (List α)
  | [] => .ok []
  | v :: rest => do
    let v ← item v
    let rest ← ofItems item rest
    pure (v :: rest)

/-- Gather members from left to right. -/
def ofMemberList {σ : Type} (member : σ → String → Json → Except Mismatch σ) :
    σ → List (String × Json) → Except Mismatch σ
  | acc, [] => .ok acc
  | acc, (name, v) :: rest => do
    let acc ← member acc name v
    ofMemberList member acc rest

mutual

/-- The value a JSON value stands for. -/
def Shape.ofJson : (s : Shape) → Json → Except Mismatch s.Value
  | .any, v => .ok v
  | .text, .string s => .ok s
  | .text, v => .error (.wrongType v.found Shape.text.expected)
  | .path, .string s => .ok s
  | .path, v => .error (.wrongType v.found Shape.path.expected)
  | .flag, .bool b => .ok b
  | .flag, v => .error (.wrongType v.found Shape.flag.expected)
  | .single, .number n => .ok n.toSingle
  | .single, v => .error (.wrongType v.found Shape.single.expected)
  | .integer kind, .number n => kind.ofNumber n
  | .integer kind, v => .error (.wrongType v.found (Shape.integer kind).expected)
  | .optional _, .null => .ok none
  | .optional item, v => (item.ofJson v).map some
  | .list item, .array items => ofItems item.ofJson items
  | .list item, v => .error (.wrongType v.found (Shape.list item).expected)
  | .record title fields, .array items =>
    fields.ofItems title fields.count items.length 0 items
  | .record _ fields, .object members =>
    (ofMemberList fields.ofMember fields.empty members).bind fields.complete
  | .record title fields, v => .error (.wrongType v.found (Shape.record title fields).expected)

/-- Put a member into its field; members that belong to no field do not matter. -/
def Fields.ofMember : (fs : Fields) → fs.Slots → String → Json → Except Mismatch fs.Slots
  | .nil, (), _, _ => .ok ()
  | .cons name _ shape rest, (slot, slots), key, v =>
    if key = name then
      if slot.isSome then .error (.duplicateField name)
      else (shape.ofJson v).map fun v => (some v, slots)
    else (rest.ofMember slots key v).map (slot, ·)

/-- Fields from the items of an array, of which `length` were there at the start and `index` are
used up. -/
def Fields.ofItems (title : String) (count length : Nat) :
    (fs : Fields) → (index : Nat) → List Json → Except Mismatch fs.Values
  | .nil, _, [] => .ok ()
  | .nil, _, _ :: _ => .error (.longRecord length)
  | .cons _ true _ _, index, [] => .error (.shortRecord index title count)
  | .cons _ true shape rest, index, v :: items => do
    let v ← shape.ofJson v
    let values ← rest.ofItems title count length (index + 1) items
    pure (v, values)
  | .cons _ false _ rest, index, [] => do
    let values ← rest.ofItems title count length (index + 1) []
    pure (none, values)
  | .cons _ false shape rest, index, v :: items => do
    let v ← shape.ofJson v
    let values ← rest.ofItems title count length (index + 1) items
    pure (some v, values)

end

/-! ### Values from texts -/

/-- What stands at the front of some bytes that should be something else. Arrays and objects are
not looked into. -/
def readFound : Bytes → Except Fault (Found × Bytes)
  | [] => .error (.ahead .expectedValue [])
  | b :: rest =>
    if b = byte 'n' then (readWord ['u', 'l', 'l'] rest).map (.null, ·)
    else if b = byte 't' then (readWord ['r', 'u', 'e'] rest).map (.flag true, ·)
    else if b = byte 'f' then (readWord ['a', 'l', 's', 'e'] rest).map (.flag false, ·)
    else if b = byte '-' then (readNumber true rest).map fun (n, rest) => (n.found, rest)
    else if isDigit b then (readNumber false (b :: rest)).map fun (n, rest) => (n.found, rest)
    else if b = byte '"' then (readString rest).map fun (s, rest) => (.string s, rest)
    else if b = byte '[' then .ok (.sequence, b :: rest)
    else if b = byte '\x7b' then .ok (.map, b :: rest)
    else .error (.ahead .expectedValue (b :: rest))

/-- Something else was expected. -/
def readMistyped {α : Type} (s : Shape) (input : Bytes) : Except Fault α :=
  match readFound input with
  | .error f => .error f
  | .ok (found, rest) => .error (.behind (.mistyped (.wrongType found s.expected)) rest)

/-- The first byte of a value and what follows it. -/
def firstByte (input : Bytes) : Except Fault (UInt8 × Bytes) :=
  match skipBlanks input with
  | [] => .error (.ahead .endInValue [])
  | b :: rest => .ok (b, rest)

/-- Read a number and use it. -/
def readNumeral {α : Type} (s : Shape) (use : Number → Except Mismatch α) (input : Bytes) :
    Except Fault (α × Bytes) := do
  let (b, rest) ← firstByte input
  if b = byte '-' ∨ isDigit b then
    let (n, rest) ← readNumber (b = byte '-') (if b = byte '-' then rest else b :: rest)
    match use n with
    | .ok v => pure (v, rest)
    | .error m => .error (.behind (.mistyped m) rest)
  else readMistyped s (b :: rest)

/-- Read a text. -/
def readText (s : Shape) (input : Bytes) : Except Fault (String × Bytes) := do
  let (b, rest) ← firstByte input
  if b = byte '"' then readString rest else readMistyped s (b :: rest)

/-- Read a truth value. -/
def readFlag (input : Bytes) : Except Fault (Bool × Bytes) := do
  let (b, rest) ← firstByte input
  if b = byte 't' then (readWord ['r', 'u', 'e'] rest).map (true, ·)
  else if b = byte 'f' then (readWord ['a', 'l', 's', 'e'] rest).map (false, ·)
  else readMistyped .flag (b :: rest)

/-- After a mismatch within an array its end is taken if it comes next; the mismatch is reported
where the reader stands then. -/
def afterArray (input : Bytes) : Bytes :=
  match skipBlanks input with
  | [] => []
  | b :: rest =>
    if b = byte ']' then rest else if b = byte ',' then skipBlanks rest else b :: rest

/-- The same for an object. -/
def afterObject (input : Bytes) : Bytes :=
  match skipBlanks input with
  | [] => []
  | b :: rest => if b = byte '\x7d' then rest else b :: rest

mutual

/-- Read a value off the front of some bytes, at most `depth` arrays and objects deep. -/
def Shape.read : (s : Shape) → (depth : Nat) → Bytes → Except Fault (s.Value × Bytes)
  | .any, depth, input => readValue depth input
  | .text, _, input => readText .text input
  | .path, _, input => readText .path input
  | .flag, _, input => readFlag input
  | .single, _, input => readNumeral .single (fun n => .ok n.toSingle) input
  | .integer kind, _, input => readNumeral (.integer kind) kind.ofNumber input
  | .optional item, depth, input =>
    match skipBlanks input with
    | [] => (item.read depth []).map fun (v, rest) => (some v, rest)
    | b :: rest =>
      if b = byte 'n' then (readWord ['u', 'l', 'l'] rest).map (none, ·)
      else (item.read depth (b :: rest)).map fun (v, rest) => (some v, rest)
  | .list item, depth, input => do
    let (b, rest) ← firstByte input
    if b = byte '[' then
      if depth = 0 then .error (.ahead .tooDeep (b :: rest))
      else
        let (items, rest) ← readItems (item.read (depth - 1)) (rest.length + 1) true [] rest
        let rest ← endArray rest
        pure (items, rest)
    else readMistyped (.list item) (b :: rest)
  | .record title fields, depth, input => do
    let (b, rest) ← firstByte input
    if b = byte '[' then
      if depth = 0 then .error (.ahead .tooDeep (b :: rest))
      else
        let (values, rest) ← fields.readItems title fields.count (depth - 1) 0 rest
        let rest ← endArray rest
        pure (values, rest)
    else if b = byte '\x7b' then
      if depth = 0 then .error (.ahead .tooDeep (b :: rest))
      else
        let (slots, rest) ←
          readMembers (fields.readMember (depth - 1)) (rest.length + 1) true fields.empty rest
        match fields.complete slots with
        | .error m => .error (.behind (.mistyped m) (afterObject rest))
        | .ok values =>
          let rest ← endObject rest
          pure (values, rest)
    else readMistyped (.record title fields) (b :: rest)

/-- Read a member into its field, from its colon on, or pass over it if it belongs to none. -/
def Fields.readMember : (fs : Fields) → (depth : Nat) → fs.Slots → String → Bytes →
    Except Fault (fs.Slots × Bytes)
  | .nil, _, (), _, input => ((readColon input).bind skipValue).map ((), ·)
  | .cons name _ shape rest, depth, (slot, slots), key, input =>
    if key = name then
      if slot.isSome then
        .error (.behind (.mistyped (.duplicateField name)) (afterObject input))
      else do
        let input ← readColon input
        let (v, input) ← shape.read depth input
        pure ((some v, slots), input)
    else (rest.readMember depth slots key input).map fun (slots, input) => ((slot, slots), input)

/-- Read fields from the items of an array, of which `index` are used up. -/
def Fields.readItems (title : String) (count depth : Nat) :
    (fs : Fields) → (index : Nat) → Bytes → Except Fault (fs.Values × Bytes)
  | .nil, _, input => .ok ((), input)
  | .cons _ true shape rest, index, input => do
    match ← nextItem (index = 0) input with
    | none =>
      .error (.behind (.mistyped (.shortRecord index title count)) (afterArray input))
    | some input =>
      let (v, input) ← shape.read depth input
      let (values, input) ← rest.readItems title count depth (index + 1) input
      pure ((v, values), input)
  | .cons _ false shape rest, index, input => do
    match ← nextItem (index = 0) input with
    | none =>
      let (values, input) ← rest.readItems title count depth (index + 1) input
      pure ((none, values), input)
    | some input =>
      let (v, input) ← shape.read depth input
      let (values, input) ← rest.readItems title count depth (index + 1) input
      pure ((some v, values), input)

end

/-! ### JSON of values -/

mutual

/-- The JSON value of a value. -/
def Shape.toJson : (s : Shape) → s.Value → Json
  | .any, v => v
  | .text, s => .string s
  | .path, s => .string s
  | .flag, b => .bool b
  | .single, x => .real (x.convert .double)
  | .integer kind, v => .number (kind.toNumber v)
  | .optional _, none => .null
  | .optional item, some v => item.toJson v
  | .list item, vs => .array (vs.map item.toJson)
  | .record _ fields, values => .ofMembers (fields.toMembers values)

/-- The members of a record, in the order of its fields. -/
def Fields.toMembers : (fs : Fields) → fs.Values → List (String × Json)
  | .nil, () => []
  | .cons name true shape rest, (v, values) => (name, shape.toJson v) :: rest.toMembers values
  | .cons _ false _ rest, (none, values) => rest.toMembers values
  | .cons name false shape rest, (some v, values) =>
    (name, shape.toJson v) :: rest.toMembers values

end

mutual

/-- The text of a value. -/
def Shape.chars : (s : Shape) → s.Value → List Char
  | .any, v => v.chars
  | .text, s => stringChars s
  | .path, s => stringChars s
  | .flag, b => (Json.bool b).chars
  | .single, x => (Floating.render singleLayout x).toList
  | .integer kind, v => (kind.toNumber v).chars
  | .optional _, none => Json.null.chars
  | .optional item, some v => item.chars v
  | .list item, vs => '[' :: commaSeparated (vs.map item.chars) ++ [']']
  | .record _ fields, values =>
    '\x7b' :: commaSeparated (fields.memberChars values) ++ ['\x7d']

/-- The texts of the fields, with their names. -/
def Fields.memberChars : (fs : Fields) → fs.Values → List (List Char)
  | .nil, () => []
  | .cons name true shape rest, (v, values) =>
    (stringChars name ++ ':' :: shape.chars v) :: rest.memberChars values
  | .cons _ false _ rest, (none, values) => rest.memberChars values
  | .cons name false shape rest, (some v, values) =>
    (stringChars name ++ ':' :: shape.chars v) :: rest.memberChars values

end

end Json

end PlatformProxy
