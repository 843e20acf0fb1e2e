import PlatformProxy.Json.Shape

/-!
# Types with a JSON form

A type has a JSON form if its values are those of a shape under other names. Everything that a
shape provides is available for such a type.

## Main definitions

* `Json.Shaped` — types with a JSON form
* `Json.fromJson?`, `Json.fromText` — values from JSON values and from texts
* `Json.toJson`, `Json.textOf`, `Json.bytesOf` — and back
-/

namespace PlatformProxy

namespace Json

/-- A type whose values are those of a shape. -/
class Shaped (α : Type) where
  shape : Shape
  ofValue : shape.Value → α
  toValue : α → shape.Value

instance : Shaped Json := ⟨.any, id, id⟩

instance : Shaped String := ⟨.text, id, id⟩

instance : Shaped Bool := ⟨.flag, id, id⟩

instance : Shaped (Floating .single) := ⟨.single, id, id⟩

instance : Shaped Int32 := ⟨.integer .int32, id, id⟩

instance : Shaped Int64 := ⟨.integer .int64, id, id⟩

instance : Shaped UInt32 := ⟨.integer .nat32, id, id⟩

instance : Shaped UInt64 := ⟨.integer .nat64, id, id⟩

instance {α : Type} [Shaped α] : Shaped (List α) :=
  ⟨.list (Shaped.shape α), List.map Shaped.ofValue, List.map Shaped.toValue⟩

variable {α : Type} [Shaped α]

/-- The value a JSON value stands for. -/
def fromJson? (v : Json) : Except Mismatch α :=
  ((Shaped.shape α).ofJson v).map Shaped.ofValue

/-- The value a text stands for. -/
def fromText (input : Bytes) : Except Fault α :=
  (readWhole ((Shaped.shape α).read maxDepth) input).map Shaped.ofValue

/-- The JSON value of a value. -/
def toJson (v : α) : Json := (Shaped.shape α).toJson (Shaped.toValue v)

/-- The text of a value. -/
def charsOf (v : α) : List Char := (Shaped.shape α).chars (Shaped.toValue v)

def textOf (v : α) : String := String.ofList (charsOf v)

def bytesOf (v : α) : Bytes := Utf8.encode (charsOf v)

end Json

end PlatformProxy
