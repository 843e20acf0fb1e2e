import PlatformProxy.Floating.Shortest
import PlatformProxy.Text.Digit

/-!
# Floating-point numbers as text

Which digits are written is a matter of `Floating.shortest`; how they are laid out differs from
place to place and is given by a record of choices. Reading accepts any decimal and rounds once.

## Main definitions

* `Floating.Layout` — where the point goes, and when an exponent is written
* `Floating.render` — the text of a number under a layout
* `Floating.fixed` — the text with a fixed number of places
* `Floating.read?` — the number written by a text, words for the special values included
-/

namespace PlatformProxy

namespace Floating

variable {f : Format}

/-- How a number is laid out: positionally if the exponent of its leading digit lies in the given
range, else with an exponent. A layout without a range is always positional. -/
structure Layout where
  positional : Option (Int × Int)
  /-- Whether an integer is written with one decimal place. -/
  keepPlace : Bool
  nan : String
  infinity : String

namespace Layout

def isPositional (l : Layout) (leading : Int) : Bool :=
  match l.positional with
  | none => true
  | some (low, high) => low ≤ leading && leading ≤ high

end Layout

/-- Digits before and after the point, for a decimal with the leading exponent `leading`. -/
def positionalText (keepPlace : Bool) (digits : List Char) (leading : Int) : List Char :=
  if leading < 0 then
    '0' :: '.' :: List.replicate (-leading - 1).toNat '0' ++ digits
  else
    let whole := leading.toNat + 1
    let front := digits.take whole ++ List.replicate (whole - digits.length) '0'
    match digits.drop whole with
    | [] => if keepPlace then front ++ ['.', '0'] else front
    | places => front ++ '.' :: places

/-- One digit, the others after a point, and the exponent with its sign. -/
def scientificText (digits : List Char) (leading : Int) : List Char :=
  let mantissa := match digits with
    | [] => []
    | [d] => [d]
    | d :: places => d :: '.' :: places
  mantissa ++ 'e' :: (if leading < 0 then '-' else '+') :: Text.decimal leading.natAbs

/-- The text of a number. -/
def render (l : Layout) (x : Floating f) : String :=
  if x.isNaN then l.nan
  else
    let sign := if x.negative then ['-'] else []
    if !x.isFinite then String.ofList sign ++ l.infinity
    else
      let d := x.shortest
      let digits := Text.decimal d.digits
      let leading := d.exponent + (digits.length - 1 : Nat)
      let body :=
        if l.isPositional leading then positionalText l.keepPlace digits leading
        else scientificText digits leading
      String.ofList (sign ++ body)

/-- The text of a finite number rounded to `places` decimal places, halves to even. -/
def fixed (places : Nat) (x : Floating f) : String :=
  let scaled := roundHalfEven (x.numerator * Nat.pow 10 places) x.denominator
  let digits := Text.decimal scaled
  let padded := List.replicate (places + 1 - digits.length) '0' ++ digits
  let whole := padded.length - places
  let sign := if x.negative then ['-'] else []
  String.ofList (sign ++ padded.take whole ++
    (if places = 0 then [] else '.' :: padded.drop whole))

/-! ### Reading -/

/-- Digits at the front of a text, and the rest. -/
def spanDigits (s : List Char) : List Char × List Char :=
  s.span fun c => (Text.digitValue? c).isSome

/-- The value of digits. -/
def digitsToNat (s : List Char) : Nat := (Text.digitsValue 0 s).getD 0

/-- An exponent part that takes up the whole of a text, or nothing. -/
def readExponent? : List Char → Option Int
  | [] => some 0
  | c :: rest =>
    if c = 'e' ∨ c = 'E' then
      let (negative, digits) := match rest with
        | '-' :: digits => (true, digits)
        | '+' :: digits => (false, digits)
        | digits => (false, digits)
      if digits ≠ [] ∧ digits.all fun d => (Text.digitValue? d).isSome then
        let n : Int := digitsToNat digits
        some (if negative then -n else n)
      else none
    else none

/-- An unsigned decimal: digits, perhaps a point and more digits, perhaps an exponent. At least
one digit stands before or after the point. -/
def readDecimal? (s : List Char) : Option Decimal :=
  let (whole, rest) := spanDigits s
  let (places, rest) := match rest with
    | '.' :: rest => spanDigits rest
    | _ => ([], rest)
  if whole = [] ∧ places = [] then none
  else
    (readExponent? rest).map fun exponent =>
      ⟨digitsToNat (whole ++ places), exponent - places.length⟩

/-- Read a number: an optional sign, then a decimal or one of the words `inf`, `infinity` and
`nan` in any case. -/
def read? (f : Format) (s : List Char) : Option (Floating f) :=
  let (negative, body) := match s with
    | '-' :: body => (true, body)
    | '+' :: body => (false, body)
    | body => (false, body)
  let word := String.ofList (body.map Char.toLower)
  if word = "inf" ∨ word = "infinity" then some (infinity f negative)
  else if word = "nan" then some (nan f)
  else (readDecimal? body).map fun d => ofDecimal f negative d.digits d.exponent

end Floating

end PlatformProxy
