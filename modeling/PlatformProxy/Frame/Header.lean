import PlatformProxy.Text.Utf8
import PlatformProxy.Text.Digit

/-!
# Message headers

Every message on a connection begins with a header block of lines like those of HTTP. Only one
line matters, `Content-Length`, which gives the length of the body. The first line of that form
counts, and lines of any other form are passed over.

## Main definitions

* `Frame.Error` — what can be wrong with a message
* `Frame.lengthDigits?` — the digits of a content-length line
* `Frame.announcedLength` — the length announced by a header block

## Implementation notes

A line is recognised by decimal digits of any script and only then read as a number in ASCII
digits. A foreign digit is therefore reported as a bad number.
-/

namespace PlatformProxy

namespace Frame

/-- What can be wrong with a header block that has a content length or is not text. -/
inductive HeaderFault
  | notText (fault : Utf8.Fault)
  | badLength (error : Text.NumeralError)
  deriving DecidableEq, Repr

namespace HeaderFault

def message : HeaderFault → String
  | notText fault => "not UTF-8: " ++ fault.message
  | badLength error => "Content-Length: " ++ error.message

end HeaderFault

/-- What can be wrong with a message. -/
inductive Error
  /-- The stream ended inside a message. -/
  | truncated
  | noLength
  | badHeader (fault : HeaderFault)
  | longHeader (limit : Nat)
  | longBody (size limit : Nat)
  deriving DecidableEq, Repr

namespace Error

def message : Error → String
  | truncated => "I/O error: bytes remaining on stream"
  | noLength => "message header has no Content-Length"
  | badHeader fault => "invalid message header: " ++ fault.message
  | longHeader limit => "message header exceeds " ++ toString limit ++ " bytes"
  | longBody size limit =>
    "message of " ++ toString size ++ " bytes exceeds limit of " ++ toString limit ++ " bytes"

end Error

/-! ### One line -/

/-- The name of the line that matters, in lower case. -/
def lengthName : List Char := "content-length".toList

/-- Take `word` off the front of a line, in any letter case. -/
def dropWord? : (word line : List Char) → Option (List Char)
  | [], line => some line
  | _ :: _, [] => none
  | w :: word, c :: line => if c.toLower = w then dropWord? word line else none

def isPad (c : Char) : Bool := c = ' ' || c = '\t'

/-- The digits of a line with the given name: a colon, digits, and blanks and tabs around the
digits. The line may end in a carriage return. -/
def lengthDigits? (line : List Char) : Option (List Char) :=
  match dropWord? lengthName line with
  | some (':' :: value) =>
    let value := value.dropWhile isPad
    let digits := value.takeWhile Text.isDecimalDigit
    let rest := (value.dropWhile Text.isDecimalDigit).dropWhile isPad
    if digits ≠ [] ∧ (rest = [] ∨ rest = ['\r']) then some digits else none
  | _ => none

/-! ### Header blocks -/

/-- Lengths are limited to 64 bits. -/
def lengthBound : Nat := UInt64.size

/-- The length announced by a text. -/
def textLength (text : List Char) : Except Error Nat :=
  match (text.splitOn '\n').findSome? lengthDigits? with
  | none => .error .noLength
  | some digits =>
    match Text.readBounded lengthBound digits with
    | .ok n => .ok n
    | .error e => .error (.badHeader (.badLength e))

/-- The length announced by a header block, which does not include the blank line at its end. -/
def announcedLength (header : Bytes) : Except Error Nat :=
  match Utf8.decode header with
  | .error f => .error (.badHeader (.notText f))
  | .ok text => textLength text

end Frame

end PlatformProxy
