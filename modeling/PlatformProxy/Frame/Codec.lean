import PlatformProxy.Frame.Header

/-!
# Messages on a byte stream

A message is a header block, a blank line and as many bytes as the header announces. The receiving
side gets the stream in chunks cut anywhere, so it keeps what it has not used yet and remembers a
header it has taken already. Blank lines between messages are passed over.

## Main definitions

* `Frame.Receiver` — the state of the receiving side
* `Frame.Receiver.feed`, `Frame.Receiver.decode`, `Frame.Receiver.finish` — more bytes, the next
  message, and the same once the stream has ended
* `Frame.encode`, `Frame.append` — the bytes of a message, alone and behind others

## Implementation notes

The limit on the length of a header only applies while its end has not arrived.
-/

namespace PlatformProxy

namespace Frame

def carriageReturn : UInt8 := 0x0D

def lineFeed : UInt8 := 0x0A

/-- Ends a header block. -/
def terminator : Bytes := [carriageReturn, lineFeed, carriageReturn, lineFeed]

/-- How many bytes may arrive without the end of a header. -/
def headerLimit : Nat := 8192

/-- How long a body may be if nothing else is said. -/
def defaultLimit : Nat := 4194304

/-- Where the first header terminator begins. -/
def findTerminator : Bytes → Option Nat
  | [] => none
  | b :: rest =>
    if terminator.isPrefixOf (b :: rest) then some 0 else (findTerminator rest).map (· + 1)

/-- Drop line ends at the front. -/
def dropBlankLines : Bytes → Bytes
  | a :: b :: rest =>
    if a = carriageReturn ∧ b = lineFeed then dropBlankLines rest else a :: b :: rest
  | bytes => bytes

/-- The receiving side of a stream: the longest body it accepts, the length of a body whose header
has been taken, and the bytes not used yet. -/
structure Receiver where
  limit : Nat
  bodyLength : Option Nat
  buffer : Bytes
  deriving DecidableEq, Repr

namespace Receiver

/-- Nothing has been received. -/
def new (limit : Nat) : Receiver := ⟨limit, none, []⟩

/-- More bytes arrive. -/
def feed (r : Receiver) (chunk : Bytes) : Receiver := { r with buffer := r.buffer ++ chunk }

/-- Take a body of known length, if all of it is there. -/
def takeBody (r : Receiver) (length : Nat) : Except Error (Option Bytes) × Receiver :=
  if r.buffer.length < length then (.ok none, { r with bodyLength := some length })
  else
    (.ok (some (r.buffer.take length)),
      { r with bodyLength := none, buffer := r.buffer.drop length })

/-- Take a header, if its end is there, and then the body. -/
def takeHeader (r : Receiver) : Except Error (Option Bytes) × Receiver :=
  match findTerminator r.buffer with
  | none =>
    if headerLimit < r.buffer.length then (.error (.longHeader headerLimit), r)
    else (.ok none, r)
  | some stop =>
    match announcedLength (r.buffer.take (stop + 2)) with
    | .error e => (.error e, r)
    | .ok length =>
      if r.limit < length then (.error (.longBody length r.limit), r)
      else takeBody { r with buffer := r.buffer.drop (stop + terminator.length) } length

/-- The next message, if it has arrived. -/
def decode (r : Receiver) : Except Error (Option Bytes) × Receiver :=
  match r.bodyLength with
  | some length => r.takeBody length
  | none => takeHeader { r with buffer := dropBlankLines r.buffer }

/-- The next message, when no more bytes will come. -/
def finish (r : Receiver) : Except Error (Option Bytes) × Receiver :=
  match r.decode with
  | (.ok none, r) => (if r.buffer.isEmpty then .ok none else .error .truncated, r)
  | result => result

end Receiver

/-- The header of a body. -/
def header (length : Nat) : Bytes :=
  Utf8.ofString "Content-Length: " ++ Utf8.encode (Text.decimal length) ++ terminator

/-- The bytes of a message with the given body. -/
def encode (limit : Nat) (body : Bytes) : Except Error Bytes :=
  if limit < body.length then .error (.longBody body.length limit)
  else .ok (header body.length ++ body)

/-- Write a message behind what is in a buffer. A body that is too long leaves the buffer as it
is. -/
def append (limit : Nat) (buffer body : Bytes) : Except Error Unit × Bytes :=
  match encode limit body with
  | .error e => (.error e, buffer)
  | .ok bytes => (.ok (), buffer ++ bytes)

end Frame

end PlatformProxy
