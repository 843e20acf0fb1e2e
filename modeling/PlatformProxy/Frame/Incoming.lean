import PlatformProxy.Frame.Codec

/-!
# What is heard on a byte stream

One side of a connection takes what the peer has sent off the stream, one message at a time. It
looks into what it has read before it reads on, and it reads one chunk after the other until there
is something to hear: a message, a fault, or the end of the stream.

A fault does not close the stream. Behind it the end is heard, once, wherever the stream stands, and
then reading goes on from the bytes that were at fault. They are looked at again when more has come,
and may be at fault again. The stream is over for good when the peer is done and the end has been
heard.

## Main definitions

* `Frame.Signal` — what may be heard
* `Frame.Incoming` — the incoming side of a connection
* `Frame.Incoming.next` — what is heard next, if it is there

## Implementation notes

A chunk is what one read finds, so chunks are cut anywhere and none is empty.
-/

namespace PlatformProxy

namespace Frame

/-- What may be heard on a stream. -/
inductive Signal
  | message (body : Bytes)
  | fault (e : Error)
  | ended
  deriving DecidableEq, Repr

/-- Where the incoming side of a connection stands. -/
inductive Stage
  /-- There is nothing to hear in what has been read. -/
  | reading
  /-- There may be something to hear in what has been read. -/
  | framing
  /-- The same, and the peer is done. -/
  | ending
  /-- The peer is done, and the end has been heard. -/
  | closed
  /-- A fault has been heard, before the peer was done or after. -/
  | failed (atEnd : Bool)
  deriving DecidableEq, Repr

/-- The incoming side of a connection. -/
structure Incoming where
  receiver : Receiver
  stage : Stage
  /-- The chunks that have come and have not been read. -/
  unread : List Bytes
  /-- No more bytes will come. -/
  isDone : Bool
  deriving DecidableEq, Repr

namespace Incoming

/-- Nothing has come. -/
def new (limit : Nat) : Incoming := ⟨.new limit, .reading, [], false⟩

/-- More bytes come. -/
def arrive (i : Incoming) (chunk : Bytes) : Incoming :=
  if i.isDone || chunk.isEmpty then i else { i with unread := i.unread ++ [chunk] }

/-- The peer is done. -/
def close (i : Incoming) : Incoming := { i with isDone := true }

/-- What is heard when the peer is done and everything has been read. -/
def lookAtEnd (i : Incoming) : Signal × Incoming :=
  match i.receiver.finish with
  | (.error e, receiver) => (.fault e, { i with receiver, stage := .failed true })
  | (.ok none, receiver) => (.ended, { i with receiver, stage := .closed })
  | (.ok (some body), receiver) => (.message body, { i with receiver, stage := .ending })

/-- A read that finds no chunk. -/
def readNothing (i : Incoming) : Option Signal × Incoming :=
  if i.isDone then
    match i.stage with
    | .closed => (some .ended, i)
    | _ => i.lookAtEnd.map some id
  else (none, i)

/-- Look into what has been read, and read on until there is something to hear. -/
def look (i : Incoming) (unread : List Bytes) : Option Signal × Incoming :=
  match i.receiver.decode with
  | (.error e, receiver) =>
    (some (.fault e), { i with receiver, unread, stage := .failed false })
  | (.ok (some body), receiver) =>
    (some (.message body), { i with receiver, unread, stage := .framing })
  | (.ok none, receiver) =>
    match unread with
    | [] => readNothing { i with receiver, unread := [], stage := .reading }
    | chunk :: rest => look { i with receiver := receiver.feed chunk } rest

/-- Read on until there is something to hear. -/
def readOn (i : Incoming) : Option Signal × Incoming :=
  match i.unread with
  | [] => i.readNothing
  | chunk :: rest => look { i with receiver := i.receiver.feed chunk } rest

/-- What is heard next, if it is there. -/
def next (i : Incoming) : Option Signal × Incoming :=
  match i.stage with
  | .reading | .closed => i.readOn
  | .framing => i.look i.unread
  | .ending => i.lookAtEnd.map some id
  | .failed atEnd => (some .ended, { i with stage := if atEnd then .closed else .reading })

/-- How many bytes there are to look at. -/
def size (i : Incoming) : Nat := i.receiver.buffer.length + i.unread.flatten.length

end Incoming

end Frame

end PlatformProxy
