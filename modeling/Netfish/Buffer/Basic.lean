import Mathlib.Algebra.Group.Nat.Defs
import Netfish.Kit.Check
import Netfish.Kit.Copy

/-!
# Buffer

The byte buffer of a connection, as `Buffer.h` and `Buffer.cc` compute it: one array, a reader index
and a writer index.

    | prependable bytes | readable bytes | writable bytes |
    0       <=     readerIndex_  <=  writerIndex_  <=  size()

Every `assert` of the class is a `check` under its own name, in the order of the source. The storage
is a list and grows without bound: a failing allocation is no part of the model. Differences of
`size_t` wrap (`sizeDiff`), and so does the sum in `shrink`; any other sum is one of two indices into
one object and does not.
-/

set_option autoImplicit false

namespace Netfish

open Kit

/-- The difference of two `size_t`. -/
def sizeDiff (a b : Nat) : Nat :=
  if b ≤ a then a - b else a + 2 ^ 64 - b

theorem sizeDiff_of_le {a b : Nat} (h : b ≤ a) : sizeDiff a b = a - b :=
  if_pos h

/-- The assertions of `Buffer`, by the text each checks. -/
inductive BufferAssertion where
  /-- `len <= readableBytes()`, in `retrieve`. -/
  | retrieve
  /-- `peek() <= end`, in `retrieveUntil`. -/
  | retrieveFrom
  /-- `end <= beginWrite()`, in `retrieveUntil`. -/
  | retrieveTo
  /-- `kCheapPrepend < readerIndex_`, in `ensureWritableBytes`. -/
  | cheapPrepend
  /-- `readable == readableBytes()`, in `ensureWritableBytes`. -/
  | compacted
  /-- `writableBytes() >= len`, in `ensureWritableBytes`. -/
  | writable
  /-- `len <= prependableBytes()`, in `prepend`. -/
  | prepend
deriving DecidableEq, Repr

structure Buffer where
  buffer_ : List UInt8
  readerIndex_ : Nat
  writerIndex_ : Nat
deriving DecidableEq, Repr

namespace Buffer

def kCheapPrepend : Nat := 8

def kInitialSize : Nat := 1024

/-- The constructor: zeroed storage, both indices behind the cheap prepend. -/
def new : Buffer where
  buffer_ := List.replicate (kCheapPrepend + kInitialSize) 0
  readerIndex_ := kCheapPrepend
  writerIndex_ := kCheapPrepend

def readableBytes (b : Buffer) : Nat := sizeDiff b.writerIndex_ b.readerIndex_

def writableBytes (b : Buffer) : Nat := sizeDiff b.buffer_.length b.writerIndex_

def prependableBytes (b : Buffer) : Nat := b.readerIndex_

/-- The readable bytes, `[peek(), beginWrite())`. -/
def readable (b : Buffer) : List UInt8 :=
  (b.buffer_.drop b.readerIndex_).take b.readableBytes

def retrieve (len : Nat) (b : Buffer) : Except BufferAssertion Buffer := do
  check .retrieve (len ≤ b.readableBytes)
  return { b with readerIndex_ := b.readerIndex_ + len }

/-- `end` is a pointer into the storage, given by its distance from `begin()`. -/
def retrieveUntil (end_ : Nat) (b : Buffer) : Except BufferAssertion Buffer := do
  check .retrieveFrom (b.readerIndex_ ≤ end_)
  check .retrieveTo (end_ ≤ b.writerIndex_)
  b.retrieve (end_ - b.readerIndex_)

def retrieveAll (b : Buffer) : Except BufferAssertion Buffer :=
  b.retrieve b.readableBytes

def retrieveAsString (b : Buffer) : Except BufferAssertion (List UInt8 × Buffer) := do
  let str := b.readable
  let b ← b.retrieveAll
  return (str, b)

/-- `std::vector::resize`: cut off, or filled up with zero bytes. -/
def resize (l : List UInt8) (n : Nat) : List UInt8 :=
  l.take n ++ List.replicate (n - l.length) 0

/-- The two ways `ensureWritableBytes` finds room: a larger array, or the readable bytes moved to
the front of the one it has. -/
def makeSpace (len : Nat) (b : Buffer) : Except BufferAssertion Buffer :=
  if b.writableBytes + b.prependableBytes < len then
    .ok { b with buffer_ := resize b.buffer_ (b.writerIndex_ + len) }
  else do
    check .cheapPrepend (kCheapPrepend < b.readerIndex_)
    let readable := b.readableBytes
    let b' : Buffer :=
      { buffer_ := copyWithin b.buffer_ b.readerIndex_ kCheapPrepend readable
        readerIndex_ := kCheapPrepend
        writerIndex_ := kCheapPrepend + readable }
    check .compacted (readable = b'.readableBytes)
    return b'

def ensureWritableBytes (len : Nat) (b : Buffer) : Except BufferAssertion Buffer := do
  let b ← if b.writableBytes < len then b.makeSpace len else .ok b
  check .writable (len ≤ b.writableBytes)
  return b

/-- Bytes stored at `beginWrite()` by whoever holds the pointer; no index moves. -/
def writeAtEnd (data : List UInt8) (b : Buffer) : Buffer :=
  { b with buffer_ := store b.buffer_ b.writerIndex_ data }

def hasWritten (len : Nat) (b : Buffer) : Buffer :=
  { b with writerIndex_ := b.writerIndex_ + len }

def append (data : List UInt8) (b : Buffer) : Except BufferAssertion Buffer := do
  let b ← b.ensureWritableBytes data.length
  return (b.writeAtEnd data).hasWritten data.length

def prepend (data : List UInt8) (b : Buffer) : Except BufferAssertion Buffer := do
  check .prepend (data.length ≤ b.prependableBytes)
  let readerIndex := b.readerIndex_ - data.length
  return { b with buffer_ := store b.buffer_ readerIndex data, readerIndex_ := readerIndex }

/-- `shrink`: a new storage for the readable bytes, while the indices stay as they are. `none` where
the sum of `size_t` wraps: `std::copy` then writes behind the new storage. -/
def shrink (reserve : Nat) (b : Buffer) : Option Buffer :=
  let size := (kCheapPrepend + b.readableBytes + reserve) % 2 ^ 64
  if kCheapPrepend + b.readableBytes ≤ size then
    some { b with buffer_ := store (List.replicate size 0) kCheapPrepend b.readable }
  else none

/-- The stack block `readFd` reads behind the writable bytes: `char extrabuf[65536]`. -/
def kExtraSize : Nat := 65536

/-- What `readv` answers: the bytes it delivered, in order, or `-1` with an `errno`. -/
inductive ReadResult where
  | data (bytes : List UInt8)
  | error (errno : Nat)
deriving DecidableEq, Repr

/-- `readv` fills the writable bytes first and `extrabuf` with the rest; `readFd` then appends
what `extrabuf` holds. The answer is the count, or the saved `errno`. -/
def readFd (r : ReadResult) (b : Buffer) : Except BufferAssertion (Except Nat Nat × Buffer) :=
  match r with
  | .error errno => .ok (.error errno, b)
  | .data bytes =>
    let writable := b.writableBytes
    let extrabuf := bytes.drop writable
    let b := b.writeAtEnd (bytes.take writable)
    if bytes.length ≤ writable then
      .ok (.ok bytes.length, { b with writerIndex_ := b.writerIndex_ + bytes.length })
    else do
      let b ← { b with writerIndex_ := b.buffer_.length }.append extrabuf
      return (.ok bytes.length, b)

end Buffer

end Netfish
