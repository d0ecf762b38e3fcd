import Netfish.Buffer.Spec

/-!
# One read is one append

`readFd` has `readv` fill the storage to its end and appends what is left, so it chooses between growing and
compacting in another state than an append of all the bytes would. What either does with the indices and
the size is a matter of numbers: `Layout.append`. Filling up first does not change its answer
(`Layout.append_filled`), which failures included is why the two agree.
-/

set_option autoImplicit false

namespace Netfish

open Kit

namespace Buffer

/-- The two indices and the size of the storage. -/
structure Layout where
  readerIndex_ : Nat
  writerIndex_ : Nat
  size : Nat
deriving DecidableEq, Repr

def layout (b : Buffer) : Layout where
  readerIndex_ := b.readerIndex_
  writerIndex_ := b.writerIndex_
  size := b.buffer_.length

namespace Layout

/-- Where an append of `len` bytes leaves the layout, or the assertion it fails. -/
def append (len : Nat) (y : Layout) : Except BufferAssertion Layout :=
  if y.writerIndex_ + len ≤ y.size then .ok { y with writerIndex_ := y.writerIndex_ + len }
  else if y.size + y.readerIndex_ < y.writerIndex_ + len then
    .ok { y with writerIndex_ := y.writerIndex_ + len, size := y.writerIndex_ + len }
  else if y.readerIndex_ ≤ kCheapPrepend then .error .cheapPrepend
  else if y.size + y.readerIndex_ < y.writerIndex_ + len + kCheapPrepend then .error .writable
  else .ok { y with
    readerIndex_ := kCheapPrepend
    writerIndex_ := kCheapPrepend + (y.writerIndex_ - y.readerIndex_) + len }

/-- The layout when every writable byte is taken. -/
def filled (y : Layout) : Layout :=
  { y with writerIndex_ := y.size }

/-- Bytes that do not fit may as well be appended in two parts, the first up to the end. -/
theorem append_filled {y : Layout} {len : Nat} (hr : y.readerIndex_ ≤ y.writerIndex_)
    (hw : y.writerIndex_ ≤ y.size) (hover : y.size < y.writerIndex_ + len) :
    y.filled.append (len - (y.size - y.writerIndex_)) = y.append len := by
  have hend : y.size + (len - (y.size - y.writerIndex_)) = y.writerIndex_ + len := by omega
  have hcompact : kCheapPrepend + (y.size - y.readerIndex_) + (len - (y.size - y.writerIndex_)) =
      kCheapPrepend + (y.writerIndex_ - y.readerIndex_) + len := by omega
  simp only [append, filled, hend, hcompact]

end Layout

theorem layout_written (b : Buffer) (data : List UInt8) (len : Nat) :
    ((b.writeAtEnd data).hasWritten len).layout =
      { b.layout with writerIndex_ := b.writerIndex_ + len } := by
  simp only [layout, writeAtEnd, hasWritten, store_length]

/-- An append is one of the layout. -/
theorem append_layout {b : Buffer} (hb : b.Wf) (data : List UInt8) :
    (b.append data).map layout = b.layout.append data.length := by
  have hw : b.layout.writerIndex_ ≤ b.layout.size := hb.writer_le
  have hroom : b.writableBytes = b.layout.size - b.layout.writerIndex_ := hb.writableBytes_eq
  have hfront : b.prependableBytes = b.layout.readerIndex_ := rfl
  rw [append, ensureWritableBytes_eq hb, Layout.append]
  by_cases hfit : b.layout.writerIndex_ + data.length ≤ b.layout.size
  · rw [if_pos (by omega), if_pos hfit]
    exact congrArg Except.ok (layout_written b data data.length)
  rw [if_neg (by omega), if_neg hfit]
  by_cases hgrow : b.layout.size + b.layout.readerIndex_ < b.layout.writerIndex_ + data.length
  · rw [if_pos (by omega), if_pos hgrow]
    refine congrArg Except.ok ((layout_written _ data data.length).trans ?_)
    simp only [layout, grown_length]
    rfl
  rw [if_neg (by omega), if_neg hgrow]
  by_cases hfirst : b.layout.readerIndex_ ≤ kCheapPrepend
  · rw [if_pos hfirst, if_pos (show b.readerIndex_ ≤ kCheapPrepend from hfirst)]
    rfl
  rw [if_neg hfirst, if_neg (show ¬ b.readerIndex_ ≤ kCheapPrepend from hfirst)]
  by_cases htight : b.layout.size + b.layout.readerIndex_ <
      b.layout.writerIndex_ + data.length + kCheapPrepend
  · rw [if_pos (by omega), if_pos htight]
    rfl
  · rw [if_neg (by omega), if_neg htight]
    refine congrArg Except.ok ((layout_written _ data data.length).trans ?_)
    simp only [layout, compacted_length, ← hb.readableBytes_eq]
    rfl

/-- And so is `readFd`, although it appends a part only. -/
theorem readFd_layout {b : Buffer} (hb : b.Wf) (bytes : List UInt8) :
    (b.readFd (.data bytes)).map (fun p => p.2.layout) = b.layout.append bytes.length := by
  have hr := hb.reader_le
  have hw := hb.writer_le
  have hroom := hb.writableBytes_eq
  unfold readFd
  dsimp only
  split
  · next hfit =>
    have hin : b.layout.writerIndex_ + bytes.length ≤ b.layout.size := by
      simp only [layout]
      omega
    rw [Layout.append, if_pos hin]
    exact congrArg Except.ok (layout_written b (bytes.take b.writableBytes) bytes.length)
  · next hover =>
    -- the storage is full before the rest is appended
    have hsize : (b.writeAtEnd (bytes.take b.writableBytes)).buffer_.length = b.buffer_.length :=
      store_length ..
    rw [hsize]
    have hfull : { b.writeAtEnd (bytes.take b.writableBytes) with
        writerIndex_ := b.buffer_.length }.Wf :=
      ⟨Nat.le_trans hr hw, Nat.le_of_eq hsize.symm⟩
    have hlayout : layout { b.writeAtEnd (bytes.take b.writableBytes) with
        writerIndex_ := b.buffer_.length } = b.layout.filled :=
      congrArg (Layout.mk _ _) hsize
    have happend := append_layout hfull (bytes.drop b.writableBytes)
    rw [hlayout, List.length_drop, hroom] at happend
    refine Eq.trans ?_ (happend.trans (Layout.append_filled hr hw ?_))
    · rw [← hroom]
      cases append (bytes.drop b.writableBytes) { b.writeAtEnd (bytes.take b.writableBytes) with
        writerIndex_ := b.buffer_.length } <;> rfl
    · simp only [layout]
      omega

/-- Both buffers have the same indices, the same size and the same readable bytes. -/
def SameView (b c : Buffer) : Prop :=
  b.layout = c.layout ∧ b.readable = c.readable

theorem readFd_error_iff {b : Buffer} (hb : b.Wf) (bytes : List UInt8) (fault : BufferAssertion) :
    b.readFd (.data bytes) = .error fault ↔ b.append bytes = .error fault := by
  rw [← map_eq_error (f := fun p => p.2.layout), readFd_layout hb, ← append_layout hb, map_eq_error]

theorem readFd_ok {b b' : Buffer} (hb : b.Wf) {bytes : List UInt8} {n : Except Nat Nat}
    (h : b.readFd (.data bytes) = .ok (n, b')) :
    n = .ok bytes.length ∧ ∃ c, b.append bytes = .ok c ∧ b'.SameView c := by
  obtain ⟨-, hreadable, hn⟩ := readFd_data_spec hb h
  have hagree := (readFd_layout hb bytes).trans (append_layout hb bytes).symm
  rw [h] at hagree
  cases happend : b.append bytes with
  | error e =>
    rw [happend] at hagree
    cases hagree
  | ok c =>
    rw [happend] at hagree
    exact ⟨hn, c, rfl, Except.ok.inj hagree, hreadable.trans (append_spec hb happend).2.symm⟩

/-- **A read is an append.** Whatever `readv` delivers, `readFd` fails the assertion that an append of the
same bytes would, or ends as it does; and when `readv` fails it leaves the buffer alone and saves
the `errno`. -/
theorem readFd_eq_append {b : Buffer} (hb : b.Wf) :
    (∀ bytes fault, b.readFd (.data bytes) = .error fault ↔ b.append bytes = .error fault) ∧
    (∀ bytes n b', b.readFd (.data bytes) = .ok (n, b') →
      n = .ok bytes.length ∧ ∃ c, b.append bytes = .ok c ∧ b'.SameView c) ∧
    ∀ errno, b.readFd (.error errno) = .ok (.error errno, b) :=
  ⟨readFd_error_iff hb, fun _ _ _ => readFd_ok hb, fun _ => rfl⟩

/-- A fresh buffer reads more than it has room for. -/
theorem readFd_eq_append_new : Buffer.new.Wf ∧ ∀ bytes fault,
    Buffer.new.readFd (.data bytes) = .error fault ↔ Buffer.new.append bytes = .error fault :=
  ⟨new_wf, (readFd_eq_append new_wf).1⟩

end Buffer

end Netfish
