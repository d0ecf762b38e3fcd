import Netfish.Buffer.Deque

/-!
# Shrinking a buffer

`shrink` copies the readable bytes to `kCheapPrepend` of a new storage and swaps the storages. The
indices are those of the old one, so what the buffer shows afterwards begins as far into the new
storage as the reader stood in the old (`shrink_spec`). `shrink_iff` says when that is where the bytes
are: when the reader stood at `kCheapPrepend` already, and the new size is a `size_t`.
-/

set_option autoImplicit false

namespace Netfish

open Kit

universe u

namespace Buffer

/-- What `shrink` is for: the same bytes, between `kCheapPrepend` free ones and `reserve` free ones. -/
structure Shrunk (reserve : Nat) (b b' : Buffer) : Prop extends b'.Wf where
  readable : b'.readable = b.readable
  writable : b'.writableBytes = reserve
  prependable : b'.prependableBytes = kCheapPrepend

variable {b b' : Buffer} {reserve : Nat}

/-- `shrink` moves no index, and the size of its storage is a `size_t`. -/
theorem shrink_frame (h : b.shrink reserve = some b') :
    b'.readerIndex_ = b.readerIndex_ ∧ b'.writerIndex_ = b.writerIndex_ ∧
      b'.buffer_.length < 2 ^ 64 := by
  unfold shrink at h
  dsimp only at h
  split at h
  · cases h
    refine ⟨rfl, rfl, ?_⟩
    rw [store_length, List.length_replicate]
    exact Nat.mod_lt _ (Nat.two_pow_pos 64)
  · cases h

/-- The whole outcome of `shrink`, when its sum does not wrap. -/
theorem shrink_eq (hb : b.Wf) (hsize : kCheapPrepend + b.readableBytes + reserve < 2 ^ 64) :
    b.shrink reserve = some { b with
      buffer_ := List.replicate kCheapPrepend 0 ++ b.readable ++ List.replicate reserve 0 } := by
  have hlen := hb.readable_length
  have hfit : kCheapPrepend + b.readable.length ≤
      (List.replicate (kCheapPrepend + b.readableBytes + reserve) (0 : UInt8)).length := by
    rw [List.length_replicate]
    omega
  unfold shrink
  rw [Nat.mod_eq_of_lt hsize, if_pos (Nat.le_add_right _ _), store_eq b.readable hfit,
    List.take_replicate, List.drop_replicate, hlen, Nat.min_eq_left (by omega),
    Nat.add_sub_cancel_left]

/-- After `shrink` the buffer shows the bytes behind the reader's old place: it skips as many of the
readable ones as the reader stood behind `kCheapPrepend`, and shows as many free ones. -/
theorem shrink_spec (hb : b.Wf) (hsize : kCheapPrepend + b.readableBytes + reserve < 2 ^ 64)
    {skip : Nat} (hskip : b.readerIndex_ = kCheapPrepend + skip) (hle : skip ≤ reserve) :
    ∃ b', b.shrink reserve = some b' ∧ b'.Wf ∧ b'.writableBytes + skip = reserve ∧
      b'.readable = ((b.readable ++ List.replicate reserve 0).drop skip).take b.readableBytes := by
  have hlen := hb.readable_length
  have hr := hb.reader_le
  have hn := hb.readableBytes_eq
  refine ⟨_, shrink_eq hb hsize, ?_⟩
  have hstorage : (List.replicate kCheapPrepend 0 ++ b.readable ++
      List.replicate reserve (0 : UInt8)).length = kCheapPrepend + b.readableBytes + reserve := by
    simp only [List.length_append, List.length_replicate, hlen]
  have hwf : Wf { b with
      buffer_ := List.replicate kCheapPrepend 0 ++ b.readable ++ List.replicate reserve 0 } := by
    refine ⟨hr, ?_⟩
    rw [hstorage]
    show b.writerIndex_ ≤ _
    omega
  refine ⟨hwf, ?_, ?_⟩
  · rw [hwf.writableBytes_eq, hstorage]
    show _ - b.writerIndex_ + skip = reserve
    omega
  · show (List.drop b.readerIndex_ _).take b.readableBytes = _
    rw [hskip, List.append_assoc, ← List.drop_drop, List.drop_left' List.length_replicate]

end Buffer

variable {ι : Type u} [DecidableEq ι]

/-- **When shrinking keeps the data.** From every reachable buffer and for every `reserve`: `shrink`
returns with the same readable bytes, the indices in order, `reserve` writable bytes and
`kCheapPrepend` prependable ones, if and only if the reader stands at `kCheapPrepend` and the new size
is a `size_t`. -/
theorem shrink_iff {s : ι → Buffer} (h : (buffers ι).Reachable s) (i : ι) (reserve : Nat) :
    (∃ b, (s i).shrink reserve = some b ∧ (s i).Shrunk reserve b) ↔
      (s i).readerIndex_ = Buffer.kCheapPrepend ∧
        Buffer.kCheapPrepend + (s i).readableBytes + reserve < 2 ^ 64 := by
  have hwf := reachable_wf h i
  have hr := hwf.reader_le
  have hn := hwf.readableBytes_eq
  constructor
  · rintro ⟨b, hb, hshrunk⟩
    obtain ⟨hreader, hwriter, hsize⟩ := Buffer.shrink_frame hb
    have hfront : b.readerIndex_ = Buffer.kCheapPrepend := hshrunk.prependable
    have hroom : b.buffer_.length - b.writerIndex_ = reserve :=
      hshrunk.writableBytes_eq.symm.trans hshrunk.writable
    have hend := hshrunk.writer_le
    refine ⟨hreader.symm.trans hfront, ?_⟩
    omega
  · rintro ⟨hfront, hsize⟩
    obtain ⟨b, hb, hbwf, hroom, hshown⟩ := Buffer.shrink_spec hwf hsize
      (show (s i).readerIndex_ = Buffer.kCheapPrepend + 0 from hfront) (Nat.zero_le reserve)
    refine ⟨b, hb, hbwf, ?_, hroom, (Buffer.shrink_frame hb).1.trans hfront⟩
    rw [hshown, List.drop_zero, ← hwf.readable_length, List.take_left]

/-- A fresh buffer can be shrunk. -/
theorem shrink_fresh : ∃ b, Buffer.new.shrink 16 = some b ∧ Buffer.new.Shrunk 16 b :=
  (shrink_iff (ι := Unit) (.start rfl) () 16).mpr ⟨rfl, by decide⟩

set_option maxRecDepth 20000 in
/-- Five bytes, two of them read away: the reader stands at 10, and of the other three `shrink` leaves
the last in view. -/
theorem shrink_fails : ¬ ∀ s : Unit → Buffer, (buffers Unit).Reachable s → ∀ reserve,
    Buffer.kCheapPrepend + (s ()).readableBytes + reserve < 2 ^ 64 →
      ∃ b, (s ()).shrink reserve = some b ∧ (s ()).Shrunk reserve b := by
  intro hall
  have hreach : (buffers Unit).Reachable _ := ⟨fun _ => .new,
    [.on () (.append [1, 2, 3, 4, 5]), .on () (.retrieve 2)], rfl, rfl⟩
  obtain ⟨b, hb, hshrunk⟩ := hall _ hreach 0 (by decide)
  have hfront := (Buffer.shrink_frame hb).1.symm.trans hshrunk.prependable
  exact absurd hfront (by decide)

end Netfish
