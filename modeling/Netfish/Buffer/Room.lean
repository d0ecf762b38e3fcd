import Netfish.Buffer.Deque

/-!
# When a buffer can make room

`ensureWritableBytes` chooses between growing and compacting by comparing `len` with the writable
bytes plus *all* the prependable ones. Compacting gives back the prependable bytes less the
`kCheapPrepend` it keeps free, so a `len` in the band between the two sums is sent to the wrong
branch and an assertion stops the program. `HasRoom` is the complement of the band, and
`making_room_iff` says it is exactly the condition for success, from every reachable buffer.
-/

set_option autoImplicit false

namespace Netfish

open Kit

universe u

namespace Buffer

/-- `len` fits as it is, or fits after compacting, or is so large that the storage grows. -/
def HasRoom (b : Buffer) (len : Nat) : Prop :=
  len ≤ b.writableBytes ∨ len + kCheapPrepend ≤ b.writableBytes + b.prependableBytes ∨
    b.writableBytes + b.prependableBytes < len

/-- Outside the band `ensureWritableBytes` succeeds; inside, it fails an assertion. -/
theorem ensureWritableBytes_ok_iff {b : Buffer} (hb : b.Wf) (len : Nat) :
    (∃ b', b.ensureWritableBytes len = .ok b') ↔ b.HasRoom len := by
  have hfront : b.prependableBytes = b.readerIndex_ := rfl
  rw [ensureWritableBytes_eq hb, HasRoom]
  split
  · next hfit => exact ⟨fun _ => .inl hfit, fun _ => ⟨_, rfl⟩⟩
  split
  · next hgrow => exact ⟨fun _ => .inr (.inr hgrow), fun _ => ⟨_, rfl⟩⟩
  split
  · -- at most `kCheapPrepend` in front: compacting would gain nothing
    exact ⟨fun ⟨_, h⟩ => (nomatch h), fun h => absurd h (by omega)⟩
  split
  · exact ⟨fun ⟨_, h⟩ => (nomatch h), fun h => absurd h (by omega)⟩
  · next htight => exact ⟨fun _ => .inr (.inl (by omega)), fun _ => ⟨_, rfl⟩⟩

theorem append_ok_iff {b : Buffer} (hb : b.Wf) (data : List UInt8) :
    (∃ b', b.append data = .ok b') ↔ b.HasRoom data.length := by
  rw [← ensureWritableBytes_ok_iff hb]
  constructor
  · rintro ⟨b', h⟩
    obtain ⟨c, hc, -⟩ := append_eq_ok.mp h
    exact ⟨c, hc⟩
  · rintro ⟨c, hc⟩
    exact ⟨_, append_eq_ok.mpr ⟨c, hc, rfl⟩⟩

end Buffer

variable {ι : Type u} [DecidableEq ι]

/-- **When making room succeeds.** From every reachable buffer, for every `len`:
`ensureWritableBytes(len)` returns, with room for `len` bytes and the readable bytes unchanged, if
and only if `len` has room; and `append` of any bytes succeeds, adding exactly them, if and only if
their number has room. -/
theorem making_room_iff {s : ι → Buffer} (h : (buffers ι).Reachable s) (i : ι) :
    (∀ len, (∃ b, (s i).ensureWritableBytes len = .ok b ∧ len ≤ b.writableBytes ∧
      b.readable = (s i).readable) ↔ (s i).HasRoom len) ∧
    (∀ data, (∃ b, (s i).append data = .ok b ∧ b.readable = (s i).readable ++ data) ↔
      (s i).HasRoom data.length) := by
  have hwf := reachable_wf h i
  refine ⟨?_, ?_⟩
  · intro len
    rw [← Buffer.ensureWritableBytes_ok_iff hwf]
    refine exists_congr fun b => ⟨fun hb => hb.1, ?_⟩
    intro hb
    obtain ⟨-, hr, hroom⟩ := Buffer.ensureWritableBytes_spec hwf hb
    exact ⟨hb, hroom, hr⟩
  · intro data
    rw [← Buffer.append_ok_iff hwf]
    exact exists_congr fun b => ⟨fun hb => hb.1, fun hb => ⟨hb, (Buffer.append_spec hwf hb).2⟩⟩

/-- A fresh buffer takes 1024 bytes, and grows for 1033. -/
theorem making_room_fresh : (∃ b, Buffer.new.ensureWritableBytes 1024 = .ok b) ∧
    ∃ b, Buffer.new.ensureWritableBytes 1033 = .ok b := by
  have h := (making_room_iff (ι := Unit) (.start rfl) ()).1
  obtain ⟨b, hb, -⟩ := (h 1024).mpr (.inl (by simp [Buffer.kInitialSize]))
  obtain ⟨c, hc, -⟩ := (h 1033).mpr (.inr (.inr (by simp [Buffer.kInitialSize, Buffer.kCheapPrepend])))
  exact ⟨⟨b, hb⟩, c, hc⟩

/-- A fresh buffer asked for 1030 bytes: 1024 writable and 8 prependable ones are not fewer, so it
compacts, and the reader already stands at `kCheapPrepend`. -/
theorem making_room_fails :
    ¬ ∀ s : Unit → Buffer, (buffers Unit).Reachable s →
      ∀ len, (s ()).writerIndex_ + len < 2 ^ 64 →
        ∃ b, (s ()).ensureWritableBytes len = .ok b := by
  intro h
  obtain ⟨b, hb⟩ := h (fun _ => .new) (.start rfl) 1030 (by decide)
  have hfail : Buffer.new.ensureWritableBytes 1030 = .error .cheapPrepend := by
    rw [Buffer.ensureWritableBytes_eq Buffer.new_wf, Buffer.new_writableBytes,
      Buffer.new_prependableBytes]
    rfl
  rw [hfail] at hb
  cases hb

end Netfish
