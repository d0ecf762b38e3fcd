import Netfish.Buffer.Basic

/-!
# What each Buffer operation does

`Buffer.Wf` is the class's own picture: reader before writer before the end of the storage. Each
operation gets one law: from a well-formed buffer, a call that passes its assertions ends well
formed, and its readable bytes are those of the byte queue it stands for. `ensureWritableBytes` gets
its whole outcome as an equation (`ensureWritableBytes_eq`), failures included.
-/

set_option autoImplicit false

namespace Netfish

open Kit

namespace Buffer

/-- `0 <= readerIndex_ <= writerIndex_ <= buffer_.size()`. -/
structure Wf (b : Buffer) : Prop where
  reader_le : b.readerIndex_ ≤ b.writerIndex_
  writer_le : b.writerIndex_ ≤ b.buffer_.length

theorem new_wf : new.Wf :=
  ⟨Nat.le_refl _, by simp [new]⟩

theorem new_readable : new.readable = [] := by
  simp [readable, readableBytes, sizeDiff, new]

@[simp] theorem new_writableBytes : new.writableBytes = kInitialSize := by
  rw [writableBytes, new, List.length_replicate, sizeDiff_of_le (Nat.le_add_right _ _),
    Nat.add_sub_cancel_left]

@[simp] theorem new_prependableBytes : new.prependableBytes = kCheapPrepend := rfl

section Views

variable {b : Buffer} (h : b.Wf)

include h

theorem Wf.readableBytes_eq : b.readableBytes = b.writerIndex_ - b.readerIndex_ :=
  sizeDiff_of_le h.reader_le

theorem Wf.writableBytes_eq : b.writableBytes = b.buffer_.length - b.writerIndex_ :=
  sizeDiff_of_le h.writer_le

theorem Wf.readable_length : b.readable.length = b.readableBytes := by
  have := h.reader_le
  have := h.writer_le
  rw [readable, List.length_take, List.length_drop, h.readableBytes_eq]
  omega

/-- The storage, cut at the two indices. -/
theorem Wf.storage : b.buffer_ = b.buffer_.take b.readerIndex_ ++ b.readable ++
    b.buffer_.drop b.writerIndex_ := by
  have hw : b.writerIndex_ = b.readerIndex_ + b.readableBytes := by
    have := h.reader_le
    rw [h.readableBytes_eq]
    omega
  rw [List.append_assoc, readable, hw, ← List.drop_drop, List.take_append_drop,
    List.take_append_drop]

end Views

/-- Readable bytes of a storage given in three parts. -/
theorem readable_of_parts {pre mid post : List UInt8} {r w : Nat} (hr : r = pre.length)
    (hw : w = pre.length + mid.length) :
    readable { buffer_ := pre ++ mid ++ post, readerIndex_ := r, writerIndex_ := w } = mid := by
  subst hr hw
  simp only [readable, readableBytes, sizeDiff_of_le (Nat.le_add_right _ _), Nat.add_sub_cancel_left,
    List.append_assoc, List.drop_left, List.take_left]

/-! ## Taking from the front -/

theorem retrieve_eq_ok {b b' : Buffer} {len : Nat} : b.retrieve len = .ok b' ↔
    len ≤ b.readableBytes ∧ b' = { b with readerIndex_ := b.readerIndex_ + len } := by
  rw [retrieve, check_bind_eq_ok]
  exact and_congr_right fun _ => ⟨fun h => (Except.ok.inj h).symm, fun h => h ▸ rfl⟩

theorem retrieve_spec {b b' : Buffer} {len : Nat} (hb : b.Wf) (h : b.retrieve len = .ok b') :
    b'.Wf ∧ b'.readable = b.readable.drop len := by
  obtain ⟨hlen, rfl⟩ := retrieve_eq_ok.mp h
  rw [hb.readableBytes_eq] at hlen
  have hr := hb.reader_le
  have hb' : Wf { b with readerIndex_ := b.readerIndex_ + len } :=
    ⟨by dsimp only; omega, hb.writer_le⟩
  refine ⟨hb', ?_⟩
  rw [readable, readable, hb'.readableBytes_eq, hb.readableBytes_eq, List.drop_take, List.drop_drop]
  congr 1
  dsimp only
  omega

theorem retrieveUntil_eq_ok {b b' : Buffer} {end_ : Nat} : b.retrieveUntil end_ = .ok b' ↔
    b.readerIndex_ ≤ end_ ∧ end_ ≤ b.writerIndex_ ∧
      b.retrieve (end_ - b.readerIndex_) = .ok b' := by
  rw [retrieveUntil, check_bind_eq_ok, check_bind_eq_ok]

theorem retrieveAll_spec {b b' : Buffer} (hb : b.Wf) (h : b.retrieveAll = .ok b') :
    b'.Wf ∧ b'.readable = [] := by
  obtain ⟨hb', hr⟩ := retrieve_spec hb h
  rw [← hb.readable_length, List.drop_length] at hr
  exact ⟨hb', hr⟩

/-- `retrieveAll` and what is built on it never fail. -/
theorem retrieveAll_ok (b : Buffer) : ∃ b', b.retrieveAll = .ok b' :=
  ⟨_, retrieve_eq_ok.mpr ⟨Nat.le_refl _, rfl⟩⟩

theorem retrieveAsString_eq_ok {b b' : Buffer} {str : List UInt8} :
    b.retrieveAsString = .ok (str, b') ↔ str = b.readable ∧ b.retrieveAll = .ok b' := by
  obtain ⟨c, hc⟩ := b.retrieveAll_ok
  simp only [retrieveAsString, hc, ok_bind]
  constructor
  · rintro h
    cases h
    exact ⟨rfl, rfl⟩
  · rintro ⟨rfl, h⟩
    cases h
    rfl

/-! ## Making room -/

/-- The buffer after the storage was grown for `len` more bytes. -/
def grown (len : Nat) (b : Buffer) : Buffer :=
  { b with buffer_ := resize b.buffer_ (b.writerIndex_ + len) }

/-- The buffer after the readable bytes moved to the front. -/
def compacted (b : Buffer) : Buffer where
  buffer_ := copyWithin b.buffer_ b.readerIndex_ kCheapPrepend b.readableBytes
  readerIndex_ := kCheapPrepend
  writerIndex_ := kCheapPrepend + b.readableBytes

theorem resize_of_le {l : List UInt8} {n : Nat} (h : l.length ≤ n) :
    resize l n = l ++ List.replicate (n - l.length) 0 := by
  rw [resize, List.take_of_length_le h]

theorem grown_length (len : Nat) (b : Buffer) :
    (b.grown len).buffer_.length = b.writerIndex_ + len := by
  simp only [grown, resize, List.length_append, List.length_take, List.length_replicate]
  omega

theorem grown_spec {b : Buffer} {len : Nat} (hb : b.Wf) (h : b.writableBytes < len) :
    (b.grown len).Wf ∧ (b.grown len).readable = b.readable ∧ (b.grown len).writableBytes = len := by
  have hw := hb.writer_le
  have hr := hb.reader_le
  rw [hb.writableBytes_eq] at h
  have hres := resize_of_le (show b.buffer_.length ≤ b.writerIndex_ + len by omega)
  have hlen := grown_length len b
  have hg : (b.grown len).Wf := ⟨hr, by rw [hlen]; exact Nat.le_add_right _ _⟩
  refine ⟨hg, ?_, ?_⟩
  · have hs := hb.storage
    have hpre : (b.buffer_.take b.readerIndex_).length = b.readerIndex_ :=
      List.length_take_of_le (by omega)
    have hmid : b.readable.length = b.writerIndex_ - b.readerIndex_ := by
      rw [hb.readable_length, hb.readableBytes_eq]
    rw [grown, hres]
    conv_lhs => rw [hs, List.append_assoc (List.take _ _ ++ _)]
    exact readable_of_parts hpre.symm (by rw [hpre, hmid]; omega)
  · rw [hg.writableBytes_eq, hlen]
    exact Nat.add_sub_cancel_left ..

theorem compacted_length (b : Buffer) : b.compacted.buffer_.length = b.buffer_.length :=
  copyWithin_length ..

theorem compacted_spec {b : Buffer} (hb : b.Wf) (h : kCheapPrepend < b.readerIndex_) :
    b.compacted.Wf ∧ b.compacted.readable = b.readable ∧
      b.compacted.writableBytes + kCheapPrepend = b.writableBytes + b.prependableBytes := by
  have hw := hb.writer_le
  have hr := hb.reader_le
  have hn := hb.readableBytes_eq
  have hcopy := copyWithin_eq b.readableBytes (Nat.le_of_lt h)
    (show b.readerIndex_ + b.readableBytes ≤ b.buffer_.length by omega)
  change _ = _ ++ b.readable ++ _ at hcopy
  have hpre : (b.buffer_.take kCheapPrepend).length = kCheapPrepend :=
    List.length_take_of_le (by omega)
  have hlen := b.compacted_length
  have hc : b.compacted.Wf :=
    ⟨Nat.le_add_right _ _, by rw [hlen]; simp only [compacted]; omega⟩
  refine ⟨hc, ?_, ?_⟩
  · rw [compacted, hcopy]
    exact readable_of_parts hpre.symm (by rw [hpre, hb.readable_length])
  · rw [hc.writableBytes_eq, hb.writableBytes_eq, hlen, prependableBytes]
    simp only [compacted]
    omega

theorem makeSpace_eq (b : Buffer) (len : Nat) : b.makeSpace len =
    if b.writableBytes + b.prependableBytes < len then .ok (b.grown len)
    else if b.readerIndex_ ≤ kCheapPrepend then .error .cheapPrepend
    else .ok b.compacted := by
  have hself : b.compacted.readableBytes = b.readableBytes := by
    simp only [readableBytes, compacted, sizeDiff_of_le (Nat.le_add_right _ _),
      Nat.add_sub_cancel_left]
  unfold makeSpace
  split
  · rfl
  · split
    · next hle => rw [check_neg (Nat.not_lt.mpr hle)]; rfl
    · next hgt =>
      rw [check_pos (Nat.not_le.mp hgt), ok_bind]
      exact check_bind_eq_ok.mpr ⟨hself.symm, rfl⟩

/-- The whole outcome of `ensureWritableBytes` on a well-formed buffer. -/
theorem ensureWritableBytes_eq {b : Buffer} (hb : b.Wf) (len : Nat) : b.ensureWritableBytes len =
    if len ≤ b.writableBytes then .ok b
    else if b.writableBytes + b.prependableBytes < len then .ok (b.grown len)
    else if b.readerIndex_ ≤ kCheapPrepend then .error .cheapPrepend
    else if b.writableBytes + b.prependableBytes < len + kCheapPrepend then .error .writable
    else .ok b.compacted := by
  unfold ensureWritableBytes
  by_cases hfit : len ≤ b.writableBytes
  · rw [if_neg (Nat.not_lt.mpr hfit), if_pos hfit, ok_bind]
    exact check_bind_eq_ok.mpr ⟨hfit, rfl⟩
  rw [if_pos (Nat.not_le.mp hfit), if_neg hfit, makeSpace_eq]
  by_cases hgrow : b.writableBytes + b.prependableBytes < len
  · obtain ⟨-, -, hroom⟩ := grown_spec hb (Nat.not_le.mp hfit)
    rw [if_pos hgrow, if_pos hgrow, ok_bind]
    exact check_bind_eq_ok.mpr ⟨Nat.le_of_eq hroom.symm, rfl⟩
  rw [if_neg hgrow, if_neg hgrow]
  by_cases hfront : b.readerIndex_ ≤ kCheapPrepend
  · rw [if_pos hfront, if_pos hfront]
    rfl
  obtain ⟨-, -, hroom⟩ := compacted_spec hb (Nat.not_le.mp hfront)
  rw [if_neg hfront, if_neg hfront, ok_bind]
  dsimp only
  by_cases htight : b.writableBytes + b.prependableBytes < len + kCheapPrepend
  · rw [if_pos htight, check_neg (by omega)]
    rfl
  · rw [if_neg htight]
    exact check_bind_eq_ok.mpr ⟨by omega, rfl⟩

/-- What `ensureWritableBytes` promises whenever it returns. -/
theorem ensureWritableBytes_spec {b b' : Buffer} {len : Nat} (hb : b.Wf)
    (h : b.ensureWritableBytes len = .ok b') :
    b'.Wf ∧ b'.readable = b.readable ∧ len ≤ b'.writableBytes := by
  rw [ensureWritableBytes_eq hb] at h
  split at h
  · next hfit => cases h; exact ⟨hb, rfl, hfit⟩
  split at h
  · next hfit _ =>
    cases h
    obtain ⟨hg, hr, hw⟩ := grown_spec hb (Nat.not_le.mp hfit)
    exact ⟨hg, hr, Nat.le_of_eq hw.symm⟩
  split at h
  · cases h
  split at h
  · cases h
  · next hfront htight =>
    cases h
    obtain ⟨hc, hr, hw⟩ := compacted_spec hb (Nat.not_le.mp hfront)
    exact ⟨hc, hr, by omega⟩

/-! ## Adding at either end -/

/-- Bytes written at `beginWrite()` and declared by `hasWritten`, where they fit. -/
theorem written_spec {b : Buffer} {data : List UInt8} {len : Nat} (hb : b.Wf)
    (hfit : data.length ≤ b.writableBytes) (hlen : len ≤ data.length) :
    ((b.writeAtEnd data).hasWritten len).Wf ∧
      ((b.writeAtEnd data).hasWritten len).readable = b.readable ++ data.take len := by
  have hw := hb.writer_le
  have hr := hb.reader_le
  rw [hb.writableBytes_eq] at hfit
  refine ⟨⟨?_, ?_⟩, ?_⟩
  · exact Nat.le_trans hr (Nat.le_add_right _ _)
  · simp only [writeAtEnd, hasWritten, store_length]
    omega
  · have hpre : (b.buffer_.take b.readerIndex_).length = b.readerIndex_ :=
      List.length_take_of_le (by omega)
    have hmid : b.readable.length = b.writerIndex_ - b.readerIndex_ := by
      rw [hb.readable_length, hb.readableBytes_eq]
    have htake : b.buffer_.take b.writerIndex_ = b.buffer_.take b.readerIndex_ ++ b.readable := by
      conv_lhs => rw [hb.storage]
      rw [List.take_left' (by rw [List.length_append, hpre, hmid]; omega)]
    have hstore : store b.buffer_ b.writerIndex_ data = b.buffer_.take b.readerIndex_ ++
        (b.readable ++ data.take len) ++
        (data.drop len ++ b.buffer_.drop (b.writerIndex_ + data.length)) := by
      rw [store_eq data (by omega), htake]
      simp only [List.append_assoc]
      rw [← List.append_assoc (data.take len), List.take_append_drop]
    rw [writeAtEnd, hasWritten, hstore]
    refine readable_of_parts hpre.symm ?_
    rw [hpre, List.length_append, hmid, List.length_take_of_le hlen]
    dsimp only
    omega

theorem append_eq_ok {b b' : Buffer} {data : List UInt8} : b.append data = .ok b' ↔
    ∃ c, b.ensureWritableBytes data.length = .ok c ∧
      b' = (c.writeAtEnd data).hasWritten data.length := by
  rw [append, bind_eq_ok]
  exact exists_congr fun c => and_congr_right fun _ =>
    ⟨fun h => (Except.ok.inj h).symm, fun h => h ▸ rfl⟩

theorem append_spec {b b' : Buffer} {data : List UInt8} (hb : b.Wf)
    (h : b.append data = .ok b') : b'.Wf ∧ b'.readable = b.readable ++ data := by
  obtain ⟨c, hc, rfl⟩ := append_eq_ok.mp h
  obtain ⟨hcwf, hcr, hroom⟩ := ensureWritableBytes_spec hb hc
  obtain ⟨hwf, hr⟩ := written_spec hcwf hroom (Nat.le_refl _)
  rw [List.take_length, hcr] at hr
  exact ⟨hwf, hr⟩

theorem prepend_eq_ok {b b' : Buffer} {data : List UInt8} : b.prepend data = .ok b' ↔
    data.length ≤ b.readerIndex_ ∧
      b' = { b with
        buffer_ := store b.buffer_ (b.readerIndex_ - data.length) data
        readerIndex_ := b.readerIndex_ - data.length } := by
  rw [prepend, check_bind_eq_ok, prependableBytes]
  exact and_congr_right fun _ => ⟨fun h => (Except.ok.inj h).symm, fun h => h ▸ rfl⟩

theorem prepend_spec {b b' : Buffer} {data : List UInt8} (hb : b.Wf)
    (h : b.prepend data = .ok b') : b'.Wf ∧ b'.readable = data ++ b.readable := by
  obtain ⟨hlen, rfl⟩ := prepend_eq_ok.mp h
  have hw := hb.writer_le
  have hr := hb.reader_le
  refine ⟨⟨by dsimp only; omega, by dsimp only; rw [store_length]; exact hw⟩, ?_⟩
  have hpre : (b.buffer_.take (b.readerIndex_ - data.length)).length =
      b.readerIndex_ - data.length := List.length_take_of_le (by omega)
  have hmid : b.readable.length = b.writerIndex_ - b.readerIndex_ := by
    rw [hb.readable_length, hb.readableBytes_eq]
  have hdrop : b.buffer_.drop b.readerIndex_ = b.readable ++ b.buffer_.drop b.writerIndex_ := by
    conv_lhs => rw [hb.storage, List.append_assoc]
    exact List.drop_left' (List.length_take_of_le (by omega))
  have hstore : store b.buffer_ (b.readerIndex_ - data.length) data =
      b.buffer_.take (b.readerIndex_ - data.length) ++ (data ++ b.readable) ++
        b.buffer_.drop b.writerIndex_ := by
    rw [store_eq data (by omega), Nat.sub_add_cancel hlen, hdrop]
    simp only [List.append_assoc]
  rw [hstore]
  refine readable_of_parts hpre.symm ?_
  rw [hpre, List.length_append, hmid]
  omega

/-- `readFd` after a successful `readv`: one append of all the bytes delivered, although they reach
the buffer in two parts. -/
theorem readFd_data_spec {b b' : Buffer} {bytes : List UInt8} {n : Except Nat Nat} (hb : b.Wf)
    (h : b.readFd (.data bytes) = .ok (n, b')) :
    b'.Wf ∧ b'.readable = b.readable ++ bytes ∧ n = .ok bytes.length := by
  simp only [readFd] at h
  split at h
  · next hfit =>
    cases h
    obtain ⟨hwf, hr⟩ := written_spec hb hfit (Nat.le_refl _)
    rw [List.take_of_length_le hfit]
    rw [List.take_length] at hr
    exact ⟨hwf, hr, rfl⟩
  · next hover =>
    obtain ⟨c, hc, hret⟩ := bind_eq_ok.mp h
    cases hret
    -- the storage is filled to its end first: that is `hasWritten` of all the writable bytes
    have hfull : (bytes.take b.writableBytes).length = b.writableBytes :=
      List.length_take_of_le (Nat.le_of_lt (Nat.not_le.mp hover))
    obtain ⟨hwf, hr⟩ := written_spec hb (Nat.le_of_eq hfull) (Nat.le_of_eq hfull.symm)
    have hend : (b.writeAtEnd (bytes.take b.writableBytes)).hasWritten b.writableBytes =
        { b.writeAtEnd (bytes.take b.writableBytes) with
          writerIndex_ := (b.writeAtEnd (bytes.take b.writableBytes)).buffer_.length } := by
      have := hb.writer_le
      have := hb.writableBytes_eq
      simp only [hasWritten, writeAtEnd, store_length, mk.injEq, true_and]
      omega
    rw [hend] at hwf hr
    obtain ⟨hcwf, hcr⟩ := append_spec hwf hc
    rw [hr, List.take_take, Nat.min_self, List.append_assoc, List.take_append_drop] at hcr
    exact ⟨hcwf, hcr, rfl⟩

end Buffer

end Netfish
