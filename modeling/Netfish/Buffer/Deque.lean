import Netfish.Buffer.Spec
import Netfish.Kit.Machine

/-!
# Buffers refine byte queues

What a buffer is for: a queue of bytes that grows at the back, takes headers at the front and is
read from the front. `ByteQueue` is that queue with no storage and no indices. `buffers` runs any
number of Buffer objects, one call at a time, swaps between them included; `byteQueues` runs the
same calls on queues. `step_refines` is one call, `buffers_refine_byteQueues` every run.

A call outside its asserted precondition and a call one of whose assertions fails are not steps: a
run ends there. `shrink` is not among the calls.
-/

set_option autoImplicit false

namespace Netfish

open Kit

universe u

/-- The calls on one buffer. -/
inductive BufferOp where
  | append (data : List UInt8)
  | readFd (result : Buffer.ReadResult)
  | ensureWritableBytes (len : Nat)
  /-- Store `data` at `beginWrite()`, then `hasWritten(len)`. -/
  | hasWritten (data : List UInt8) (len : Nat)
  | prepend (data : List UInt8)
  | retrieve (len : Nat)
  /-- `end` is the pointer `len` bytes behind `peek()`. -/
  | retrieveUntil (len : Nat)
  | retrieveAll
  | retrieveAsString
deriving DecidableEq, Repr

/-- One call; `none` when it is outside its precondition or an assertion fails. `readv` can deliver
no more than the writable bytes and `extrabuf` hold. -/
def Buffer.call (b : Buffer) : BufferOp → Option Buffer
  | .append data => (b.append data).toOption
  | .readFd (.data bytes) =>
    if bytes.length ≤ b.writableBytes + kExtraSize then
      (b.readFd (.data bytes)).toOption.map Prod.snd
    else none
  | .readFd (.error errno) => (b.readFd (.error errno)).toOption.map Prod.snd
  | .ensureWritableBytes len => (b.ensureWritableBytes len).toOption
  | .hasWritten data len =>
    if data.length ≤ b.writableBytes ∧ len ≤ data.length then
      some ((b.writeAtEnd data).hasWritten len)
    else none
  | .prepend data => (b.prepend data).toOption
  | .retrieve len => (b.retrieve len).toOption
  | .retrieveUntil len => (b.retrieveUntil (b.readerIndex_ + len)).toOption
  | .retrieveAll => b.retrieveAll.toOption
  | .retrieveAsString => b.retrieveAsString.toOption.map Prod.snd

/-- A queue of bytes, front first. -/
abbrev ByteQueue := List UInt8

namespace ByteQueue

def pushBack (bytes : List UInt8) (q : ByteQueue) : ByteQueue := q ++ bytes

def pushFront (bytes : List UInt8) (q : ByteQueue) : ByteQueue := bytes ++ q

/-- Drop from the front, as much as there is at most. -/
def dropFront (len : Nat) (q : ByteQueue) : Option ByteQueue :=
  if len ≤ q.length then some (q.drop len) else none

/-- What each call of a buffer means for the queue. -/
def call (q : ByteQueue) : BufferOp → Option ByteQueue
  | .append data => some (q.pushBack data)
  | .readFd (.data bytes) => some (q.pushBack bytes)
  | .readFd (.error _) => some q
  | .ensureWritableBytes _ => some q
  | .hasWritten data len => some (q.pushBack (data.take len))
  | .prepend data => some (q.pushFront data)
  | .retrieve len => q.dropFront len
  | .retrieveUntil len => q.dropFront len
  | .retrieveAll => some []
  | .retrieveAsString => some []

end ByteQueue

/-- A call on one of several objects, or a swap of two. -/
inductive BufferCall (ι : Type u) where
  | on (i : ι) (op : BufferOp)
  | swap (i j : ι)

variable {ι : Type u} [DecidableEq ι]

/-- A family of objects, and calls on them one at a time. -/
def family {τ : Type} (new : τ) (call : τ → BufferOp → Option τ) :
    Machine (ι → τ) (BufferCall ι) where
  init s := s = fun _ => new
  step s
    | .on i op => (call (s i) op).map (Function.update s i)
    | .swap i j => some (Function.update (Function.update s i (s j)) j (s i))

/-- Buffer objects, each as its constructor leaves it. -/
def buffers (ι : Type u) [DecidableEq ι] : Machine (ι → Buffer) (BufferCall ι) :=
  family .new Buffer.call

def byteQueues (ι : Type u) [DecidableEq ι] : Machine (ι → ByteQueue) (BufferCall ι) :=
  family [] ByteQueue.call

/-! ## One call -/

/-- One call on a well-formed buffer is the call on its queue. -/
theorem Buffer.call_refines {b b' : Buffer} {op : BufferOp} (hb : b.Wf) (h : b.call op = some b') :
    b'.Wf ∧ ByteQueue.call b.readable op = some b'.readable := by
  cases op with
  | append data =>
    obtain ⟨hwf, hr⟩ := append_spec hb (toOption_eq_some.mp h)
    exact ⟨hwf, congrArg some hr.symm⟩
  | readFd r =>
    cases r with
    | error errno => cases h; exact ⟨hb, rfl⟩
    | data bytes =>
      rw [Buffer.call, Option.ite_none_right_eq_some] at h
      obtain ⟨⟨n, c⟩, hc, rfl⟩ := Option.map_eq_some_iff.mp h.2
      obtain ⟨hwf, hr, -⟩ := readFd_data_spec hb (toOption_eq_some.mp hc)
      exact ⟨hwf, congrArg some hr.symm⟩
  | ensureWritableBytes len =>
    obtain ⟨hwf, hr, -⟩ := ensureWritableBytes_spec hb (toOption_eq_some.mp h)
    exact ⟨hwf, congrArg some hr.symm⟩
  | hasWritten data len =>
    rw [Buffer.call, Option.ite_none_right_eq_some] at h
    obtain ⟨⟨hfit, hlen⟩, h⟩ := h
    cases h
    obtain ⟨hwf, hr⟩ := written_spec hb hfit hlen
    exact ⟨hwf, congrArg some hr.symm⟩
  | prepend data =>
    obtain ⟨hwf, hr⟩ := prepend_spec hb (toOption_eq_some.mp h)
    exact ⟨hwf, congrArg some hr.symm⟩
  | retrieve len =>
    have h := toOption_eq_some.mp h
    obtain ⟨hwf, hr⟩ := retrieve_spec hb h
    refine ⟨hwf, ?_⟩
    rw [ByteQueue.call, ByteQueue.dropFront, hb.readable_length,
      if_pos (retrieve_eq_ok.mp h).1, hr]
  | retrieveUntil len =>
    obtain ⟨-, -, h⟩ := retrieveUntil_eq_ok.mp (toOption_eq_some.mp h)
    rw [Nat.add_sub_cancel_left] at h
    obtain ⟨hwf, hr⟩ := retrieve_spec hb h
    refine ⟨hwf, ?_⟩
    rw [ByteQueue.call, ByteQueue.dropFront, hb.readable_length,
      if_pos (retrieve_eq_ok.mp h).1, hr]
  | retrieveAll =>
    obtain ⟨hwf, hr⟩ := retrieveAll_spec hb (toOption_eq_some.mp h)
    exact ⟨hwf, congrArg some hr.symm⟩
  | retrieveAsString =>
    obtain ⟨⟨str, c⟩, hc, rfl⟩ := Option.map_eq_some_iff.mp h
    obtain ⟨hwf, hr⟩ := retrieveAll_spec hb (retrieveAsString_eq_ok.mp (toOption_eq_some.mp hc)).2
    exact ⟨hwf, congrArg some hr.symm⟩

/-! ## Every run -/

/-- The queue each buffer stands for. -/
def contents (s : ι → Buffer) (i : ι) : ByteQueue := (s i).readable

omit [DecidableEq ι] in
private theorem contents_update [DecidableEq ι] (s : ι → Buffer) (i : ι) (b : Buffer) :
    contents (Function.update s i b) = Function.update (contents s) i b.readable := by
  funext j
  by_cases hj : j = i
  · subst hj; simp [contents]
  · simp [contents, hj]

/-- One call on the family. -/
theorem step_refines {s s' : ι → Buffer} {c : BufferCall ι} (hs : ∀ i, (s i).Wf)
    (h : (buffers ι).step s c = some s') :
    (∀ i, (s' i).Wf) ∧ (byteQueues ι).step (contents s) c = some (contents s') := by
  cases c with
  | on i op =>
    obtain ⟨b, hb, rfl⟩ := Option.map_eq_some_iff.mp h
    obtain ⟨hwf, hq⟩ := Buffer.call_refines (hs i) hb
    refine ⟨?_, ?_⟩
    · intro j
      by_cases hj : j = i
      · subst hj; simpa using hwf
      · simpa [hj] using hs j
    · exact Option.map_eq_some_iff.mpr ⟨b.readable, hq, (contents_update s i b).symm⟩
  | swap i j =>
    cases h
    refine ⟨?_, ?_⟩
    · intro k
      by_cases hk : k = j
      · subst hk; simpa using hs i
      · by_cases hk' : k = i
        · subst hk'; simpa [hk] using hs j
        · simpa [hk, hk'] using hs k
    · rw [contents_update, contents_update]
      rfl

theorem buffers_refine {s s' : ι → Buffer} {cs : List (BufferCall ι)} (hs : ∀ i, (s i).Wf)
    (h : (buffers ι).run s cs = some s') :
    (∀ i, (s' i).Wf) ∧ (byteQueues ι).run (contents s) cs = some (contents s') :=
  Machine.run_simulates (fun s => ∀ i, (s i).Wf) contents (fun _ _ _ => step_refines) hs h

/-- Every buffer a run reaches is well formed. -/
theorem reachable_wf {s : ι → Buffer} (h : (buffers ι).Reachable s) (i : ι) : (s i).Wf := by
  refine h.invariant (fun s => ∀ i, (s i).Wf) ?_ (fun _ _ _ hs hc => (step_refines hs hc).1) i
  rintro s rfl i
  exact Buffer.new_wf

/-- **Buffers refine byte queues.** After every run of calls on any family of fresh buffers the
indices are in order, the readable bytes of each buffer are the queue that the same calls build,
`retrieveAsString` hands out that whole queue, and moving the readable bytes to the front keeps
them. -/
theorem buffers_refine_byteQueues {s : ι → Buffer} {cs : List (BufferCall ι)}
    (h : (buffers ι).run (fun _ => .new) cs = some s) :
    (∀ i, (s i).readerIndex_ ≤ (s i).writerIndex_ ∧ (s i).writerIndex_ ≤ (s i).buffer_.length) ∧
    (byteQueues ι).run (fun _ => []) cs = some (fun i => (s i).readable) ∧
    (∀ i, ∃ b, (s i).retrieveAsString = .ok ((s i).readable, b) ∧ b.readable = []) ∧
    (∀ i, Buffer.kCheapPrepend < (s i).readerIndex_ →
      (s i).compacted.readable = (s i).readable) := by
  obtain ⟨hwf, hq⟩ := buffers_refine (fun _ => Buffer.new_wf) h
  have hnew : contents (fun _ : ι => Buffer.new) = fun _ => [] :=
    funext fun _ => Buffer.new_readable
  refine ⟨fun i => ⟨(hwf i).reader_le, (hwf i).writer_le⟩, hnew ▸ hq, ?_, ?_⟩
  · intro i
    obtain ⟨b, hb⟩ := (s i).retrieveAll_ok
    exact ⟨b, Buffer.retrieveAsString_eq_ok.mpr ⟨rfl, hb⟩, (Buffer.retrieveAll_spec (hwf i) hb).2⟩
  · intro i hi
    exact (Buffer.compacted_spec (hwf i) hi).2.1

set_option maxRecDepth 20000 in
/-- Two buffers: an append, a header in front, bytes read away, a swap. -/
theorem buffers_refine_byteQueues_swap :
    ∃ s, (buffers Bool).run (fun _ => .new) [.on true (.append [1, 2, 3]),
        .on true (.prepend [9]), .on true (.retrieve 2), .swap true false] = some s ∧
      (byteQueues Bool).run (fun _ => []) [.on true (.append [1, 2, 3]),
        .on true (.prepend [9]), .on true (.retrieve 2), .swap true false] =
        some (fun i => (s i).readable) :=
  ⟨_, rfl, (buffers_refine_byteQueues rfl).2.1⟩

end Netfish
