import Netfish.Net.ConnectionMoves

/-!
# The output stream of a connection

The kernel's bytes followed by `outputBuffer_` are the messages for which `sendInLoop` ran, whole and
in that order; and every caller's messages run in the order of its calls. Both hold through direct
writes, partial writes, failed writes, closes and faults, on either route of a message.
-/

set_option autoImplicit false

namespace Netfish

open Kit

universe u

/-- The messages of one caller, in order. -/
def messagesOf {T : Type u} [DecidableEq T] (o : Option T) (l : List (Option T × List UInt8)) :
    List (List UInt8) :=
  (l.filter fun p => p.1 = o).map Prod.snd

/-- The message of a `send` that has passed its test and has not got further. -/
def CallerPc.message : CallerPc → List (List UInt8)
  | .sending message => [message]
  | _ => []

section Messages

variable {T : Type u} [DecidableEq T] {o o' : Option T} {l l' : List (Option T × List UInt8)}
  {message : List UInt8}

@[simp] theorem messagesOf_append :
    messagesOf o (l ++ l') = messagesOf o l ++ messagesOf o l' := by
  simp [messagesOf]

@[simp] theorem messagesOf_self : messagesOf o [(o, message)] = [message] := by
  simp [messagesOf]

theorem messagesOf_ne (h : o' ≠ o) : messagesOf o [(o', message)] = [] := by
  simp [messagesOf, h]

/-- Only other threads queue messages. -/
theorem messagesOf_queued_none (fs : List (ConnFunctor T)) :
    messagesOf none (ConnState.queued fs) = [] := by
  induction fs with
  | nil => rfl
  | cons f fs ih => cases f <;> exact ih

end Messages

namespace ConnState

section

variable {T : Type u}

theorem flatten_record {l : List (Option T × List UInt8)} {o : Option T} {message : List UInt8} :
    ((l ++ [(o, message)]).map Prod.snd).flatten = (l.map Prod.snd).flatten ++ message := by
  simp

/-- The next functor leaves the batch. -/
theorem queued_next {q q' : BatchQueue (ConnFunctor T)} {f : ConnFunctor T}
    (h : q.next = some (f, q')) : queued q.toList = queued [f] ++ queued q'.toList := by
  rw [BatchQueue.toList_of_next h, ← List.singleton_append, queued_append]

/-- `shutdownInLoop` writes nothing. -/
theorem wireOf_shutdownInLoop (c : TcpConnection) : wireOf c.shutdownInLoop = [] := by
  unfold TcpConnection.shutdownInLoop
  split <;> rfl

theorem completionsOf_shutdownInLoop (c : TcpConnection) :
    (completionsOf c.shutdownInLoop : List (ConnFunctor T)) = [] := by
  unfold TcpConnection.shutdownInLoop
  split <;> rfl

end

variable {T : Type u} [DecidableEq T] {s s' : ConnState T} {a : ConnAct T}

/-- The messages that ran and those queued to run, in order. -/
def stream (s : ConnState T) : List (Option T × List UInt8) :=
  s.ran ++ queued s.functors.toList

/-- The invariant. -/
structure Streams (s : ConnState T) : Prop where
  wf : s.conn.channel_.Wf
  bytes : s.wire ++ s.conn.outputBuffer_ = (s.ran.map Prod.snd).flatten
  order : ∀ o, s.accepted o = messagesOf o s.stream ++ (s.calls o).message
  /-- A batch is worked off before the loop does anything else. -/
  worked : s.pc.inBatch = false → s.functors.batch = []

theorem start_streams (m w : Bool) : (start m w : ConnState T).Streams where
  wf := Channel.new_wf
  bytes := rfl
  order _ := rfl
  worked _ := rfl

/-- A step of one caller changes the order of that caller only. -/
theorem order_update (h : s.Streams) {o : Option T} {pc : CallerPc} {l : List (List UInt8)}
    (hpc : l = messagesOf o s.stream ++ pc.message) (o' : Option T) :
    Function.update s.accepted o l o' =
      messagesOf o' s.stream ++ (Function.update s.calls o pc o').message := by
  by_cases ho : o' = o
  · subst ho
    rw [Function.update_self, Function.update_self, hpc]
  · rw [Function.update_of_ne ho, Function.update_of_ne ho, h.order]

/-- A caller moves without a message. -/
theorem order_setCall (h : s.Streams) {o : Option T} {pc : CallerPc}
    (hold : (s.calls o).message = []) (hnew : pc.message = []) (o' : Option T) :
    s.accepted o' = messagesOf o' s.stream ++ (Function.update s.calls o pc o').message := by
  have hsame : s.accepted o = messagesOf o s.stream ++ pc.message := by
    rw [h.order, hold, hnew]
  have hup := order_update h hsame o'
  rwa [Function.update_eq_self] at hup

/-- A message moves from its `send` to the end of the stream. -/
theorem order_move (h : s.Streams) {o : Option T} {message : List UInt8}
    (hc : s.calls o = .sending message) {l : List (Option T × List UInt8)}
    (hl : ∀ o', messagesOf o' l = messagesOf o' s.stream ++ messagesOf o' [(o, message)])
    (o' : Option T) :
    s.accepted o' = messagesOf o' l ++ (Function.update s.calls o .idle o').message := by
  rw [hl, h.order]
  by_cases ho : o' = o
  · subst ho
    rw [hc, Function.update_self, messagesOf_self]
    simp [CallerPc.message]
  · rw [Function.update_of_ne ho, messagesOf_ne (Ne.symm ho), List.append_nil]

/-- Each step keeps the stream. -/
theorem Streams.step (h : s.Streams) (hs : s.step a = some s') : s'.Streams := by
  cases step_move h.wf hs with
  | fault f => exact ⟨h.wf, h.bytes, h.order, h.worked⟩
  | refused => exact h
  | @accept o message hc hstate =>
    refine ⟨h.wf, h.bytes, order_update h ?_, h.worked⟩
    rw [h.order, hc.1]
    simp [CallerPc.message]
  | @sendPush t message hc =>
    refine ⟨h.wf, h.bytes, order_move h hc ?_, h.worked⟩
    intro o'
    simp [stream, setCall]
  | @sendHere w message conn es hc hsent =>
    simp only [perform_eq, setCall, record]
    refine ⟨hsent.wf, ?_, order_move h hc ?_, fun hb => h.worked hb⟩
    · rw [flatten_record, ← h.bytes, List.append_assoc, hsent.stream, List.append_assoc]
    · intro o'
      -- the loop's own messages are never queued, so none of them is overtaken
      simp only [stream, BatchQueue.toList_pushAll, queued_append,
        queued_completions, List.append_nil, messagesOf_append]
      cases o' with
      | none => simp [messagesOf_queued_none]
      | some t => simp [messagesOf_ne]
  | @shutTest o hc hstate =>
    exact ⟨h.wf, h.bytes, order_setCall h (by rw [hc.1]; rfl) rfl, h.worked⟩
  | @shutSet o hc => exact ⟨h.wf, h.bytes, order_setCall h (by rw [hc]; rfl) rfl, h.worked⟩
  | @shutPush t hc =>
    refine ⟨h.wf, h.bytes, ?_, h.worked⟩
    intro o'
    have hidle : CallerPc.idle.message = [] := rfl
    have ho := order_setCall h (by rw [hc]; rfl : (s.calls (some t)).message = []) hidle o'
    simpa [stream, setCall] using ho
  | shutHere hc =>
    simp only [perform_eq, wireOf_shutdownInLoop, completionsOf_shutdownInLoop, List.append_nil]
    refine ⟨h.wf, h.bytes, ?_, fun hb => h.worked hb⟩
    intro o'
    have hidle : CallerPc.idle.message = [] := rfl
    have ho := order_setCall h (by rw [hc]; rfl : (s.calls none).message = []) hidle o'
    simpa [stream, setCall, BatchQueue.pushAll] using ho
  | goto hb hb' => exact ⟨h.wf, h.bytes, h.order, fun _ => h.worked hb⟩
  | connectEstablished hstate hwf => exact ⟨hwf, h.bytes, h.order, h.worked⟩
  | close ha hb hwf => exact ⟨hwf, h.bytes, h.order, fun _ => h.worked hb⟩
  | callWrite hb hwrote =>
    simp only [perform_eq]
    refine ⟨hwrote.wf, ?_, ?_, fun _ => h.worked hb⟩
    · rw [← h.bytes, List.append_assoc, hwrote.stream]
    · intro o'
      simpa [stream] using h.order o'
  | queueDestroyed hr =>
    refine ⟨h.wf, h.bytes, ?_, h.worked⟩
    intro o'
    simpa [stream] using h.order o'
  | beginFunctors hpc =>
    refine ⟨h.wf, h.bytes, ?_, fun hb => by cases hb⟩
    intro o'
    rw [stream, BatchQueue.toList_swap (h.worked (by rw [hpc]; rfl))]
    exact h.order o'
  | @runSend w t message rest conn es hpc hnext hsent =>
    simp only [perform_eq, record]
    refine ⟨hsent.wf, ?_, ?_, fun hb => by simp [hpc, ConnPc.inBatch] at hb⟩
    · rw [flatten_record, ← h.bytes, List.append_assoc, hsent.stream, List.append_assoc]
    · intro o'
      have ho := h.order o'
      rw [stream, queued_next hnext] at ho
      simpa [stream] using ho
  | @runShutdown w rest hpc hnext =>
    simp only [perform_eq, wireOf_shutdownInLoop, completionsOf_shutdownInLoop, List.append_nil]
    refine ⟨h.wf, h.bytes, ?_, fun hb => by simp [hpc, ConnPc.inBatch] at hb⟩
    intro o'
    have ho := h.order o'
    rw [stream, queued_next hnext] at ho
    simpa [stream] using ho
  | @runWriteComplete w rest hpc hnext =>
    refine ⟨h.wf, h.bytes, ?_, fun hb => by simp [hpc, ConnPc.inBatch] at hb⟩
    intro o'
    have ho := h.order o'
    rw [stream, queued_next hnext] at ho
    simpa [stream] using ho
  | @beginDestroyed w rest channel hpc hnext hwf =>
    refine ⟨hwf, h.bytes, ?_, fun hb => by cases hb⟩
    intro o'
    have ho := h.order o'
    rw [stream, queued_next hnext] at ho
    simpa [stream] using ho
  | @destroyFault w rest hpc hnext f =>
    refine ⟨h.wf, h.bytes, ?_, fun hb => by simp [hpc, ConnPc.inBatch] at hb⟩
    intro o'
    have ho := h.order o'
    rw [stream, queued_next hnext] at ho
    simpa [stream] using ho
  | endDestroyed hpc hwf => exact ⟨hwf, h.bytes, h.order, fun hb => by cases hb⟩
  | endFunctors hpc hb => exact ⟨h.wf, h.bytes, h.order, fun _ => hb⟩

theorem streams_of_reachable (h : (tcpConnection T).Reachable s) : s.Streams :=
  h.invariant Streams (by rintro _ ⟨m, w, rfl⟩; exact start_streams m w) fun _ _ _ => Streams.step

/-- Every message that ran was accepted. -/
theorem Streams.accepted_ran (h : s.Streams) {q : Option T × List UInt8} (hq : q ∈ s.ran) :
    q.2 ∈ s.accepted q.1 := by
  have hmem : q.2 ∈ messagesOf q.1 s.ran :=
    List.mem_map.mpr ⟨q, List.mem_filter.mpr ⟨hq, by simp⟩, rfl⟩
  rw [h.order q.1, stream, messagesOf_append, List.append_assoc]
  exact List.mem_append_left _ hmem

/-- When only the loop's thread sends, its messages are those that ran, and the one under way. -/
theorem Streams.accepted_alone (h : s.Streams) (halone : ∀ t, s.accepted (some t) = []) :
    s.accepted none = s.ran.map Prod.snd ++ (s.calls none).message := by
  have hnone : s.ran.filter (fun p => p.1 = none) = s.ran := by
    apply List.filter_eq_self.mpr
    intro p hp
    have hmem := h.accepted_ran hp
    cases ho : p.1 with
    | none => rfl
    | some t =>
      -- the message of another thread would be an accepted one
      rw [ho, halone] at hmem
      cases hmem
  rw [h.order none, stream, messagesOf_append, messagesOf_queued_none, List.append_nil, messagesOf, hnone]

end ConnState

variable {T : Type u} [DecidableEq T] {s : ConnState T}

/-- **Output stream integrity.** In every reachable state of a connection, for any number of callers
and any results of `::write`: the bytes the kernel took followed by `outputBuffer_` are the messages
given to `sendInLoop`, whole, in the order it ran; and for every caller, the messages of its accepted
calls, in call order, are those that ran, then those that are queued, then the one of a `send` still
under way. -/
theorem output_stream (h : (tcpConnection T).Reachable s) :
    s.wire ++ s.conn.outputBuffer_ = (s.ran.map Prod.snd).flatten ∧
    ∀ o, s.accepted o = messagesOf o s.ran ++ messagesOf o (ConnState.queued s.functors.toList) ++
      (s.calls o).message := by
  have hs := ConnState.streams_of_reachable h
  refine ⟨hs.bytes, ?_⟩
  intro o
  rw [hs.order o, ConnState.stream, messagesOf_append]

/-- Two messages of one thread; the kernel takes two bytes of the first, so the second waits. -/
theorem output_stream_partial :
    ∃ s : ConnState Unit, (tcpConnection Unit).Reachable s ∧ s.wire = [1, 2] ∧
      s.conn.outputBuffer_ = [3, 4] ∧
      s.wire ++ s.conn.outputBuffer_ = (s.ran.map Prod.snd).flatten := by
  have hreach : (tcpConnection Unit).Reachable _ := ⟨.start true false,
    [.connectEstablished, .sendTest (some ()) [1, 2, 3], .sendPush (), .sendTest (some ()) [4],
      .sendPush (), .beginFunctors, .runFunctor (.wrote 2), .runFunctor .failed],
    ⟨true, false, rfl⟩, rfl⟩
  exact ⟨_, hreach, rfl, rfl, (output_stream hreach).1⟩

end Netfish
