import Netfish.Net.WriteInterest

/-!
# Write completion

`writeCompleteCallback_` is queued by a direct write that takes the whole message and by the `handleWrite`
that empties the buffer. Beside the connection stand the notices queued since the most recent `sendInLoop`
began, and the turns of a sender that sends a first message and then one message a notice, as a character
generator does. `write_complete_exact` says that a notice says exactly that nothing is left to write, and that
such a sender always has its turn in one place: with itself, with its message in `send`, with a queued notice,
or with the bytes the channel is writing.
-/

set_option autoImplicit false

namespace Netfish

open Kit

universe u

/-- What the callback is about. -/
structure Notices where
  /-- The notices queued during and after the most recent `sendInLoop`. -/
  since : Nat
  /-- The notices delivered, and one for the start, less the messages sent. -/
  turns : Nat
deriving DecidableEq, Repr

/-- A message of a `send` has bytes. -/
def ConnAct.hasBytes {T : Type u} : ConnAct T → Bool
  | .sendTest _ message => message ≠ []
  | _ => true

theorem count_completionsOf {T : Type u} [DecidableEq T] (es : List ConnEffect) :
    (completionsOf es : List (ConnFunctor T)).count .writeComplete =
      es.count .queueWriteComplete := by
  induction es with
  | nil => rfl
  | cons e es ih =>
    cases e with
    | queueWriteComplete =>
      rw [List.count_cons_self, ← ih]
      exact List.count_cons_self
    | _ =>
      rw [List.count_cons_of_ne (by simp), ← ih]
      rfl

namespace ConnState

variable {T : Type u} [DecidableEq T]

/-- The notices a step has queued. -/
def newNotices (s s' : ConnState T) : Nat :=
  (s'.functors.pending.drop s.functors.pending.length).count .writeComplete

/-- The turns after a step. -/
def turnsAfter (turns : Nat) (s : ConnState T) : ConnAct T → Nat
  | .sendTest none _ => if s.conn.state_ = .kConnected then turns - 1 else turns
  | .runFunctor _ => if s.functors.next.any fun p => p.1 = .writeComplete then turns + 1 else turns
  | _ => turns

def seeNotices (n : Notices) (s : ConnState T) (a : ConnAct T) (s' : ConnState T) : Option Notices :=
  some {
    since := (if s.ran.length < s'.ran.length then 0 else n.since) + newNotices s s'
    turns := turnsAfter n.turns s a }

/-- The sender sends in the loop's thread, when it is its turn. -/
def inTurn (p : ConnState T × Notices) : ConnAct T → Bool
  | .sendTest o _ => o = none && 0 < p.2.turns
  | _ => true

end ConnState

/-- A connection up to its first `disableAll`, its messages having bytes, with its notices. -/
def notifiedConnection (T : Type u) [DecidableEq T] : Machine (ConnState T × Notices) (ConnAct T) :=
  ((openConnection T).restrict fun _ a => a.hasBytes).observe ⟨0, 1⟩ ConnState.seeNotices

/-- The same with nobody but the sender sending. -/
def completionSender (T : Type u) [DecidableEq T] : Machine (ConnState T × Notices) (ConnAct T) :=
  (notifiedConnection T).restrict ConnState.inTurn

theorem notifiedConnection_step {T : Type u} [DecidableEq T] {p p' : ConnState T × Notices}
    {a : ConnAct T} (h : (notifiedConnection T).step p a = some p') :
    a.hasBytes = true ∧ p.1.beforeDisableAll a = true ∧ p.1.step a = some p'.1 ∧
      ConnState.seeNotices p.2 p.1 a p'.1 = some p'.2 := by
  obtain ⟨hs, hsee⟩ := Machine.observe_step.mp h
  obtain ⟨hbytes, hs⟩ := Machine.restrict_step.mp hs
  obtain ⟨hopen, hs⟩ := Machine.restrict_step.mp hs
  exact ⟨hbytes, hopen, hs, hsee⟩

namespace ConnState

variable {T : Type u} [DecidableEq T] {s s' : ConnState T} {a : ConnAct T}

/-- Functors are pushed behind the others. -/
theorem newNotices_of_push {l : List (ConnFunctor T)}
    (h : s'.functors.pending = s.functors.pending ++ l) :
    newNotices s s' = l.count .writeComplete := by
  rw [newNotices, h, List.drop_left]

theorem newNotices_of_eq (h : s'.functors.pending = s.functors.pending) : newNotices s s' = 0 := by
  rw [newNotices_of_push (l := []) (by rw [h, List.append_nil])]
  rfl

/-! ## The messages on their way -/

theorem Streams.accepted_call (h : s.Streams) {o : Option T} {message : List UInt8}
    (hc : s.calls o = .sending message) : message ∈ s.accepted o := by
  rw [h.order o, hc]
  exact List.mem_append_right _ List.mem_cons_self

theorem Streams.accepted_next (h : s.Streams) {t : T} {message : List UInt8}
    {rest : BatchQueue (ConnFunctor T)}
    (hnext : s.functors.next = some (.sendInLoop t message, rest)) :
    message ∈ s.accepted (some t) := by
  rw [h.order (some t), stream, queued_next hnext, queued_sendInLoop, messagesOf_append,
    messagesOf_append, messagesOf_self]
  simp

/-! ## The notices of a step -/

/-- One `sendInLoop`, or none; a notice when the buffer comes to be empty, and not otherwise. -/
structure Noticed (s s' : ConnState T) : Prop where
  callback : s'.conn.writeCompleteCallback_ = true
  sent : s.ran.length < s'.ran.length →
    newNotices s s' = if s'.conn.outputBuffer_ = [] then 1 else 0
  other : ¬ s.ran.length < s'.ran.length → s'.ran = s.ran ∧
    (s.conn.outputBuffer_ = [] → s'.conn.outputBuffer_ = []) ∧
    newNotices s s' = if s.conn.outputBuffer_ ≠ [] ∧ s'.conn.outputBuffer_ = [] then 1 else 0

/-- A step that queues a notice leaves the buffer empty. -/
theorem Noticed.empty (h : s.Noticed s') (hnew : 0 < newNotices s s') :
    s'.conn.outputBuffer_ = [] := by
  by_contra hout
  by_cases hlt : s.ran.length < s'.ran.length
  · rw [h.sent hlt, if_neg hout] at hnew
    exact Nat.lt_irrefl 0 hnew
  · rw [(h.other hlt).2.2, if_neg fun hc => hout hc.2] at hnew
    exact Nat.lt_irrefl 0 hnew

/-- A step that does nothing to the output. -/
theorem Noticed.of_eq (hcallback : s'.conn.writeCompleteCallback_ = true) (hran : s'.ran = s.ran)
    (hout : s'.conn.outputBuffer_ = s.conn.outputBuffer_) (hnew : newNotices s s' = 0) :
    s.Noticed s' where
  callback := hcallback
  sent hlt := by
    rw [hran] at hlt
    exact absurd hlt (Nat.lt_irrefl _)
  other _ := by
    refine ⟨hran, fun h => hout.trans h, ?_⟩
    rw [hnew, hout, if_neg fun hc => hc.1 hc.2]

/-- `sendInLoop` has run for a message with bytes. -/
theorem Noticed.of_send {message : List UInt8} {es : List ConnEffect} {o : Option T}
    (hsend : s.conn.SendFollows message s'.conn es) (hcallback : s.conn.writeCompleteCallback_ = true)
    (hne : message ≠ []) (hran : s'.ran = s.ran ++ [(o, message)])
    (hpush : s'.functors.pending = s.functors.pending ++ completionsOf es) : s.Noticed s' where
  callback := hsend.callback.trans hcallback
  sent _ := by
    rw [newNotices_of_push hpush, count_completionsOf]
    exact hsend.notices hcallback hne
  other hnot := by
    rw [hran, List.length_append] at hnot
    exact absurd (Nat.lt_succ_self _) hnot

theorem step_noticed (hst : s.Streams) (h : s.conn.Synced)
    (hcallback : s.conn.writeCompleteCallback_ = true) (hne : ∀ o, [] ∉ s.accepted o)
    (hopen : s.beforeDisableAll a = true) (hs : s.step a = some s') : s.Noticed s' := by
  cases step_outputMove h hopen hs with
  | refused | accept | shutTest | aside | connectEstablished | shutSet =>
    exact .of_eq hcallback rfl rfl (newNotices_of_eq rfl)
  | sendPush | shutPush | queueDestroyed =>
    exact .of_eq hcallback rfl rfl ((newNotices_of_push rfl).trans (List.count_eq_zero.mpr (by simp)))
  | @sendHere w message conn es hc hsend =>
    have hmessage := ne_of_mem_of_not_mem (hst.accepted_call hc) (hne none)
    rw [perform_eq]
    exact .of_send hsend hcallback hmessage rfl rfl
  | shutHere =>
    rw [perform_eq]
    refine .of_eq hcallback rfl rfl (newNotices_of_eq ?_)
    show s.functors.pending ++ _ = _
    rw [completionsOf_shutdownInLoop, List.append_nil]
  | @callWrite w todo conn es hwrite =>
    rw [perform_eq]
    refine ⟨hwrite.callback.trans hcallback, fun hlt => absurd hlt (Nat.lt_irrefl _), ?_⟩
    intro _
    refine ⟨rfl, fun hout => (congrArg _ (hwrite.idle hout)).trans hout, ?_⟩
    rw [newNotices_of_push (l := completionsOf es) rfl, count_completionsOf]
    exact hwrite.notices hcallback
  | beginFunctors =>
    refine .of_eq hcallback rfl rfl ?_
    show (List.drop _ []).count _ = 0
    rw [List.drop_nil]
    rfl
  | @runSend w t message rest conn es hnext hsend =>
    have hmessage := ne_of_mem_of_not_mem (hst.accepted_next hnext) (hne (some t))
    rw [perform_eq]
    refine .of_send hsend hcallback hmessage rfl ?_
    exact congrArg (· ++ _) (BatchQueue.pending_of_next hnext)
  | runShutdown hnext =>
    rw [perform_eq]
    refine .of_eq hcallback rfl rfl (newNotices_of_eq ?_)
    show _ ++ _ = _
    rw [completionsOf_shutdownInLoop, List.append_nil]
    exact BatchQueue.pending_of_next hnext
  | runWriteComplete hnext =>
    exact .of_eq hcallback rfl rfl (newNotices_of_eq (BatchQueue.pending_of_next hnext))

/-! ## What a notice says -/

/-- A notice since the most recent `sendInLoop` began says that the buffer is empty, and no notice that it is
not. -/
structure Notified (s : ConnState T) (n : Notices) : Prop extends s.Streams, s.Followed where
  callback : s.conn.writeCompleteCallback_ = true
  hasBytes : ∀ o, [] ∉ s.accepted o
  notice : s.ran ≠ [] → (s.conn.outputBuffer_ = [] ↔ 0 < n.since)

theorem start_notified (m : Bool) : (start m true : ConnState T).Notified ⟨0, 1⟩ :=
  { start_streams m true, start_followed m true with
    callback := rfl
    hasBytes := fun _ => List.not_mem_nil
    notice := fun hran => absurd rfl hran }

variable {n n' : Notices}

theorem Notified.noticed (h : s.Notified n) (hopen : s.beforeDisableAll a = true)
    (hs : s.step a = some s') : s.Noticed s' :=
  step_noticed h.toStreams h.synced h.callback h.hasBytes hopen hs

/-- Only messages with bytes are accepted. -/
theorem Followed.hasBytes_step (h : s.Followed) (hacc : ∀ o, [] ∉ s.accepted o)
    (hbytes : a.hasBytes = true) (hopen : s.beforeDisableAll a = true) (hs : s.step a = some s')
    (o : Option T) : [] ∉ s'.accepted o := by
  cases step_outputMove h.synced hopen hs with
  | @accept o' message =>
    show [] ∉ Function.update s.accepted o' (s.accepted o' ++ [message]) o
    by_cases ho : o = o'
    · subst ho
      rw [Function.update_self]
      intro hmem
      rcases List.mem_append.mp hmem with hmem | hmem
      · exact hacc o hmem
      · exact of_decide_eq_true hbytes (List.mem_singleton.mp hmem).symm
    · rw [Function.update_of_ne ho]
      exact hacc o
  | sendHere | callWrite | runSend | shutHere | runShutdown =>
    rw [perform_eq]
    exact hacc o
  | _ => exact hacc o

/-- The step lemma: the notice of a step goes with what the step does to the buffer. -/
theorem Notified.step (h : s.Notified n) (hbytes : a.hasBytes = true)
    (hopen : s.beforeDisableAll a = true) (hs : s.step a = some s')
    (hsee : seeNotices n s a s' = some n') : s'.Notified n' := by
  have hnoticed := h.noticed hopen hs
  refine { h.toStreams.step hs, h.toFollowed.step h.toStreams hopen hs with
    callback := hnoticed.callback
    hasBytes := h.toFollowed.hasBytes_step h.hasBytes hbytes hopen hs
    notice := ?_ }
  cases hsee
  intro hran
  by_cases hlt : s.ran.length < s'.ran.length
  · show _ ↔ 0 < (if s.ran.length < s'.ran.length then 0 else n.since) + newNotices s s'
    rw [if_pos hlt, hnoticed.sent hlt]
    split <;> simp [*]
  · show _ ↔ 0 < (if s.ran.length < s'.ran.length then 0 else n.since) + newNotices s s'
    obtain ⟨hsame, hkept, hnew⟩ := hnoticed.other hlt
    rw [hsame] at hran
    rw [if_neg hlt, hnew]
    by_cases hout : s.conn.outputBuffer_ = []
    · have hpos := (h.notice hran).mp hout
      rw [if_neg fun hc => hc.1 hout]
      exact ⟨fun _ => hpos, fun _ => hkept hout⟩
    · have hzero : n.since = 0 := Nat.eq_zero_of_not_pos (mt (h.notice hran).mpr hout)
      rw [hzero, Nat.zero_add]
      by_cases hout' : s'.conn.outputBuffer_ = []
      · rw [if_pos ⟨hout, hout'⟩]
        exact ⟨fun _ => Nat.one_pos, fun _ => hout'⟩
      · rw [if_neg fun hc => hout' hc.2]
        exact ⟨fun hnil => absurd hnil hout', fun hpos => absurd hpos (Nat.lt_irrefl 0)⟩

/-! ## The sender's turn -/

/-- The turns of the sender: with itself, in its `send`, in a queued notice, and in the buffer. -/
def turnCount (s : ConnState T) (turns : Nat) : Nat :=
  turns + (s.calls none).message.length + s.functors.toList.count .writeComplete +
    if s.conn.outputBuffer_ = [] then 0 else 1

/-- The turn is in one place. -/
structure OneTurn (s : ConnState T) (n : Notices) : Prop extends s.Notified n where
  alone : ∀ t, s.accepted (some t) = []
  one : s.turnCount n.turns = 1

theorem start_oneTurn (m : Bool) : (start m true : ConnState T).OneTurn ⟨0, 1⟩ :=
  { start_notified m with
    alone := fun _ => rfl
    one := rfl }

/-- A step that does nothing to any of the places. -/
theorem turnCount_of_eq {turns turns' : Nat} (hturns : turns' = turns)
    (hcall : (s'.calls none).message = (s.calls none).message)
    (hfunctors : s'.functors.toList.count .writeComplete = s.functors.toList.count .writeComplete)
    (hout : s'.conn.outputBuffer_ = s.conn.outputBuffer_) :
    s'.turnCount turns' = s.turnCount turns := by
  rw [turnCount, turnCount, hturns, hcall, hfunctors, hout]

/-- A caller moves without a message. -/
theorem message_of_setCall {o : Option T} {pc : CallerPc} (hcalls : s'.calls = Function.update s.calls o pc)
    (hold : (s.calls o).message = []) (hnew : pc.message = []) (o' : Option T) :
    (s'.calls o').message = (s.calls o').message := by
  rw [hcalls]
  by_cases ho : o' = o
  · subst ho
    rw [Function.update_self, hold, hnew]
  · rw [Function.update_of_ne ho]

theorem turnsAfter_aside {turns : Nat} (ha : a.aside = true) : turnsAfter turns s a = turns := by
  cases a with
  | sendTest | runFunctor => cases ha
  | _ => rfl

/-- A functor that is no notice gives nobody a turn. -/
theorem turnsAfter_run {turns : Nat} {w : WriteResult} {f : ConnFunctor T}
    {rest : BatchQueue (ConnFunctor T)} (hnext : s.functors.next = some (f, rest)) :
    turnsAfter turns s (.runFunctor w) = if f = .writeComplete then turns + 1 else turns := by
  simp [turnsAfter, hnext]

/-- `shutdownInLoop` queues nothing. -/
theorem count_shutdownInLoop (q : BatchQueue (ConnFunctor T)) (c : TcpConnection) :
    (q.pushAll (completionsOf c.shutdownInLoop)).toList.count .writeComplete =
      q.toList.count .writeComplete := by
  rw [completionsOf_shutdownInLoop, BatchQueue.toList_pushAll, List.append_nil]

theorem count_completions (q : BatchQueue (ConnFunctor T)) (es : List ConnEffect) :
    (q.pushAll (completionsOf es)).toList.count .writeComplete =
      q.toList.count .writeComplete + es.count .queueWriteComplete := by
  rw [BatchQueue.toList_pushAll, List.count_append, count_completionsOf]

/-- The turn goes from one place to the next. -/
theorem OneTurn.count_step (h : s.OneTurn n) (hturn : inTurn (s, n) a = true)
    (hopen : s.beforeDisableAll a = true) (hs : s.step a = some s') :
    s'.turnCount (turnsAfter n.turns s a) = 1 := by
  have hone := h.one
  cases step_outputMove h.synced hopen hs with
  | @refused o message hstate =>
    cases o with
    | some t => exact hone
    | none =>
      rw [turnsAfter, if_neg hstate]
      exact hone
  | @accept o message hmay hstate =>
    obtain ⟨ho, hpos⟩ := Bool.and_eq_true_iff.mp hturn
    cases of_decide_eq_true ho
    have hpos : 0 < n.turns := of_decide_eq_true hpos
    rw [turnCount, hmay.1] at hone
    rw [turnsAfter, if_pos hstate, turnCount]
    show n.turns - 1 + (Function.update s.calls none (.sending message) none).message.length +
      s.functors.toList.count .writeComplete + (if s.conn.outputBuffer_ = [] then 0 else 1) = 1
    rw [Function.update_self]
    simp only [CallerPc.message, List.length_nil, List.length_singleton] at hone ⊢
    omega
  | @sendPush t message hc =>
    have hmem := h.accepted_call hc
    rw [h.alone t] at hmem
    cases hmem
  | @sendHere w message conn es hc hsend =>
    have hne := ne_of_mem_of_not_mem (h.accepted_call hc) (h.hasBytes none)
    rw [turnCount, hc] at hone
    rw [perform_eq, turnCount]
    show n.turns + (Function.update s.calls none .idle none).message.length +
      (s.functors.pushAll (completionsOf es)).toList.count .writeComplete + _ = 1
    rw [Function.update_self, count_completions, hsend.notices h.callback hne]
    simp only [CallerPc.message, List.length_nil, List.length_singleton] at hone ⊢
    show _ + (if conn.outputBuffer_ = [] then 0 else 1) = 1
    split <;> omega
  | @shutTest o hmay =>
    rw [← hone]
    exact turnCount_of_eq rfl (message_of_setCall rfl (by rw [hmay.1]; rfl) rfl none) rfl rfl
  | @shutSet o hc =>
    rw [← hone]
    exact turnCount_of_eq rfl (message_of_setCall rfl (by rw [hc]; rfl) rfl none) rfl rfl
  | @shutPush t hc =>
    rw [← hone]
    exact turnCount_of_eq rfl (message_of_setCall rfl (by rw [hc]; rfl) rfl none)
      (BatchQueue.count_push_of_ne (by simp)) rfl
  | shutHere hc =>
    rw [← hone, perform_eq]
    exact turnCount_of_eq rfl (message_of_setCall rfl (by rw [hc]; rfl) rfl none)
      (count_shutdownInLoop ..) rfl
  | aside ha =>
    rw [turnsAfter_aside ha]
    exact hone
  | connectEstablished => exact hone
  | @callWrite w todo conn es hwrite =>
    rw [turnCount] at hone
    rw [perform_eq, turnCount]
    show n.turns + _ + (s.functors.pushAll (completionsOf es)).toList.count .writeComplete +
      (if conn.outputBuffer_ = [] then 0 else 1) = 1
    rw [count_completions, hwrite.notices h.callback]
    by_cases hout : s.conn.outputBuffer_ = []
    · rw [hwrite.idle hout, if_pos hout, if_neg fun hc => hc.1 hout]
      rw [if_pos hout] at hone
      exact hone
    · rw [if_neg hout] at hone
      by_cases hout' : conn.outputBuffer_ = []
      · rw [if_pos hout', if_pos ⟨hout, hout'⟩]
        exact hone
      · rw [if_neg hout', if_neg fun hc => hout' hc.2]
        exact hone
  | queueDestroyed =>
    rw [← hone]
    exact turnCount_of_eq rfl rfl (BatchQueue.count_push_of_ne (by simp)) rfl
  | beginFunctors hpc =>
    rw [← hone]
    refine turnCount_of_eq rfl rfl ?_ rfl
    exact congrArg (List.count _) (BatchQueue.toList_swap (h.worked (by rw [hpc]; rfl)))
  | @runSend w t message rest conn es hnext hsend =>
    have hmem := h.accepted_next hnext
    rw [h.alone t] at hmem
    cases hmem
  | runShutdown hnext =>
    rw [← hone, perform_eq, turnsAfter_run hnext, if_neg (by simp)]
    refine turnCount_of_eq rfl rfl ?_ rfl
    exact (count_shutdownInLoop ..).trans (BatchQueue.count_rest_of_ne hnext (by simp))
  | @runWriteComplete w rest hnext =>
    rw [turnsAfter_run hnext, if_pos rfl]
    rw [turnCount, BatchQueue.toList_of_next hnext, List.count_cons_self] at hone
    rw [turnCount]
    show n.turns + 1 + (s.calls none).message.length + rest.toList.count .writeComplete +
      (if s.conn.outputBuffer_ = [] then 0 else 1) = 1
    omega

/-- The step lemma of the sender. -/
theorem OneTurn.step (h : s.OneTurn n) (hbytes : a.hasBytes = true) (hturn : inTurn (s, n) a = true)
    (hopen : s.beforeDisableAll a = true) (hs : s.step a = some s')
    (hsee : seeNotices n s a s' = some n') : s'.OneTurn n' := by
  have hone := h.count_step hturn hopen hs
  refine { h.toNotified.step hbytes hopen hs hsee with
    alone := ?_
    one := by cases hsee; exact hone }
  intro t
  cases step_outputMove h.synced hopen hs with
  | @accept o message =>
    cases of_decide_eq_true (Bool.and_eq_true_iff.mp hturn).1
    show Function.update s.accepted none (s.accepted none ++ [message]) (some t) = []
    rw [Function.update_of_ne (Option.some_ne_none t)]
    exact h.alone t
  | sendHere | callWrite | runSend | shutHere | runShutdown =>
    rw [perform_eq]
    exact h.alone t
  | _ => exact h.alone t

/-- A `handleWrite` that the kernel takes bytes of makes the buffer shorter. -/
theorem Followed.callWrite_lt (h : s.Followed) (hout : s.conn.outputBuffer_ ≠ []) {k : Nat} (hk : 0 < k)
    (hs : s.step (.callWrite (.wrote k)) = some s') :
    s'.conn.outputBuffer_.length < s.conn.outputBuffer_.length := by
  cases step_outputMove h.synced rfl hs with
  | @callWrite w todo conn es hwrite =>
    have hlen := List.length_pos_iff.mpr hout
    rw [perform_eq]
    show conn.outputBuffer_.length < _
    rw [hwrite.progress hout k rfl, List.length_drop]
    omega
  | aside ha => cases ha

/-- With an empty buffer the kernel has all the messages. -/
theorem Streams.all_written (h : s.Streams) (hout : s.conn.outputBuffer_ = []) :
    s.wire = (s.ran.map Prod.snd).flatten := by
  rw [← h.bytes, hout, List.append_nil]

theorem Notified.of_run {m : Bool} {as : List (ConnAct T)} {p : ConnState T × Notices}
    (h : (notifiedConnection T).run (.start m true, ⟨0, 1⟩) as = some p) : p.1.Notified p.2 := by
  apply Machine.run_invariant (fun p : ConnState T × Notices => p.1.Notified p.2) ?_ (start_notified m) h
  intro p a p' hp hs
  obtain ⟨hbytes, hopen, hs, hsee⟩ := notifiedConnection_step hs
  exact hp.step hbytes hopen hs hsee

theorem OneTurn.of_run {m : Bool} {as : List (ConnAct T)} {p : ConnState T × Notices}
    (h : (completionSender T).run (.start m true, ⟨0, 1⟩) as = some p) : p.1.OneTurn p.2 := by
  apply Machine.run_invariant (fun p : ConnState T × Notices => p.1.OneTurn p.2) ?_ (start_oneTurn m) h
  intro p a p' hp hs
  obtain ⟨hturn, hs⟩ := Machine.restrict_step.mp hs
  obtain ⟨hbytes, hopen, hs, hsee⟩ := notifiedConnection_step hs
  exact hp.step hbytes hturn hopen hs hsee

/-- A turn with the sender or in a notice is not in the buffer. -/
theorem OneTurn.nothing_left (h : s.OneTurn n)
    (hturn : 0 < n.turns ∨ .writeComplete ∈ s.functors.toList) : s.conn.outputBuffer_ = [] := by
  have hone := h.one
  rw [turnCount] at hone
  have hpos : 0 < n.turns + s.functors.toList.count .writeComplete := by
    rcases hturn with hturn | hturn
    · omega
    · have hcount := List.count_pos_iff.mpr hturn
      omega
  by_contra hout
  rw [if_neg hout] at hone
  omega

end ConnState

variable {T : Type u} [DecidableEq T]

/-- **Write completion is exact.** A connection with `writeCompleteCallback_`, up to its first `disableAll`,
with messages that have bytes and any results of `::write`. In every state of a run after a first
`sendInLoop`, `outputBuffer_` is empty if and only if a notice has been queued during or after the most recent
one, and a step that queues a notice leaves no byte unwritten. When a sender sends a first message and then
one message a notice, its turn is always in exactly one place; bytes in the buffer are being written, the
kernel watching for writability, and become fewer with every write; and when the sender has a notice, no byte
is unsent. -/
theorem write_complete_exact (m : Bool) :
    (∀ as p, (notifiedConnection T).run (.start m true, ⟨0, 1⟩) as = some p →
      (p.1.ran ≠ [] → (p.1.conn.outputBuffer_ = [] ↔ 0 < p.2.since)) ∧
      ∀ a p', (notifiedConnection T).step p a = some p' → 0 < p.1.newNotices p'.1 →
        p'.1.conn.outputBuffer_ = [] ∧ p'.1.wire = (p'.1.ran.map Prod.snd).flatten) ∧
    (∀ as p, (completionSender T).run (.start m true, ⟨0, 1⟩) as = some p →
      p.1.turnCount p.2.turns = 1 ∧
      (p.1.conn.outputBuffer_ ≠ [] → p.1.conn.channel_.isWriting = true ∧
        (∃ mask, p.1.conn.channel_.watched = some mask ∧ mask.pollout = true) ∧
        ∀ k p', 0 < k → (completionSender T).step p (.callWrite (.wrote k)) = some p' →
          p'.1.conn.outputBuffer_.length < p.1.conn.outputBuffer_.length) ∧
      (0 < p.2.turns ∨ .writeComplete ∈ p.1.functors.toList →
        p.1.conn.outputBuffer_ = [] ∧ p.1.wire = (p.1.ran.map Prod.snd).flatten)) := by
  constructor
  · intro as p hrun
    have h := ConnState.Notified.of_run hrun
    refine ⟨h.notice, ?_⟩
    intro a p' hs hnew
    obtain ⟨-, hopen, hs, -⟩ := notifiedConnection_step hs
    have hout := (h.noticed hopen hs).empty hnew
    exact ⟨hout, (h.toStreams.step hs).all_written hout⟩
  · intro as p hrun
    have h := ConnState.OneTurn.of_run hrun
    refine ⟨h.one, ?_, ?_⟩
    · intro hout
      refine ⟨h.synced.writing.mpr hout, h.synced.watched hout, ?_⟩
      intro k p' hk hs
      obtain ⟨-, -, hs, -⟩ := notifiedConnection_step (Machine.restrict_step.mp hs).2
      exact h.callWrite_lt hout hk hs
    · intro hturn
      have hout := h.nothing_left hturn
      exact ⟨hout, h.all_written hout⟩

/-- The kernel takes one byte of the first message and then the other. The sender has its notice, sends a
second message, and the kernel takes it at once. -/
theorem write_complete_exact_sender : ∃ p : ConnState Unit × Notices,
    p.1.conn.outputBuffer_ = [] ∧ p.1.wire = [1, 2, 3] ∧ p.2.since = 1 ∧ p.1.turnCount p.2.turns = 1 := by
  have hrun : (completionSender Unit).run (.start true true, ⟨0, 1⟩)
      [.connectEstablished, .sendTest none [1, 2], .sendHere (.wrote 1), .poll { pollout := true },
        .handleEvent, .callWrite (.wrote 1), .eventDone, .beginFunctors, .runFunctor .failed,
        .sendTest none [3], .sendHere (.wrote 1)] = some _ := rfl
  exact ⟨_, rfl, rfl, rfl, ((write_complete_exact true).2 _ _ hrun).1⟩

end Netfish
