import Netfish.Net.Stream

/-!
# Half-closing a connection

A thread sends messages and calls `shutdown`. When the write side is shut down, has the kernel got
all of them? `handleWrite` shuts down as soon as it drains `outputBuffer_` in `kDisconnecting`, and
`shutdown` sets that state while earlier messages of its thread may still wait in the loop's queue.
`graceful_close_iff` says that this is the one way to lose them.
-/

set_option autoImplicit false

namespace Netfish

open Kit

universe u

namespace ConnState

section

variable {T : Type u}

theorem eq_of_mem_completionsOf {es : List ConnEffect} {f : ConnFunctor T}
    (h : f ∈ completionsOf es) : f = .writeComplete := by
  obtain ⟨e, -, he⟩ := List.mem_filterMap.mp h
  cases e <;> cases he
  rfl

theorem shutdownInLoop_not_completion (es : List ConnEffect) :
    (.shutdownInLoop : ConnFunctor T) ∉ completionsOf es :=
  fun h => nomatch eq_of_mem_completionsOf h

/-! ## The queue -/

/-- No message of the thread is queued behind a `shutdownInLoop`. -/
def SendsFirst (t : T) (fs : List (ConnFunctor T)) : Prop :=
  fs.Pairwise fun f g => f = .shutdownInLoop → ∀ message, g ≠ .sendInLoop t message

theorem sendsFirst_of_not_mem {t : T} {fs : List (ConnFunctor T)} (h : .shutdownInLoop ∉ fs) :
    SendsFirst t fs :=
  List.pairwise_of_forall_mem_list fun _ hf _ _ heq => absurd (heq ▸ hf) h

/-- The state, the thread's place in its calls and the queue fit together: the thread does not come
back from `shutdown`, so no message of its own gets behind its `shutdownInLoop`. -/
structure InOrder (t : T) (state : StateE) (call : CallerPc) (fs : List (ConnFunctor T)) :
    Prop where
  /-- In `send`, and in `shutdown` before the state is set. -/
  calling : call ≠ .idle → call ≠ .shut → state = .kConnected
  shut : call = .shut → state ≠ .kConnected
  closing : .shutdownInLoop ∈ fs → state ≠ .kConnected ∧ call = .idle
  first : SendsFirst t fs

namespace InOrder

variable {t : T} {state : StateE} {call : CallerPc} {fs gs : List (ConnFunctor T)} {f : ConnFunctor T}

/-- Functors that are neither a `shutdownInLoop` nor messages of the thread change nothing. -/
theorem append (h : InOrder t state call fs) (hshut : .shutdownInLoop ∉ gs)
    (hsend : ∀ g ∈ gs, ∀ message, g ≠ .sendInLoop t message) :
    InOrder t state call (fs ++ gs) where
  calling := h.calling
  shut := h.shut
  closing hm := h.closing ((List.mem_append.mp hm).resolve_right hshut)
  first := List.pairwise_append.mpr ⟨h.first,
    List.pairwise_of_forall_mem_list fun _ _ g hg _ => hsend g hg, fun _ _ g hg _ => hsend g hg⟩

theorem completions (h : InOrder t state call fs) (es : List ConnEffect) :
    InOrder t state call (fs ++ completionsOf es) :=
  h.append (shutdownInLoop_not_completion es) fun _ hg _ heq =>
    nomatch (eq_of_mem_completionsOf hg).symm.trans heq

theorem rest (h : InOrder t state call (f :: fs)) : InOrder t state call fs where
  calling := h.calling
  shut := h.shut
  closing hm := h.closing (List.mem_cons_of_mem f hm)
  first := (List.pairwise_cons.mp h.first).2

/-- While the connection is in `kConnected` the thread may go on as it likes. -/
theorem ofConnected (h : InOrder t .kConnected call fs) {call' : CallerPc} (hc : call' ≠ .shut) :
    InOrder t .kConnected call' fs where
  calling _ _ := rfl
  shut heq := absurd heq hc
  closing hm := absurd rfl (h.closing hm).1
  first := h.first

/-- In `kConnected` no `shutdownInLoop` is queued, and a message may be. -/
theorem pushSend (h : InOrder t .kConnected call fs) (message : List UInt8) :
    InOrder t .kConnected .idle (fs ++ [.sendInLoop t message]) where
  calling hc := absurd rfl hc
  shut := nofun
  closing hm := absurd rfl (h.closing (by simpa using hm)).1
  first := List.pairwise_append.mpr ⟨h.first, List.pairwise_singleton .., fun _ hf _ _ heq =>
    absurd rfl (h.closing (heq ▸ hf)).1⟩

theorem setDisconnecting (h : InOrder t state .shutting fs) :
    InOrder t .kDisconnecting .shut fs where
  calling _ hc := absurd rfl hc
  shut _ := nofun
  closing hm := nomatch (h.closing hm).2
  first := h.first

theorem pushShutdown (h : InOrder t state .shut fs) :
    InOrder t state .idle (fs ++ [.shutdownInLoop]) where
  calling hc := absurd rfl hc
  shut := nofun
  closing _ := ⟨h.shut rfl, rfl⟩
  first := List.pairwise_append.mpr ⟨h.first, List.pairwise_singleton .., fun _ hf _ _ heq =>
    nomatch (h.closing (heq ▸ hf)).2⟩

/-- Behind a `shutdownInLoop` at the head nothing of the thread waits. -/
theorem noneBehind (h : InOrder t state call (.shutdownInLoop :: fs)) :
    ∀ f ∈ fs, ∀ message, f ≠ .sendInLoop t message :=
  fun f hf => (List.pairwise_cons.mp h.first).1 f hf rfl

end InOrder

end

variable {T : Type u} [DecidableEq T]

/-! ## The runs -/

/-- The runs in question: all callers send, only thread `t` calls `shutdown`, and the connection is
neither closed by its peer nor destroyed. -/
def graceful (t : T) (s : ConnState T) : ConnAct T → Bool
  | .shutTest o => o = some t
  | .shutSet o => o = some t
  | .shutPush t' => t' = t
  | .shutHere => false
  | .connectEstablished => false
  | .callClose => false
  | .callRead .eof => false
  | .endDestroyed => false
  | .runFunctor _ => !(s.functors.next.any fun p => p.1 = .connectDestroyed)
  | _ => true

/-- The messages of the thread that passed the test in `send` since `s₀`. -/
def acceptedSince (t : T) (s₀ s : ConnState T) : List (List UInt8) :=
  (s.accepted (some t)).drop (s₀.accepted (some t)).length

/-- At every `shutdownWrite`, all messages of the thread had run and the kernel had every byte of all
that had run; asked only when the thread sent a byte since `s₀`. -/
def Delivered (t : T) (s₀ s : ConnState T) : Prop :=
  (acceptedSince t s₀ s).flatten ≠ [] → ∀ p ∈ s.shutdowns,
    (messagesOf (some t) p.1).flatten = (s.accepted (some t)).flatten ∧
      p.2 = (p.1.map Prod.snd).flatten

/-- No `handleWrite` drains `outputBuffer_` in `kDisconnecting` while bytes the thread sent wait in
the loop's queue. -/
def NotOvertaken (t : T) (s₀ s : ConnState T) (a : ConnAct T) : Prop :=
  ∀ w, a = .callWrite w → s.conn.Drains w → (acceptedSince t s₀ s).flatten ≠ [] →
    (messagesOf (some t) (queued s.functors.toList)).flatten = []

variable {t : T} {s₀ s s' : ConnState T} {a : ConnAct T}

/-! ## Before any `shutdown` -/

/-- Until a `shutdown` sets the state, nothing has been shut down and nothing is about to be. -/
def Unshut (s : ConnState T) : Prop :=
  s.conn.state_ = .kConnecting ∨ s.conn.state_ = .kConnected →
    s.shutdowns = [] ∧ .shutdownInLoop ∉ s.functors.toList ∧ ∀ o, s.calls o ≠ .shut

theorem calls_update_ne_shut {o : Option T} {pc : CallerPc} (h : ∀ o, s.calls o ≠ .shut)
    (hpc : pc ≠ .shut) (o' : Option T) : Function.update s.calls o pc o' ≠ .shut := by
  by_cases ho : o' = o
  · subst ho
    rwa [Function.update_self]
  · rw [Function.update_of_ne ho]
    exact h o'

theorem Unshut.step (h : s.Unshut) (hst : s.Streams) (hs : s.step a = some s') : s'.Unshut := by
  intro hopen
  cases step_move hst.wf hs with
  | fault f => exact h hopen
  | refused => exact h hopen
  | accept => exact ⟨(h hopen).1, (h hopen).2.1, calls_update_ne_shut (h hopen).2.2 (by simp)⟩
  | sendPush =>
    refine ⟨(h hopen).1, ?_, calls_update_ne_shut (h hopen).2.2 (by simp)⟩
    simpa using (h hopen).2.1
  | sendHere hc hsent =>
    simp only [perform_eq, setCall, record, hsent.state] at hopen ⊢
    obtain ⟨hnone, hqueue, hcalls⟩ := h hopen
    refine ⟨?_, ?_, calls_update_ne_shut hcalls (by simp)⟩
    · rw [shutdownsOf_eq_nil.mpr hsent.noShutdown, hnone]
      rfl
    · simp [hqueue, shutdownInLoop_not_completion]
  | shutTest => exact ⟨(h hopen).1, (h hopen).2.1, calls_update_ne_shut (h hopen).2.2 (by simp)⟩
  | shutSet => rcases hopen with hopen | hopen <;> cases hopen
  | shutPush hc => exact absurd hc ((h hopen).2.2 _)
  | shutHere hc =>
    simp only [perform_eq, setCall] at hopen
    exact absurd hc ((h hopen).2.2 _)
  | goto => exact h hopen
  | connectEstablished hstate => exact h (.inl hstate)
  | close => exact h hopen
  | callWrite hb hwrote =>
    simp only [perform_eq, hwrote.state] at hopen ⊢
    obtain ⟨hnone, hqueue, hcalls⟩ := h hopen
    refine ⟨?_, by simp [hqueue, shutdownInLoop_not_completion], hcalls⟩
    have hstate : s.conn.state_ ≠ .kDisconnecting := by
      rcases hopen with hopen | hopen <;> simp [hopen]
    rw [shutdownsOf_eq_nil.mpr (mt hwrote.shutdown.mp fun hd => hstate hd.2.1), hnone]
    rfl
  | queueDestroyed => exact ⟨(h hopen).1, by simpa using (h hopen).2.1, (h hopen).2.2⟩
  | beginFunctors hpc =>
    refine ⟨(h hopen).1, ?_, (h hopen).2.2⟩
    rw [BatchQueue.toList_swap (hst.worked (by rw [hpc]; rfl))]
    exact (h hopen).2.1
  | runSend hpc hnext hsent =>
    simp only [perform_eq, record, hsent.state] at hopen ⊢
    obtain ⟨hnone, hqueue, hcalls⟩ := h hopen
    refine ⟨?_, ?_, hcalls⟩
    · rw [shutdownsOf_eq_nil.mpr hsent.noShutdown, hnone]
      rfl
    · simp [mt (BatchQueue.mem_of_mem_rest hnext) hqueue, shutdownInLoop_not_completion]
  | runShutdown hpc hnext =>
    simp only [perform_eq] at hopen
    refine absurd ?_ (h hopen).2.1
    rw [BatchQueue.toList_of_next hnext]
    exact List.mem_cons_self
  | runWriteComplete hpc hnext =>
    exact ⟨(h hopen).1, mt (BatchQueue.mem_of_mem_rest hnext) (h hopen).2.1, (h hopen).2.2⟩
  | beginDestroyed => rcases hopen with hopen | hopen <;> cases hopen
  | destroyFault hpc hnext =>
    exact ⟨(h hopen).1, mt (BatchQueue.mem_of_mem_rest hnext) (h hopen).2.1, (h hopen).2.2⟩
  | endDestroyed => exact h hopen
  | endFunctors hpc hb => exact h hopen

theorem unshut_of_reachable (h : (tcpConnection T).Reachable s) : s.Unshut := by
  have hinv : s.Streams ∧ s.Unshut := h.invariant (fun s => s.Streams ∧ s.Unshut)
    (by
      rintro _ ⟨m, w, rfl⟩
      exact ⟨start_streams m w, fun _ => ⟨rfl, List.not_mem_nil, fun _ => nofun⟩⟩)
    fun _ _ _ h hs => ⟨h.1.step hs, h.2.step h.1 hs⟩
  exact hinv.2

/-! ## From the first message to the `shutdownWrite` -/

theorem messagesOf_queued_eq_nil {fs : List (ConnFunctor T)}
    (h : ∀ f ∈ fs, ∀ message, f ≠ .sendInLoop t message) :
    messagesOf (some t) (queued fs) = [] := by
  induction fs with
  | nil => rfl
  | cons f fs ih =>
    have htail := ih fun g hg => h g (List.mem_cons_of_mem f hg)
    cases f with
    | sendInLoop t' message =>
      have hne : t' ≠ t := by
        rintro rfl
        exact h _ List.mem_cons_self message rfl
      rw [← List.singleton_append, queued_append, messagesOf_append, htail, queued_sendInLoop,
        messagesOf_ne (by simpa using hne)]
      rfl
    | _ => exact htail

/-- What holds in the runs in question from a state where the thread is outside its calls. -/
structure Parting (t : T) (s₀ s : ConnState T) : Prop extends s.Streams where
  grown : s₀.accepted (some t) <+: s.accepted (some t)
  inOrder : InOrder t s.conn.state_ (s.calls (some t)) s.functors.toList
  unshut : s.conn.state_ = .kConnected → s.shutdowns = []
  /-- Once bytes of the thread have run, what is left in the buffer is being written. -/
  writing : s.conn.channel_.isWriting = true ∨ s.conn.outputBuffer_ = [] ∨
    (messagesOf (some t) s.ran).flatten.length ≤ (s₀.accepted (some t)).flatten.length
  delivered : Delivered t s₀ s

/-- With nothing of the thread on the way, all it sent has run. -/
theorem Streams.all_ran (h : s.Streams) (hcall : (s.calls (some t)).message = [])
    (hqueue : (messagesOf (some t) (queued s.functors.toList)).flatten = []) :
    (messagesOf (some t) s.ran).flatten = (s.accepted (some t)).flatten := by
  rw [h.order, hcall, stream, messagesOf_append, List.append_nil, List.flatten_append, hqueue,
    List.append_nil]

/-- A byte accepted since `s₀` makes the accepted bytes more than they were. -/
theorem Parting.length_lt (h : Parting t s₀ s) (hnew : (acceptedSince t s₀ s).flatten ≠ []) :
    (s₀.accepted (some t)).flatten.length < (s.accepted (some t)).flatten.length := by
  obtain ⟨new, hnew'⟩ := h.grown
  rw [acceptedSince, ← hnew', List.drop_left] at hnew
  rw [← hnew', List.flatten_append, List.length_append]
  exact Nat.lt_add_of_pos_right (List.length_pos_iff.mpr hnew)

/-- `sendInLoop` of any caller keeps the buffer being written. -/
theorem Parting.writing_sent (h : Parting t s₀ s) {o : Option T} {message : List UInt8}
    {conn : TcpConnection} {es : List ConnEffect} (hsent : s.conn.Sent message conn es) :
    conn.channel_.isWriting = true ∨ conn.outputBuffer_ = [] ∨
      (messagesOf (some t) (s.ran ++ [(o, message)])).flatten.length ≤
        (s₀.accepted (some t)).flatten.length := by
  by_cases hempty : message = []
  · subst hempty
    obtain ⟨hbuf, hch⟩ := hsent.empty rfl
    have hran : (messagesOf (some t) (s.ran ++ [(o, [])])).flatten =
        (messagesOf (some t) s.ran).flatten := by
      by_cases ho : o = some t
      · subst ho; simp
      · simp [messagesOf_ne ho]
    rw [hbuf, hch, hran]
    exact h.writing
  · by_cases hout : conn.outputBuffer_ = []
    · exact .inr (.inl hout)
    · exact .inl (hsent.writing hempty hout)

/-- A `shutdownWrite` is good when nothing of the thread is on the way and the buffer is empty. -/
theorem Parting.delivered_concat (h : Parting t s₀ s) (hst : s'.Streams)
    (hacc : s'.accepted (some t) = s.accepted (some t)) {wires : List (List UInt8)}
    (hshut : s'.shutdowns = s.shutdowns ++ wires.map (s'.ran, ·))
    (hnew : (acceptedSince t s₀ s).flatten ≠ [] → wires ≠ [] →
      (s'.calls (some t)).message = [] ∧
        (messagesOf (some t) (queued s'.functors.toList)).flatten = [] ∧
        s'.conn.outputBuffer_ = [] ∧ ∀ wire ∈ wires, wire = s'.wire) :
    Delivered t s₀ s' := by
  intro hbytes p hp
  rw [acceptedSince, hacc] at hbytes
  rw [hshut] at hp
  rcases List.mem_append.mp hp with hp | hp
  · rw [hacc]
    exact h.delivered hbytes p hp
  · obtain ⟨wire, hwire, rfl⟩ := List.mem_map.mp hp
    obtain ⟨hcall, hqueue, hout, hall⟩ := hnew hbytes (List.ne_nil_of_mem hwire)
    refine ⟨hst.all_ran hcall hqueue, ?_⟩
    rw [hall wire hwire, ← hst.bytes, hout, List.append_nil]

theorem Parting.step (h : Parting t s₀ s) (hg : graceful t s a = true)
    (hok : NotOvertaken t s₀ s a) (hs : s.step a = some s') : Parting t s₀ s' := by
  have hst : s'.Streams := h.toStreams.step hs
  cases step_move h.wf hs with
  | fault f => exact ⟨hst, h.grown, h.inOrder, h.unshut, h.writing, h.delivered⟩
  | refused => exact h
  | @accept o message hc hstate =>
    have hnone := h.unshut hstate
    refine ⟨hst, ?_, ?_, h.unshut, h.writing, ?_⟩
    · by_cases ho : some t = o
      · subst ho
        simp only [Function.update_self]
        exact h.grown.trans (List.prefix_append ..)
      · simp only [Function.update_of_ne ho]
        exact h.grown
    · have hin := h.inOrder
      simp only [setCall, hstate] at hin ⊢
      by_cases ho : some t = o
      · subst ho
        rw [Function.update_self]
        exact hin.ofConnected (by simp)
      · rwa [Function.update_of_ne ho]
    · intro _ p hp
      simp only [setCall, hnone] at hp
      cases hp
  | @sendPush t' message hc =>
    refine ⟨hst, h.grown, ?_, h.unshut, h.writing, h.delivered⟩
    have hin := h.inOrder
    simp only [setCall, BatchQueue.toList_push]
    by_cases ht : t = t'
    · subst ht
      have hstate := hin.calling (by simp [hc]) (by simp [hc])
      rw [hstate] at hin ⊢
      rw [Function.update_self]
      exact hin.pushSend message
    · rw [Function.update_of_ne (by simpa using ht)]
      exact hin.append (by simp) (by simp [Ne.symm ht])
  | sendHere hc hsent =>
    simp only [perform_eq, setCall, record] at hst ⊢
    refine ⟨hst, h.grown, ?_, ?_, h.writing_sent hsent, ?_⟩
    · simp only [hsent.state, BatchQueue.toList_pushAll]
      rw [Function.update_of_ne (Option.some_ne_none t)]
      exact h.inOrder.completions _
    · simp only [hsent.state, shutdownsOf_eq_nil.mpr hsent.noShutdown, List.map_nil,
        List.append_nil]
      exact h.unshut
    · simp only [shutdownsOf_eq_nil.mpr hsent.noShutdown, List.map_nil, List.append_nil]
      exact h.delivered
  | @shutTest o hc hstate =>
    obtain rfl : o = some t := by simpa [graceful] using hg
    refine ⟨hst, h.grown, ?_, h.unshut, h.writing, h.delivered⟩
    have hin := h.inOrder
    simp only [setCall, hstate, Function.update_self] at hin ⊢
    exact hin.ofConnected (by simp)
  | @shutSet o hc =>
    obtain rfl : o = some t := by simpa [graceful] using hg
    refine ⟨hst, h.grown, ?_, by simp, h.writing, h.delivered⟩
    have hin := h.inOrder
    rw [hc] at hin
    simp only [setCall, Function.update_self]
    exact hin.setDisconnecting
  | @shutPush t' hc =>
    obtain rfl : t' = t := by simpa [graceful] using hg
    refine ⟨hst, h.grown, ?_, h.unshut, h.writing, h.delivered⟩
    have hin := h.inOrder
    rw [hc] at hin
    simp only [setCall, BatchQueue.toList_push, Function.update_self]
    exact hin.pushShutdown
  | shutHere => cases hg
  | goto => exact ⟨hst, h.grown, h.inOrder, h.unshut, h.writing, h.delivered⟩
  | connectEstablished => cases hg
  | close ha => rcases ha with rfl | rfl <;> cases hg
  | @callWrite w todo conn es hb hwrote =>
    simp only [perform_eq] at hst ⊢
    refine ⟨hst, h.grown, ?_, ?_, ?_, ?_⟩
    · simp only [hwrote.state, BatchQueue.toList_pushAll]
      exact h.inOrder.completions es
    · intro hstate
      simp only [hwrote.state] at hstate
      have hno : .shutdownWrite ∉ es := mt hwrote.shutdown.mp fun hd => by
        cases hstate.symm.trans hd.2.1
      simp [h.unshut hstate, shutdownsOf_eq_nil.mpr hno]
    · rcases hwrote.writing with hw | hout | rfl
      · exact .inl hw
      · exact .inr (.inl hout)
      · exact h.writing
    · refine h.delivered_concat hst rfl rfl ?_
      intro hnew hwires
      have hd : s.conn.Drains w := hwrote.shutdown.mp (by
        by_contra hno
        exact hwires (shutdownsOf_eq_nil.mpr hno))
      refine ⟨?_, ?_, hwrote.drained hd, fun wire hwire => hwrote.full _ wire hwire⟩
      · -- in `kDisconnecting` the thread is past its sends
        cases hcall : s.calls (some t) with
        | sending message =>
          cases hd.2.1.symm.trans (h.inOrder.calling (by simp [hcall]) (by simp [hcall]))
        | _ => rfl
      · simpa using hok w rfl hd hnew
  | queueDestroyed =>
    refine ⟨hst, h.grown, ?_, h.unshut, h.writing, h.delivered⟩
    simp only [BatchQueue.toList_push]
    exact h.inOrder.append (by simp) (by simp)
  | beginFunctors hpc =>
    refine ⟨hst, h.grown, ?_, h.unshut, h.writing, h.delivered⟩
    rw [BatchQueue.toList_swap (h.worked (by rw [hpc]; rfl))]
    exact h.inOrder
  | runSend hpc hnext hsent =>
    simp only [perform_eq, record] at hst ⊢
    refine ⟨hst, h.grown, ?_, ?_, h.writing_sent hsent, ?_⟩
    · have hin := h.inOrder
      rw [BatchQueue.toList_of_next hnext] at hin
      simp only [hsent.state, BatchQueue.toList_pushAll]
      exact hin.rest.completions _
    · simp only [hsent.state, shutdownsOf_eq_nil.mpr hsent.noShutdown, List.map_nil,
        List.append_nil]
      exact h.unshut
    · simp only [shutdownsOf_eq_nil.mpr hsent.noShutdown, List.map_nil, List.append_nil]
      exact h.delivered
  | @runShutdown w rest hpc hnext =>
    have hin := h.inOrder
    rw [BatchQueue.toList_of_next hnext] at hin
    obtain ⟨hstate, hcall⟩ := hin.closing List.mem_cons_self
    simp only [perform_eq, completionsOf_shutdownInLoop, wireOf_shutdownInLoop, List.append_nil]
      at hst ⊢
    refine ⟨hst, h.grown, ?_, fun hs => absurd hs hstate, h.writing, ?_⟩
    · simpa [BatchQueue.pushAll] using hin.rest
    · refine h.delivered_concat hst rfl rfl ?_
      intro hnew hwires
      have hqueue := messagesOf_queued_eq_nil hin.noneBehind
      have hcall : (s.calls (some t)).message = [] := by rw [hcall]; rfl
      have hrest : (messagesOf (some t) (queued s.functors.toList)).flatten = [] := by
        rw [queued_next hnext]
        simp [hqueue]
      refine ⟨hcall, by simp [BatchQueue.pushAll, hqueue], ?_, fun wire hwire =>
        shutdownsOf_of_silent (wireOf_shutdownInLoop _) hwire⟩
      -- the thread's bytes have run, and the channel is not writing
      have hlen := h.length_lt hnew
      rw [← h.all_ran hcall hrest] at hlen
      have hidle : s.conn.channel_.isWriting ≠ true := fun hw =>
        hwires (by simp [TcpConnection.shutdownInLoop, hw, shutdownsOf])
      exact (h.writing.resolve_left hidle).resolve_right (Nat.not_le.mpr hlen)
  | runWriteComplete hpc hnext =>
    refine ⟨hst, h.grown, ?_, h.unshut, h.writing, h.delivered⟩
    have hin := h.inOrder
    rw [BatchQueue.toList_of_next hnext] at hin
    exact hin.rest
  | beginDestroyed hpc hnext => simp [graceful, hnext] at hg
  | destroyFault hpc hnext => simp [graceful, hnext] at hg
  | endDestroyed => cases hg
  | endFunctors => exact ⟨hst, h.grown, h.inOrder, h.unshut, h.writing, h.delivered⟩

/-- A `handleWrite` that shuts down before bytes of the thread have run loses them. -/
theorem Parting.breaks (h : Parting t s₀ s) (hok : ¬ NotOvertaken t s₀ s a)
    (hs : s.step a = some s') : ¬ Delivered t s₀ s' := by
  simp only [NotOvertaken, not_forall] at hok
  obtain ⟨w, rfl, hd, hnew, hqueue⟩ := hok
  obtain ⟨todo, conn, es, hwrote, rfl⟩ := callWrite_move h.wf hs
  simp only [perform_eq]
  intro hdel
  have hne : shutdownsOf s.wire es ≠ [] := fun hnil =>
    shutdownsOf_eq_nil.mp hnil (hwrote.shutdown.mpr hd)
  obtain ⟨wire, hwire⟩ := List.exists_mem_of_ne_nil _ hne
  have hran := (hdel hnew (s.ran, wire)
    (List.mem_append_right _ (List.mem_map_of_mem hwire))).1
  dsimp only at hran
  rw [h.order, stream, messagesOf_append, List.flatten_append, List.flatten_append,
    List.append_assoc, List.self_eq_append_right, List.append_eq_nil_iff] at hran
  exact hqueue hran.1

end ConnState

variable {T : Type u} [DecidableEq T]

/-- The runs of `graceful` steps. -/
def gracefulClose (t : T) : Machine (ConnState T) (ConnAct T) :=
  (tcpConnection T).restrict (ConnState.graceful t)

/-- **When a graceful close loses nothing.** From any reachable state in `kConnected`, with any content
of `outputBuffer_`, where the thread is outside its calls: in a run of its sends and its `shutdown`
among the loop's steps and other callers' sends, every `shutdownWrite` comes after every byte of its
messages if and only if no `handleWrite` drains the buffer in `kDisconnecting` while such bytes are
queued. -/
theorem graceful_close_iff {t : T} {s₀ : ConnState T} (h : (tcpConnection T).Reachable s₀)
    (hstate : s₀.conn.state_ = .kConnected) (hidle : s₀.calls (some t) = .idle)
    (as : List (ConnAct T)) :
    (gracefulClose t).Along (ConnState.Delivered t s₀) s₀ as ↔
      (gracefulClose t).Guarded (ConnState.NotOvertaken t s₀) s₀ as := by
  have hst := ConnState.streams_of_reachable h
  obtain ⟨hnone, hqueue, -⟩ := ConnState.unshut_of_reachable h (.inr hstate)
  have hstart : ConnState.Parting t s₀ s₀ :=
    { hst with
      grown := List.prefix_rfl
      inOrder := ⟨fun hc => absurd hidle hc, fun hc => (nomatch hidle.symm.trans hc),
        fun hm => absurd hm hqueue, ConnState.sendsFirst_of_not_mem hqueue⟩
      unshut := fun _ => hnone
      writing := .inr (.inr (by
        rw [hst.order, hidle, ConnState.stream, messagesOf_append, List.flatten_append,
          List.flatten_append, List.append_assoc, List.length_append]
        exact Nat.le_add_right ..))
      delivered := fun _ p hp => absurd (hnone ▸ hp) List.not_mem_nil }
  exact Machine.along_iff_guarded (ConnState.Parting t s₀) (fun _ hp => hp.delivered)
    (fun _ _ _ hp hok hs => hp.step (Machine.restrict_step.mp hs).1 hok (Machine.restrict_step.mp hs).2)
    (fun _ _ _ hp hok hs => hp.breaks hok (Machine.restrict_step.mp hs).2) hstart

/-- Two messages and `shutdown`, worked off in one batch. -/
theorem graceful_close_batch : ∃ s₀ s : ConnState Unit, (tcpConnection Unit).Reachable s₀ ∧
    s.shutdowns = [([(some (), [1, 2]), (some (), [3])], [1, 2, 3])] ∧
    ConnState.Delivered () s₀ s := by
  have hreach : (tcpConnection Unit).Reachable _ :=
    ⟨.start true false, [.connectEstablished], ⟨true, false, rfl⟩, rfl⟩
  have hgood := (graceful_close_iff (t := ()) hreach rfl rfl [.sendTest (some ()) [1, 2], .sendPush (),
    .sendTest (some ()) [3], .sendPush (), .shutTest (some ()), .shutSet (some ()), .shutPush (),
    .beginFunctors, .runFunctor (.wrote 2), .runFunctor (.wrote 1), .runFunctor .failed]).mpr
    (Machine.Guarded.of_labels (by simp [ConnState.NotOvertaken]) _)
  refine ⟨_, _, hreach, ?_, hgood.last rfl⟩
  rfl

/-- A byte of an earlier message is left in `outputBuffer_`. The thread sends one more and is in
`shutdown`, past `setState(kDisconnecting)`, when `handleWrite` drains the buffer: the write side is
shut down before the message has run. -/
theorem graceful_close_fails : ¬ ∀ s₀ : ConnState Unit, (tcpConnection Unit).Reachable s₀ →
    s₀.conn.state_ = .kConnected → s₀.calls (some ()) = .idle → ∀ as s,
      (gracefulClose ()).run s₀ as = some s → ConnState.Delivered () s₀ s := by
  intro hall
  have hreach : (tcpConnection Unit).Reachable _ := ⟨.start true false,
    [.connectEstablished, .sendTest (some ()) [1, 2, 3], .sendPush (), .beginFunctors,
      .runFunctor (.wrote 2), .endFunctors], ⟨true, false, rfl⟩, rfl⟩
  have hdel := hall _ hreach rfl rfl [.sendTest (some ()) [4], .sendPush (), .shutTest (some ()),
    .shutSet (some ()), .poll { pollout := true }, .handleEvent, .callWrite (.wrote 1)] _ rfl
  have hbytes := (hdel (by decide) ([(some (), [1, 2, 3])], [1, 2, 3]) List.mem_cons_self).1
  exact absurd hbytes (by decide)

end Netfish
