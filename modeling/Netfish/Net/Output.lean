import Netfish.Net.Stream

/-!
# Write interest

`sendInLoop` asks for `POLLOUT` when it leaves bytes in `outputBuffer_`, and `handleWrite` gives the interest
up when it has emptied it; both may also find the write refused, cut short or not needed. Between them the
interest follows the buffer (`Synced`). For a `Synced` connection the methods of the output path have sharper
laws: when they shut the write side down and when they signal completion. `OutputMove` is the inversion of a
step with these laws, up to the first `disableAll`.
-/

set_option autoImplicit false

namespace Netfish

open Kit

universe u

theorem Events.union_read_pollout (e : Events) : (e.union kReadEvent).pollout = e.pollout :=
  Bool.or_false _

namespace TcpConnection

variable {c c' : TcpConnection} {es : List ConnEffect} {w : WriteResult} {message : List UInt8}

/-- Write interest follows the output buffer. -/
structure Synced (c : TcpConnection) : Prop where
  wf : c.channel_.Wf
  writing : c.channel_.isWriting = true ↔ c.outputBuffer_ ≠ []

theorem new_synced (m w : Bool) : (new m w).Synced := ⟨Channel.new_wf, nofun, fun hout => absurd rfl hout⟩

theorem Synced.isWriting_eq (h : c.Synced) (hout : c.outputBuffer_ = []) :
    c.channel_.isWriting = false := by
  apply Bool.eq_false_iff.mpr
  intro hw
  exact h.writing.mp hw hout

/-- The poller has the channel, and the kernel watches it for writability. -/
theorem Synced.watched (h : c.Synced) (hout : c.outputBuffer_ ≠ []) :
    ∃ mask, c.channel_.watched = some mask ∧ mask.pollout = true := by
  have hw : c.channel_.events_.pollout = true := h.writing.mpr hout
  have hwf := h.wf
  unfold Channel.Wf at hwf
  split at hwf
  · rw [hwf.2.2] at hw
    cases hw
  · exact ⟨_, hwf.2, hw⟩
  · rw [hwf.2.2] at hw
    cases hw

/-- What the methods of the output path have in common: the interest follows the buffer, the write side is
shut down with the buffer empty, and when it is emptied in `kDisconnecting`. -/
structure Follows (c c' : TcpConnection) (es : List ConnEffect) : Prop where
  synced : c'.Synced
  state : c'.state_ = c.state_
  callback : c'.writeCompleteCallback_ = c.writeCompleteCallback_
  shutdown : .shutdownWrite ∈ es → c'.outputBuffer_ = []
  deferred : c.state_ = .kDisconnecting → c.outputBuffer_ ≠ [] → c'.outputBuffer_ = [] →
    .shutdownWrite ∈ es

/-- Nothing happens. -/
theorem Synced.stays (h : c.Synced) : c.Follows c [] where
  synced := h
  state := rfl
  callback := rfl
  shutdown := nofun
  deferred _ hout hout' := absurd hout' hout

/-- A change of the write interest that fits the buffer. -/
theorem onChannel_synced (h : c.channel_.Wf) (events : Events)
    (hfit : events.pollout = true ↔ c.outputBuffer_ ≠ []) :
    ∃ channel, c.onChannel (c.channel_.setEvents events) = .ok { c with channel_ := channel } ∧
      { c with channel_ := channel }.Synced := by
  obtain ⟨channel, hrun, hwf, hev, -⟩ := onChannel_setEvents h events
  refine ⟨channel, hrun, hwf, ?_⟩
  show channel.events_.pollout = true ↔ _
  rw [hev]
  exact hfit

/-! ## `sendInLoop` -/

/-- What `sendInLoop` does for the output path: with a message that has bytes, `writeCompleteCallback_` is
queued once when none of them is left, and not otherwise. -/
structure SendFollows (c : TcpConnection) (message : List UInt8) (c' : TcpConnection)
    (es : List ConnEffect) : Prop extends c.Follows c' es where
  noShutdown : .shutdownWrite ∉ es
  kept : c.outputBuffer_ ≠ [] → c'.outputBuffer_ ≠ []
  notices : c.writeCompleteCallback_ = true → message ≠ [] →
    es.count .queueWriteComplete = if c'.outputBuffer_ = [] then 1 else 0

/-- Behind other bytes the message just goes into the buffer. -/
theorem Synced.sendInLoop_busy (h : c.Synced) (hout : c.outputBuffer_ ≠ []) (message : List UInt8)
    (w : WriteResult) : c.sendInLoop message w = .ok (c.buffered message, []) := by
  have hdirect : c.directWrite message w = (0, []) := if_neg fun hc => hout hc.2
  have hwriting : (c.buffered message).channel_.isWriting = true := h.writing.mpr hout
  unfold sendInLoop
  rw [hdirect]
  dsimp only
  split
  · rw [List.drop_zero, if_pos hwriting]
  · next hlen =>
    have hnil : message = [] := by
      rw [← List.length_eq_zero_iff]
      omega
    rw [hnil, buffered, List.append_nil]

/-- A direct write signals completion exactly when it took the whole message. -/
theorem directWrite_notices (hwriting : c.channel_.isWriting = false) (hout : c.outputBuffer_ = [])
    (hcallback : c.writeCompleteCallback_ = true) (hne : message ≠ []) (w : WriteResult) :
    (c.directWrite message w).2.count .queueWriteComplete =
      if (c.directWrite message w).1 < message.length then 0 else 1 := by
  unfold directWrite
  rw [if_pos ⟨hwriting, hout⟩]
  cases w with
  | wrote n =>
    dsimp only
    rw [hcallback]
    split <;> rfl
  | failed => exact (if_pos (List.length_pos_iff.mpr hne)).symm

theorem Synced.sendInLoop (h : c.Synced) (message : List UInt8) (w : WriteResult) :
    ∃ c' es, c.sendInLoop message w = .ok (c', es) ∧ c.SendFollows message c' es := by
  obtain ⟨-, hquiet⟩ := directWrite_quiet c message w
  by_cases hout : c.outputBuffer_ = []
  · have hwriting := h.isWriting_eq hout
    unfold TcpConnection.sendInLoop
    dsimp only
    split
    · next hlt =>
      have hrest : (c.buffered (message.drop (c.directWrite message w).1)).outputBuffer_ ≠ [] := by
        show c.outputBuffer_ ++ _ ≠ []
        rw [hout, List.nil_append]
        intro hdrop
        have hlen := List.drop_eq_nil_iff.mp hdrop
        omega
      obtain ⟨channel, hrun, hsynced⟩ := onChannel_synced
        (c := c.buffered (message.drop (c.directWrite message w).1)) h.wf
        (c.channel_.events_.union kWriteEvent) (by simpa using hrest)
      have hoff : ¬ (c.buffered (message.drop (c.directWrite message w).1)).channel_.isWriting = true :=
        Bool.eq_false_iff.mp hwriting
      rw [if_neg hoff]
      refine ⟨_, _, bind_eq_ok.mpr ⟨_, hrun, rfl⟩, ⟨hsynced, rfl, rfl, fun hm => absurd hm hquiet,
        fun _ hne => absurd hout hne⟩, hquiet, fun hne => absurd hout hne, ?_⟩
      intro hcallback hne
      rw [directWrite_notices hwriting hout hcallback hne w, if_pos hlt]
      exact (if_neg hrest).symm
    · next hge =>
      refine ⟨_, _, rfl, ⟨h, rfl, rfl, fun hm => absurd hm hquiet, fun _ hne => absurd hout hne⟩,
        hquiet, fun hne => absurd hout hne, ?_⟩
      intro hcallback hne
      rw [directWrite_notices hwriting hout hcallback hne w, if_neg hge, if_pos hout]
  · have hmore : (c.buffered message).outputBuffer_ ≠ [] :=
      fun hnil => hout (List.append_eq_nil_iff.mp hnil).1
    have hsynced : (c.buffered message).Synced :=
      ⟨h.wf, fun _ => hmore, fun _ => h.writing.mpr hout⟩
    refine ⟨_, _, h.sendInLoop_busy hout message w, ⟨hsynced, rfl, rfl, nofun, ?_⟩, nofun,
      fun _ => hmore, ?_⟩
    · exact fun _ _ hnil => absurd hnil hmore
    · intro _ _
      rw [if_neg hmore]
      rfl

/-! ## `handleWrite` -/

/-- What `handleWrite` does for the output path: it takes bytes from the front of the buffer, and
`writeCompleteCallback_` is queued once when it takes the last, and not otherwise. -/
structure WriteFollows (c : TcpConnection) (w : WriteResult) (c' : TcpConnection)
    (es : List ConnEffect) : Prop extends c.Follows c' es where
  progress : c.outputBuffer_ ≠ [] → ∀ n, w = .wrote n → c'.outputBuffer_ = c.outputBuffer_.drop n
  idle : c.outputBuffer_ = [] → c' = c
  notices : c.writeCompleteCallback_ = true →
    es.count .queueWriteComplete = if c.outputBuffer_ ≠ [] ∧ c'.outputBuffer_ = [] then 1 else 0

/-- Nothing is written. -/
theorem Synced.writesNothing (h : c.Synced) (hw : c.outputBuffer_ ≠ [] → ∀ n, w = .wrote n → n = 0) :
    c.WriteFollows w c [] := by
  refine ⟨h.stays, ?_, fun _ => rfl, ?_⟩
  · intro hout n hn
    rw [hw hout n hn, List.drop_zero]
  · intro _
    rw [if_neg fun hc => hc.1 hc.2]
    rfl

/-- The end of `handleWrite` gives the interest up, signals completion and makes good a deferred
`shutdown`. -/
theorem outputDrained_synced (h : c.channel_.Wf) (hout : c.outputBuffer_ = []) :
    ∃ channel es, c.outputDrained = .ok ({ c with channel_ := channel }, es) ∧
      { c with channel_ := channel }.Synced ∧
      (c.state_ = .kDisconnecting → .shutdownWrite ∈ es) ∧
      (c.writeCompleteCallback_ = true → es.count .queueWriteComplete = 1) := by
  obtain ⟨channel, hrun, hsynced⟩ :=
    onChannel_synced h (c.channel_.events_.minus kWriteEvent) (by simp [hout])
  refine ⟨channel, _, bind_eq_ok.mpr ⟨_, hrun, rfl⟩, hsynced, ?_⟩
  rw [shutdownInLoop, if_neg (Bool.eq_false_iff.mp (hsynced.isWriting_eq hout))]
  constructor
  · intro hstate
    rw [if_pos hstate]
    exact List.mem_append_right _ List.mem_cons_self
  · intro hcallback
    rw [if_pos hcallback]
    split <;> rfl

theorem Synced.retrieveWritten (h : c.Synced) {n : Nat} (hn : 0 < n)
    (hle : n ≤ c.outputBuffer_.length) :
    ∃ c' es, c.retrieveWritten n = .ok (c', es) ∧ c.WriteFollows (.wrote n) c' es := by
  have hne : c.outputBuffer_ ≠ [] := List.length_pos_iff.mp (by omega)
  unfold TcpConnection.retrieveWritten
  rw [check_pos hle, ok_bind]
  dsimp only
  split
  · next hempty =>
    obtain ⟨channel, es, hrun, hsynced, hshut, hnotice⟩ :=
      outputDrained_synced (c := { c with outputBuffer_ := c.outputBuffer_.drop n }) h.wf hempty
    refine ⟨_, _, bind_eq_ok.mpr ⟨_, hrun, rfl⟩, ⟨⟨hsynced, rfl, rfl, fun _ => hempty, ?_⟩, ?_,
      fun hnil => absurd hnil hne, ?_⟩⟩
    · exact fun hstate _ _ => List.mem_cons_of_mem _ (hshut hstate)
    · intro _ m hm
      cases hm
      rfl
    · intro hcallback
      rw [if_pos ⟨hne, hempty⟩]
      exact (List.count_cons_of_ne (by simp)).trans (hnotice hcallback)
  · next hrest =>
    have hsynced : { c with outputBuffer_ := c.outputBuffer_.drop n }.Synced :=
      ⟨h.wf, fun _ => hrest, fun _ => h.writing.mpr hne⟩
    refine ⟨_, _, rfl, ⟨hsynced, rfl, rfl, by simp, fun _ _ hnil => absurd hnil hrest⟩, ?_,
      fun hnil => absurd hnil hne, ?_⟩
    · intro _ m hm
      cases hm
      rfl
    · intro _
      rw [if_neg fun hc => hrest hc.2]
      rfl

theorem Synced.handleWrite (h : c.Synced) (hw : w.Within c.outputBuffer_.length) :
    ∃ c' es, c.handleWrite w = .ok (c', es) ∧ c.WriteFollows w c' es := by
  unfold TcpConnection.handleWrite
  split
  · cases w with
    | failed => exact ⟨_, _, rfl, h.writesNothing fun _ => nofun⟩
    | wrote n =>
      dsimp only
      split
      · next hn => exact h.retrieveWritten hn hw
      · next hn =>
        refine ⟨_, _, rfl, h.writesNothing ?_⟩
        intro _ m hm
        cases hm
        omega
  · next hwriting =>
    exact ⟨_, _, rfl, h.writesNothing fun hout => absurd (h.writing.mpr hout) hwriting⟩

/-! ## The other methods -/

theorem Synced.shutdownInLoop_eq (h : c.Synced) :
    c.shutdownInLoop = if c.outputBuffer_ = [] then [.shutdownWrite] else [] := by
  unfold shutdownInLoop
  split
  · next hw => exact (if_neg (h.writing.mp hw)).symm
  · next hw => exact (if_pos (not_not.mp (mt h.writing.mpr hw))).symm

theorem Synced.connectEstablished (h : c.Synced) (hs : c.state_ = .kConnecting) :
    ∃ channel, c.connectEstablished =
        .ok ({ c with state_ := .kConnected, channel_ := channel }, [.connectionCallback]) ∧
      { c with state_ := .kConnected, channel_ := channel }.Synced := by
  obtain ⟨channel, hrun, hwf, hev, -⟩ := connectEstablished_spec h.wf hs
  refine ⟨channel, hrun, hwf, ?_⟩
  show channel.events_.pollout = true ↔ _
  rw [hev, Events.union_read_pollout]
  exact h.writing

theorem Synced.shutdownInLoop_follows (h : c.Synced) : c.Follows c c.shutdownInLoop where
  synced := h
  state := rfl
  callback := rfl
  shutdown := by
    rw [h.shutdownInLoop_eq]
    split
    · next hout => exact fun _ => hout
    · exact nofun
  deferred _ hout hout' := absurd hout' hout

end TcpConnection

/-! ## The steps -/

/-- Steps that are nothing to the output path. -/
def ConnAct.aside {T : Type u} : ConnAct T → Bool
  | .shutTest _ | .connectEstablished | .poll _ | .handleEvent | .callError | .callRead _ | .eventDone
  | .endFunctors => true
  | _ => false

/-- Up to the first `disableAll` there is neither `handleClose` nor `connectDestroyed`. -/
def ConnState.beforeDisableAll {T : Type u} [DecidableEq T] (s : ConnState T) : ConnAct T → Bool
  | .callClose => false
  | .callRead .eof => false
  | .runFunctor _ => !(s.functors.next.any fun p => p.1 = .connectDestroyed)
  | .endDestroyed => false
  | _ => true

/-- A connection up to its first `disableAll`. -/
def openConnection (T : Type u) [DecidableEq T] : Machine (ConnState T) (ConnAct T) :=
  (tcpConnection T).restrict ConnState.beforeDisableAll

/-- One case for each thing a step can do up to the first `disableAll`. -/
inductive OutputMove {T : Type u} [DecidableEq T] (s : ConnState T) :
    ConnAct T → ConnState T → Prop
  | refused {o : Option T} {message : List UInt8} (hstate : s.conn.state_ ≠ .kConnected) :
      OutputMove s (.sendTest o message) s
  | accept {o : Option T} {message : List UInt8} (h : s.MayCall o)
      (hstate : s.conn.state_ = .kConnected) :
      OutputMove s (.sendTest o message) { s.setCall o (.sending message) with
        accepted := Function.update s.accepted o (s.accepted o ++ [message]) }
  | sendPush {t : T} {message : List UInt8} (h : s.calls (some t) = .sending message) :
      OutputMove s (.sendPush t) { s.setCall (some t) .idle with
        functors := s.functors.push (.sendInLoop t message) }
  | sendHere {w : WriteResult} {message : List UInt8} {conn : TcpConnection}
      {es : List ConnEffect} (h : s.calls none = .sending message)
      (hsend : s.conn.SendFollows message conn es) :
      OutputMove s (.sendHere w)
        ((({ s with conn }.perform es).setCall none .idle).record none message)
  | shutTest {o : Option T} (h : s.MayCall o) : OutputMove s (.shutTest o) (s.setCall o .shutting)
  | shutSet {o : Option T} (h : s.calls o = .shutting) :
      OutputMove s (.shutSet o)
        { s.setCall o .shut with conn := { s.conn with state_ := .kDisconnecting } }
  | shutPush {t : T} (h : s.calls (some t) = .shut) :
      OutputMove s (.shutPush t)
        { s.setCall (some t) .idle with functors := s.functors.push .shutdownInLoop }
  | shutHere (h : s.calls none = .shut) :
      OutputMove s .shutHere ((s.setCall none .idle).perform s.conn.shutdownInLoop)
  | aside {a : ConnAct T} {fault : Option ConnFault} {pc : ConnPc} (ha : a.aside = true) :
      OutputMove s a { s with fault, pc }
  | connectEstablished {channel : Channel}
      (hsynced : { s.conn with state_ := .kConnected, channel_ := channel }.Synced) :
      OutputMove s .connectEstablished { s with
        conn := { s.conn with state_ := .kConnected, channel_ := channel }, fresh := false }
  | callWrite {w : WriteResult} {todo : List ChannelCallback} {conn : TcpConnection}
      {es : List ConnEffect} (hwrite : s.conn.WriteFollows w conn es) :
      OutputMove s (.callWrite w) { { s with conn }.perform es with pc := .event todo false }
  | queueDestroyed :
      OutputMove s .queueDestroyed
        { s with removals := s.removals - 1, functors := s.functors.push .connectDestroyed }
  | beginFunctors (hpc : s.pc = .idle) :
      OutputMove s .beginFunctors { s with pc := .batch, functors := s.functors.swap }
  | runSend {w : WriteResult} {t : T} {message : List UInt8} {rest : BatchQueue (ConnFunctor T)}
      {conn : TcpConnection} {es : List ConnEffect}
      (h : s.functors.next = some (.sendInLoop t message, rest))
      (hsend : s.conn.SendFollows message conn es) :
      OutputMove s (.runFunctor w)
        (({ s with conn, functors := rest }.perform es).record (some t) message)
  | runShutdown {w : WriteResult} {rest : BatchQueue (ConnFunctor T)}
      (h : s.functors.next = some (.shutdownInLoop, rest)) :
      OutputMove s (.runFunctor w) ({ s with functors := rest }.perform s.conn.shutdownInLoop)
  | runWriteComplete {w : WriteResult} {rest : BatchQueue (ConnFunctor T)}
      (h : s.functors.next = some (.writeComplete, rest)) :
      OutputMove s (.runFunctor w) { s with functors := rest }

namespace ConnState

variable {T : Type u} [DecidableEq T] {s s' : ConnState T} {a : ConnAct T}

theorem runFunctor_outputMove (h : s.conn.Synced) {w : WriteResult} {f : ConnFunctor T}
    {rest : BatchQueue (ConnFunctor T)} (hnext : s.functors.next = some (f, rest))
    (hf : f ≠ .connectDestroyed) (hs : runFunctor { s with functors := rest } w f = some s') :
    OutputMove s (.runFunctor w) s' := by
  cases f with
  | sendInLoop t message =>
    simp only [runFunctor] at hs
    obtain ⟨hw, hs⟩ := Option.ite_none_right_eq_some.mp hs
    obtain ⟨conn, es, hrun, hsend⟩ := h.sendInLoop message w
    rw [hrun] at hs
    cases hs
    exact .runSend hnext hsend
  | shutdownInLoop =>
    cases hs
    exact .runShutdown hnext
  | writeComplete =>
    cases hs
    exact .runWriteComplete hnext
  | connectDestroyed => exact absurd rfl hf

/-- The inversion of a step up to the first `disableAll`. -/
theorem step_outputMove (h : s.conn.Synced) (hopen : s.beforeDisableAll a = true)
    (hs : s.step a = some s') : OutputMove s a s' := by
  cases (step_moves hs).2 with
  | sendTest hmay hstate => exact .accept hmay hstate
  | sendNot hstate => exact .refused hstate
  | sendPush hcall => exact .sendPush hcall
  | @sendHere w message hcall hw =>
    obtain ⟨conn, es, hrun, hsend⟩ := h.sendInLoop message w
    rw [hrun]
    exact .sendHere hcall hsend
  | shutTest hmay => exact .shutTest hmay
  | shutSet hcall => exact .shutSet hcall
  | shutPush hcall => exact .shutPush hcall
  | shutHere hcall => exact .shutHere hcall
  | queueDestroyed => exact .queueDestroyed
  | shutNot | poll | handleEvent | callError | eventDone | endFunctors => exact .aside rfl
  | connectEstablished =>
    by_cases hstate : s.conn.state_ = .kConnecting
    · obtain ⟨channel, hrun, hsynced⟩ := h.connectEstablished hstate
      rw [hrun]
      exact .connectEstablished hsynced
    · rw [TcpConnection.connectEstablished, check_neg hstate]
      exact .aside rfl
  | callClose | endDestroyed => cases hopen
  | @callRead r =>
    cases r with
    | eof => cases hopen
    | error => exact .aside rfl
    | data =>
      have hquiet : s.perform (if s.conn.messageCallback_ then [.messageCallback] else []) = s := by
        split <;> rfl
      simp only [after, TcpConnection.handleRead, hquiet]
      exact .aside rfl
  | callWrite hidle hpc hw =>
    obtain ⟨conn, es, hrun, hwrite⟩ := h.handleWrite hw
    rw [hrun]
    exact .callWrite hwrite
  | beginFunctors hidle hpc => exact .beginFunctors hpc
  | runFunctor hidle hpc hnext hrun =>
    apply runFunctor_outputMove h hnext ?_ hrun
    rintro rfl
    simp [beforeDisableAll, hnext] at hopen

end ConnState

end Netfish
