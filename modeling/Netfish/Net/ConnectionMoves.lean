import Netfish.Net.ConnectionThreads

/-!
# What a step of a connection can do

`Moves` has one case for each branch of the step, and `step_moves` is the inversion. `ConnMove` has one
for each thing a step can do to a connection whose channel is `Wf`, with the law of the method instead
of its body; a step that stops at an assertion is the case `fault`.
-/

set_option autoImplicit false

namespace Netfish

open Kit

universe u

/-- `doPendingFunctors` is working off a batch. -/
def ConnPc.inBatch : ConnPc → Bool
  | .batch => true
  | .destroying => true
  | _ => false

/-- The functors that effects queue. -/
def completionsOf {T : Type u} (es : List ConnEffect) : List (ConnFunctor T) :=
  es.filterMap fun
    | .queueWriteComplete => some .writeComplete
    | _ => none

namespace ConnState

variable {T : Type u} {s s' : ConnState T}

/-- The effects of a method, all at once. -/
theorem perform_eq (s : ConnState T) (es : List ConnEffect) :
    s.perform es = { s with
      functors := s.functors.pushAll (completionsOf es)
      removals := s.removals + es.count .closeCallback
      wire := s.wire ++ wireOf es
      shutdowns := s.shutdowns ++ (shutdownsOf s.wire es).map (s.ran, ·) } := by
  induction es generalizing s with
  | nil => simp [perform, completionsOf, shutdownsOf, BatchQueue.pushAll]
  | cons e es ih =>
    rw [show s.perform (e :: es) = (s.effect e).perform es from rfl, ih]
    cases e <;>
      simp [effect, completionsOf, shutdownsOf, wireOf, BatchQueue.pushAll, BatchQueue.push,
        Nat.add_assoc, Nat.add_comm 1]

/-- The messages of the `sendInLoop` functors of a list, with their callers. -/
def queued (functors : List (ConnFunctor T)) : List (Option T × List UInt8) :=
  functors.filterMap fun
    | .sendInLoop t message => some (some t, message)
    | _ => none

@[simp] theorem queued_append (fs gs : List (ConnFunctor T)) :
    queued (fs ++ gs) = queued fs ++ queued gs := List.filterMap_append ..

@[simp] theorem queued_sendInLoop (t : T) (message : List UInt8) :
    queued [.sendInLoop t message] = [(some t, message)] := rfl

@[simp] theorem queued_shutdownInLoop : queued [(.shutdownInLoop : ConnFunctor T)] = [] := rfl

@[simp] theorem queued_writeComplete : queued [(.writeComplete : ConnFunctor T)] = [] := rfl

@[simp] theorem queued_connectDestroyed : queued [(.connectDestroyed : ConnFunctor T)] = [] := rfl

@[simp] theorem queued_completions (es : List ConnEffect) :
    queued (completionsOf es : List (ConnFunctor T)) = [] := by
  induction es with
  | nil => rfl
  | cons e es ih => cases e <;> exact ih

end ConnState

/-- One case for each branch of the step. -/
inductive ConnState.Moves {T : Type u} [DecidableEq T] (s : ConnState T) :
    ConnAct T → ConnState T → Prop
  | sendTest {o : Option T} {message : List UInt8} (hmay : s.MayCall o)
      (hstate : s.conn.state_ = .kConnected) :
      Moves s (.sendTest o message) { s.setCall o (.sending message) with
        accepted := Function.update s.accepted o (s.accepted o ++ [message]) }
  | sendNot {o : Option T} {message : List UInt8} (hstate : s.conn.state_ ≠ .kConnected) :
      Moves s (.sendTest o message) s
  | sendPush {t : T} {message : List UInt8} (hcall : s.calls (some t) = .sending message) :
      Moves s (.sendPush t) { s.setCall (some t) .idle with
        functors := s.functors.push (.sendInLoop t message) }
  | sendHere {w : WriteResult} {message : List UInt8} (hcall : s.calls none = .sending message)
      (hw : w.Within message.length) :
      Moves s (.sendHere w) (s.after (s.conn.sendInLoop message w) fun s =>
        (s.setCall none .idle).record none message)
  | shutTest {o : Option T} (hmay : s.MayCall o) (hstate : s.conn.state_ = .kConnected) :
      Moves s (.shutTest o) (s.setCall o .shutting)
  | shutNot {o : Option T} (hstate : s.conn.state_ ≠ .kConnected) : Moves s (.shutTest o) s
  | shutSet {o : Option T} (hcall : s.calls o = .shutting) :
      Moves s (.shutSet o)
        { s.setCall o .shut with conn := { s.conn with state_ := .kDisconnecting } }
  | shutPush {t : T} (hcall : s.calls (some t) = .shut) :
      Moves s (.shutPush t)
        { s.setCall (some t) .idle with functors := s.functors.push .shutdownInLoop }
  | shutHere (hcall : s.calls none = .shut) :
      Moves s .shutHere ((s.setCall none .idle).perform s.conn.shutdownInLoop)
  | queueDestroyed (hpos : 0 < s.removals) :
      Moves s .queueDestroyed
        { s with removals := s.removals - 1, functors := s.functors.push .connectDestroyed }
  | connectEstablished (hidle : s.calls none = .idle) (hfresh : s.fresh = true) :
      Moves s .connectEstablished
        (s.after s.conn.connectEstablished fun s => { s with fresh := false })
  | poll {revents : Events} {mask : Events} (hidle : s.calls none = .idle) (hpc : s.pc = .idle)
      (hwatched : s.conn.channel_.watched = some mask) :
      Moves s (.poll revents) { s with pc := .active revents }
  | handleEvent {revents : Events} (hidle : s.calls none = .idle) (hpc : s.pc = .active revents) :
      Moves s .handleEvent { s with pc := .event (Channel.handleEvent revents) false }
  | callClose {todo : List ChannelCallback} {inMessage : Bool} (hidle : s.calls none = .idle)
      (hpc : s.pc = .event (.close :: todo) inMessage) :
      Moves s .callClose (s.after s.conn.handleClose fun s => { s with pc := .event todo false })
  | callError {todo : List ChannelCallback} {inMessage : Bool} (hidle : s.calls none = .idle)
      (hpc : s.pc = .event (.error :: todo) inMessage) :
      Moves s .callError (s.after s.conn.handleError fun s => { s with pc := .event todo false })
  | callRead {r : ReadResult} {todo : List ChannelCallback} {inMessage : Bool}
      (hidle : s.calls none = .idle) (hpc : s.pc = .event (.read :: todo) inMessage) :
      Moves s (.callRead r) (s.after (s.conn.handleRead r) fun s =>
        { s with pc := .event todo (r = .data && s.conn.messageCallback_) })
  | callWrite {w : WriteResult} {todo : List ChannelCallback} {inMessage : Bool}
      (hidle : s.calls none = .idle) (hpc : s.pc = .event (.write :: todo) inMessage)
      (hw : w.Within s.conn.outputBuffer_.length) :
      Moves s (.callWrite w)
        (s.after (s.conn.handleWrite w) fun s => { s with pc := .event todo false })
  | eventDone {inMessage : Bool} (hidle : s.calls none = .idle) (hpc : s.pc = .event [] inMessage) :
      Moves s .eventDone { s with pc := .idle }
  | beginFunctors (hidle : s.calls none = .idle) (hpc : s.pc = .idle) :
      Moves s .beginFunctors { s with pc := .batch, functors := s.functors.swap }
  | runFunctor {w : WriteResult} {f : ConnFunctor T} {rest : BatchQueue (ConnFunctor T)}
      {s' : ConnState T} (hidle : s.calls none = .idle) (hpc : s.pc = .batch)
      (hnext : s.functors.next = some (f, rest))
      (hrun : ConnState.runFunctor { s with functors := rest } w f = some s') :
      Moves s (.runFunctor w) s'
  | endDestroyed (hidle : s.calls none = .idle) (hpc : s.pc = .destroying) :
      Moves s .endDestroyed
        (s.after (s.conn.endDestroyed.map (·, [])) fun s => { s with pc := .batch })
  | endFunctors (hidle : s.calls none = .idle) (hpc : s.pc = .batch)
      (hbatch : s.functors.batch = []) : Moves s .endFunctors { s with pc := .idle }

/-- One case for each thing a step can do. -/
inductive ConnMove {T : Type u} [DecidableEq T] (s : ConnState T) :
    ConnAct T → ConnState T → Prop
  | fault {a : ConnAct T} (f : ConnFault) : ConnMove s a { s with fault := some f }
  /-- A test of `state_` that fails. -/
  | refused {a : ConnAct T} (h : s.conn.state_ ≠ .kConnected) : ConnMove s a s
  | accept {o : Option T} {message : List UInt8} (h : s.MayCall o)
      (hstate : s.conn.state_ = .kConnected) :
      ConnMove s (.sendTest o message) { s.setCall o (.sending message) with
        accepted := Function.update s.accepted o (s.accepted o ++ [message]) }
  | sendPush {t : T} {message : List UInt8} (h : s.calls (some t) = .sending message) :
      ConnMove s (.sendPush t) { s.setCall (some t) .idle with
        functors := s.functors.push (.sendInLoop t message) }
  | sendHere {w : WriteResult} {message : List UInt8} {conn : TcpConnection}
      {es : List ConnEffect} (h : s.calls none = .sending message)
      (hsent : s.conn.Sent message conn es) :
      ConnMove s (.sendHere w)
        ((({ s with conn }.perform es).setCall none .idle).record none message)
  | shutTest {o : Option T} (h : s.MayCall o) (hstate : s.conn.state_ = .kConnected) :
      ConnMove s (.shutTest o) (s.setCall o .shutting)
  | shutSet {o : Option T} (h : s.calls o = .shutting) :
      ConnMove s (.shutSet o)
        { s.setCall o .shut with conn := { s.conn with state_ := .kDisconnecting } }
  | shutPush {t : T} (h : s.calls (some t) = .shut) :
      ConnMove s (.shutPush t)
        { s.setCall (some t) .idle with functors := s.functors.push .shutdownInLoop }
  | shutHere (h : s.calls none = .shut) :
      ConnMove s .shutHere ((s.setCall none .idle).perform s.conn.shutdownInLoop)
  /-- A step between handlers, or in a callback that changes nothing here. -/
  | goto {a : ConnAct T} {pc : ConnPc} (h : s.pc.inBatch = false) (h' : pc.inBatch = false) :
      ConnMove s a { s with pc }
  | connectEstablished {channel : Channel} (hstate : s.conn.state_ = .kConnecting)
      (hwf : channel.Wf) :
      ConnMove s .connectEstablished { s with
        conn := { s.conn with state_ := .kConnected, channel_ := channel }, fresh := false }
  /-- `handleClose`, in `callClose` or at the end of the stream in `callRead`. -/
  | close {a : ConnAct T} {todo : List ChannelCallback} {channel : Channel}
      (ha : a = .callClose ∨ a = .callRead .eof) (h : s.pc.inBatch = false) (hwf : channel.Wf) :
      ConnMove s a { s with
        conn := { s.conn with channel_ := channel }
        pc := .event todo false
        removals := s.removals + 1 }
  | callWrite {w : WriteResult} {todo : List ChannelCallback} {conn : TcpConnection}
      {es : List ConnEffect} (h : s.pc.inBatch = false) (hwrote : s.conn.Wrote w conn es) :
      ConnMove s (.callWrite w) { { s with conn }.perform es with pc := .event todo false }
  | queueDestroyed (h : 0 < s.removals) :
      ConnMove s .queueDestroyed
        { s with removals := s.removals - 1, functors := s.functors.push .connectDestroyed }
  | beginFunctors (hpc : s.pc = .idle) :
      ConnMove s .beginFunctors { s with pc := .batch, functors := s.functors.swap }
  | runSend {w : WriteResult} {t : T} {message : List UInt8} {rest : BatchQueue (ConnFunctor T)}
      {conn : TcpConnection} {es : List ConnEffect} (hpc : s.pc = .batch)
      (h : s.functors.next = some (.sendInLoop t message, rest))
      (hsent : s.conn.Sent message conn es) :
      ConnMove s (.runFunctor w)
        (({ s with conn, functors := rest }.perform es).record (some t) message)
  | runShutdown {w : WriteResult} {rest : BatchQueue (ConnFunctor T)} (hpc : s.pc = .batch)
      (h : s.functors.next = some (.shutdownInLoop, rest)) :
      ConnMove s (.runFunctor w) ({ s with functors := rest }.perform s.conn.shutdownInLoop)
  | runWriteComplete {w : WriteResult} {rest : BatchQueue (ConnFunctor T)} (hpc : s.pc = .batch)
      (h : s.functors.next = some (.writeComplete, rest)) :
      ConnMove s (.runFunctor w) { s with functors := rest }
  | beginDestroyed {w : WriteResult} {rest : BatchQueue (ConnFunctor T)} {channel : Channel}
      (hpc : s.pc = .batch) (h : s.functors.next = some (.connectDestroyed, rest))
      (hwf : channel.Wf) :
      ConnMove s (.runFunctor w) { s with
        conn := { s.conn with state_ := .kDisconnected, channel_ := channel }
        functors := rest
        pc := .destroying }
  | destroyFault {w : WriteResult} {rest : BatchQueue (ConnFunctor T)} (hpc : s.pc = .batch)
      (h : s.functors.next = some (.connectDestroyed, rest)) (f : ConnFault) :
      ConnMove s (.runFunctor w) { s with functors := rest, fault := some f }
  | endDestroyed {channel : Channel} (hpc : s.pc = .destroying) (hwf : channel.Wf) :
      ConnMove s .endDestroyed
        { s with conn := { s.conn with channel_ := channel }, pc := .batch }
  | endFunctors (hpc : s.pc = .batch) (h : s.functors.batch = []) :
      ConnMove s .endFunctors { s with pc := .idle }

namespace ConnState

variable {T : Type u} [DecidableEq T] {s s' : ConnState T} {a : ConnAct T}

theorem callStep_moves (h : s.callStep a = some s') : s.Moves a s' := by
  unfold callStep at h
  split at h
  · split at h
    · next hmay =>
      cases h
      split
      · next hstate => exact .sendTest hmay hstate
      · next hstate => exact .sendNot hstate
    · cases h
  · split at h
    · next hcall => cases h; exact .sendPush hcall
    · cases h
  · split at h
    · next hcall =>
      split at h
      · next hw => cases h; exact .sendHere hcall hw
      · cases h
    · cases h
  · split at h
    · next hmay =>
      cases h
      split
      · next hstate => exact .shutTest hmay hstate
      · next hstate => exact .shutNot hstate
    · cases h
  · split at h
    · next hcall => cases h; exact .shutSet hcall
    · cases h
  · split at h
    · next hcall => cases h; exact .shutPush hcall
    · cases h
  · split at h
    · next hcall => cases h; exact .shutHere hcall
    · cases h
  · cases h

theorem loopStep_moves (hidle : s.calls none = .idle) (h : s.loopStep a = some s') :
    s.Moves a s' := by
  unfold loopStep at h
  split at h
  iterate 2
    · split at h
      · next hfresh => cases h; exact .connectEstablished hidle hfresh
      · cases h
  · next hpc =>
    split at h
    · next hwatched =>
      split at h
      · cases h; exact .poll hidle hpc hwatched
      · cases h
    · cases h
  · next hpc => cases h; exact .handleEvent hidle hpc
  · next hpc => cases h; exact .callClose hidle hpc
  · next hpc => cases h; exact .callError hidle hpc
  · next hpc => cases h; exact .callRead hidle hpc
  · next hpc =>
    split at h
    · next hw => cases h; exact .callWrite hidle hpc hw
    · cases h
  · next hpc => cases h; exact .eventDone hidle hpc
  · next hpc => cases h; exact .beginFunctors hidle hpc
  · next hpc =>
    obtain ⟨⟨f, rest⟩, hnext, h⟩ := Option.bind_eq_some_iff.mp h
    exact .runFunctor hidle hpc hnext h
  · next hpc => cases h; exact .endDestroyed hidle hpc
  · next hpc =>
    split at h
    · next hbatch => cases h; exact .endFunctors hidle hpc hbatch
    · cases h
  · cases h

/-- The inversion of a step. -/
theorem step_moves (h : s.step a = some s') : s.fault = none ∧ s.Moves a s' := by
  unfold step at h
  split at h
  · cases h
  next hfault =>
  refine ⟨by simpa using hfault, ?_⟩
  split at h
  iterate 7 · exact callStep_moves h
  · split at h
    · next hpos => cases h; exact .queueDestroyed hpos
    · cases h
  · split at h
    · next hidle => exact loopStep_moves hidle h
    · cases h

theorem runFunctor_move (hwf : s.conn.channel_.Wf) (hpc : s.pc = .batch) {w : WriteResult}
    {f : ConnFunctor T} {rest : BatchQueue (ConnFunctor T)}
    (hnext : s.functors.next = some (f, rest))
    (h : runFunctor { s with functors := rest } w f = some s') :
    ConnMove s (.runFunctor w) s' := by
  cases f with
  | sendInLoop t message =>
    simp only [runFunctor] at h
    split at h
    · obtain ⟨conn, es, hrun, hsent⟩ := TcpConnection.sendInLoop_spec hwf message w
      rw [hrun] at h
      cases h
      exact .runSend hpc hnext hsent
    · cases h
  | shutdownInLoop => cases h; exact .runShutdown hpc hnext
  | writeComplete => cases h; exact .runWriteComplete hpc hnext
  | connectDestroyed =>
    by_cases hin : s.conn.inUse = true
    · obtain ⟨channel, hrun, hch, -⟩ := TcpConnection.beginDestroyed_spec hwf hin
      simp only [runFunctor, hrun] at h
      cases h
      exact .beginDestroyed hpc hnext hch
    · simp only [runFunctor, TcpConnection.beginDestroyed, check_neg hin] at h
      cases h
      exact .destroyFault hpc hnext _

/-- The state after `handleClose`, or the assertion it stops at. -/
theorem after_handleClose (hwf : s.conn.channel_.Wf) {todo : List ChannelCallback}
    (ha : a = .callClose ∨ a = .callRead .eof) (hpc : s.pc.inBatch = false) {inMessage : Bool}
    (hin : inMessage = false) :
    ConnMove s a (s.after s.conn.handleClose fun s => { s with pc := .event todo inMessage }) := by
  subst hin
  by_cases huse : s.conn.inUse = true
  · obtain ⟨channel, hrun, hch, -⟩ := TcpConnection.handleClose_spec hwf huse
    rw [hrun]
    exact .close ha hpc hch
  · rw [TcpConnection.handleClose, check_neg huse]
    exact .fault _

/-- A `handleWrite` step is nothing else. -/
theorem callWrite_move (hwf : s.conn.channel_.Wf) {w : WriteResult}
    (h : s.step (.callWrite w) = some s') : ∃ todo conn es, s.conn.Wrote w conn es ∧
      s' = { { s with conn }.perform es with pc := .event todo false } := by
  cases (step_moves h).2 with
  | callWrite hidle hpc hw =>
    obtain ⟨conn, es, hrun, hwrote⟩ := TcpConnection.handleWrite_spec hwf hw
    rw [hrun]
    exact ⟨_, conn, es, hwrote, rfl⟩

/-- What a step of a connection with a `Wf` channel can do. -/
theorem step_move (hwf : s.conn.channel_.Wf) (h : s.step a = some s') : ConnMove s a s' := by
  cases (step_moves h).2 with
  | sendTest hmay hstate => exact .accept hmay hstate
  | sendNot hstate | shutNot hstate => exact .refused hstate
  | sendPush hcall => exact .sendPush hcall
  | @sendHere w message hcall hw =>
    obtain ⟨conn, es, hrun, hsent⟩ := TcpConnection.sendInLoop_spec hwf message w
    rw [hrun]
    exact .sendHere hcall hsent
  | shutTest hmay hstate => exact .shutTest hmay hstate
  | shutSet hcall => exact .shutSet hcall
  | shutPush hcall => exact .shutPush hcall
  | shutHere hcall => exact .shutHere hcall
  | queueDestroyed hpos => exact .queueDestroyed hpos
  | connectEstablished =>
    by_cases hstate : s.conn.state_ = .kConnecting
    · obtain ⟨channel, hrun, hch, -⟩ := TcpConnection.connectEstablished_spec hwf hstate
      rw [hrun]
      exact .connectEstablished hstate hch
    · rw [TcpConnection.connectEstablished, check_neg hstate]
      exact .fault _
  | poll hidle hpc | handleEvent hidle hpc | callError hidle hpc | eventDone hidle hpc =>
    exact .goto (by rw [hpc]; rfl) rfl
  | callClose hidle hpc => exact after_handleClose hwf (.inl rfl) (by rw [hpc]; rfl) rfl
  | @callRead r todo inMessage hidle hpc =>
    have hb : s.pc.inBatch = false := by rw [hpc]; rfl
    cases r with
    | eof => exact after_handleClose hwf (.inr rfl) hb rfl
    | error => exact .goto hb rfl
    | data =>
      have hquiet : s.perform (if s.conn.messageCallback_ then [.messageCallback] else []) = s := by
        split <;> rfl
      simp only [after, TcpConnection.handleRead, hquiet]
      exact .goto hb rfl
  | callWrite hidle hpc hw =>
    obtain ⟨conn, es, hrun, hwrote⟩ := TcpConnection.handleWrite_spec hwf hw
    rw [hrun]
    exact .callWrite (by rw [hpc]; rfl) hwrote
  | beginFunctors hidle hpc => exact .beginFunctors hpc
  | runFunctor hidle hpc hnext hrun => exact runFunctor_move hwf hpc hnext hrun
  | endDestroyed hidle hpc =>
    cases hrun : s.conn.channel_.removeChannel with
    | error f =>
      simp only [TcpConnection.endDestroyed, TcpConnection.onChannel, hrun, Except.map]
      exact .fault _
    | ok channel =>
      simp only [TcpConnection.endDestroyed, TcpConnection.onChannel, hrun, Except.map]
      exact .endDestroyed hpc (hwf.of_removeChannel hrun)
  | endFunctors hidle hpc hbatch => exact .endFunctors hpc hbatch

end ConnState

end Netfish
