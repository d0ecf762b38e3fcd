import Netfish.Net.ConnectorLoop

/-!
# What a connector keeps

`Steady` is what every step of a connector keeps, however often and whenever it is started, whether an
assertion fails or not: its channel fits its state and the queue, events of the channel are to be
handled only in `kConnecting`, and the owner has a connection only in `kConnected`.
-/

set_option autoImplicit false

namespace Netfish

open Kit

universe u

/-- The retry timers of the current expired batch. -/
def ConnectorPc.expired : ConnectorPc → List Nat
  | .timers expired _ => expired
  | _ => []

/-- The events of the connector's channel, if it is still to be handled. -/
def ConnectorPc.active : ConnectorPc → Option Events
  | .handlers active _ => active
  | .timers _ active => active
  | _ => none

/-- The channels that `resetChannel` functors were queued for. -/
def resetsOf (fs : List ConnectorFunctor) : List Nat :=
  fs.filterMap fun
    | .resetChannel sockfd => some sockfd
    | _ => none

@[simp] theorem resetsOf_append (fs gs : List ConnectorFunctor) :
    resetsOf (fs ++ gs) = resetsOf fs ++ resetsOf gs :=
  List.filterMap_append ..

@[simp] theorem resetsOf_nil : resetsOf [] = [] := rfl

@[simp] theorem resetsOf_resetChannel (sockfd : Nat) :
    resetsOf [.resetChannel sockfd] = [sockfd] := rfl

@[simp] theorem resetsOf_startInLoop : resetsOf [.startInLoop] = [] := rfl

@[simp] theorem resetsOf_cancelInLoop (timerId : Option Nat) :
    resetsOf [.cancelInLoop timerId] = [] := rfl

theorem mem_resetsOf {fs : List ConnectorFunctor} {sockfd : Nat} :
    sockfd ∈ resetsOf fs ↔ .resetChannel sockfd ∈ fs := by
  simp only [resetsOf, List.mem_filterMap]
  constructor
  · rintro ⟨f, hf, heq⟩
    cases f <;> cases heq
    exact hf
  · intro h
    exact ⟨_, h, rfl⟩

namespace ConnectorState

variable {T : Type u} {s s' : ConnectorState T} {a : ConnectorAct T} {e : ConnectErrno}

structure Steady (s : ConnectorState T) : Prop where
  fits : s.connector.Fits (resetsOf s.functors.toList)
  worked : s.pc ≠ .batch → s.functors.batch = []
  active : s.pc.active ≠ none → s.connector.state_ = .kConnecting
  linked : s.link ≠ .none → s.connector.state_ = .kConnected

theorem start_steady (newConnectionCallback : Bool) :
    (start newConnectionCallback : ConnectorState T).Steady where
  fits := ⟨rfl, ConnectorStates.noConfusion⟩
  worked _ := rfl
  active hne := absurd rfl hne
  linked hne := absurd rfl hne

theorem Steady.no_active (h : s.Steady) (hstate : s.connector.state_ ≠ .kConnecting) :
    s.pc.active = none := by
  by_contra hne
  exact hstate (h.active hne)

theorem Steady.link_eq_none (h : s.Steady) (hstate : s.connector.state_ ≠ .kConnected) :
    s.link = .none := by
  by_contra hlink
  exact hstate (h.linked hlink)

/-- What is reported of the connector's channel belongs to an attempt. -/
theorem Steady.reported (h : s.Steady) {revents : Option Events}
    (hrep : revents.all s.MayReport = true) (hne : revents ≠ none) :
    s.connector.state_ = .kConnecting := by
  obtain ⟨events, rfl⟩ := Option.ne_none_iff_exists'.mp hne
  by_contra hnot
  rcases h.fits.of_not_connecting hnot with ⟨hch, -⟩ | ⟨sockfd, hch, -⟩ <;>
    simp [MayReport, hch, Channel.new] at hrep

/-- What `startInLoop` may do. -/
inductive Starts (s : ConnectorState T) (e : ConnectErrno) : ConnectorState T → Prop
  /-- An assertion fails. -/
  | fault (fault : ConnectorFault) : Starts s e { s with fault := some fault }
  | ran {c' : Connector} {es : List ConnectorEffect} (hstate : s.connector.state_ = .kDisconnected)
      (hch : s.connector.connect_ = true → e.begins = true → s.connector.channel_ = none)
      (hstarted : s.connector.Started s.nextSocket s.nextTimer e c' es) :
      Starts s e (s.after (.ok (c', es)))

theorem startInLoop_starts (s : ConnectorState T) (e : ConnectErrno) :
    s.Starts e (s.startInLoop e) := by
  unfold startInLoop
  by_cases hstate : s.connector.state_ = .kDisconnected
  · by_cases hch : s.connector.connect_ = true → e.begins = true → s.connector.channel_ = none
    · obtain ⟨c', es, hrun, hstarted⟩ := Connector.startInLoop_spec s.nextSocket
        s.nextTimer hstate hch
      rw [hrun]
      exact .ran hstate hch hstarted
    · simp only [Classical.not_imp] at hch
      obtain ⟨hconnect, he, hne⟩ := hch
      rw [Connector.startInLoop_connecting hstate hconnect he hne]
      exact .fault _
  · rw [Connector.startInLoop_fault hstate]
    exact .fault _

/-- What a callback of the connector's channel may do. -/
inductive Handles (s : ConnectorState T) (err selfConnect : Bool) :
    ChannelCallback → ConnectorState T → Prop
  | quiet {callback : ChannelCallback}
      (hquiet : callback = .write → s.connector.state_ ≠ .kConnecting) :
      Handles s err selfConnect callback s
  /-- An assertion fails. -/
  | fault {callback : ChannelCallback} (fault : ConnectorFault)
      (hstate : s.connector.state_ ≠ .kConnecting) (hcb : callback = .error) :
      Handles s err selfConnect callback { s with fault := some fault }
  | ended {callback : ChannelCallback} {sockfd : Nat} {c' : Connector} {es : List ConnectorEffect}
      (hstate : s.connector.state_ = .kConnecting) (hcb : callback = .error ∨ callback = .write)
      (hended : s.connector.Ended sockfd s.nextTimer c' es)
      (hstate' : c'.state_ = .kConnected ↔ callback = .write ∧ (err || selfConnect) = false) :
      Handles s err selfConnect callback (s.after (.ok (c', es)))

theorem Steady.handles (h : s.Steady) (err selfConnect : Bool) (callback : ChannelCallback) :
    s.Handles err selfConnect callback (s.callback err selfConnect callback) := by
  cases callback with
  | close => exact .quiet (by simp)
  | read => exact .quiet (by simp)
  | error =>
    by_cases hstate : s.connector.state_ = .kConnecting
    · obtain ⟨sockfd, hch, -⟩ := h.fits.of_connecting hstate
      obtain ⟨c', es, hrun, hended, hstate'⟩ := Connector.handleError_spec s.nextTimer hstate
        hch
      rw [ConnectorState.callback, hrun]
      exact .ended hstate (.inl rfl) hended (by simp [hstate'])
    · rw [ConnectorState.callback, Connector.handleError_fault hstate]
      exact .fault _ hstate rfl
  | write =>
    by_cases hstate : s.connector.state_ = .kConnecting
    · obtain ⟨sockfd, hch, -⟩ := h.fits.of_connecting hstate
      obtain ⟨c', es, hrun, hended, hstate'⟩ := Connector.handleWrite_spec s.nextTimer hstate
        hch err selfConnect
      rw [ConnectorState.callback, hrun]
      refine .ended hstate (.inr rfl) hended ?_
      cases hfail : err || selfConnect <;> simp [hstate', hfail]
    · rw [ConnectorState.callback, Connector.handleWrite_of_ne hstate]
      exact .quiet fun _ => hstate

/-- Nothing but the connector, its socket and its timers has changed. -/
structure SamePlace (s s' : ConnectorState T) : Prop where
  starting : s'.starting = s.starting
  functors : s'.functors = s.functors
  pc : s'.pc = s.pc
  calls : s'.calls = s.calls
  link : s'.link = s.link
  made : s'.made = s.made
  fault : s'.fault = s.fault

/-- What the end of an attempt leaves around the connector. -/
structure EndPlace (s : ConnectorState T) (sockfd : Nat) (c' : Connector) (s' : ConnectorState T) :
    Prop where
  connector : s'.connector = c'
  starting : s'.starting = s.starting
  functors : s'.functors = s.functors.push (.resetChannel sockfd)
  pc : s'.pc = s.pc
  calls : s'.calls = s.calls
  fault : s'.fault = s.fault
  link : (s'.link = s.link ∧ s'.made = s.made) ∨
    (s'.link = .fresh ∧ s'.made = s.made + 1 ∧ c'.state_ = .kConnected)

theorem started_place {c' : Connector} {es : List ConnectorEffect}
    (h : s.connector.Started s.nextSocket s.nextTimer e c' es) :
    (s.after (.ok (c', es))).connector = c' ∧ s.SamePlace (s.after (.ok (c', es))) := by
  cases h <;> exact ⟨rfl, rfl, rfl, rfl, rfl, rfl, rfl, rfl⟩

theorem ended_place {sockfd : Nat} {c' : Connector} {es : List ConnectorEffect}
    (h : s.connector.Ended sockfd s.nextTimer c' es) :
    s.EndPlace sockfd c' (s.after (.ok (c', es))) := by
  cases h with
  | connected =>
    split
    · exact ⟨rfl, rfl, rfl, rfl, rfl, rfl, .inr ⟨rfl, rfl, rfl⟩⟩
    · exact ⟨rfl, rfl, rfl, rfl, rfl, rfl, .inl ⟨rfl, rfl⟩⟩
  | retried => exact ⟨rfl, rfl, rfl, rfl, rfl, rfl, .inl ⟨rfl, rfl⟩⟩
  | stopped => exact ⟨rfl, rfl, rfl, rfl, rfl, rfl, .inl ⟨rfl, rfl⟩⟩
  | unwanted => exact ⟨rfl, rfl, rfl, rfl, rfl, rfl, .inl ⟨rfl, rfl⟩⟩

theorem Steady.starts (h : s.Steady) (hs : s.Starts e s') :
    s'.Steady ∧ s'.pc = s.pc ∧ s'.functors = s.functors := by
  cases hs with
  | fault => exact ⟨⟨h.fits, h.worked, h.active, h.linked⟩, rfl, rfl⟩
  | @ran c' es hstate hch hstarted =>
    obtain ⟨hconn, hsame⟩ := started_place hstarted
    have hlink := h.link_eq_none (by simp [hstate])
    have hactive := h.no_active (by simp [hstate])
    refine ⟨⟨?_, ?_, ?_, ?_⟩, hsame.pc, hsame.functors⟩
    · rw [hconn, hsame.functors]
      have hfits := h.fits
      cases hstarted with
      | off => exact hfits
      | began hconnect he =>
        rw [Connector.Fits, hch hconnect he] at hfits
        exact .inl ⟨rfl, hfits.1, rfl⟩
      | retried => exact hfits
      | failed => exact hfits
    · simpa only [hsame.pc, hsame.functors] using h.worked
    · simp [hsame.pc, hactive]
    · simp [hsame.link, hlink]

theorem Steady.goto (h : s.Steady) {pc : ConnectorPc} (hbatch : s.functors.batch = [])
    (hactive : pc.active ≠ none → s.connector.state_ = .kConnecting) : { s with pc }.Steady :=
  ⟨h.fits, fun _ => hbatch, hactive, h.linked⟩

theorem Steady.runTimer (h : s.Steady) {timer : Nat} {expired : List Nat} {active : Option Events}
    (hpc : s.pc = .timers (timer :: expired) active) :
    { s.startInLoop e with pc := .timers expired active }.Steady := by
  obtain ⟨hrun, hpc', hfunctors⟩ := h.starts (s.startInLoop_starts e)
  refine hrun.goto ?_ ?_
  · rw [hfunctors]
    exact h.worked (by simp [hpc])
  · simpa [hpc', hpc, ConnectorPc.active] using hrun.active

/-- After a callback of the connector's channel, with no event of it left. -/
theorem Steady.handled (h : s.Steady) {err selfConnect : Bool} {callback : ChannelCallback}
    (hs : s.Handles err selfConnect callback s') (hworked : s.functors.batch = [])
    {pc : ConnectorPc} (hactive : pc.active = none) : { s' with pc }.Steady := by
  have hno : pc.active ≠ none → False := fun hne => hne hactive
  cases hs with
  | quiet => exact ⟨h.fits, fun _ => hworked, fun hne => (hno hne).elim, h.linked⟩
  | fault => exact ⟨h.fits, fun _ => hworked, fun hne => (hno hne).elim, h.linked⟩
  | @ended sockfd c' es hstate hcb hended =>
    have hplace := ended_place hended
    have hlink := h.link_eq_none (by simp [hstate])
    obtain ⟨fd, hch, hresets⟩ := h.fits.of_connecting hstate
    have hqueue : resetsOf (s.functors.push (.resetChannel sockfd)).toList = [sockfd] := by
      rw [BatchQueue.toList_push, resetsOf_append, hresets]
      rfl
    refine ⟨?_, fun _ => ?_, fun hne => (hno hne).elim, ?_⟩
    · simp only [hplace.connector, hplace.functors, hqueue]
      cases hended <;> exact .inr ⟨ConnectorStates.noConfusion, rfl, rfl⟩
    · simp only [hplace.functors]
      exact hworked
    · rcases hplace.link with ⟨hsame, -⟩ | ⟨-, -, hstate'⟩
      · simp [hsame, hlink]
      · simp [hplace.connector, hstate']

/-- The end of the owner's connection, when the connector is in `kConnected`. -/
theorem Steady.closed (h : s.Steady) (hstate : s.connector.state_ = .kConnected) (restart : Bool) :
    (s.closed restart).Steady := by
  have hactive := h.no_active (by simp [hstate])
  cases restart with
  | false => exact ⟨h.fits, h.worked, h.active, fun hne => absurd rfl hne⟩
  | true =>
    refine ⟨?_, h.worked, fun hne => absurd hactive hne, fun hne => absurd rfl hne⟩
    rcases h.fits.of_not_connecting (by simp [hstate]) with ⟨hch, hnil⟩ | ⟨sockfd, hch, hone⟩
    · simp only [ConnectorState.closed, if_true, Connector.Fits, Connector.restart, hch]
      exact ⟨hnil, ConnectorStates.noConfusion⟩
    · simp only [ConnectorState.closed, if_true, Connector.Fits, Connector.restart, hch]
      exact .inr ⟨ConnectorStates.noConfusion, hone, trivial⟩

/-- No attempt is in progress when a `resetChannel` runs. -/
theorem Steady.resetting (h : s.Steady) {sockfd : Nat} {rest : BatchQueue ConnectorFunctor}
    (hnext : s.functors.next = some (.resetChannel sockfd, rest)) :
    s.connector.state_ ≠ .kConnecting := by
  intro hstate
  obtain ⟨fd, -, hnil⟩ := h.fits.of_connecting hstate
  rw [BatchQueue.toList_of_next hnext] at hnil
  cases hnil

/-- A functor of the batch. -/
theorem Steady.runFunctor (h : s.Steady) (hpc : s.pc = .batch) {f : ConnectorFunctor}
    {rest : BatchQueue ConnectorFunctor} (hnext : s.functors.next = some (f, rest)) :
    (ConnectorState.runFunctor { s with functors := rest } e f).Steady := by
  have hlist := BatchQueue.toList_of_next hnext
  -- the state without the functor, when it is no `resetChannel`
  have htaken : resetsOf s.functors.toList = resetsOf rest.toList →
      { s with functors := rest }.Steady := by
    intro hresets
    exact ⟨hresets ▸ h.fits, fun hne => absurd hpc hne, h.active, h.linked⟩
  cases f with
  | startInLoop =>
    exact ((htaken (by rw [hlist]; rfl)).starts (startInLoop_starts _ e)).1
  | resetChannel sockfd =>
    have hresets : resetsOf s.functors.toList = sockfd :: resetsOf rest.toList := by rw [hlist]; rfl
    have hnot := h.resetting hnext
    have hlast : resetsOf rest.toList = [] := by
      rcases h.fits.of_not_connecting hnot with ⟨-, hnil⟩ | ⟨fd, -, hone⟩
      · cases hresets.symm.trans hnil
      · exact (List.cons.inj (hresets.symm.trans hone)).2
    exact ⟨⟨hlast, hnot⟩, fun hne => absurd hpc hne, h.active, h.linked⟩
  | cancelInLoop timerId =>
    have hrun := htaken (by rw [hlist]; rfl)
    exact ⟨hrun.fits, hrun.worked, hrun.active, hrun.linked⟩

/-- What other threads change. -/
theorem Steady.otherThread (h : s.Steady) (connect : Bool) (calls : T → ConnectorCall)
    {functors : BatchQueue ConnectorFunctor} (hbatch : functors.batch = s.functors.batch)
    (hresets : resetsOf functors.toList = resetsOf s.functors.toList) :
    { s.setConnect connect with calls, functors }.Steady :=
  ⟨hresets ▸ h.fits, fun hpc => hbatch.trans (h.worked hpc), h.active, h.linked⟩

variable [DecidableEq T]

theorem Steady.step (h : s.Steady) (hs : s.step a = some s') : s'.Steady := by
  obtain ⟨-, hmove⟩ := step_moves hs
  cases hmove with
  | startSet => exact h.otherThread true _ rfl rfl
  | startPush => exact h.otherThread s.connector.connect_ _ rfl (by simp)
  | stopSet => exact h.otherThread false _ rfl rfl
  | stopPush => exact h.otherThread s.connector.connect_ _ rfl (by simp)
  | @startInLoop e hstart =>
    have hrun := (h.starts (s.startInLoop_starts e)).1
    exact ⟨hrun.fits, hrun.worked, hrun.active, hrun.linked⟩
  | startHere => exact ⟨h.fits, h.worked, h.active, h.linked⟩
  | stopHere => exact ⟨h.fits, h.worked, h.active, h.linked⟩
  | @poll revents timerfd hstart hpc hrep =>
    refine ⟨h.fits, fun _ => h.worked (by simp [hpc]), fun hne => h.reported hrep hne, ?_⟩
    intro (hne : (if s.link = .fresh then Link.open else s.link) ≠ .none)
    apply h.linked
    split at hne
    · next hfresh => simp [hfresh]
    · exact hne
  | handleEvent hstart hpc => exact h.goto (h.worked (by simp [hpc])) fun hne => absurd rfl hne
  | @callback err selfConnect _ _ callback _ hstart hpc =>
    exact h.handled (h.handles err selfConnect callback) (h.worked (by simp [hpc])) rfl
  | eventDone hstart hpc => exact h.goto (h.worked (by simp [hpc])) fun hne => absurd rfl hne
  | closed hstart hpc hlink => exact h.closed (h.linked (by simp [hlink])) _
  | timerRead hstart hpc =>
    refine ⟨h.fits, fun _ => h.worked (by simp [hpc]), ?_, h.linked⟩
    simpa [hpc, ConnectorPc.active] using h.active
  | runTimer hstart hpc => exact h.runTimer hpc
  | timersDone hstart hpc =>
    refine h.goto (h.worked (by simp [hpc])) ?_
    simpa [hpc, ConnectorPc.active] using h.active
  | beginFunctors hstart hpc =>
    have hbatch := h.worked (by simp [hpc])
    refine ⟨?_, fun hne => absurd rfl hne, fun hne => absurd rfl hne, h.linked⟩
    rw [BatchQueue.toList_swap hbatch]
    exact h.fits
  | runFunctor hstart hpc hnext => exact h.runFunctor hpc hnext
  | endFunctors hstart hpc hbatch => exact h.goto hbatch fun hne => absurd rfl hne

end ConnectorState

end Netfish
