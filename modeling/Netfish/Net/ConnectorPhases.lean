import Netfish.Net.ConnectorRest

/-!
# The phases of a connector

An attempt, a retry timer and a connection exclude one another, and the channel of an attempt is there
until its `resetChannel` has run, at the end of the iteration. `Phased` is the invariant. A step keeps
it when `start` finds the connector `Ready`, and when the callback of a retry timer that begins an
attempt finds no `resetChannel` queued.
-/

set_option autoImplicit false

namespace Netfish

open Kit

universe u

namespace ConnectorState

variable {T : Type u} {s s' : ConnectorState T} {a : ConnectorAct T} {expired : List Nat}
  {e : ConnectErrno}

/-- One retry timer at most, the one `timerId_` names, and only in `kDisconnected`; `expired` are the
timers taken out of `timers_`. -/
structure Timed (s : ConnectorState T) (expired : List Nat) : Prop where
  one : (s.timers ++ expired).length ≤ 1
  waiting : s.timers ++ expired ≠ [] → s.connector.state_ = .kDisconnected
  named : ∀ timer ∈ s.timers, s.connector.timerId_ = some timer

theorem Timed.no_timer (h : s.Timed expired) (hstate : s.connector.state_ ≠ .kDisconnected) :
    s.timers = [] ∧ expired = [] := by
  by_contra hne
  apply hstate
  apply h.waiting
  simpa using hne

theorem Timed.cancelInLoop (h : s.Timed expired) (timerId : Option Nat) :
    (s.cancelInLoop timerId).Timed expired := by
  have hsub : (s.cancelInLoop timerId).timers.Sublist s.timers := List.filter_sublist
  refine ⟨?_, ?_, ?_⟩
  · exact Nat.le_trans (hsub.append_right expired).length_le h.one
  · intro hne
    apply h.waiting
    intro hnil
    exact hne (List.sublist_nil.mp (hnil ▸ hsub.append_right expired))
  · exact fun timer hmem => h.named timer (hsub.subset hmem)

/-- The timers that `handleRead` takes out. -/
theorem Timed.timerRead (h : s.Timed []) (hsub : expired.Sublist s.timers) :
    { s with timers := s.timers.filter (· ∉ expired) }.Timed expired := by
  have hone : s.timers.length ≤ 1 := by simpa using h.one
  have hleft : s.timers.filter (· ∉ expired) ++ expired = s.timers := by
    match htimers : s.timers, hone with
    | [], _ =>
      rw [htimers, List.sublist_nil] at hsub
      simp [hsub]
    | [timer], _ =>
      rw [htimers] at hsub
      rcases List.sublist_singleton.mp hsub with rfl | rfl <;> simp
  refine ⟨?_, ?_, ?_⟩
  · exact Nat.le_trans (Nat.le_of_eq (congrArg List.length hleft)) hone
  · intro hne
    apply h.waiting
    rw [List.append_nil, ← hleft]
    exact hne
  · exact fun timer hmem => h.named timer (List.mem_of_mem_filter hmem)

/-- A timer is armed when there was none. -/
theorem Timed.armed (hnone : s.timers = []) (hnew : s'.timers = s.timers ++ [s.nextTimer])
    (hid : s'.connector.timerId_ = some s.nextTimer)
    (hstate : s'.connector.state_ = .kDisconnected) : s'.Timed [] := by
  rw [hnone, List.nil_append] at hnew
  refine ⟨by simp [hnew], fun _ => hstate, ?_⟩
  intro timer hmem
  rw [hnew, List.mem_singleton] at hmem
  rw [hid, hmem]

/-- `startInLoop` with no timer about. -/
theorem Timed.started (h : s.Timed []) (hnone : s.timers = [])
    (hstate : s.connector.state_ = .kDisconnected) {c' : Connector} {es : List ConnectorEffect}
    (hstarted : s.connector.Started s.nextSocket s.nextTimer e c' es) :
    (s.after (.ok (c', es))).Timed [] := by
  cases hstarted with
  | off => exact ⟨h.one, h.waiting, h.named⟩
  | began => exact ⟨h.one, fun hne => absurd hne (by simp [after, effect, hnone]), h.named⟩
  | retried => exact Timed.armed hnone rfl rfl hstate
  | failed => exact ⟨h.one, h.waiting, h.named⟩

/-- The end of an attempt. -/
theorem Timed.ended (h : s.Timed []) (hstate : s.connector.state_ = .kConnecting) {sockfd : Nat}
    {c' : Connector} {es : List ConnectorEffect}
    (hended : s.connector.Ended sockfd s.nextTimer c' es) : (s.after (.ok (c', es))).Timed [] := by
  obtain ⟨hnone, -⟩ := h.no_timer (by simp [hstate])
  have hno : ∀ s' : ConnectorState T, s'.timers = s.timers → s'.Timed [] := by
    intro s' hsame
    rw [hnone] at hsame
    exact ⟨by simp [hsame], fun hne => absurd hne (by simp [hsame]), by simp [hsame]⟩
  cases hended with
  | retried => exact Timed.armed hnone rfl rfl rfl
  | stopped => exact hno _ rfl
  | connected => split <;> exact hno _ rfl
  | unwanted => exact hno _ rfl

/-- The connector may begin an attempt. -/
structure Ready (s : ConnectorState T) : Prop where
  state : s.connector.state_ = .kDisconnected
  channel : s.connector.channel_ = none
  timers : s.timers = []
  expired : s.pc.expired = []

/-- The invariant. -/
structure Phased (s : ConnectorState T) : Prop extends s.Steady, s.Timed s.pc.expired where
  noFault : s.fault = none
  opened : s.link = .open → s.connector.channel_ = none
  ready : s.starting = true → s.Ready
  calm : s.pc = .idle ∨ s.pc = .batch → resetsOf s.functors.pending = []
  erring : ∀ todo inCallback timerfd, s.pc = .event todo inCallback timerfd →
    todo.Sublist [.close, .error, .read, .write] ∧
      (.error ∈ todo → s.connector.state_ = .kConnecting)

/-- The callback of a retry timer that begins an attempt comes after every `resetChannel`. -/
def RetriesAfterReset (s : ConnectorState T) (a : ConnectorAct T) : Prop :=
  ∀ e, a = .runTimer e → e.begins = true → s.connector.connect_ = true →
    ∀ sockfd, .resetChannel sockfd ∉ s.functors.toList

theorem start_phased (newConnectionCallback : Bool) :
    (start newConnectionCallback : ConnectorState T).Phased where
  toSteady := start_steady newConnectionCallback
  one := Nat.zero_le 1
  waiting hne := absurd rfl hne
  named := by simp [start]
  noFault := rfl
  opened hopen := by cases hopen
  ready hstart := by cases hstart
  calm _ := rfl
  erring _ _ _ hpc := by cases hpc

/-- With no handler of the connector's channel to come, all the queue is in `pending` or in `batch`. -/
theorem Phased.idle_resets (h : s.Phased) (hpc : s.pc = .idle) : resetsOf s.functors.toList = [] := by
  rw [BatchQueue.toList, resetsOf_append, h.calm (.inl hpc), h.worked (by simp [hpc])]
  rfl

theorem not_starting (hstart : s.starting = false) {p : Prop} : s.starting = true → p := by
  intro hyes
  cases hstart.symm.trans hyes

/-- `startInLoop` that gets through leaves everything in its place. -/
theorem Timed.startInLoop (h : s.Timed []) (hnone : s.timers = [])
    (hstate : s.connector.state_ = .kDisconnected)
    (hch : s.connector.connect_ = true → e.begins = true → s.connector.channel_ = none) :
    (s.startInLoop e).Timed [] ∧ s.SamePlace (s.startInLoop e) := by
  obtain ⟨c', es, hrun, hstarted⟩ := Connector.startInLoop_spec s.nextSocket s.nextTimer
    hstate hch
  rw [ConnectorState.startInLoop, hrun]
  exact ⟨h.started hnone hstate hstarted, (started_place hstarted).2⟩

theorem Phased.startInLoop (h : s.Phased) (hr : s.Ready)
    (hsteady : { s.startInLoop e with starting := false }.Steady) :
    { s.startInLoop e with starting := false }.Phased := by
  have htimed : s.Timed [] := by simpa [hr.expired] using h.toTimed
  obtain ⟨ht, hsame⟩ := htimed.startInLoop (e := e) hr.timers hr.state fun _ _ => hr.channel
  have hlink := h.link_eq_none (by simp [hr.state])
  have hnot : s.connector.state_ ≠ .kConnecting := by simp [hr.state]
  refine ⟨hsteady, ?_, hsame.fault.trans h.noFault, ?_, by simp, ?_, ?_⟩
  · simp only [hsame.pc, hr.expired]
    exact ⟨ht.one, ht.waiting, ht.named⟩
  · simp [hsame.link, hlink]
  · simpa only [hsame.pc, hsame.functors] using h.calm
  · intro todo inCallback timerfd hpc
    simp only [hsame.pc] at hpc
    obtain ⟨hsub, herror⟩ := h.erring todo inCallback timerfd hpc
    exact ⟨hsub, fun hmem => absurd (herror hmem) hnot⟩

/-- The error callback does not come again, nor after the write callback. -/
theorem error_not_mem {callback : ChannelCallback} {todo : List ChannelCallback}
    (hsub : (callback :: todo).Sublist [.close, .error, .read, .write])
    (hcb : callback = .error ∨ callback = .write) : .error ∉ todo := by
  intro hmem
  have htwo : [callback, .error].Sublist [.close, .error, .read, .write] :=
    ((List.singleton_sublist.mpr hmem).cons_cons callback).trans hsub
  rcases hcb with rfl | rfl <;> exact absurd htwo (by decide)

theorem Phased.callback (h : s.Phased) {err selfConnect inCallback timerfd : Bool}
    {callback : ChannelCallback} {todo : List ChannelCallback}
    (hpc : s.pc = .event (callback :: todo) inCallback timerfd) (hstart : s.starting = false)
    {inCallback' : Bool} (hsteady :
      { s.callback err selfConnect callback with pc := .event todo inCallback' timerfd }.Steady) :
    { s.callback err selfConnect callback with pc := .event todo inCallback' timerfd }.Phased := by
  obtain ⟨hsub, herror⟩ := h.erring _ _ _ hpc
  have htail := (List.sublist_cons_self _ _).trans hsub
  have htimed : s.Timed [] := by simpa [hpc, ConnectorPc.expired] using h.toTimed
  have hhandles := h.handles err selfConnect callback
  generalize s.callback err selfConnect callback = t at hhandles hsteady
  cases hhandles with
  | quiet hquiet =>
    refine ⟨hsteady, ⟨htimed.one, htimed.waiting, htimed.named⟩, h.noFault, h.opened,
      not_starting hstart, by simp, ?_⟩
    rintro todo' _ _ ⟨⟩
    exact ⟨htail, fun hmem => herror (List.mem_cons_of_mem _ hmem)⟩
  | fault _ hstate hcb =>
    subst hcb
    exact absurd (herror List.mem_cons_self) hstate
  | ended hstate hcb hended =>
    have hplace := ended_place hended
    have ht := htimed.ended hstate hended
    have hlink := h.link_eq_none (by simp [hstate])
    refine ⟨hsteady, ⟨ht.one, ht.waiting, ht.named⟩, hplace.fault.trans h.noFault, ?_,
      not_starting (hplace.starting.trans hstart), by simp, ?_⟩
    · rcases hplace.link with ⟨hsame, -⟩ | ⟨hfresh, -⟩
      · simp [hsame, hlink]
      · simp [hfresh]
    · rintro todo' _ _ ⟨⟩
      exact ⟨htail, fun hmem => absurd hmem (error_not_mem hsub hcb)⟩

/-- What the callback of a retry timer finds. -/
theorem Phased.retries (h : s.Phased) (hok : s.RetriesAfterReset (.runTimer e))
    (hexpired : s.pc.expired ≠ []) : s.connector.state_ = .kDisconnected ∧
      (s.connector.connect_ = true → e.begins = true → s.connector.channel_ = none) := by
  have hstate := h.waiting (by simp [hexpired])
  refine ⟨hstate, ?_⟩
  intro hconnect he
  rcases h.fits.of_not_connecting (by simp [hstate]) with ⟨hch, -⟩ | ⟨sockfd, -, hresets⟩
  · exact hch
  · have hqueued : .resetChannel sockfd ∈ s.functors.toList :=
      mem_resetsOf.mp (hresets ▸ List.mem_singleton_self sockfd)
    exact absurd hqueued (hok e rfl he hconnect sockfd)

/-- The callback of a retry timer. -/
theorem Phased.runTimer (h : s.Phased) (hstart : s.starting = false)
    (hok : s.RetriesAfterReset (.runTimer e)) {timer : Nat} {active : Option Events}
    (hpc : s.pc = .timers (timer :: expired) active)
    (hsteady : { s.startInLoop e with pc := .timers expired active }.Steady) :
    { s.startInLoop e with pc := .timers expired active }.Phased := by
  obtain ⟨hstate, hch⟩ := h.retries hok (by simp [hpc, ConnectorPc.expired])
  obtain ⟨hnone, rfl⟩ : s.timers = [] ∧ expired = [] := by
    have hone : (s.timers ++ timer :: expired).length ≤ 1 := by
      simpa [hpc, ConnectorPc.expired] using h.one
    rw [List.length_append, List.length_cons] at hone
    exact ⟨List.length_eq_zero_iff.mp (by omega), List.length_eq_zero_iff.mp (by omega)⟩
  have hlast : s.Timed [] := ⟨by simp [hnone], fun _ => hstate, h.named⟩
  obtain ⟨ht, hsame⟩ := hlast.startInLoop (e := e) hnone hstate hch
  have hlink := h.link_eq_none (by simp [hstate])
  exact ⟨hsteady, ⟨ht.one, ht.waiting, ht.named⟩, hsame.fault.trans h.noFault,
    by simp [hsame.link, hlink], not_starting (hsame.starting.trans hstart), by simp, by simp⟩

/-- A functor of the batch. -/
theorem Phased.runFunctor (h : s.Phased) (hstart : s.starting = false) (hpc : s.pc = .batch)
    {f : ConnectorFunctor} {rest : BatchQueue ConnectorFunctor}
    (hnext : s.functors.next = some (f, rest)) (hbegin : f = .startInLoop → s.Ready)
    (hsteady : (ConnectorState.runFunctor { s with functors := rest } e f).Steady) :
    (ConnectorState.runFunctor { s with functors := rest } e f).Phased := by
  have hpending : rest.pending = s.functors.pending := BatchQueue.pending_of_next hnext
  have hcalm : resetsOf rest.pending = [] := hpending ▸ h.calm (.inr hpc)
  cases f with
  | startInLoop =>
    have hr := hbegin rfl
    have htimed : Timed { s with functors := rest } [] :=
      ⟨by simp [hr.timers], fun _ => hr.state, h.named⟩
    obtain ⟨ht, hsame⟩ := htimed.startInLoop (e := e) hr.timers hr.state fun _ _ => hr.channel
    have hlink := h.link_eq_none (by simp [hr.state])
    refine ⟨hsteady, ?_, hsame.fault.trans h.noFault, ?_, not_starting (hsame.starting.trans hstart), ?_,
      ?_⟩
    · rw [ConnectorState.runFunctor, hsame.pc, hr.expired]
      exact ht
    · intro hopen
      cases (hsame.link.trans hlink).symm.trans hopen
    · rw [ConnectorState.runFunctor, hsame.functors]
      exact fun _ => hcalm
    · rw [ConnectorState.runFunctor, hsame.pc, hpc]
      simp
  | resetChannel sockfd =>
    exact ⟨hsteady, ⟨h.one, h.waiting, h.named⟩, h.noFault, fun _ => rfl, not_starting hstart,
      fun _ => hcalm, h.erring⟩
  | cancelInLoop timerId =>
    have ht := h.toTimed.cancelInLoop timerId
    exact ⟨hsteady, ⟨ht.one, ht.waiting, ht.named⟩, h.noFault, h.opened, not_starting hstart,
      fun _ => hcalm, h.erring⟩

variable [DecidableEq T]

/-- A step keeps the phases, when the steps of `start` find the connector ready and a retry does not
overtake a `resetChannel`. -/
theorem Phased.step (h : s.Phased) (hbegin : s.Begins a → s.Ready) (hok : s.RetriesAfterReset a)
    (hs : s.step a = some s') : s'.Phased := by
  have hsteady := h.toSteady.step hs
  obtain ⟨-, hmove⟩ := step_moves hs
  have hready : ∀ (connect : Bool) (calls : T → ConnectorCall) functors, s.starting = true →
      Ready { s.setConnect connect with calls, functors } := by
    intro connect calls functors hstart
    have hr := h.ready hstart
    exact ⟨hr.state, hr.channel, hr.timers, hr.expired⟩
  cases hmove with
  | startSet =>
    exact ⟨hsteady, ⟨h.one, h.waiting, h.named⟩, h.noFault, h.opened, hready true _ _, h.calm, h.erring⟩
  | startPush =>
    refine ⟨hsteady, ⟨h.one, h.waiting, h.named⟩, h.noFault, h.opened,
      hready s.connector.connect_ _ _, ?_, h.erring⟩
    intro hpc
    simpa [BatchQueue.push] using h.calm hpc
  | stopSet =>
    exact ⟨hsteady, ⟨h.one, h.waiting, h.named⟩, h.noFault, h.opened, hready false _ _, h.calm, h.erring⟩
  | stopPush =>
    refine ⟨hsteady, ⟨h.one, h.waiting, h.named⟩, h.noFault, h.opened,
      hready s.connector.connect_ _ _, ?_, h.erring⟩
    intro hpc
    simpa [BatchQueue.push] using h.calm hpc
  | startInLoop hstart => exact h.startInLoop (h.ready hstart) hsteady
  | startHere =>
    have hr := hbegin trivial
    exact ⟨hsteady, ⟨h.one, h.waiting, h.named⟩, h.noFault, h.opened,
      fun _ => ⟨hr.state, hr.channel, hr.timers, hr.expired⟩, h.calm, h.erring⟩
  | stopHere hstart =>
    have ht := h.toTimed.cancelInLoop s.connector.timerId_
    exact ⟨hsteady, ⟨ht.one, ht.waiting, ht.named⟩, h.noFault, h.opened, not_starting hstart, h.calm,
      h.erring⟩
  | poll hstart hpc hrep =>
    have ht : s.Timed [] := by simpa [hpc, ConnectorPc.expired] using h.toTimed
    refine ⟨hsteady, ⟨ht.one, ht.waiting, ht.named⟩, h.noFault, ?_, not_starting hstart, by simp, by simp⟩
    intro hopen
    have hstate : s.connector.state_ = .kConnected := by
      refine hsteady.linked ?_
      rw [hopen]
      exact Link.noConfusion
    rcases h.fits.of_not_connecting (by simp [hstate]) with ⟨hch, -⟩ | ⟨sockfd, -, hone⟩
    · exact hch
    · cases (h.idle_resets hpc).symm.trans hone
  | @handleEvent revents timerfd hstart hpc =>
    have ht : s.Timed [] := by simpa [hpc, ConnectorPc.expired] using h.toTimed
    have hstate := h.active (by simp [hpc, ConnectorPc.active])
    refine ⟨hsteady, ⟨ht.one, ht.waiting, ht.named⟩, h.noFault, h.opened, not_starting hstart, by simp, ?_⟩
    rintro todo _ _ ⟨⟩
    exact ⟨Channel.handleEvent_sublist revents, fun _ => hstate⟩
  | callback hstart hpc => exact h.callback hpc hstart hsteady
  | eventDone hstart hpc =>
    have ht : s.Timed [] := by simpa [hpc, ConnectorPc.expired] using h.toTimed
    exact ⟨hsteady, ⟨ht.one, ht.waiting, ht.named⟩, h.noFault, h.opened, not_starting hstart, by simp,
      by simp⟩
  | @closed restart active timerfd hstart hpc hlink =>
    have hstate := h.linked (by simp [hlink])
    have hch := h.opened hlink
    obtain ⟨hnone, hexpired⟩ := h.no_timer (by simp [hstate])
    have hopen : Link.none = .open → s.connector.channel_ = none := fun _ => hch
    cases restart with
    | false =>
      exact ⟨hsteady, ⟨h.one, h.waiting, h.named⟩, h.noFault, hopen, not_starting hstart, h.calm,
        h.erring⟩
    | true =>
      refine ⟨hsteady, ⟨h.one, fun _ => rfl, h.named⟩, h.noFault, hopen,
        fun _ => ⟨rfl, hch, hnone, hexpired⟩, h.calm, ?_⟩
      intro todo inCallback timerfd' hpc'
      cases hpc.symm.trans hpc'
  | timerRead hstart hpc hsub =>
    have ht : s.Timed [] := by simpa [hpc, ConnectorPc.expired] using h.toTimed
    have ht' := ht.timerRead hsub
    exact ⟨hsteady, ⟨ht'.one, ht'.waiting, ht'.named⟩, h.noFault, h.opened, not_starting hstart,
      by simp, by simp⟩
  | runTimer hstart hpc => exact h.runTimer hstart hok hpc hsteady
  | timersDone hstart hpc =>
    have ht : s.Timed [] := by simpa [hpc, ConnectorPc.expired] using h.toTimed
    exact ⟨hsteady, ⟨ht.one, ht.waiting, ht.named⟩, h.noFault, h.opened, not_starting hstart, by simp,
      by simp⟩
  | beginFunctors hstart hpc =>
    have ht : s.Timed [] := by simpa [hpc, ConnectorPc.expired] using h.toTimed
    exact ⟨hsteady, ⟨ht.one, ht.waiting, ht.named⟩, h.noFault, h.opened, not_starting hstart,
      fun _ => rfl, by simp⟩
  | runFunctor hstart hpc hnext =>
    exact h.runFunctor hstart hpc hnext (fun hf => hbegin ⟨_, hf ▸ hnext⟩) hsteady
  | endFunctors hstart hpc =>
    have ht : s.Timed [] := by simpa [hpc, ConnectorPc.expired] using h.toTimed
    exact ⟨hsteady, ⟨ht.one, ht.waiting, ht.named⟩, h.noFault, h.opened, not_starting hstart,
      fun _ => h.calm (.inr hpc), by simp⟩

end ConnectorState

end Netfish
