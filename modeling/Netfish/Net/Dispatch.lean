import Mathlib.Data.Fintype.Basic
import Netfish.Net.Anchored
import Netfish.Net.ConnectorSteady

/-!
# Channels outlive their dispatch

`dispatch` is the machine of a server and of connectors on its loops. The phases of a loop are those of the
server's channels and of every connector's there; within a phase the order is open. Who holds a connection
is counted: `connections_`, the pointers of the user, who copies and drops them anywhere, and the functors
bound to one, until their batch is destroyed. A connection that nobody holds is `gone`.

A connector holds its channel in `channel_`. No descriptor is used twice, so it names the channel object.
-/

set_option autoImplicit false

namespace Netfish

open Kit

universe u v w

/-- The functor is bound to a `TcpConnectionPtr`, and not to `this`. -/
def ServerFunctor.holds : ServerFunctor → Bool
  | .sendInLoop .. => false
  | .shutdownInLoop _ => false
  | _ => true

/-- The connector's channel is in `activeChannels_` and not yet handled. -/
def ConnectorPc.stored : ConnectorPc → Bool
  | .handlers active _ => active.isSome
  | .event .. => true
  | .timers _ active => active.isSome
  | _ => false

/-- A step from one phase of a loop to the next. -/
def IoLoopStep.turns : IoLoopStep → Bool
  | .poll _ => true
  | .beginFunctors => true
  | .endFunctors => true
  | _ => false

def ServerAct.turns {T : Type u} {L : Type v} : ServerAct T L → Bool
  | .loop _ a => a.turns
  | _ => false

def ConnectorAct.turns {T : Type u} : ConnectorAct T → Bool
  | .poll .. => true
  | .beginFunctors => true
  | .endFunctors => true
  | _ => false

/-! ## Who holds a connection -/

structure HeldState (T : Type u) (L : Type v) where
  state : ServerState T L
  /-- The pointers of the user to a connection. -/
  held : Nat → Nat
  /-- The functors of the batch of a loop that have run and are not destroyed yet. -/
  spent : L → List ServerFunctor
  /-- History: the connections destroyed. -/
  gone : Nat → Bool

namespace HeldState

variable {T : Type u} {L : Type v}

def start (state : ServerState T L) : HeldState T L where
  state
  held _ := 0
  spent _ := []
  gone _ := false

variable [DecidableEq L]

/-- The functors about the connection, of its loop and of the server's. -/
def functorsOf (s : HeldState T L) (sc : ServerConn L) : List ServerFunctor :=
  let loops := if sc.loop_ = s.state.server.loop_ then [sc.loop_] else [s.state.server.loop_, sc.loop_]
  loops.flatMap fun l => (s.state.functors l).toList ++ s.spent l

/-- The reference count of the connection. -/
def useCount (s : HeldState T L) (c : Nat) : Nat :=
  match s.state.conns c with
  | none => 0
  | some sc => (if s.state.server.connections_ sc.name_ = some c then 1 else 0) + s.held c +
    (s.functorsOf sc).countP fun f => f.holds && f.conn = c

/-- The connections that nobody holds any more are destroyed. -/
def release (s : HeldState T L) : HeldState T L :=
  { s with gone := fun c => s.gone c || ((s.state.conns c).isSome && s.useCount c = 0) }

/-- The functors that have run, after a step. -/
def spentBy (s : HeldState T L) : ServerAct T L → L → List ServerFunctor
  | .loop l (.runFunctor _) =>
    match (s.state.functors l).next with
    | some (f, _) => Function.update s.spent l (s.spent l ++ [f])
    | none => s.spent
  | .loop l .endFunctors => Function.update s.spent l []
  | _ => s.spent

/-- A step of the server. -/
def serverStep [DecidableEq T] (s : HeldState T L) (a : ServerAct T L) : Option (HeldState T L) :=
  (s.state.step a).map fun state => { s with state, spent := s.spentBy a }.release

def copy (s : HeldState T L) (c : Nat) : Option (HeldState T L) :=
  if 0 < s.useCount c then some { s with held := Function.update s.held c (s.held c + 1) } else none

def drop (s : HeldState T L) (c : Nat) : Option (HeldState T L) :=
  if 0 < s.held c then some { s with held := Function.update s.held c (s.held c - 1) }.release
  else none

end HeldState

/-! ## The server and connectors on its loops -/

structure DispatchState (T : Type u) (L : Type v) (I : Type w) where
  held : HeldState T L
  connectors : I → ConnectorState T
  /-- History: the channel of the connector that the last `poll` of its loop has stored. -/
  polled : I → Option Nat

inductive DispatchAct (T : Type u) (L : Type v) (I : Type w) where
  | server (a : ServerAct T L)
  | connector (i : I) (a : ConnectorAct T)
  /-- User code copies a `TcpConnectionPtr`. -/
  | copy (c : Nat)
  | drop (c : Nat)
  /-- `poll` has returned, with what it reports of each connector on the loop. -/
  | poll (l : L) (active : List (Nat × Events)) (reports : I → Option Events × Bool)
  | beginFunctors (l : L)
  | endFunctors (l : L)

namespace DispatchState

variable {T : Type u} {L : Type v} {I : Type w} [DecidableEq T] [DecidableEq L] [DecidableEq I]
  [Fintype I]

/-- Each connector on the loop takes a step. -/
def turn (homes : I → L) (l : L) (a : I → ConnectorAct T) (connectors : I → ConnectorState T) :
    Option (I → ConnectorState T) :=
  if ∀ i, homes i = l → ((connectors i).step (a i)).isSome then
    some fun i => if homes i = l then ((connectors i).step (a i)).getD (connectors i) else connectors i
  else none

/-- The channels that a `poll` of the loop stores. -/
def pollBy (homes : I → L) (l : L) (reports : I → Option Events × Bool) (s : DispatchState T L I) :
    I → Option Nat :=
  fun i => if homes i = l then (reports i).1.bind fun _ => (s.connectors i).connector.channel_.map (·.fd_)
    else s.polled i

def step (homes : I → L) (s : DispatchState T L I) : DispatchAct T L I → Option (DispatchState T L I)
  | .server a =>
    if a.turns then none else (s.held.serverStep a).map fun held => { s with held }
  | .connector i a =>
    if a.turns then none
    else ((s.connectors i).step a).map fun connector =>
      { s with connectors := Function.update s.connectors i connector }
  | .copy c => (s.held.copy c).map fun held => { s with held }
  | .drop c => (s.held.drop c).map fun held => { s with held }
  | .poll l active reports =>
    (s.held.serverStep (.loop l (.poll active))).bind fun held =>
      (turn homes l (fun i => .poll (reports i).1 (reports i).2) s.connectors).map fun connectors =>
        { held, connectors, polled := s.pollBy homes l reports }
  | .beginFunctors l =>
    (s.held.serverStep (.loop l .beginFunctors)).bind fun held =>
      (turn homes l (fun _ => .beginFunctors) s.connectors).map fun connectors =>
        { s with held, connectors }
  | .endFunctors l =>
    (s.held.serverStep (.loop l .endFunctors)).bind fun held =>
      (turn homes l (fun _ => .endFunctors) s.connectors).map fun connectors =>
        { s with held, connectors }

/-- User code calls a connection from its own loop. -/
def OwnLoop (s : DispatchState T L I) : DispatchAct T L I → Bool
  | .server a => s.held.state.OwnLoop a
  | _ => true

end DispatchState

/-- A server and connectors on its loops. -/
def dispatch (T : Type u) (L : Type v) {I : Type w} [DecidableEq T] [DecidableEq L] [DecidableEq I]
    [Fintype I] (homes : I → L) : Machine (DispatchState T L I) (DispatchAct T L I) :=
  Machine.restrict {
    init := fun s => ∃ state connectors, (tcpServer T L).init state ∧
      (∀ i, (connectorLoop T).init (connectors i)) ∧ s = ⟨.start state, connectors, fun _ => none⟩
    step := DispatchState.step homes } DispatchState.OwnLoop

/-! ## Connections -/

namespace HeldState

variable {T : Type u} {L : Type v} {s s' : HeldState T L}

/-- While no assertion has failed. -/
def Safe (s : HeldState T L) : Prop :=
  s.state.fault = none → (∃ removed, s.state.Listed removed) ∧ s.state.Anchored s.gone

/-- A channel still to be handled is there. -/
theorem Safe.alive (h : s.Safe) (hfault : s.state.fault = none) {l : L} {c : Nat}
    (hc : c ∈ (s.state.pcs l).channels) : s.gone c = false := by
  obtain ⟨-, ha⟩ := h hfault
  obtain ⟨sc, hsc, -, hin⟩ := ha.active l c hc
  by_contra hgone
  obtain ⟨sd, hsd, hstate⟩ := ha.down c (by simpa using hgone)
  cases hsc.symm.trans hsd
  simp [TcpConnection.inUse, hstate] at hin

variable [DecidableEq L]

theorem mem_functorsOf {sc : ServerConn L} {f : ServerFunctor} {l : L}
    (hf : f ∈ (s.state.functors l).toList) (hl : l = s.state.server.loop_ ∨ l = sc.loop_) :
    f ∈ s.functorsOf sc := by
  refine List.mem_flatMap.mpr ⟨l, ?_, List.mem_append_left _ hf⟩
  split
  · next heq => rcases hl with rfl | rfl <;> simp [heq]
  · rcases hl with rfl | rfl <;> simp

/-- A connection that is tied is held. -/
theorem useCount_pos {c : Nat} {sc : ServerConn L} (hc : s.state.conns c = some sc)
    (htied : s.state.Tied c sc) : 0 < s.useCount c := by
  have hfunctor : ∀ f ∈ s.functorsOf sc, f.holds = true → f.conn = c → 0 < s.useCount c := by
    intro f hf hholds hconn
    have hpos : 0 < (s.functorsOf sc).countP fun f => f.holds && f.conn = c :=
      List.countP_pos_iff.mpr ⟨f, hf, by simp [hholds, hconn]⟩
    simp only [useCount, hc]
    omega
  rcases htied with hlisted | hremove | hdestroy
  · simp only [useCount, hc, hlisted, if_true]
    omega
  · exact hfunctor _ (mem_functorsOf hremove (.inl rfl)) rfl rfl
  · exact hfunctor _ (mem_functorsOf hdestroy (.inr rfl)) rfl rfl

theorem Safe.release (h : s.Safe) : s.release.Safe := by
  intro hfault
  obtain ⟨hlist, ha⟩ := h hfault
  refine ⟨hlist, { ha with down := ?_ }⟩
  intro c hgone
  rcases Bool.or_eq_true_iff.mp hgone with hgone | hnone
  · exact ha.down c hgone
  · obtain ⟨hsome, hzero⟩ := Bool.and_eq_true_iff.mp hnone
    obtain ⟨sc, hc⟩ := Option.isSome_iff_exists.mp hsome
    refine ⟨sc, hc, ?_⟩
    by_contra hstate
    have hpos := useCount_pos hc (ha.tied hc hstate)
    rw [of_decide_eq_true hzero] at hpos
    exact Nat.lt_irrefl 0 hpos

theorem Safe.serverStep [DecidableEq T] {a : ServerAct T L} (h : s.Safe)
    (hown : s.state.OwnLoop a = true) (hs : s.serverStep a = some s') : s'.Safe := by
  obtain ⟨state, hstep, rfl⟩ := Option.map_eq_some_iff.mp hs
  obtain ⟨hfault, hmove⟩ := ServerState.step_moves hstep
  obtain ⟨⟨removed, hlist⟩, ha⟩ := h hfault
  refine Safe.release ?_
  intro hfault'
  exact ⟨⟨_, hlist.mapStep hmove.mapStep⟩, hmove.anchored ha hlist hown hfault'⟩

theorem Safe.copy {c : Nat} (h : s.Safe) (hs : s.copy c = some s') : s'.Safe := by
  unfold HeldState.copy at hs
  split at hs
  · cases hs
    exact h
  · cases hs

theorem Safe.drop {c : Nat} (h : s.Safe) (hs : s.drop c = some s') : s'.Safe := by
  unfold HeldState.drop at hs
  split at hs
  · cases hs
    exact Safe.release (s := { s with held := _ }) h
  · cases hs

end HeldState

/-! ## Connectors -/

namespace ConnectorState

variable {T : Type u} {s s' : ConnectorState T} {polled : Option Nat} {e : ConnectErrno}

/-- While it is stored, `channel_` is the channel that `poll` has stored. -/
def Pinned (s : ConnectorState T) (polled : Option Nat) : Prop :=
  s.pc.stored = true → ∃ fd, polled = some fd ∧ s.connector.channel_.map (·.fd_) = some fd

theorem Pinned.of_same (h : s.Pinned polled) (hstored : s'.pc.stored = true → s.pc.stored = true)
    (hch : s.connector.channel_ ≠ none →
      s'.connector.channel_.map (·.fd_) = s.connector.channel_.map (·.fd_)) : s'.Pinned polled := by
  intro hst
  obtain ⟨fd, hpolled, hfd⟩ := h (hstored hst)
  refine ⟨fd, hpolled, (hch ?_).trans hfd⟩
  intro hnone
  rw [hnone] at hfd
  cases hfd

/-- `startInLoop` does not replace a channel. -/
theorem Starts.channel (h : s.Starts e s') : s'.pc = s.pc ∧ (s.connector.channel_ ≠ none →
    s'.connector.channel_.map (·.fd_) = s.connector.channel_.map (·.fd_)) := by
  cases h with
  | fault => exact ⟨rfl, fun _ => rfl⟩
  | ran hstate hch hstarted =>
    obtain ⟨hconn, hsame⟩ := started_place hstarted
    refine ⟨hsame.pc, ?_⟩
    rw [hconn]
    intro hne
    cases hstarted with
    | began hconnect he => exact absurd (hch hconnect he) hne
    | _ => rfl

/-- A callback leaves the channel to a functor. -/
theorem Steady.callback_channel (h : s.Steady) (err selfConnect : Bool) (callback : ChannelCallback) :
    (s.callback err selfConnect callback).connector.channel_.map (·.fd_) =
      s.connector.channel_.map (·.fd_) := by
  cases callback with
  | close => rfl
  | read => rfl
  | error =>
    by_cases hstate : s.connector.state_ = .kConnecting
    · obtain ⟨sockfd, hch, -⟩ := h.fits.of_connecting hstate
      obtain ⟨c', es, hrun, hended, -⟩ := Connector.handleError_spec s.nextTimer hstate hch
      rw [ConnectorState.callback, hrun, (ended_place hended).connector, hch]
      cases hended <;> rfl
    · rw [ConnectorState.callback, Connector.handleError_fault hstate]
      rfl
  | write =>
    by_cases hstate : s.connector.state_ = .kConnecting
    · obtain ⟨sockfd, hch, -⟩ := h.fits.of_connecting hstate
      obtain ⟨c', es, hrun, hended, -⟩ := Connector.handleWrite_spec s.nextTimer hstate hch err
        selfConnect
      rw [ConnectorState.callback, hrun, (ended_place hended).connector, hch]
      cases hended <;> rfl
    · rw [ConnectorState.callback, Connector.handleWrite_of_ne hstate]
      rfl

variable [DecidableEq T] {a : ConnectorAct T}

/-- Within a phase. -/
theorem Pinned.step (h : s.Pinned polled) (hsteady : s.Steady) (hs : s.step a = some s')
    (hturn : a.turns = false) : s'.Pinned polled := by
  obtain ⟨-, hmove⟩ := step_moves hs
  cases hmove with
  | poll => cases hturn
  | beginFunctors => cases hturn
  | endFunctors => cases hturn
  | @startInLoop e hstart =>
    obtain ⟨hpc, hch⟩ := (s.startInLoop_starts e).channel
    exact h.of_same (fun hst => hpc ▸ hst) hch
  | @runTimer e timer expired active hstart hpc =>
    obtain ⟨-, hch⟩ := (s.startInLoop_starts e).channel
    exact h.of_same (fun hst => by rw [hpc]; exact hst) hch
  | handleEvent hstart hpc => exact h.of_same (fun _ => by rw [hpc]; rfl) fun _ => rfl
  | callback hstart hpc =>
    exact h.of_same (fun _ => by rw [hpc]; rfl) fun _ => hsteady.callback_channel ..
  | eventDone => exact fun hst => by cases hst
  | @closed restart active timerfd hstart hpc hlink =>
    cases restart <;> exact h.of_same id fun _ => rfl
  | timerRead hstart hpc => exact h.of_same (fun hst => by rw [hpc]; exact hst) fun _ => rfl
  | timersDone hstart hpc => exact h.of_same (fun hst => by rw [hpc]; exact hst) fun _ => rfl
  | @runFunctor e f rest hstart hpc hnext =>
    have hbatch : ({ s with functors := rest }.runFunctor e f).pc = .batch := by
      cases f with
      | startInLoop => exact (startInLoop_starts { s with functors := rest } e).channel.1.trans hpc
      | resetChannel sockfd => exact hpc
      | cancelInLoop timerId => exact hpc
    intro hst
    rw [hbatch] at hst
    cases hst
  | _ => exact h.of_same id fun _ => rfl

/-- From one phase to the next. -/
theorem Pinned.turn (hs : s.step a = some s') (hturn : a = .beginFunctors ∨ a = .endFunctors) :
    s'.Pinned polled := by
  obtain ⟨-, hmove⟩ := step_moves hs
  rcases hturn with rfl | rfl <;> cases hmove <;> exact fun hst => by cases hst

theorem pinned_poll {revents : Option Events} {timerfd : Bool} (hs : s.step (.poll revents timerfd) = some s') :
    s'.Pinned (revents.bind fun _ => s.connector.channel_.map (·.fd_)) := by
  obtain ⟨-, hmove⟩ := step_moves hs
  cases hmove with
  | poll hstart hpc hrep =>
    intro hst
    obtain ⟨events, rfl⟩ := Option.isSome_iff_exists.mp hst
    obtain ⟨ch, hch, -⟩ := (Option.any_eq_true ..).mp hrep
    exact ⟨ch.fd_, by simp [hch], by simp [hch]⟩

end ConnectorState

/-! ## Runs -/

namespace DispatchState

variable {T : Type u} {L : Type v} {I : Type w}

/-- What every step keeps. -/
structure Sound (s : DispatchState T L I) : Prop where
  safe : s.held.Safe
  steady : ∀ i, (s.connectors i).Steady
  pinned : ∀ i, (s.connectors i).Pinned (s.polled i)

variable [DecidableEq T] [DecidableEq L] [Fintype I] {homes : I → L} {s s' : DispatchState T L I}

theorem turn_eq_some {l : L} {a : I → ConnectorAct T} {connectors connectors' : I → ConnectorState T}
    (h : turn homes l a connectors = some connectors') (i : I) :
    (homes i = l ∧ (connectors i).step (a i) = some (connectors' i)) ∨
      (homes i ≠ l ∧ connectors' i = connectors i) := by
  unfold turn at h
  split at h
  · next hall =>
    cases h
    by_cases hl : homes i = l
    · obtain ⟨c, hc⟩ := Option.isSome_iff_exists.mp (hall i hl)
      exact .inl ⟨hl, by simp [hl, hc]⟩
    · exact .inr ⟨hl, by simp [hl]⟩
  · cases h

theorem turn_steady {l : L} {a : I → ConnectorAct T} {connectors connectors' : I → ConnectorState T}
    (h : turn homes l a connectors = some connectors') (hsteady : ∀ i, (connectors i).Steady) (i : I) :
    (connectors' i).Steady := by
  rcases turn_eq_some h i with ⟨-, hs⟩ | ⟨-, heq⟩
  · exact (hsteady i).step hs
  · rw [heq]
    exact hsteady i

theorem turn_pinned {l : L} {a : ConnectorAct T} {connectors connectors' : I → ConnectorState T}
    {polled : I → Option Nat} (h : turn homes l (fun _ => a) connectors = some connectors')
    (ha : a = .beginFunctors ∨ a = .endFunctors) (hpinned : ∀ i, (connectors i).Pinned (polled i))
    (i : I) : (connectors' i).Pinned (polled i) := by
  rcases turn_eq_some h i with ⟨-, hs⟩ | ⟨-, heq⟩
  · exact ConnectorState.Pinned.turn hs ha
  · rw [heq]
    exact hpinned i

theorem Sound.step [DecidableEq I] {a : DispatchAct T L I} (h : s.Sound) (hown : s.OwnLoop a = true)
    (hs : s.step homes a = some s') : s'.Sound := by
  cases a with
  | server a =>
    dsimp only [DispatchState.step] at hs
    split at hs
    · cases hs
    · obtain ⟨held, hheld, rfl⟩ := Option.map_eq_some_iff.mp hs
      exact ⟨h.safe.serverStep hown hheld, h.steady, h.pinned⟩
  | connector i a =>
    dsimp only [DispatchState.step] at hs
    split at hs
    · cases hs
    · next hturn =>
      obtain ⟨connector, hc, rfl⟩ := Option.map_eq_some_iff.mp hs
      refine ⟨h.safe, ?_, ?_⟩
      · intro j
        by_cases hj : j = i
        · subst hj
          simpa only [Function.update_self] using (h.steady j).step hc
        · simpa only [Function.update_of_ne hj] using h.steady j
      · intro j
        by_cases hj : j = i
        · subst hj
          simpa only [Function.update_self] using
            (h.pinned j).step (h.steady j) hc (Bool.eq_false_iff.mpr hturn)
        · simpa only [Function.update_of_ne hj] using h.pinned j
  | copy c =>
    obtain ⟨held, hheld, rfl⟩ := Option.map_eq_some_iff.mp hs
    exact ⟨h.safe.copy hheld, h.steady, h.pinned⟩
  | drop c =>
    obtain ⟨held, hheld, rfl⟩ := Option.map_eq_some_iff.mp hs
    exact ⟨h.safe.drop hheld, h.steady, h.pinned⟩
  | poll l active reports =>
    obtain ⟨held, hheld, hs⟩ := Option.bind_eq_some_iff.mp hs
    obtain ⟨connectors, hturn, rfl⟩ := Option.map_eq_some_iff.mp hs
    refine ⟨h.safe.serverStep rfl hheld, turn_steady hturn h.steady, ?_⟩
    intro i
    rcases turn_eq_some hturn i with ⟨hl, hpoll⟩ | ⟨hl, heq⟩
    · simpa only [pollBy, if_pos hl] using ConnectorState.pinned_poll hpoll
    · simp only [pollBy, if_neg hl, heq]
      exact h.pinned i
  | beginFunctors l =>
    obtain ⟨held, hheld, hs⟩ := Option.bind_eq_some_iff.mp hs
    obtain ⟨connectors, hturn, rfl⟩ := Option.map_eq_some_iff.mp hs
    exact ⟨h.safe.serverStep rfl hheld, turn_steady hturn h.steady,
      turn_pinned hturn (.inl rfl) h.pinned⟩
  | endFunctors l =>
    obtain ⟨held, hheld, hs⟩ := Option.bind_eq_some_iff.mp hs
    obtain ⟨connectors, hturn, rfl⟩ := Option.map_eq_some_iff.mp hs
    exact ⟨h.safe.serverStep rfl hheld, turn_steady hturn h.steady,
      turn_pinned hturn (.inr rfl) h.pinned⟩

end DispatchState

variable {T : Type u} {L : Type v} {I : Type w} [DecidableEq T] [DecidableEq L] [DecidableEq I]
  [Fintype I] {homes : I → L}

/-- **Active channels outlive their dispatch.** In every run of a server with any loops and of connectors
on them, in which user code calls a connection from the loop of the connection only, and copies and drops
`TcpConnectionPtr`s anywhere, as long as no assertion of the server fails: the channels that a loop has
in `activeChannels_`, from the return of `poll` to the end of their own `handleEvent`, are of connections
that are not destroyed, and a connector's is still the one that `poll` stored. -/
theorem active_channels_alive {s : DispatchState T L I} (h : (dispatch T L homes).Reachable s)
    (hfault : s.held.state.fault = none) :
    (∀ l, ∀ c ∈ (s.held.state.pcs l).channels, s.held.gone c = false) ∧
      ∀ i, (s.connectors i).pc.stored = true → ∃ fd, s.polled i = some fd ∧
        (s.connectors i).connector.channel_.map (·.fd_) = some fd := by
  have hsound : s.Sound := by
    refine h.invariant DispatchState.Sound ?_ ?_
    · rintro _ ⟨state, connectors, ⟨_, _, _, _, _, _, server, hserver, rfl⟩, hconnectors, rfl⟩
      have hempty : server.connections_ = fun _ => none := TcpServer.start_connections hserver
      refine ⟨fun _ => ⟨⟨[], ServerState.start_listed server hempty⟩, ServerState.start_anchored server⟩,
        ?_, ?_⟩
      · intro i
        obtain ⟨_, hi⟩ := hconnectors i
        show (connectors i).Steady
        rw [hi]
        exact ConnectorState.start_steady _
      · intro i hst
        obtain ⟨_, hi⟩ := hconnectors i
        simp only [hi] at hst
        cases hst
    · intro s a s' hs hstep
      obtain ⟨hown, hstep⟩ := Machine.restrict_step.mp hstep
      exact hs.step hown hstep
  exact ⟨fun l c hc => hsound.safe.alive hfault hc, hsound.pinned⟩

/-- A connection on an io loop and a connector there, both reported by one `poll`; the connection reads the
end of the stream, and the server's loop erases it while the user holds no pointer. -/
theorem active_channels_alive_eof : ∃ s : DispatchState Unit Bool Unit,
    (dispatch Unit Bool fun _ : Unit => true).Reachable s ∧
      ((s.held.state.pcs true).channels = [1] ∧ (s.connectors ()).pc.stored = true) ∧
      s.held.gone 1 = false ∧ ∃ fd, s.polled () = some fd ∧
        (s.connectors ()).connector.channel_.map (·.fd_) = some fd := by
  obtain ⟨server, hserver⟩ : ∃ server, ((TcpServer.new false "server" true false).setThreadNum
      1).start (fun _ => true) = .ok server := ⟨_, rfl⟩
  have hend : ((((TcpServer.new false "server" true false).setThreadNum 1).start fun _ =>
      true).toOption.bind fun server => ((dispatch Unit Bool fun _ : Unit => true).run
        ⟨.start (.start server), fun _ => .start true, fun _ => none⟩
        [.poll false [] fun _ => (none, false), .server .newConnection,
          .connector () .startHere, .connector () (.startInLoop .EINPROGRESS),
          .poll true [] fun _ => (none, false), .beginFunctors true,
          .server (.loop true (.runFunctor .failed)), .endFunctors true,
          .poll true [(1, { pollin := true })] fun _ => (some { pollout := true }, false),
          .server (.loop true .handleEvent), .server (.loop true (.callRead .eof)),
          .beginFunctors false, .server (.loop false (.runFunctor .failed))]).map fun s =>
            (s.held.state.fault, (s.held.state.pcs true).channels, (s.connectors ()).pc.stored)) =
      some (none, [1], true) := by
    decide +kernel
  rw [hserver] at hend
  obtain ⟨s, hs, hends⟩ := Option.map_eq_some_iff.mp hend
  obtain ⟨hfault, hrest⟩ := Prod.mk.inj hends
  obtain ⟨hchannels, hstored⟩ := Prod.mk.inj hrest
  have hreach : (dispatch Unit Bool fun _ : Unit => true).Reachable s :=
    ⟨_, _, ⟨_, _, ⟨_, _, _, _, _, _, server, hserver, rfl⟩, fun _ => ⟨_, rfl⟩, rfl⟩, hs⟩
  obtain ⟨halive, hpinned⟩ := active_channels_alive hreach hfault
  exact ⟨s, hreach, ⟨hchannels, hstored⟩, halive true 1 (by rw [hchannels]; exact List.mem_cons_self),
    hpinned () hstored⟩

end Netfish
