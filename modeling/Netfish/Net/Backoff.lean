import Mathlib.Algebra.Ring.Nat
import Netfish.Net.ConnectorLoop

/-!
# The delays between attempts

`retry` arms a timer with `retryDelayMs_` and doubles it, up to `kMaxRetryDelayMs`; `restart` alone sets
it back. `retryingConnector` keeps the delays given to `runAfter` since the connector was made or
restarted last, and `connector_backoff` says what they are, in every run.
-/

set_option autoImplicit false

namespace Netfish

open Kit

universe u

/-- The delay of the `n`-th retry, in milliseconds. -/
def backoff (n : Nat) : Nat :=
  min (Connector.kInitRetryDelayMs * 2 ^ n) Connector.kMaxRetryDelayMs

theorem backoff_succ (n : Nat) : min (backoff n * 2) Connector.kMaxRetryDelayMs = backoff (n + 1) := by
  simp only [backoff, Nat.pow_succ, ← Nat.mul_assoc]
  omega

/-- The delays given to `runAfter` in a method. -/
def runAfters (r : Except ConnectorFault (Connector × List ConnectorEffect)) : List Nat :=
  match r with
  | .ok (_, es) => es.filterMap fun
    | .runAfter delayMs => some delayMs
    | _ => none
  | .error _ => []

namespace Connector

variable {c : Connector} {sockfd timerId : Nat}

/-- A method arms no timer and leaves `retryDelayMs_`, or arms one with it and doubles it. -/
inductive Backs (c : Connector) (r : Except ConnectorFault (Connector × List ConnectorEffect)) : Prop
  | fault {fault : ConnectorFault} (h : r = .error fault)
  | quiet {c' : Connector} {es : List ConnectorEffect} (h : r = .ok (c', es)) (hnone : runAfters r = [])
      (hsame : c'.retryDelayMs_ = c.retryDelayMs_)
  | retried {c' : Connector} {es : List ConnectorEffect} (h : r = .ok (c', es))
      (hone : runAfters r = [c.retryDelayMs_])
      (hdouble : c'.retryDelayMs_ = min (c.retryDelayMs_ * 2) kMaxRetryDelayMs)

/-- `retry`, after effects that arm no timer. -/
theorem retry_backs {d : Connector} (hd : d.retryDelayMs_ = c.retryDelayMs_) {es : List ConnectorEffect}
    (hes : runAfters (.ok (d, es)) = []) :
    c.Backs (.ok ((d.retry sockfd timerId).1, es ++ (d.retry sockfd timerId).2)) := by
  have hes' : runAfters (.ok ((d.retry sockfd timerId).1, es ++ (d.retry sockfd timerId).2)) =
      runAfters (.ok (d.retry sockfd timerId)) := by
    simp only [runAfters, List.filterMap_append] at hes ⊢
    rw [hes, List.nil_append]
  by_cases hconnect : d.connect_ = true
  · refine .retried rfl ?_ ?_
    · rw [hes', retry_of_connect hconnect, ← hd]
      rfl
    · rw [retry_of_connect hconnect, ← hd]
      rfl
  · refine .quiet rfl ?_ ?_
    · rw [hes', retry_of_not_connect hconnect]
      rfl
    · rw [retry_of_not_connect hconnect]
      exact hd

theorem connecting_delay {c' : Connector} (h : c.connecting sockfd = .ok c') :
    c'.retryDelayMs_ = c.retryDelayMs_ := by
  unfold connecting at h
  dsimp only at h
  by_cases hch : c.channel_ = none
  · rw [check_pos hch, ok_bind] at h
    cases h
    rfl
  · rw [check_neg hch] at h
    cases h

theorem connect_backs (e : ConnectErrno) : c.Backs (c.connect sockfd e timerId) := by
  by_cases he : e.begins = true
  · rw [connect_of_begins he]
    cases hrun : c.connecting sockfd with
    | error fault => exact .fault rfl
    | ok c' => exact .quiet rfl rfl (connecting_delay hrun)
  · have hretry : c.Backs (.ok ((c.retry sockfd timerId).1, [.socket sockfd] ++ (c.retry sockfd timerId).2)) :=
      retry_backs rfl rfl
    unfold connect
    split
    iterate 4 · exact absurd rfl he
    iterate 5 · exact hretry
    iterate 8 · exact .quiet rfl rfl rfl

theorem startInLoop_backs (e : ConnectErrno) : c.Backs (c.startInLoop sockfd e timerId) := by
  by_cases hstate : c.state_ = .kDisconnected
  · rw [startInLoop, check_pos hstate, ok_bind]
    split
    · exact connect_backs e
    · exact .quiet rfl rfl rfl
  · exact .fault (startInLoop_fault hstate)

theorem removeAndResetChannel_delay {c' : Connector} {es : List ConnectorEffect}
    (h : c.removeAndResetChannel = .ok (c', es, sockfd)) :
    c'.retryDelayMs_ = c.retryDelayMs_ ∧ es = [.queueResetChannel sockfd] := by
  unfold removeAndResetChannel at h
  split at h
  · cases h
  · next fd channel hch =>
    obtain ⟨disabled, -, h⟩ := bind_eq_ok.mp h
    obtain ⟨removed, -, h⟩ := bind_eq_ok.mp h
    cases h
    exact ⟨rfl, rfl⟩

theorem handleError_backs : c.Backs (c.handleError timerId) := by
  by_cases hstate : c.state_ = .kConnecting
  · rw [handleError, check_pos hstate, ok_bind]
    cases hremove : c.removeAndResetChannel with
    | error fault => exact .fault rfl
    | ok r =>
      obtain ⟨d, es, fd⟩ := r
      obtain ⟨hdelay, rfl⟩ := removeAndResetChannel_delay hremove
      exact retry_backs hdelay rfl
  · exact .fault (handleError_fault hstate)

theorem handleWrite_backs (err selfConnect : Bool) : c.Backs (c.handleWrite err selfConnect timerId) := by
  by_cases hstate : c.state_ = .kConnecting
  · rw [handleWrite, if_pos hstate]
    cases hremove : c.removeAndResetChannel with
    | error fault => exact .fault rfl
    | ok r =>
      obtain ⟨d, es, fd⟩ := r
      obtain ⟨hdelay, rfl⟩ := removeAndResetChannel_delay hremove
      rw [ok_bind]
      dsimp only
      split
      · exact retry_backs hdelay rfl
      · refine .quiet rfl ?_ hdelay
        split
        · split <;> rfl
        · rfl
  · rw [handleWrite_of_ne hstate]
    exact .quiet rfl rfl rfl

end Connector

namespace ConnectorState

variable {T : Type u} {s s' : ConnectorState T} {a : ConnectorAct T} {h : List Nat}

/-- The delays of the retry timers a step arms. -/
def delays (s : ConnectorState T) : ConnectorAct T → List Nat
  | .startInLoop e => runAfters (s.connector.startInLoop s.nextSocket e s.nextTimer)
  | .runTimer e => runAfters (s.connector.startInLoop s.nextSocket e s.nextTimer)
  | .runFunctor e =>
    match s.functors.next with
    | some (.startInLoop, _) => runAfters (s.connector.startInLoop s.nextSocket e s.nextTimer)
    | _ => []
  | .callback err selfConnect =>
    match s.pc with
    | .event (.write :: _) _ _ => runAfters (s.connector.handleWrite err selfConnect s.nextTimer)
    | .event (.error :: _) _ _ => runAfters (s.connector.handleError s.nextTimer)
    | _ => []
  | _ => []

/-- The delays since the last `restart`, after a step. -/
def sinceRestart (s : ConnectorState T) (h : List Nat) : ConnectorAct T → List Nat
  | .closed true => []
  | a => h ++ s.delays a

/-- The delays so far, and the next one. -/
def BacksOff (s : ConnectorState T) (h : List Nat) : Prop :=
  h = (List.range h.length).map backoff ∧ s.connector.retryDelayMs_ = backoff h.length

theorem foldl_effect_connector (es : List ConnectorEffect) (s : ConnectorState T) :
    (es.foldl effect s).connector = s.connector := by
  induction es generalizing s with
  | nil => rfl
  | cons e es ih =>
    rw [List.foldl_cons, ih]
    cases e <;> rfl

/-- A method of the connector. -/
theorem BacksOff.after (hb : s.BacksOff h)
    {r : Except ConnectorFault (Connector × List ConnectorEffect)} (hr : s.connector.Backs r) :
    (s.after r).BacksOff (h ++ runAfters r) := by
  obtain ⟨hdelays, hnext⟩ := hb
  cases hr with
  | fault hr =>
    subst hr
    rw [runAfters, List.append_nil]
    exact ⟨hdelays, hnext⟩
  | quiet hr hnone hsame =>
    rw [hnone, List.append_nil]
    subst hr
    refine ⟨hdelays, ?_⟩
    rw [ConnectorState.after, foldl_effect_connector, hsame, hnext]
  | retried hr hone hdouble =>
    rw [hone, hnext]
    subst hr
    refine ⟨?_, ?_⟩
    · rw [List.length_append, List.length_singleton, List.range_succ, List.map_append, ← hdelays]
      rfl
    · rw [ConnectorState.after, foldl_effect_connector, hdouble, hnext, backoff_succ, List.length_append]
      rfl

/-- A step that runs no method of the connector but assignments of `connect_`, `state_` or `channel_`. -/
theorem BacksOff.same (hb : s.BacksOff h)
    (hsame : s'.connector.retryDelayMs_ = s.connector.retryDelayMs_) : s'.BacksOff (h ++ []) := by
  rw [List.append_nil]
  exact ⟨hb.1, hsame.trans hb.2⟩

theorem BacksOff.callback (hb : s.BacksOff h) {err selfConnect inCallback timerfd : Bool}
    {callback : ChannelCallback} {todo : List ChannelCallback}
    (hpc : s.pc = .event (callback :: todo) inCallback timerfd) :
    (s.callback err selfConnect callback).BacksOff (h ++ s.delays (.callback err selfConnect)) := by
  simp only [delays, hpc]
  cases callback with
  | write => exact hb.after (Connector.handleWrite_backs err selfConnect)
  | error => exact hb.after Connector.handleError_backs
  | close => exact hb.same rfl
  | read => exact hb.same rfl

theorem BacksOff.runFunctor (hb : s.BacksOff h) {e : ConnectErrno} {f : ConnectorFunctor}
    {rest : BatchQueue ConnectorFunctor} (hnext : s.functors.next = some (f, rest)) :
    ({ s with functors := rest }.runFunctor e f).BacksOff (h ++ s.delays (.runFunctor e)) := by
  simp only [delays, hnext]
  cases f with
  | startInLoop =>
    have hrest : BacksOff { s with functors := rest } h := hb
    exact hrest.after (Connector.startInLoop_backs e)
  | resetChannel => exact hb.same rfl
  | cancelInLoop => exact hb.same rfl

variable [DecidableEq T]

theorem BacksOff.step (hb : s.BacksOff h) (hs : s.step a = some s') :
    s'.BacksOff (s.sinceRestart h a) := by
  obtain ⟨-, hmove⟩ := step_moves hs
  cases hmove with
  | @startInLoop e => exact hb.after (Connector.startInLoop_backs e)
  | @runTimer e => exact hb.after (Connector.startInLoop_backs e)
  | callback _ hpc => exact hb.callback hpc
  | @closed restart =>
    cases restart with
    | true => exact ⟨rfl, rfl⟩
    | false => exact hb.same rfl
  | runFunctor _ _ hnext => exact hb.runFunctor hnext
  | _ => exact hb.same rfl

end ConnectorState

variable {T : Type u} [DecidableEq T]

/-- A connector with the delays of its retries since the last `restart`. -/
def retryingConnector (T : Type u) [DecidableEq T] : Machine (ConnectorState T × List Nat) (ConnectorAct T) :=
  (connectorLoop T).observe [] fun h s a _ => some (s.sinceRestart h a)

/-- **Backoff.** In every run of a connector, with calls of `start` and `stop` from any threads, any results of
`connect` and `getSocketError` and any events: the retries since the connector was made or restarted have
waited 500 ms, 1 s, 2 s and so on, each twice as long as the one before up to 30 s, and the next one will.
Neither `start` nor `stop` nor an attempt that succeeds sets the delay back. -/
theorem connector_backoff {p : ConnectorState T × List Nat} (h : (retryingConnector T).Reachable p) :
    p.2 = (List.range p.2.length).map backoff ∧ p.1.connector.retryDelayMs_ = backoff p.2.length := by
  refine h.invariant (fun p => p.1.BacksOff p.2) ?_ ?_
  · rintro ⟨s, h⟩ ⟨⟨newConnectionCallback, rfl⟩, rfl⟩
    exact ⟨rfl, rfl⟩
  · intro p a p' hb hs
    obtain ⟨hs, hsee⟩ := Machine.observe_step.mp hs
    rw [← Option.some.inj hsee]
    exact hb.step hs

/-- Two attempts that are refused. -/
theorem connector_backoff_refused : ∃ p, (retryingConnector Unit).Reachable p ∧ p.2 = [500, 1000] ∧
    p.1.connector.retryDelayMs_ = 2000 := by
  have hreach : (retryingConnector Unit).Reachable _ := ⟨(.start true, []),
    [.startHere, .startInLoop .ECONNREFUSED, .poll none true, .timerRead [0], .runTimer .ECONNREFUSED],
    ⟨⟨true, rfl⟩, rfl⟩, rfl⟩
  exact ⟨_, hreach, rfl, (connector_backoff hreach).2⟩

end Netfish
