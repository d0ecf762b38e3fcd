import Netfish.Net.ConnectorSteady

/-!
# The sockets of a connector

What a step does outside the connector is the list of effects of the method it calls (`performed`). For
each socket the account balances after every step (`Turn`): whether it is watched, how often it was closed
and how often given to `newConnectionCallback_` add up to how often it was made. With sockets made once,
that is one place for each of them (`every_socket_placed`). After a `stop` the only effects are a `close`
and the `resetChannel` before it (`stopped_is_quiet`).
-/

set_option autoImplicit false

namespace Netfish

open Kit

universe u

namespace Connector

/-- The channel is in the poller, and for this descriptor. -/
def watches (c : Connector) (sockfd : Nat) : Bool :=
  c.channel_.any fun channel => channel.fd_ = sockfd && channel.channel.mapped

/-- What becomes of each socket, watched or done with, is what was made and what was watched before. -/
def Balances (c c' : Connector) (es : List ConnectorEffect) : Prop :=
  ∀ sockfd, (c'.watches sockfd).toNat + es.count (.close sockfd) +
    es.count (.newConnectionCallback sockfd) = (c.watches sockfd).toNat + es.count (.socket sockfd)

variable {c c' : Connector} {es : List ConnectorEffect} {sockfd timerId : Nat} {e : ConnectErrno}

theorem watches_of_none (h : c.channel_ = none) (fd : Nat) : c.watches fd = false := by
  rw [watches, h, Option.any_none]

theorem watches_of_new (h : c.channel_ = some ⟨sockfd, .new⟩) (fd : Nat) : c.watches fd = false := by
  simp [watches, h, Channel.new]

theorem watches_of_attempting (h : c.channel_ = some ⟨sockfd, attempting⟩) (fd : Nat) :
    c.watches fd = (sockfd = fd : Bool) := by
  simp [watches, h, attempting]

/-- Outside an attempt nothing is watched. -/
theorem Fits.watches_eq_false {resets : List Nat} (h : c.Fits resets)
    (hstate : c.state_ ≠ .kConnecting) (fd : Nat) : c.watches fd = false := by
  rcases h.of_not_connecting hstate with ⟨hch, -⟩ | ⟨sockfd, hch, -⟩
  · exact watches_of_none hch fd
  · exact watches_of_new hch fd

theorem Started.balances (h : c.Started sockfd timerId e c' es)
    (hch : c.connect_ = true → e.begins = true → c.channel_ = none) : c.Balances c' es := by
  intro fd
  cases h with
  | off => simp
  | began hconnect he =>
    rw [watches_of_none (hch hconnect he), watches_of_attempting rfl]
    by_cases hfd : sockfd = fd <;> simp [hfd]
  | retried => by_cases hfd : sockfd = fd <;> simp [hfd, watches, armed]
  | failed => by_cases hfd : sockfd = fd <;> simp [hfd]

/-- The end of an attempt; a socket nobody is told of would be left over. -/
theorem Ended.balances (h : c.Ended sockfd timerId c' es)
    (hch : c.channel_ = some ⟨sockfd, attempting⟩)
    (htold : c.newConnectionCallback_ = true ∨ c.connect_ = false) : c.Balances c' es := by
  intro fd
  rw [watches_of_attempting hch]
  cases h with
  | retried => by_cases hfd : sockfd = fd <;> simp [hfd, watches, armed, Channel.new]
  | stopped => by_cases hfd : sockfd = fd <;> simp [hfd, watches, Channel.new]
  | connected hconnect =>
    have hset : c.newConnectionCallback_ = true := by simpa [hconnect] using htold
    by_cases hfd : sockfd = fd <;> simp [hfd, watches, Channel.new, hset]
  | unwanted => by_cases hfd : sockfd = fd <;> simp [hfd, watches, Channel.new]

end Connector

namespace ConnectorEffect

/-- What a connector may still do after `stop`. -/
def quiet : ConnectorEffect → Bool
  | .close _ => true
  | .queueResetChannel _ => true
  | _ => false

def isRunAfter : ConnectorEffect → Bool
  | .runAfter _ => true
  | _ => false

def isNewConnection : ConnectorEffect → Bool
  | .newConnectionCallback _ => true
  | _ => false

end ConnectorEffect

/-- `start` or `restart` is called. -/
def ConnectorAct.wants {T : Type u} : ConnectorAct T → Bool
  | .startSet _ => true
  | .startHere => true
  | .closed restart => restart
  | _ => false

namespace ConnectorState

variable {T : Type u} {s s' : ConnectorState T} {a : ConnectorAct T} {e : ConnectErrno}
  {wants : Bool}

/-- The method of the connector that a step calls. -/
def method (s : ConnectorState T) :
    ConnectorAct T → Option (Except ConnectorFault (Connector × List ConnectorEffect))
  | .startInLoop e => some (s.connector.startInLoop s.nextSocket e s.nextTimer)
  | .runTimer e => some (s.connector.startInLoop s.nextSocket e s.nextTimer)
  | .runFunctor e =>
    match s.functors.next with
    | some (.startInLoop, _) => some (s.connector.startInLoop s.nextSocket e s.nextTimer)
    | _ => none
  | .callback err selfConnect =>
    match s.pc with
    | .event (.write :: _) _ _ => some (s.connector.handleWrite err selfConnect s.nextTimer)
    | .event (.error :: _) _ _ => some (s.connector.handleError s.nextTimer)
    | _ => none
  | _ => none

/-- The effects of a method; one that stops at an assertion is not over. -/
def effectsOf : Except ConnectorFault (Connector × List ConnectorEffect) → List ConnectorEffect
  | .ok (_, es) => es
  | .error _ => []

/-- The effects of a step. -/
def performed (s : ConnectorState T) (a : ConnectorAct T) : List ConnectorEffect :=
  ((s.method a).map effectsOf).getD []

/-- What a step does to the sockets and the timers is what its effects say; `connect_` is set by a call
only. -/
structure Turn (wants : Bool) (s s' : ConnectorState T) (es : List ConnectorEffect) : Prop where
  balances : s.connector.newConnectionCallback_ = true ∨ s.connector.connect_ = false →
    s.connector.Balances s'.connector es
  sockets : ∀ sockfd, es.count (.socket sockfd) =
    if s.nextSocket ≤ sockfd ∧ sockfd < s'.nextSocket then 1 else 0
  grows : s.nextSocket ≤ s'.nextSocket
  timers : s'.nextTimer = s.nextTimer + es.countP ConnectorEffect.isRunAfter
  made : s'.made = s.made + es.countP ConnectorEffect.isNewConnection
  told : s'.connector.newConnectionCallback_ = s.connector.newConnectionCallback_
  quiet : s.connector.connect_ = false → ∀ e ∈ es, e.quiet = true
  stays : wants = false → s.connector.connect_ = false → s'.connector.connect_ = false

/-- The rest of the state may differ. -/
theorem Turn.moved {t : ConnectorState T} {es : List ConnectorEffect} (h : Turn wants s s' es)
    (hconn : t.connector = s'.connector) (hsocket : t.nextSocket = s'.nextSocket)
    (htimer : t.nextTimer = s'.nextTimer) (hmade : t.made = s'.made) : Turn wants s t es where
  balances := hconn ▸ h.balances
  sockets := hsocket ▸ h.sockets
  grows := hsocket ▸ h.grows
  timers := htimer ▸ h.timers
  made := hmade ▸ h.made
  told := hconn ▸ h.told
  quiet := h.quiet
  stays := hconn ▸ h.stays

/-- A step that calls no method. -/
theorem turn_idle (hwatches : ∀ fd, s'.connector.watches fd = s.connector.watches fd)
    (htold : s'.connector.newConnectionCallback_ = s.connector.newConnectionCallback_)
    (hsocket : s'.nextSocket = s.nextSocket) (htimer : s'.nextTimer = s.nextTimer)
    (hmade : s'.made = s.made)
    (hstays : wants = false → s.connector.connect_ = false → s'.connector.connect_ = false) :
    Turn wants s s' [] where
  balances _ fd := by simp [hwatches]
  sockets fd := by
    rw [hsocket, if_neg (by omega)]
    rfl
  grows := Nat.le_of_eq hsocket.symm
  timers := htimer
  made := hmade
  told := htold
  quiet _ e he := absurd he List.not_mem_nil
  stays := hstays

theorem turn_started {c' : Connector} {es : List ConnectorEffect}
    (hch : s.connector.connect_ = true → e.begins = true → s.connector.channel_ = none)
    (h : s.connector.Started s.nextSocket s.nextTimer e c' es) : Turn wants s (s.after (.ok (c', es))) es := by
  have hbalances := h.balances hch
  have hnext : ∀ fd, [ConnectorEffect.socket s.nextSocket].count (.socket fd) =
      if s.nextSocket ≤ fd ∧ fd < s.nextSocket + 1 then 1 else 0 := by
    intro fd
    by_cases hfd : s.nextSocket = fd
    · simp [hfd]
    · rw [if_neg (by omega)]
      simp [hfd]
  cases h with
  | off =>
    refine turn_idle (fun _ => rfl) rfl rfl rfl rfl fun _ => id
  | began hconnect =>
    refine ⟨fun _ => hbalances, hnext, Nat.le_succ _, rfl, rfl, rfl, ?_, fun _ => id⟩
    intro hno
    cases hno.symm.trans hconnect
  | retried hconnect =>
    refine ⟨fun _ => hbalances, hnext, Nat.le_succ _, rfl, rfl, rfl, ?_, fun _ => id⟩
    intro hno
    cases hno.symm.trans hconnect
  | failed hconnect =>
    refine ⟨fun _ => hbalances, hnext, Nat.le_succ _, rfl, rfl, rfl, ?_, fun _ => id⟩
    intro hno
    cases hno.symm.trans hconnect

theorem turn_ended {sockfd : Nat} {c' : Connector} {es : List ConnectorEffect}
    (hch : s.connector.channel_ = some ⟨sockfd, attempting⟩)
    (h : s.connector.Ended sockfd s.nextTimer c' es) : Turn wants s (s.after (.ok (c', es))) es := by
  have hbalances := h.balances hch
  have hnone : ∀ fd, 0 = if s.nextSocket ≤ fd ∧ fd < s.nextSocket then 1 else 0 :=
    fun fd => (if_neg (by omega)).symm
  cases h with
  | retried hconnect =>
    refine ⟨hbalances, hnone, Nat.le_refl _, rfl, rfl, rfl, ?_, fun _ => id⟩
    intro hno
    cases hno.symm.trans hconnect
  | stopped => exact ⟨hbalances, hnone, Nat.le_refl _, rfl, rfl, rfl, by simp [ConnectorEffect.quiet],
      fun _ => id⟩
  | connected hconnect =>
    split at hbalances
    · next hset =>
      rw [if_pos hset]
      refine ⟨hbalances, hnone, Nat.le_refl _, rfl, rfl, rfl, ?_, fun _ => id⟩
      intro hno
      cases hno.symm.trans hconnect
    · next hset =>
      rw [if_neg hset]
      exact ⟨hbalances, hnone, Nat.le_refl _, rfl, rfl, rfl, by simp [ConnectorEffect.quiet],
      fun _ => id⟩
  | unwanted => exact ⟨hbalances, hnone, Nat.le_refl _, rfl, rfl, rfl, by simp [ConnectorEffect.quiet],
      fun _ => id⟩

/-- An assertion fails, and the connector stays as it was. -/
theorem turn_fault (s : ConnectorState T) (fault : ConnectorFault) : Turn wants s (s.after (.error fault)) [] :=
  turn_idle (fun _ => rfl) rfl rfl rfl rfl fun _ => id

theorem turn_startInLoop (s : ConnectorState T) (e : ConnectErrno) : Turn wants s (s.startInLoop e)
    (effectsOf (s.connector.startInLoop s.nextSocket e s.nextTimer)) := by
  unfold startInLoop
  by_cases hstate : s.connector.state_ = .kDisconnected
  · by_cases hch : s.connector.connect_ = true → e.begins = true → s.connector.channel_ = none
    · obtain ⟨c', es, hrun, hstarted⟩ := Connector.startInLoop_spec s.nextSocket s.nextTimer hstate hch
      rw [hrun]
      exact turn_started hch hstarted
    · simp only [Classical.not_imp] at hch
      obtain ⟨hconnect, he, hne⟩ := hch
      rw [Connector.startInLoop_connecting hstate hconnect he hne]
      exact turn_fault s _
  · rw [Connector.startInLoop_fault hstate]
    exact turn_fault s _

theorem Steady.turn_handleWrite (h : s.Steady) (err selfConnect : Bool) :
    Turn wants s (s.after (s.connector.handleWrite err selfConnect s.nextTimer))
      (effectsOf (s.connector.handleWrite err selfConnect s.nextTimer)) := by
  by_cases hstate : s.connector.state_ = .kConnecting
  · obtain ⟨sockfd, hch, -⟩ := h.fits.of_connecting hstate
    obtain ⟨c', es, hrun, hended, -⟩ := Connector.handleWrite_spec s.nextTimer hstate hch err selfConnect
    rw [hrun]
    exact turn_ended hch hended
  · rw [Connector.handleWrite_of_ne hstate]
    exact turn_idle (fun _ => rfl) rfl rfl rfl rfl fun _ => id

theorem Steady.turn_handleError (h : s.Steady) : Turn wants s (s.after (s.connector.handleError s.nextTimer))
    (effectsOf (s.connector.handleError s.nextTimer)) := by
  by_cases hstate : s.connector.state_ = .kConnecting
  · obtain ⟨sockfd, hch, -⟩ := h.fits.of_connecting hstate
    obtain ⟨c', es, hrun, hended, -⟩ := Connector.handleError_spec s.nextTimer hstate hch
    rw [hrun]
    exact turn_ended hch hended
  · rw [Connector.handleError_fault hstate]
    exact turn_fault s _

/-! ## The account of a run -/

/-- The effects of the run so far. -/
def log (es : List ConnectorEffect) (s : ConnectorState T) (a : ConnectorAct T)
    (_ : ConnectorState T) : Option (List ConnectorEffect) :=
  some (es ++ s.performed a)

/-- The socket is watched, or was closed once, or was given to `newConnectionCallback_` once, and only one
of these. -/
def InOnePlace (s : ConnectorState T) (es : List ConnectorEffect) (sockfd : Nat) : Prop :=
  (s.connector.watches sockfd = true ∧ es.count (.close sockfd) = 0 ∧
      es.count (.newConnectionCallback sockfd) = 0) ∨
    (s.connector.watches sockfd = false ∧ es.count (.close sockfd) = 1 ∧
      es.count (.newConnectionCallback sockfd) = 0) ∨
    (s.connector.watches sockfd = false ∧ es.count (.close sockfd) = 0 ∧
      es.count (.newConnectionCallback sockfd) = 1)

/-- Each socket was made once and is in one place, there is at most one that is watched, and nothing is
done to others. -/
structure SocketsPlaced (s : ConnectorState T) (es : List ConnectorEffect) : Prop where
  placed : ∀ sockfd, .socket sockfd ∈ es →
    es.count (.socket sockfd) = 1 ∧ s.InOnePlace es sockfd
  unmade : ∀ sockfd, .socket sockfd ∉ es → s.connector.watches sockfd = false ∧
    .close sockfd ∉ es ∧ .newConnectionCallback sockfd ∉ es
  single : ∀ a b, s.connector.watches a = true → s.connector.watches b = true → a = b

/-- The invariant. -/
structure Accounted (s : ConnectorState T) (es : List ConnectorEffect) : Prop where
  steady : s.Steady
  told : s.connector.newConnectionCallback_ = true
  balance : ∀ sockfd, (s.connector.watches sockfd).toNat + es.count (.close sockfd) +
    es.count (.newConnectionCallback sockfd) = es.count (.socket sockfd)
  once : ∀ sockfd, es.count (.socket sockfd) = if sockfd < s.nextSocket then 1 else 0

theorem start_accounted : (start true : ConnectorState T).Accounted [] where
  steady := start_steady true
  told := rfl
  balance _ := rfl
  once sockfd := by simp [start]

theorem Accounted.placed {es : List ConnectorEffect} (h : s.Accounted es) : s.SocketsPlaced es := by
  refine ⟨?_, ?_, ?_⟩
  · intro sockfd hmem
    have hpos := List.count_pos_iff.mpr hmem
    have honce := h.once sockfd
    have hbalance := h.balance sockfd
    have hone : es.count (.socket sockfd) = 1 := by
      split at honce <;> omega
    refine ⟨hone, ?_⟩
    unfold InOnePlace
    cases hw : s.connector.watches sockfd <;> simp only [hw, Bool.toNat_true, Bool.toNat_false] at hbalance
    · simp
      omega
    · simp
      omega
  · intro sockfd hmem
    have hzero := List.count_eq_zero.mpr hmem
    have hbalance := h.balance sockfd
    refine ⟨?_, List.count_eq_zero.mp (by omega), List.count_eq_zero.mp (by omega)⟩
    cases hw : s.connector.watches sockfd with
    | false => rfl
    | true =>
      rw [hw, Bool.toNat_true] at hbalance
      omega
  · intro a b ha hb
    simp only [Connector.watches, Option.any_eq_true] at ha hb
    obtain ⟨channel, hch, ha⟩ := ha
    obtain ⟨channel', hch', hb⟩ := hb
    cases hch.symm.trans hch'
    simp only [Bool.and_eq_true, decide_eq_true_eq] at ha hb
    exact ha.1.symm.trans hb.1

theorem Accounted.turn {es more : List ConnectorEffect} (h : s.Accounted es) (hsteady : s'.Steady)
    (hturn : Turn wants s s' more) : s'.Accounted (es ++ more) := by
  refine ⟨hsteady, hturn.told.trans h.told, ?_, ?_⟩
  · intro sockfd
    have hbalance := h.balance sockfd
    have hmore := hturn.balances (.inl h.told) sockfd
    simp only [List.count_append]
    omega
  · intro sockfd
    have hgrows := hturn.grows
    rw [List.count_append, h.once, hturn.sockets]
    split <;> split <;> split <;> omega

/-! ## Steps -/

variable [DecidableEq T]

theorem Steady.turn (h : s.Steady) (hs : s.step a = some s') : Turn a.wants s s' (s.performed a) := by
  obtain ⟨-, hmove⟩ := step_moves hs
  cases hmove with
  | @startInLoop e => exact (turn_startInLoop s e).moved rfl rfl rfl rfl
  | @runTimer e => exact (turn_startInLoop s e).moved rfl rfl rfl rfl
  | @callback err selfConnect inCallback timerfd callback todo hstart hpc =>
    cases callback with
    | write =>
      have hperformed : s.performed (.callback err selfConnect) =
          effectsOf (s.connector.handleWrite err selfConnect s.nextTimer) := by
        simp only [performed, method, hpc]
        rfl
      rw [hperformed]
      exact (h.turn_handleWrite err selfConnect).moved rfl rfl rfl rfl
    | error =>
      have hperformed : s.performed (.callback err selfConnect) =
          effectsOf (s.connector.handleError s.nextTimer) := by
        simp only [performed, method, hpc]
        rfl
      rw [hperformed]
      exact h.turn_handleError.moved rfl rfl rfl rfl
    | _ =>
      have hperformed : s.performed (.callback err selfConnect) = [] := by
        simp only [performed, method, hpc]
        rfl
      rw [hperformed]
      exact turn_idle (fun _ => rfl) rfl rfl rfl rfl fun _ => id
  | @runFunctor e f rest hstart hpc hnext =>
    cases f with
    | startInLoop =>
      have hperformed : s.performed (.runFunctor e) =
          effectsOf (s.connector.startInLoop s.nextSocket e s.nextTimer) := by
        simp only [performed, method, hnext]
        rfl
      rw [hperformed]
      have hturn : Turn false _ _ _ := turn_startInLoop { s with functors := rest } e
      exact ⟨hturn.balances, hturn.sockets, hturn.grows, hturn.timers, hturn.made, hturn.told,
        hturn.quiet, fun _ => hturn.stays rfl⟩
    | resetChannel sockfd =>
      have hperformed : s.performed (.runFunctor e) = [] := by
        simp only [performed, method, hnext]
        rfl
      rw [hperformed]
      have hidle := h.fits.watches_eq_false (h.resetting hnext)
      exact turn_idle (fun fd => (hidle fd).symm ▸ rfl) rfl rfl rfl rfl fun _ => id
    | cancelInLoop timerId =>
      have hperformed : s.performed (.runFunctor e) = [] := by
        simp only [performed, method, hnext]
        rfl
      rw [hperformed]
      exact turn_idle (fun _ => rfl) rfl rfl rfl rfl fun _ => id
  | startSet => exact turn_idle (fun _ => rfl) rfl rfl rfl rfl fun hno => by cases hno
  | startHere => exact turn_idle (fun _ => rfl) rfl rfl rfl rfl fun hno => by cases hno
  | stopSet => exact turn_idle (fun _ => rfl) rfl rfl rfl rfl fun _ _ => rfl
  | stopHere => exact turn_idle (fun _ => rfl) rfl rfl rfl rfl fun _ _ => rfl
  | @closed restart =>
    cases restart with
    | true => exact turn_idle (fun _ => rfl) rfl rfl rfl rfl fun hno => by cases hno
    | false => exact turn_idle (fun _ => rfl) rfl rfl rfl rfl fun _ => id
  | _ => exact turn_idle (fun _ => rfl) rfl rfl rfl rfl fun _ => id

end ConnectorState

variable {T : Type u} {p p' : ConnectorState T × List ConnectorEffect} {a : ConnectorAct T}

/-- What has come of a run after `stop`: the sockets that were watched are, or were closed. -/
structure QuietSince (p q : ConnectorState T × List ConnectorEffect) : Prop where
  noSocket : q.1.nextSocket = p.1.nextSocket
  noTimer : q.1.nextTimer = p.1.nextTimer
  noConnection : q.1.made = p.1.made
  effects : ∃ es, q.2 = p.2 ++ es ∧ (∀ e ∈ es, e.quiet = true) ∧
    ∀ sockfd, p.1.connector.watches sockfd = true →
      q.1.connector.watches sockfd = true ∨ .close sockfd ∈ es

theorem QuietSince.refl (p : ConnectorState T × List ConnectorEffect) : QuietSince p p where
  noSocket := rfl
  noTimer := rfl
  noConnection := rfl
  effects := ⟨[], (List.append_nil _).symm, fun _ h => absurd h List.not_mem_nil, fun _ => .inl⟩

theorem QuietSince.turn {q r : ConnectorState T × List ConnectorEffect} {more : List ConnectorEffect}
    {wants : Bool} (h : QuietSince p q) (hlog : r.2 = q.2 ++ more)
    (hturn : ConnectorState.Turn wants q.1 r.1 more) (hoff : q.1.connector.connect_ = false) :
    QuietSince p r := by
  have hquiet := hturn.quiet hoff
  have hnone : ∀ {test : ConnectorEffect → Bool}, (∀ e, e.quiet = true → test e = false) →
      more.countP test = 0 := by
    intro test htest
    refine List.countP_eq_zero.mpr ?_
    intro e he
    rw [htest e (hquiet e he)]
    exact Bool.false_ne_true
  have hsocket : ∀ fd, .socket fd ∉ more := fun fd hmem => by cases hquiet _ hmem
  refine ⟨?_, ?_, ?_, ?_⟩
  · have hlast := hturn.sockets q.1.nextSocket
    rw [List.count_eq_zero.mpr (hsocket _)] at hlast
    have hgrows := hturn.grows
    have hsame := h.noSocket
    split at hlast <;> omega
  · rw [hturn.timers, hnone fun e he => by cases e <;> first | rfl | cases he]
    exact h.noTimer
  · rw [hturn.made, hnone fun e he => by cases e <;> first | rfl | cases he]
    exact h.noConnection
  · obtain ⟨es, hes, hall, hwatched⟩ := h.effects
    refine ⟨es ++ more, ?_, ?_, ?_⟩
    · rw [hlog, hes, List.append_assoc]
    · intro e he
      rcases List.mem_append.mp he with he | he
      · exact hall e he
      · exact hquiet e he
    · intro fd hfd
      rcases hwatched fd hfd with hstill | hclosed
      · -- the account of the step: what was watched is still, or is closed now
        have hbalance := hturn.balances (.inr hoff) fd
        rw [hstill, List.count_eq_zero.mpr (hsocket fd), Bool.toNat_true] at hbalance
        by_cases hnow : r.1.connector.watches fd = true
        · exact .inl hnow
        · have hgiven : ConnectorEffect.newConnectionCallback fd ∉ more := by
            intro hmem
            cases hquiet _ hmem
          rw [Bool.not_eq_true] at hnow
          rw [hnow, List.count_eq_zero.mpr hgiven, Bool.toNat_false] at hbalance
          exact .inr (List.mem_append_right _ (List.count_pos_iff.mp (by omega)))
      · exact .inr (List.mem_append_left _ hclosed)

/-- A connector and what it has done outside. -/
def connectorSockets (T : Type u) [DecidableEq T] :
    Machine (ConnectorState T × List ConnectorEffect) (ConnectorAct T) :=
  (connectorLoop T).observe [] ConnectorState.log

variable [DecidableEq T]

theorem connectorSockets_step (h : p.1.Steady) (hs : (connectorSockets T).step p a = some p') :
    p'.1.Steady ∧ p'.2 = p.2 ++ p.1.performed a ∧
      ConnectorState.Turn a.wants p.1 p'.1 (p.1.performed a) := by
  obtain ⟨hs, hsee⟩ := Machine.observe_step.mp hs
  exact ⟨h.step hs, (Option.some.inj hsee).symm, h.turn hs⟩

/-- **Every connecting socket is disposed of once.** In every reachable state of a connector whose
`newConnectionCallback_` is set, each socket it has made is watched by its channel, or was closed once, or
was given to `newConnectionCallback_` once. -/
theorem every_socket_placed {as : List (ConnectorAct T)}
    (hrun : (connectorSockets T).run (.start true, []) as = some p) : p.1.SocketsPlaced p.2 := by
  have hkeep : ∀ p a p', ConnectorState.Accounted p.1 p.2 → (connectorSockets T).step p a = some p' →
      p'.1.Accounted p'.2 := by
    intro p a p' hp hs
    obtain ⟨hsteady, hlog, hturn⟩ := connectorSockets_step hp.steady hs
    rw [hlog]
    exact hp.turn hsteady hturn
  exact (Machine.run_invariant (fun p => ConnectorState.Accounted p.1 p.2) hkeep
    ConnectorState.start_accounted hrun).placed

/-- The first attempt is refused, the second one succeeds. -/
theorem every_socket_placed_retry : ∃ p, (connectorSockets Unit).run (.start true, [])
    [.startHere, .startInLoop .ECONNREFUSED, .poll none true, .timerRead [0], .runTimer .EINPROGRESS,
      .timersDone, .beginFunctors, .endFunctors, .poll (some { pollout := true }) false, .handleEvent,
      .callback false false] = some p ∧ p.1.SocketsPlaced p.2 := by
  obtain ⟨p, hp⟩ : ∃ p, (connectorSockets Unit).run (.start true, [])
      [.startHere, .startInLoop .ECONNREFUSED, .poll none true, .timerRead [0], .runTimer .EINPROGRESS,
        .timersDone, .beginFunctors, .endFunctors, .poll (some { pollout := true }) false, .handleEvent,
        .callback false false] = some p := ⟨_, rfl⟩
  exact ⟨p, hp, every_socket_placed hp⟩

/-- **A stopped connector stays quiet.** From a `stop` in the loop's thread until `start` or `restart` is
called again, no socket is made, no timer armed and nobody told of a connection; what was watched at
the `stop` is closed when its attempt ends. -/
theorem stopped_is_quiet {p q r : ConnectorState T × List ConnectorEffect} {as : List (ConnectorAct T)}
    (h : (connectorSockets T).Reachable p) (hstop : (connectorSockets T).step p .stopHere = some q)
    (has : ∀ a ∈ as, a.wants = false) (hrun : (connectorSockets T).run q as = some r) :
    QuietSince q r := by
  have hsteady : p.1.Steady := by
    refine h.invariant (fun p => p.1.Steady) ?_ ?_
    · rintro ⟨s, es⟩ ⟨⟨b, rfl⟩, rfl⟩
      exact ConnectorState.start_steady b
    · intro p a p' hp hs
      exact (connectorSockets_step hp hs).1
  have hkeep : ∀ r a r', (r.1.Steady ∧ r.1.connector.connect_ = false ∧ QuietSince q r) →
      a.wants = false → (connectorSockets T).step r a = some r' →
      r'.1.Steady ∧ r'.1.connector.connect_ = false ∧ QuietSince q r' := by
    rintro r a r' ⟨hr, hoff, hquiet⟩ ha hs
    obtain ⟨hr', hlog, hturn⟩ := connectorSockets_step hr hs
    exact ⟨hr', hturn.stays ha hoff, hquiet.turn hlog hturn hoff⟩
  obtain ⟨hq, -, -⟩ := connectorSockets_step hsteady hstop
  have hoff : q.1.connector.connect_ = false := by
    have hs : p.1.step .stopHere = some q.1 := (Machine.observe_step.mp hstop).1
    obtain ⟨-, hmove⟩ := ConnectorState.step_moves hs
    obtain ⟨t, es⟩ := q
    cases hmove
    rfl
  exact (Machine.run_invariant_of_labels _ hkeep ⟨hq, hoff, .refl q⟩ has hrun).2.2

/-- An attempt is in progress at the `stop`, and succeeds afterwards. -/
theorem stopped_is_quiet_attempt : ∃ q r, (connectorSockets Unit).run (.start true, [])
    [.startHere, .startInLoop .EINPROGRESS, .stopHere] = some q ∧
      (connectorSockets Unit).run q [.poll (some { pollout := true }) false, .handleEvent,
        .callback false false] = some r ∧ QuietSince q r := by
  obtain ⟨p, hp⟩ : ∃ p, (connectorSockets Unit).run (.start true, [])
      [.startHere, .startInLoop .EINPROGRESS] = some p := ⟨_, rfl⟩
  have hreach : (connectorSockets Unit).Reachable p := ⟨_, _, ⟨⟨true, rfl⟩, rfl⟩, hp⟩
  have hcalls : ∀ a ∈ ([.poll (some { pollout := true }) false, .handleEvent,
      .callback false false] : List (ConnectorAct Unit)), a.wants = false := by
    simp [ConnectorAct.wants]
  cases hp
  exact ⟨_, _, rfl, rfl, stopped_is_quiet hreach rfl hcalls rfl⟩

end Netfish
