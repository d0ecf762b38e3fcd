import Mathlib.Algebra.Ring.Nat
import Netfish.Kit.Attendance
import Netfish.Net.ClientReports

/-!
# The sessions of pingPongClient

`Client` of `pingPongClient.cc` with its sessions, each a `TcpClient` in a loop of the pool. A session is told of
its connection by `onConnection`, which goes on to `onConnect` or `onDisconnect` of the client: there one atomic
counter stands between all the loops, and the thread that brings it to an end warns. The totals that
`onDisconnect` prints are left out.
-/

set_option autoImplicit false

namespace Netfish

open Kit

universe u

/-! ## One session -/

namespace ClientState

variable {T : Type u} {s s' : ClientState T} {c : Nat} {conn : TcpConnection}

/-- A method of a connection keeps `retry_`. -/
theorem after_retry (s : ClientState T) (c : Nat) (r : Except ConnFault (TcpConnection × List ConnEffect)) :
    (s.after c r).client.retry_ = s.client.retry_ := by
  cases r with
  | error fault => rfl
  | ok r =>
    obtain ⟨conn, es⟩ := r
    have hfold : ∀ s : ClientState T, (es.foldl (effect c conn) s).client.retry_ = s.client.retry_ := by
      induction es with
      | nil => exact fun _ => rfl
      | cons e es ih =>
        intro s
        rw [List.foldl_cons, ih]
        cases e with
        | closeCallback =>
          show (s.removeConnection c).client.retry_ = s.client.retry_
          unfold ClientState.removeConnection
          split
          · next client hrun =>
            obtain ⟨-, hclient⟩ := check_bind_eq_ok.mp hrun
            cases hclient
            rfl
          · rfl
        | _ => rfl
    exact hfold _

/-- A step that makes no connection, and does not come to `restart`. -/
structure Stays (s s' : ClientState T) : Prop where
  retry : s'.client.retry_ = s.client.retry_
  next : s'.client.nextConnId_ = s.client.nextConnId_
  state : s.loop.connector.state_ = .kConnected → s'.loop.connector.state_ = .kConnected
  restarting : (∀ c todo, s.pc ≠ .event c todo .restarting) → ∀ c todo, s'.pc ≠ .event c todo .restarting

theorem Stays.trans {b : ClientState T} (h : s.Stays b) (h' : b.Stays s') : s.Stays s' :=
  ⟨h'.retry.trans h.retry, h'.next.trans h.next, h'.state ∘ h.state, h'.restarting ∘ h.restarting⟩

theorem goto_stays (s : ClientState T) {pc : ClientPc} (hpc : ∀ c todo, pc ≠ .event c todo .restarting) :
    s.Stays { s with pc } :=
  ⟨rfl, rfl, id, fun _ => hpc⟩

theorem after_stays (s : ClientState T) (c : Nat) (r : Except ConnFault (TcpConnection × List ConnEffect)) :
    s.Stays (s.after c r) := by
  have haround := after_around s c r
  refine ⟨after_retry s c r, haround.next, ?_, ?_⟩
  · rw [haround.loop]
    exact id
  · intro hs d todo
    rcases haround.removed with ⟨-, hpc⟩ | ⟨-, -, hpc⟩
    · rw [hpc]
      exact hs d todo
    · rw [hpc]
      exact toRemoving_ne_restarting hs d todo

theorem runFunctor_stays {w : WriteResult} {f : ClientFunctor} {rest : BatchQueue ClientFunctor}
    (hrun : { s with functors := rest }.runFunctor w conn f = some s') : s.Stays s' := by
  have hrest : s.Stays { s with functors := rest } := ⟨rfl, rfl, id, id⟩
  cases f with
  | sendInLoop c message =>
    obtain ⟨-, hrun⟩ := Option.ite_none_right_eq_some.mp hrun
    cases hrun
    exact hrest.trans (after_stays ..)
  | shutdownInLoop c =>
    cases hrun
    exact hrest.trans (after_stays ..)
  | writeComplete c =>
    cases hrun
    exact hrest
  | connectDestroyed c =>
    cases hrun
    have hplace : s.Stays { s with functors := rest, pc := .destroying c } := ⟨rfl, rfl, id, fun _ => by simp⟩
    exact hplace.trans (after_stays ..)

/-- A client that does not reconnect: its first connection is its last. -/
structure Single (s : ClientState T) : Prop where
  tells : s.Tells
  retry : s.client.retry_ = false
  restarting : ∀ c todo, s.pc ≠ .event c todo .restarting
  one : s.client.nextConnId_ = 1 ∨ s.client.nextConnId_ = 2 ∧ s.loop.connector.state_ = .kConnected
  only : ∀ p ∈ s.log, p.1 = 1

/-- A `connectDestroyed` in the queue is the first connection's. -/
theorem Single.first_of_destroys (h : s.Single) (hfault : s.fault = none)
    (hmem : c ∈ destroysOf s.functors.toList) : c = 1 := by
  have hpos : 0 < s.destroysLeft c := List.count_pos_iff.mpr hmem
  have hnext : s.client.nextConnId_ ≤ 2 := by
    rcases h.one with hone | ⟨htwo, -⟩ <;> omega
  have hstage := h.tells.told.stage hfault c
  generalize s.destroysLeft c = left at hpos hstage
  generalize s.reports c = reports at hstage
  cases hstage with
  | removed hmade _ => omega
  | _ => cases hpos

/-- The session has been told of its connection, and not of its end. -/
def isUp (s : ClientState T) : Bool := s.reports 1 = [true]

variable [DecidableEq T] {a : ClientAct T}

/-- A step of the connector. -/
theorem Single.loop_stays (h : s.Single) {b : ConnectorAct T} (hb : b ≠ .closed true) {loop : ConnectorState T}
    (hstep : s.loop.step b = some loop) : s.Stays { s with loop } :=
  ⟨rfl, rfl, fun hstate => (h.tells.linked.steady.connected_step hstate hb hstep).1, id⟩

theorem Single.stays (h : s.Single) (ha : a ≠ .enableRetry) (hs : s.step a = some s') : s.Stays s' ∨
    s'.client.retry_ = s.client.retry_ ∧ s.client.nextConnId_ = 1 ∧ s'.client.nextConnId_ = 2 ∧
      s'.loop.connector.state_ = .kConnected ∧ ∀ c todo, s'.pc ≠ .event c todo .restarting := by
  cases step_moves hs with
  | enableRetry => exact absurd rfl ha
  | @newConnection b loop hb hstep hmade =>
    -- an attempt was in progress, so this is the first connection
    obtain ⟨hstate, hstate', -⟩ := h.tells.linked.steady.made_step hstep hmade
    have hfirst : s.client.nextConnId_ = 1 := by
      refine h.one.resolve_right fun hone => ?_
      cases hstate.symm.trans hone.2
    have haround := newConnection_around { s with loop }
    have hstays : Stays { s with loop, client := s.client.newConnection.2 } { s with loop }.newConnection :=
      after_stays _ s.client.nextConnId_ s.client.newConnection.1.connectEstablished
    refine .inr ⟨hstays.retry, hfirst, ?_, ?_, hstays.restarting h.restarting⟩
    · rw [haround.next]
      exact congrArg (· + 1) hfirst
    · rw [haround.loop]
      exact hstate'
  | @connectStart o _ _ hstep =>
    have hstays := h.loop_stays (startOf_ne o) hstep
    exact .inl ⟨hstays.retry, hstays.next, hstays.state, hstays.restarting⟩
  | @stopStop o _ _ hstep =>
    have hstays := h.loop_stays (stopOf_ne o) hstep
    exact .inl ⟨hstays.retry, hstays.next, hstays.state, hstays.restarting⟩
  | connector hb hstep => exact .inl (h.loop_stays (ne_closed hb) hstep)
  | poll _ _ _ hstep =>
    have hstays := h.loop_stays (by simp) hstep
    exact .inl ⟨hstays.retry, hstays.next, hstays.state, hstays.restarting⟩
  | beginFunctors _ _ hstep =>
    have hstays := h.loop_stays (by simp) hstep
    exact .inl ⟨hstays.retry, hstays.next, hstays.state, hstays.restarting⟩
  | endFunctors _ _ hstep => exact .inl (h.loop_stays (by simp) hstep)
  | sendHere | shutHere =>
    have hcall : s.Stays (s.setCall none .idle) := ⟨rfl, rfl, id, id⟩
    exact .inl (hcall.trans (after_stays ..))
  | callClose | callError | callWrite | endDestroyed =>
    exact .inl ((goto_stays s (by simp)).trans (after_stays ..))
  | callRead _ _ hplace =>
    refine .inl ((goto_stays s ?_).trans (after_stays ..))
    rcases hplace with rfl | rfl <;> simp
  | runFunctor _ _ _ _ hrun => exact .inl (runFunctor_stays hrun)
  | reconnects _ hrec => simp [TcpClient.reconnects, h.retry] at hrec
  | restart hat => exact absurd hat.pc (h.restarting _ _)
  | handleEvent | messageDone | eventDone | removed => exact .inl ⟨rfl, rfl, id, fun _ _ _ => by simp⟩
  | _ => exact .inl ⟨rfl, rfl, id, id⟩

theorem Single.step (h : s.Single) (ha : a ≠ .enableRetry) (hs : s.step a = some s') : s'.Single := by
  have hfault := fault_of_step hs
  have hstays := h.stays ha hs
  refine ⟨h.tells.step hs, ?_, ?_, ?_, ?_⟩
  · rcases hstays with hstays | ⟨hretry, -⟩
    · exact hstays.retry.trans h.retry
    · exact hretry.trans h.retry
  · rcases hstays with hstays | ⟨-, -, -, -, hpc⟩
    · exact hstays.restarting h.restarting
    · exact hpc
  · rcases hstays with hstays | ⟨-, -, htwo, hstate, -⟩
    · rw [hstays.next]
      exact h.one.imp_right fun hone => ⟨hone.1, hstays.state hone.2⟩
    · exact .inr ⟨htwo, hstate⟩
  · intro p hp
    cases h.tells.step_change hs with
    | silent hsilent => exact h.only p (hsilent.log ▸ hp)
    | fault hlog => exact h.only p (hlog ▸ hp)
    | removed _ hlog => exact h.only p (hlog ▸ hp)
    | made _ hlog _ hnext _ =>
      rw [hlog] at hp
      rcases List.mem_append.mp hp with hp | hp
      · exact h.only p hp
      · rw [List.mem_singleton.mp hp]
        rcases hstays with hstays | ⟨-, hone, -⟩
        · exact absurd (hnext.symm.trans hstays.next) (by omega)
        · exact hone
    | destroyed hlog hdestroys _ _ =>
      rw [hlog] at hp
      rcases List.mem_append.mp hp with hp | hp
      · exact h.only p hp
      · rw [List.mem_singleton.mp hp]
        exact h.first_of_destroys hfault (by rw [hdestroys]; exact List.mem_cons_self)

end ClientState

/-! ## The client -/

/-- What `onConnect` and `onDisconnect` warn of. -/
inductive Warning where
  | allConnected
  | allDisconnected
deriving DecidableEq, Repr

structure PingPongClient (T : Type u) where
  sessions : Nat → ClientState T
  numConnected_ : BitVec 32
  /-- History. -/
  warnings : List Warning

namespace PingPongClient

variable {T : Type u}

def warn (s : PingPongClient T) (warning : Warning) : PingPongClient T :=
  { s with warnings := s.warnings ++ [warning] }

def onConnect (sessionCount : Nat) (s : PingPongClient T) : PingPongClient T :=
  let s := { s with numConnected_ := s.numConnected_ + 1 }
  if s.numConnected_ = BitVec.ofNat 32 sessionCount then s.warn .allConnected else s

def onDisconnect (s : PingPongClient T) : PingPongClient T :=
  let s := { s with numConnected_ := s.numConnected_ - 1 }
  if s.numConnected_ = 0 then s.warn .allDisconnected else s

/-- `Session::onConnection`, with what `connected()` is. -/
def onConnection (sessionCount : Nat) (s : PingPongClient T) (connected : Bool) : PingPongClient T :=
  if connected then s.onConnect sessionCount else s.onDisconnect

variable [DecidableEq T]

/-- A step of a session; none of them calls `enableRetry`. -/
def step (sessionCount : Nat) (s : PingPongClient T) (act : Nat × ClientAct T) : Option (PingPongClient T) :=
  match act with
  | (_, .enableRetry) => none
  | (i, a) =>
    if i < sessionCount then
      ((s.sessions i).step a).map fun session =>
        ((session.log.drop (s.sessions i).log.length).map Prod.snd).foldl (onConnection sessionCount)
          { s with sessions := Function.update s.sessions i session }
    else none

end PingPongClient

namespace PingPongClient

variable {T : Type u} {n i : Nat} {s s' : PingPongClient T} {session : ClientState T}

/-- How many sessions are up. -/
def up (n : Nat) (s : PingPongClient T) : Nat := attendance n fun i => (s.sessions i).isUp

/-- What a step of a session does. -/
inductive Moves (n : Nat) (s : PingPongClient T) : PingPongClient T → Prop
  | none {i : Nat} {session : ClientState T} (hi : i < n)
      (hreports : session.reports 1 = (s.sessions i).reports 1) :
      Moves n s { s with sessions := Function.update s.sessions i session }
  | up {i : Nat} {session : ClientState T} (hi : i < n) (hbefore : (s.sessions i).reports 1 = [])
      (hafter : session.reports 1 = [true]) :
      Moves n s (onConnect n { s with sessions := Function.update s.sessions i session })
  | down {i : Nat} {session : ClientState T} (hi : i < n) (hbefore : (s.sessions i).reports 1 = [true])
      (hafter : session.reports 1 = [true, false]) :
      Moves n s (onDisconnect { s with sessions := Function.update s.sessions i session })

/-- The warnings due when the number of sessions that are up changes. -/
def due (n before after : Nat) : List Warning :=
  if before < after ∧ after = n then [.allConnected]
  else if after < before ∧ after = 0 then [.allDisconnected]
  else []

theorem due_self (n k : Nat) : due n k k = [] := by
  rw [due, if_neg fun h => Nat.lt_irrefl k h.1, if_neg fun h => Nat.lt_irrefl k h.1]

theorem due_up (n k : Nat) : due n k (k + 1) = if k + 1 = n then [.allConnected] else [] := by
  simp [due]

theorem due_down (n k : Nat) : due n (k + 1) k = if k = 0 then [.allDisconnected] else [] := by
  have hno : ¬ (k + 1 < k ∧ k = n) := by omega
  rw [due, if_neg hno]
  simp

/-- The invariant. -/
structure Counts (n : Nat) (s : PingPongClient T) : Prop where
  count : s.numConnected_ = BitVec.ofNat 32 (s.up n)
  came : .allConnected ∈ s.warnings → ∀ i, i < n → (s.sessions i).reports 1 ≠ []
  once : s.warnings.count .allConnected ≤ 1

theorem up_le (n : Nat) (s : PingPongClient T) : s.up n ≤ n := attendance_le n _

theorem up_update (hi : i < n) (session : ClientState T) :
    { s with sessions := Function.update s.sessions i session }.up n + (s.sessions i).isUp.toNat =
      s.up n + session.isUp.toNat := by
  have hsame : (fun j => (Function.update s.sessions i session j).isUp) =
      Function.update (fun j => (s.sessions j).isUp) i session.isUp := by
    ext1 j
    by_cases hj : j = i
    · rw [hj, Function.update_self, Function.update_self]
    · rw [Function.update_of_ne hj, Function.update_of_ne hj]
  show attendance n (fun j => (Function.update s.sessions i session j).isUp) + _ = _
  rw [hsame]
  exact attendance_update hi _ _

/-- The counter does not wrap around. -/
theorem ofNat_eq_ofNat {k m : Nat} (hk : k < 2 ^ 31) (hm : m < 2 ^ 31) :
    BitVec.ofNat 32 k = BitVec.ofNat 32 m ↔ k = m := by
  refine ⟨fun h => ?_, fun h => by rw [h]⟩
  have hvalue := congrArg BitVec.toNat h
  rw [BitVec.toNat_ofNat, BitVec.toNat_ofNat] at hvalue
  omega

/-- All that were told stay told. -/
theorem Counts.came_update (h : s.Counts n) (hsession : session.reports 1 ≠ [])
    (hmem : .allConnected ∈ s.warnings) (j : Nat) (hj : j < n) :
    (Function.update s.sessions i session j).reports 1 ≠ [] := by
  by_cases heq : j = i
  · rw [heq, Function.update_self]
    exact hsession
  · rw [Function.update_of_ne heq]
    exact h.came hmem j hj

theorem up_of_up (hi : i < n) (hbefore : (s.sessions i).reports 1 = []) (hafter : session.reports 1 = [true]) :
    { s with sessions := Function.update s.sessions i session }.up n = s.up n + 1 := by
  have hupdate := up_update (s := s) hi session
  rw [ClientState.isUp, ClientState.isUp, hbefore, hafter] at hupdate
  exact hupdate

theorem up_of_down (hi : i < n) (hbefore : (s.sessions i).reports 1 = [true])
    (hafter : session.reports 1 = [true, false]) :
    { s with sessions := Function.update s.sessions i session }.up n + 1 = s.up n := by
  have hupdate := up_update (s := s) hi session
  rw [ClientState.isUp, ClientState.isUp, hbefore, hafter] at hupdate
  exact hupdate

theorem onConnect_eq (hn : n < 2 ^ 31) {k : Nat} (hk : k < n) (hcount : s.numConnected_ = BitVec.ofNat 32 k) :
    s.onConnect n = { s with
      numConnected_ := BitVec.ofNat 32 (k + 1)
      warnings := s.warnings ++ if k + 1 = n then [.allConnected] else [] } := by
  have hnext : s.numConnected_ + 1 = BitVec.ofNat 32 (k + 1) := by
    rw [hcount]
    exact (BitVec.ofNat_add k 1).symm
  unfold onConnect
  dsimp only
  rw [hnext]
  by_cases hall : k + 1 = n
  · rw [if_pos hall, if_pos (congrArg (BitVec.ofNat 32) hall)]
    rfl
  · rw [if_neg hall, if_neg (mt (ofNat_eq_ofNat (by omega) hn).mp hall), List.append_nil]

theorem onDisconnect_eq {k : Nat} (hk : k < 2 ^ 31) (hcount : s.numConnected_ = BitVec.ofNat 32 (k + 1)) :
    s.onDisconnect = { s with
      numConnected_ := BitVec.ofNat 32 k
      warnings := s.warnings ++ if k = 0 then [.allDisconnected] else [] } := by
  have hnext : s.numConnected_ - 1 = BitVec.ofNat 32 k := by
    rw [hcount, BitVec.ofNat_add]
    exact BitVec.add_sub_cancel _ _
  have hzero : BitVec.ofNat 32 k = 0 ↔ k = 0 := ofNat_eq_ofNat hk (by decide)
  unfold onDisconnect
  dsimp only
  rw [hnext]
  by_cases hnone : k = 0
  · rw [if_pos hnone, if_pos (hzero.mpr hnone)]
    rfl
  · rw [if_neg hnone, if_neg (mt hzero.mp hnone), List.append_nil]

theorem Counts.move (hn : n < 2 ^ 31) (h : s.Counts n) (hm : s.Moves n s') :
    s'.Counts n ∧ s'.warnings = s.warnings ++ due n (s.up n) (s'.up n) := by
  cases hm with
  | @none i session hi hreports =>
    have hup : up n { s with sessions := Function.update s.sessions i session } = s.up n := by
      have hupdate := up_update (s := s) hi session
      rw [ClientState.isUp, ClientState.isUp, hreports] at hupdate
      omega
    refine ⟨⟨h.count.trans (by rw [hup]), ?_, h.once⟩, ?_⟩
    · intro hmem j hj
      refine h.came_update ?_ hmem j hj
      rw [hreports]
      exact h.came hmem i hi
    · rw [hup, due_self, List.append_nil]
  | @up i session hi hbefore hafter =>
    have hup := up_of_up hi hbefore hafter
    have hle := up_le n { s with sessions := Function.update s.sessions i session }
    -- the session was not told of its connection before, so not all were
    have hnot : .allConnected ∉ s.warnings := fun hmem => h.came hmem i hi hbefore
    rw [onConnect_eq (s := { s with sessions := Function.update s.sessions i session }) hn (by omega) h.count]
    refine ⟨⟨?_, ?_, ?_⟩, ?_⟩
    · show BitVec.ofNat 32 (s.up n + 1) = BitVec.ofNat 32
        (up n { s with sessions := Function.update s.sessions i session })
      rw [hup]
    · intro hmem j hj
      have hall : s.up n + 1 = n := by
        by_contra hno
        rw [if_neg hno, List.append_nil] at hmem
        exact hnot hmem
      have hthere := attendance_eq_all.mp (hup.trans hall) j hj
      intro hnil
      rw [ClientState.isUp, hnil] at hthere
      cases hthere
    · rw [List.count_append, List.count_eq_zero_of_not_mem hnot]
      split <;> decide
    · show _ = s.warnings ++ due n (s.up n) (up n { s with sessions := Function.update s.sessions i session })
      rw [hup, due_up]
  | @down i session hi hbefore hafter =>
    have hup := up_of_down hi hbefore hafter
    have hle := up_le n s
    rw [← hup] at hle
    rw [onDisconnect_eq (s := { s with sessions := Function.update s.sessions i session })
      (k := up n { s with sessions := Function.update s.sessions i session }) (by omega)
      (h.count.trans (by rw [hup]))]
    refine ⟨⟨rfl, ?_, ?_⟩, ?_⟩
    · intro hmem j hj
      have hbefore : .allConnected ∈ s.warnings := by
        rcases List.mem_append.mp hmem with hmem | hmem
        · exact hmem
        · split at hmem
          · simp at hmem
          · cases hmem
      exact h.came_update (by rw [hafter]; simp) hbefore j hj
    · rw [List.count_append]
      have honce := h.once
      split
      · exact honce
      · exact honce
    · show _ = s.warnings ++ due n (s.up n) (up n { s with sessions := Function.update s.sessions i session })
      rw [← hup, due_down]

theorem onConnect_sessions (n : Nat) (s : PingPongClient T) : (s.onConnect n).sessions = s.sessions := by
  unfold onConnect
  dsimp only
  split <;> rfl

theorem onDisconnect_sessions (s : PingPongClient T) : s.onDisconnect.sessions = s.sessions := by
  unfold onDisconnect
  dsimp only
  split <;> rfl

theorem Moves.sessions (hm : s.Moves n s') : ∃ i session, s'.sessions = Function.update s.sessions i session := by
  cases hm with
  | none _ _ => exact ⟨_, _, rfl⟩
  | up _ _ _ => exact ⟨_, _, onConnect_sessions ..⟩
  | down _ _ _ => exact ⟨_, _, onDisconnect_sessions _⟩

variable [DecidableEq T]

end PingPongClient

variable {T : Type u} [DecidableEq T] {n : Nat} {s : PingPongClient T}

end Netfish
