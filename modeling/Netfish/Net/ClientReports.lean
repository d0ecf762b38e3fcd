import Netfish.Net.ClientPhases
import Netfish.Net.Disconnect

/-!
# What a client reports

The calls of `connectionCallback_` for each connection of a client, when any thread may send and shut down.
A connection is made with an up call; it is the client's until `removeConnection`, which queues its
`connectDestroyed`; and there the down call is made. `ClientStage` says which of these a connection has come to.
-/

set_option autoImplicit false

namespace Netfish

open Kit

universe u

/-- Where a connection stands, by what was reported of it and how often its `connectDestroyed` is queued. -/
inductive ClientStage (next : Nat) (connection : Option Nat) (c : Nat) : List Bool → Nat → Prop
  | unmade (hmade : c = 0 ∨ next ≤ c) (hconn : connection ≠ some c) : ClientStage next connection c [] 0
  | current (hmade : 0 < c ∧ c < next) (hconn : connection = some c) : ClientStage next connection c [true] 0
  | removed (hmade : 0 < c ∧ c < next) (hconn : connection ≠ some c) : ClientStage next connection c [true] 1
  | gone (hmade : 0 < c ∧ c < next) (hconn : connection ≠ some c) : ClientStage next connection c [true, false] 0

theorem ClientStage.log {next c left : Nat} {connection : Option Nat} {reports : List Bool}
    (h : ClientStage next connection c reports left) : reports <+: [true, false] := by
  cases h with
  | unmade _ _ => exact List.nil_prefix
  | current _ _ => exact ⟨[false], rfl⟩
  | removed _ _ => exact ⟨[false], rfl⟩
  | gone _ _ => exact List.prefix_rfl

/-- `removeConnection` of the client's connection. -/
theorem ClientStage.remove {next c d left : Nat} {reports : List Bool}
    (h : ClientStage next (some c) d reports left) :
    ClientStage next none d reports (left + if c = d then 1 else 0) := by
  have hnone : none ≠ some d := fun h => by cases h
  cases h with
  | unmade hmade hconn =>
    rw [if_neg fun h => hconn (congrArg some h)]
    exact .unmade hmade hnone
  | current hmade hconn =>
    rw [if_pos (Option.some.inj hconn)]
    exact .removed hmade hnone
  | removed hmade hconn =>
    rw [if_neg fun h => hconn (congrArg some h)]
    exact .removed hmade hnone
  | gone hmade hconn =>
    rw [if_neg fun h => hconn (congrArg some h)]
    exact .gone hmade hnone

/-- `newConnection` of a client without a connection. -/
theorem ClientStage.make {next d left : Nat} {reports : List Bool} (hnext : 0 < next)
    (h : ClientStage next none d reports left) :
    ClientStage (next + 1) (some next) d (reports ++ if next = d then [true] else []) left := by
  by_cases hd : next = d
  · subst hd
    rw [if_pos rfl]
    cases h with
    | unmade _ _ => exact .current ⟨hnext, Nat.lt_succ_self next⟩ rfl
    | current _ hconn => cases hconn
    | removed hmade _ => exact absurd hmade.2 (Nat.lt_irrefl next)
    | gone hmade _ => exact absurd hmade.2 (Nat.lt_irrefl next)
  · have hconn : some next ≠ some d := fun h => hd (Option.some.inj h)
    rw [if_neg hd, List.append_nil]
    cases h with
    | unmade hmade _ => exact .unmade (by omega) hconn
    | current _ hconn => cases hconn
    | removed hmade _ => exact .removed (by omega) hconn
    | gone hmade _ => exact .gone (by omega) hconn

/-- The down call of a `connectDestroyed`. -/
theorem ClientStage.destroy {next c d left : Nat} {connection : Option Nat} {reports : List Bool}
    (h : ClientStage next connection d reports (left + if c = d then 1 else 0)) :
    ClientStage next connection d (reports ++ if c = d then [false] else []) left := by
  by_cases hd : c = d
  · rw [if_pos hd] at h ⊢
    generalize hleft : left + 1 = n at h
    cases h with
    | removed hmade hconn =>
      obtain rfl : left = 0 := Nat.succ.inj hleft
      exact .gone hmade hconn
    | _ => cases hleft
  · rw [if_neg hd] at h ⊢
    rw [List.append_nil]
    exact h

namespace TcpConnection

theorem onChannel_state {conn conn' : TcpConnection} {channel : Except PollerFault Channel}
    (hrun : conn.onChannel channel = .ok conn') : conn'.state_ = conn.state_ := by
  unfold onChannel at hrun
  split at hrun
  · cases hrun
    rfl
  · cases hrun

end TcpConnection

namespace ClientState

variable {T : Type u} {s s' : ClientState T} {c : Nat} {conn : TcpConnection}

/-- What `connected()` was in the calls of `connectionCallback_` for a connection. -/
def reports (s : ClientState T) (c : Nat) : List Bool := (s.log.filter (·.1 = c)).map Prod.snd

/-- How often `connectDestroyed` of a connection is queued. -/
def destroysLeft (s : ClientState T) (c : Nat) : Nat := (destroysOf s.functors.toList).count c

/-! ## What a step changes -/

/-- Nothing is reported, and no connection comes or goes. -/
structure Silent (s s' : ClientState T) : Prop where
  log : s'.log = s.log
  destroys : destroysOf s'.functors.toList = destroysOf s.functors.toList
  next : s'.client.nextConnId_ = s.client.nextConnId_
  connection : s'.client.connection_ = s.client.connection_

/-- What a step changes of the connections and their reports. -/
inductive Change (s s' : ClientState T) : Prop
  | silent (h : s.Silent s')
  | fault (hlog : s'.log = s.log) (hnext : s'.client.nextConnId_ = s.client.nextConnId_) (hfault : s'.fault ≠ none)
  /-- `newConnection` -/
  | made (hnone : s.client.connection_ = none) (hlog : s'.log = s.log ++ [(s.client.nextConnId_, true)])
      (hdestroys : destroysOf s'.functors.toList = destroysOf s.functors.toList)
      (hnext : s'.client.nextConnId_ = s.client.nextConnId_ + 1)
      (hconn : s'.client.connection_ = some s.client.nextConnId_)
  /-- `removeConnection` -/
  | removed {c : Nat} (hconn : s.client.connection_ = some c) (hlog : s'.log = s.log)
      (hdestroys : destroysOf s'.functors.toList = destroysOf s.functors.toList ++ [c])
      (hnext : s'.client.nextConnId_ = s.client.nextConnId_) (hnone : s'.client.connection_ = none)
  /-- `connectDestroyed` -/
  | destroyed {c : Nat} (hlog : s'.log = s.log ++ [(c, false)])
      (hdestroys : destroysOf s.functors.toList = c :: destroysOf s'.functors.toList)
      (hnext : s'.client.nextConnId_ = s.client.nextConnId_)
      (hconn : s'.client.connection_ = s.client.connection_)

/-- The place of the loop's thread, the places of the callers and such have changed before. -/
theorem Change.after_silent {b : ClientState T} (h : b.Change s') (hs : s.Silent b) : s.Change s' := by
  cases h with
  | silent h =>
    exact .silent ⟨h.log.trans hs.log, h.destroys.trans hs.destroys, h.next.trans hs.next,
      h.connection.trans hs.connection⟩
  | fault hlog hnext hfault => exact .fault (hlog.trans hs.log) (hnext.trans hs.next) hfault
  | made hnone hlog hdestroys hnext hconn =>
    rw [hs.log, hs.next] at hlog
    rw [hs.next] at hnext hconn
    exact .made (hs.connection.symm.trans hnone) hlog (hdestroys.trans hs.destroys) hnext hconn
  | removed hconn hlog hdestroys hnext hnone =>
    rw [hs.destroys] at hdestroys
    exact .removed (hs.connection.symm.trans hconn) (hlog.trans hs.log) hdestroys (hnext.trans hs.next) hnone
  | destroyed hlog hdestroys hnext hconn =>
    rw [hs.log] at hlog
    rw [hs.destroys] at hdestroys
    exact .destroyed hlog hdestroys (hnext.trans hs.next) (hconn.trans hs.connection)

theorem Change.next_le (h : s.Change s') : s.client.nextConnId_ ≤ s'.client.nextConnId_ := by
  cases h with
  | silent h => exact Nat.le_of_eq h.next.symm
  | made _ _ _ hnext _ => omega
  | fault _ hnext _ => exact Nat.le_of_eq hnext.symm
  | removed _ _ _ hnext _ => exact Nat.le_of_eq hnext.symm
  | destroyed _ _ hnext _ => exact Nat.le_of_eq hnext.symm

theorem silent_goto (s : ClientState T) (pc : ClientPc) : s.Silent { s with pc } := ⟨rfl, rfl, rfl, rfl⟩

theorem queueInLoop_silent {f : ClientFunctor} (hf : destroysOf [f] = []) : s.Silent (s.queueInLoop f) := by
  refine ⟨rfl, ?_, rfl, rfl⟩
  rw [ClientState.queueInLoop, BatchQueue.toList_push, destroysOf_append, hf, List.append_nil]

/-- The effects of output are none of the callbacks. -/
theorem quiet_of_output {es : List ConnEffect} (h : ∀ e ∈ es, e.isOutput = true) :
    .closeCallback ∉ es ∧ .connectionCallback ∉ es :=
  ⟨fun hmem => Bool.noConfusion (h _ hmem), fun hmem => Bool.noConfusion (h _ hmem)⟩

/-- A method that closes nothing and makes no call of `connectionCallback_`. -/
theorem after_silent {r : Except ConnFault (TcpConnection × List ConnEffect)}
    (hquiet : ∀ conn es, r = .ok (conn, es) → .closeCallback ∉ es ∧ .connectionCallback ∉ es) :
    s.Silent (s.after c r) := by
  cases r with
  | error fault => exact ⟨rfl, rfl, rfl, rfl⟩
  | ok r =>
    obtain ⟨hclose, hcall⟩ := hquiet r.1 r.2 rfl
    rw [after_quiet hclose hcall]
    refine ⟨rfl, ?_, rfl, rfl⟩
    rw [BatchQueue.toList_pushAll, destroysOf_append, destroysOf_completions, List.append_nil]

theorem sendInLoop_silent (s : ClientState T) (c : Nat) (conn : TcpConnection) (message : List UInt8)
    (w : WriteResult) : s.Silent (s.after c (conn.sendInLoop message w)) :=
  after_silent fun _ _ hrun => quiet_of_output (TcpConnection.sendInLoop_output hrun)

theorem shutdownInLoop_silent (s : ClientState T) (c : Nat) (conn : TcpConnection) :
    s.Silent (s.after c (.ok (conn, conn.shutdownInLoop))) := by
  refine after_silent fun _ _ hrun => ?_
  cases hrun
  exact quiet_of_output conn.shutdownInLoop_output

theorem handleWrite_silent (s : ClientState T) (c : Nat) (conn : TcpConnection) (w : WriteResult) :
    s.Silent (s.after c (conn.handleWrite w)) :=
  after_silent fun _ _ hrun => quiet_of_output (TcpConnection.handleWrite_output hrun)

theorem handleError_silent (s : ClientState T) (c : Nat) (conn : TcpConnection) :
    s.Silent (s.after c conn.handleError) := by
  refine after_silent fun _ _ hrun => ?_
  cases hrun
  simp

theorem endDestroyed_silent (s : ClientState T) (c : Nat) (conn : TcpConnection) :
    s.Silent (s.after c (conn.endDestroyed.map (·, []))) := by
  refine after_silent fun _ es hrun => ?_
  cases hend : conn.endDestroyed with
  | error fault =>
    rw [hend] at hrun
    cases hrun
  | ok conn' =>
    rw [hend] at hrun
    cases hrun
    simp

/-- The close callback. -/
theorem removeConnection_change (s : ClientState T) (c : Nat) : s.Change (s.removeConnection c) := by
  unfold removeConnection
  split
  · next client hrun =>
    obtain ⟨hconn, hclient⟩ := check_bind_eq_ok.mp hrun
    cases hclient
    refine .removed hconn rfl ?_ rfl rfl
    rw [ClientState.queueInLoop, BatchQueue.toList_push, destroysOf_append]
    rfl
  · exact .silent ⟨rfl, rfl, rfl, rfl⟩

/-- `handleClose`, which calls `closeCallback_` or stops at an assertion. -/
theorem handleClose_change (s : ClientState T) (c : Nat) (conn : TcpConnection) :
    s.Change (s.after c conn.handleClose) := by
  cases hrun : conn.handleClose with
  | error fault => exact .silent ⟨rfl, rfl, rfl, rfl⟩
  | ok r =>
    obtain ⟨conn', es⟩ := r
    obtain ⟨-, hrun⟩ := check_bind_eq_ok.mp hrun
    obtain ⟨_, -, hrun⟩ := bind_eq_ok.mp hrun
    cases hrun
    exact (removeConnection_change (s.setConn c conn') c).after_silent ⟨rfl, rfl, rfl, rfl⟩

theorem handleRead_change (s : ClientState T) (c : Nat) (conn : TcpConnection) (r : ReadResult) :
    s.Change (s.after c (conn.handleRead r)) := by
  cases r with
  | data =>
    refine .silent (ClientState.after_silent ?_)
    intro conn' es hrun
    cases hrun
    split <;> simp
  | eof => exact handleClose_change s c conn
  | error => exact .silent (handleError_silent s c conn)

/-- `newConnection`, of a client without a connection. -/
theorem newConnection_change (hnone : s.client.connection_ = none) : s.Change s.newConnection := by
  obtain ⟨channel, hrun, -⟩ := TcpConnection.connectEstablished_spec
    (c := s.client.newConnection.1) Channel.new_wf rfl
  have hnew : s.newConnection = { s with client := s.client.newConnection.2 }.after
      s.client.nextConnId_ s.client.newConnection.1.connectEstablished := rfl
  rw [hnew, hrun]
  exact .made hnone rfl rfl rfl rfl

/-- `connectDestroyed`, which makes the down call or stops at an assertion. -/
theorem beginDestroyed_change {rest : BatchQueue ClientFunctor}
    (hnext : s.functors.next = some (.connectDestroyed c, rest)) :
    s.Change ({ s with functors := rest, pc := .destroying c }.after c conn.beginDestroyed) := by
  cases hrun : conn.beginDestroyed with
  | error fault => exact .fault rfl rfl fun h => by cases h
  | ok r =>
    obtain ⟨conn', es⟩ := r
    obtain ⟨-, hrun⟩ := check_bind_eq_ok.mp hrun
    obtain ⟨destroyed, hdisable, hrun⟩ := bind_eq_ok.mp hrun
    cases hrun
    have hdown : decide (conn'.state_ = .kConnected) = false := by
      rw [TcpConnection.onChannel_state hdisable]
      rfl
    refine .destroyed (c := c) ?_ ?_ rfl rfl
    · show s.log ++ [(c, decide (conn'.state_ = .kConnected))] = s.log ++ [(c, false)]
      rw [hdown]
    · rw [BatchQueue.toList_of_next hnext]
      rfl

theorem runFunctor_change {w : WriteResult} {f : ClientFunctor} {rest : BatchQueue ClientFunctor}
    (hnext : s.functors.next = some (f, rest))
    (hrun : { s with functors := rest }.runFunctor w conn f = some s') : s.Change s' := by
  have hrest : destroysOf [f] = [] → s.Silent { s with functors := rest } := by
    intro hf
    refine ⟨rfl, ?_, rfl, rfl⟩
    rw [BatchQueue.toList_of_next hnext, ← List.singleton_append, destroysOf_append, hf, List.nil_append]
  cases f with
  | connectDestroyed c =>
    cases hrun
    exact beginDestroyed_change hnext
  | sendInLoop c message =>
    obtain ⟨-, hrun⟩ := Option.ite_none_right_eq_some.mp hrun
    cases hrun
    exact (Change.silent (sendInLoop_silent _ c conn message w)).after_silent (hrest rfl)
  | shutdownInLoop c =>
    cases hrun
    exact (Change.silent (shutdownInLoop_silent _ c conn)).after_silent (hrest rfl)
  | writeComplete c =>
    cases hrun
    exact .silent (hrest rfl)

/-! ## The stages -/

/-- Each connection is at its stage. -/
structure Told (s : ClientState T) : Prop where
  log : ∀ c, s.reports c <+: [true, false]
  stage : s.fault = none →
    ∀ c, ClientStage s.client.nextConnId_ s.client.connection_ c (s.reports c) (s.destroysLeft c)

theorem Told.of_stage
    (h : ∀ c, ClientStage s.client.nextConnId_ s.client.connection_ c (s.reports c) (s.destroysLeft c)) : s.Told :=
  ⟨fun c => (h c).log, fun _ => h⟩

theorem reports_of_log (hlog : s'.log = s.log) (d : Nat) : s'.reports d = s.reports d := by
  rw [reports, hlog, reports]

theorem reports_append {b : Bool} (hlog : s'.log = s.log ++ [(c, b)]) (d : Nat) :
    s'.reports d = s.reports d ++ if c = d then [b] else [] := by
  unfold reports
  rw [hlog, List.filter_append, List.map_append]
  by_cases hd : c = d <;> simp [hd]

/-- A step takes each connection along its stages. -/
theorem Told.change (h : s.Told) (hfault : s.fault = none) (hnext : 0 < s.client.nextConnId_)
    (hs : s.Change s') : s'.Told := by
  cases hs with
  | silent hs =>
    refine .of_stage fun d => ?_
    rw [reports_of_log hs.log, destroysLeft, hs.destroys, hs.next, hs.connection]
    exact h.stage hfault d
  | fault hlog hnext' hfault' =>
    refine ⟨fun d => ?_, fun hnone => absurd hnone hfault'⟩
    rw [reports_of_log hlog]
    exact h.log d
  | made hnone hlog hdestroys hnext' hconn =>
    refine .of_stage fun d => ?_
    have hstage := h.stage hfault d
    rw [hnone] at hstage
    rw [reports_append hlog, destroysLeft, hdestroys, hnext', hconn]
    exact hstage.make hnext
  | @removed c hconn hlog hdestroys hnext' hnone =>
    refine .of_stage fun d => ?_
    have hstage := h.stage hfault d
    rw [hconn] at hstage
    have hcount : s'.destroysLeft d = s.destroysLeft d + if c = d then 1 else 0 := by
      simp [destroysLeft, hdestroys, List.count_append, List.count_singleton]
    rw [reports_of_log hlog, hcount, hnext', hnone]
    exact hstage.remove
  | @destroyed c hlog hdestroys hnext' hconn =>
    refine .of_stage fun d => ?_
    have hstage := h.stage hfault d
    have hcount : s.destroysLeft d = s'.destroysLeft d + if c = d then 1 else 0 := by
      simp [destroysLeft, hdestroys, List.count_cons]
    rw [hcount] at hstage
    rw [reports_append hlog, hnext', hconn]
    exact hstage.destroy

/-! ## Steps -/

/-- A method of a connection pushes at most. -/
theorem after_batch (s : ClientState T) (c : Nat) (r : Except ConnFault (TcpConnection × List ConnEffect)) :
    (s.after c r).functors.batch = s.functors.batch := by
  cases r with
  | error fault => rfl
  | ok r =>
    obtain ⟨conn, es⟩ := r
    have hfold : ∀ s : ClientState T, (es.foldl (effect c conn) s).functors.batch = s.functors.batch := by
      induction es with
      | nil => exact fun _ => rfl
      | cons e es ih =>
        intro s
        rw [List.foldl_cons, ih]
        cases e with
        | closeCallback =>
          show (s.removeConnection c).functors.batch = s.functors.batch
          unfold ClientState.removeConnection
          split <;> rfl
        | _ => rfl
    exact hfold _

/-- A batch is swapped out only when the one before it is worked off. -/
def Worked (s : ClientState T) : Prop := s.loop.pc ≠ .batch → s.functors.batch = []

theorem Worked.after (h : s.Worked) (c : Nat) (r : Except ConnFault (TcpConnection × List ConnEffect)) :
    (s.after c r).Worked := by
  intro hpc
  rw [(after_around s c r).loop] at hpc
  rw [after_batch]
  exact h hpc

/-- The invariant. -/
structure Tells (s : ClientState T) : Prop where
  linked : s.Linked
  worked : s.Worked
  next : 0 < s.client.nextConnId_
  told : s.Told

/-- The steps of the connector that the client takes. -/
theorem ne_limits {b : ConnectorAct T} (hb : b.anywhere = true ∨ b.inLoop = true) :
    b ≠ .beginFunctors ∧ b ≠ .endFunctors := by
  constructor <;> rintro rfl <;> rcases hb with hb | hb <;> cases hb

variable [DecidableEq T] {a : ClientAct T}

theorem fault_of_step (hs : s.step a = some s') : s.fault = none := by
  unfold step at hs
  split at hs
  · cases hs
  · next h =>
    simp only [Bool.or_eq_true, not_or, Option.isSome_iff_ne_none, ne_eq, Decidable.not_not] at h
    exact h.1

/-- A step of the connector that neither begins nor ends `doPendingFunctors`. -/
theorem Worked.loop (h : s.Worked) {b : ConnectorAct T} {loop : ConnectorState T} (hbegin : b ≠ .beginFunctors)
    (hend : b ≠ .endFunctors) (hloop : s.loop.step b = some loop) : loop.pc ≠ .batch → s.functors.batch = [] :=
  fun hpc => h (mt (ConnectorState.step_batch hbegin hend hloop).mpr hpc)

theorem Worked.step (h : s.Worked) (hs : s.step a = some s') : s'.Worked := by
  cases step_moves hs with
  | @connectStart o _ _ hloop => exact h.loop (by cases o <;> simp [startOf]) (by cases o <;> simp [startOf]) hloop
  | @stopStop o _ _ hloop => exact h.loop (by cases o <;> simp [stopOf]) (by cases o <;> simp [stopOf]) hloop
  | connector hb hloop =>
    obtain ⟨hbegin, hend⟩ := ne_limits (hb.imp_right And.left)
    exact h.loop hbegin hend hloop
  | @newConnection b loop hb hloop =>
    obtain ⟨hbegin, hend⟩ := ne_limits (hb.imp_right And.left)
    have hworked : Worked { s with loop, client := s.client.newConnection.2 } := h.loop hbegin hend hloop
    exact hworked.after _ _
  | poll _ _ _ hloop => exact h.loop (by simp) (by simp) hloop
  | beginFunctors _ _ hloop =>
    obtain ⟨-, hmove⟩ := ConnectorState.step_moves hloop
    cases hmove
    exact fun hpc => absurd rfl hpc
  | endFunctors _ hbatch _ => exact fun _ => hbatch
  | runFunctor _ hpc _ _ hrun =>
    -- the loop stays in `doPendingFunctors`
    rcases runFunctor_around hrun with ⟨_, -, hs'⟩ | hs'
    · exact fun hne => absurd (hs'.loop ▸ hpc) hne
    · exact fun hne => absurd (hs'.loop ▸ hpc) hne
  | sendHere => exact Worked.after (s := s.setCall none .idle) h _ _
  | shutHere => exact Worked.after (s := s.setCall none .idle) h _ _
  | @callClose c todo => exact Worked.after (s := { s with pc := .event c todo .between }) h _ _
  | @callError c todo => exact Worked.after (s := { s with pc := .event c todo .between }) h _ _
  | @callRead c todo place => exact Worked.after (s := { s with pc := .event c todo place }) h _ _
  | @callWrite c todo => exact Worked.after (s := { s with pc := .event c todo .between }) h _ _
  | endDestroyed => exact Worked.after (s := { s with pc := .free }) h _ _
  | _ => exact h

theorem Tells.step_change (h : s.Tells) (hs : s.step a = some s') : s.Change s' := by
  have hidle : ∀ o, s.Silent (s.setCall o .idle) := fun _ => ⟨rfl, rfl, rfl, rfl⟩
  cases step_moves hs with
  | @newConnection b loop hb hloop hmade =>
    obtain ⟨hstate, -, -⟩ := h.linked.steady.made_step hloop hmade
    have hnone : s.client.connection_ = none := by
      by_contra hsome
      cases hstate.symm.trans (h.linked.connected hsome)
    exact (newConnection_change (s := { s with loop }) hnone).after_silent ⟨rfl, rfl, rfl, rfl⟩
  | beginFunctors _ _ hloop =>
    obtain ⟨-, hmove⟩ := ConnectorState.step_moves hloop
    have hpc : s.loop.pc ≠ .batch := by
      cases hmove
      simp_all
    refine .silent ⟨rfl, ?_, rfl, rfl⟩
    rw [BatchQueue.toList_swap (h.worked hpc)]
  | runFunctor _ _ hnext _ hrun => exact runFunctor_change hnext hrun
  | sendPush => exact (Change.silent (queueInLoop_silent rfl)).after_silent (hidle _)
  | shutPush => exact (Change.silent (queueInLoop_silent rfl)).after_silent (hidle _)
  | sendHere => exact (Change.silent (sendInLoop_silent ..)).after_silent (hidle none)
  | shutHere => exact (Change.silent (shutdownInLoop_silent ..)).after_silent (hidle none)
  | callClose => exact (handleClose_change ..).after_silent (silent_goto s _)
  | callError => exact (Change.silent (handleError_silent ..)).after_silent (silent_goto s _)
  | callRead => exact (handleRead_change ..).after_silent (silent_goto s _)
  | callWrite => exact (Change.silent (handleWrite_silent ..)).after_silent (silent_goto s _)
  | endDestroyed => exact (Change.silent (endDestroyed_silent ..)).after_silent (silent_goto s _)
  | _ => exact .silent ⟨rfl, rfl, rfl, rfl⟩

theorem Tells.step (h : s.Tells) (hs : s.step a = some s') : s'.Tells := by
  have hchange := h.step_change hs
  exact ⟨h.linked.step hs, h.worked.step hs, Nat.lt_of_lt_of_le h.next hchange.next_le,
    h.told.change (fault_of_step hs) h.next hchange⟩

end ClientState

variable {T : Type u} [DecidableEq T] {s : ClientState T}

end Netfish
