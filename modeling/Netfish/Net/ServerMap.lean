import Netfish.Net.ServerMoves
import Netfish.Net.ServerSteps

/-!
# The map of a server

`connections_` changes in two places, `newConnection` and `removeConnectionInLoop`, and both go by the name
of the connection. `MapStep` is what a step does to it, and `server_map_exact` what the map is at any time:
the connections accepted, less those `removeConnectionInLoop` has run for. `newConnection` is one step;
its last act is to hand the connection to its loop, so no close comes before the entry is there.
-/

set_option autoImplicit false

namespace Netfish

open Kit

universe u v

theorem TcpServer.start_connections {L : Type v} {server server' : TcpServer L} {startLoop : Nat → L}
    (hrun : server.start startLoop = .ok server') : server'.connections_ = server.connections_ := by
  unfold TcpServer.start at hrun
  split at hrun
  · cases hrun
    rfl
  · obtain ⟨_, -, hrun⟩ := bind_eq_ok.mp hrun
    cases hrun
    rfl

namespace ServerState

variable {T : Type u} {L : Type v} {s s' s'' : ServerState T L}

/-- The names of the connections accepted. -/
def names (s : ServerState T L) (c : Nat) : Option String :=
  (s.conns c).map (·.name_)

/-- A step leaves the map alone. -/
structure SameMap (s s' : ServerState T L) : Prop where
  connections : s'.server.connections_ = s.server.connections_
  name : s'.server.name_ = s.server.name_
  next : s'.server.nextConnId_ = s.server.nextConnId_
  names : s'.names = s.names

theorem SameMap.refl (s : ServerState T L) : s.SameMap s := ⟨rfl, rfl, rfl, rfl⟩

theorem SameMap.trans (h : s.SameMap s') (h' : s'.SameMap s'') : s.SameMap s'' where
  connections := h'.connections.trans h.connections
  name := h'.name.trans h.name
  next := h'.next.trans h.next
  names := h'.names.trans h.names

/-- What a step does to the map, with the connection whose `removeConnectionInLoop` it runs. -/
inductive MapStep (s s' : ServerState T L) : Option Nat → Prop
  | same (h : s.SameMap s') : MapStep s s' none
  | accepted (hname : s'.server.name_ = s.server.name_)
      (hnext : s'.server.nextConnId_ = s.server.nextConnId_ + 1)
      (hentry : s'.server.connections_ = Function.update s.server.connections_
        (connName s.server.name_ s.server.nextConnId_) (some s.server.nextConnId_))
      (hnames : s'.names = Function.update s.names s.server.nextConnId_
        (some (connName s.server.name_ s.server.nextConnId_))) : MapStep s s' none
  | removed {c : Nat} {name : String} (hc : s.names c = some name)
      (hname : s'.server.name_ = s.server.name_) (hnext : s'.server.nextConnId_ = s.server.nextConnId_)
      (hentry : s'.server.connections_ = Function.update s.server.connections_ name none)
      (hnames : s'.names = s.names)
      (hfault : s.server.connections_ name ≠ none → s'.fault = s.fault) : MapStep s s' (some c)

/-- The rest of a step leaves the map alone. -/
theorem MapStep.trans {removal : Option Nat} (h : s.MapStep s' removal) (h' : s'.SameMap s'')
    (hfault : removal ≠ none → s''.fault = s'.fault) : s.MapStep s'' removal := by
  cases h with
  | same h => exact .same (h.trans h')
  | accepted hname hnext hentry hnames =>
    exact .accepted (h'.name.trans hname) (h'.next.trans hnext) (h'.connections.trans hentry)
      (h'.names.trans hnames)
  | removed hc hname hnext hentry hnames hpass =>
    exact .removed hc (h'.name.trans hname) (h'.next.trans hnext) (h'.connections.trans hentry)
      (h'.names.trans hnames) fun hne => (hfault (Option.some_ne_none _)).trans (hpass hne)

/-- And so does what came before it. -/
theorem SameMap.mapStep {removal : Option Nat} (h : s.SameMap s') (hfault : s'.fault = s.fault)
    (h' : s'.MapStep s'' removal) : s.MapStep s'' removal := by
  cases h' with
  | same h' => exact .same (h.trans h')
  | accepted hname hnext hentry hnames =>
    rw [h.name, h.next, h.connections] at hentry
    rw [h.name, h.next, h.names] at hnames
    exact .accepted (hname.trans h.name) (h.next ▸ hnext) hentry hnames
  | removed hc hname hnext hentry hnames hpass =>
    rw [h.names] at hc hnames
    rw [h.connections] at hentry hpass
    exact .removed hc (hname.trans h.name) (hnext.trans h.next) hentry hnames
      fun hne => (hpass hne).trans hfault

variable {l : L} {c : Nat} {sc : ServerConn L}

theorem names_setConn (hc : s.conns c = some sc) (conn : TcpConnection) :
    (s.setConn c { sc with conn }).names = s.names := by
  funext d
  by_cases hd : d = c
  · subst hd
    simp [names, setConn, hc]
  · simp [names, setConn, hd]

theorem sameMap_setConn (hc : s.conns c = some sc) (conn : TcpConnection) :
    s.SameMap (s.setConn c { sc with conn }) :=
  ⟨rfl, rfl, rfl, names_setConn hc conn⟩

theorem sameMap_countDestroy (s : ServerState T L) (c : Nat) : s.SameMap (s.countDestroy c) :=
  ⟨rfl, rfl, rfl, rfl⟩

theorem sameMap_countClose (s : ServerState T L) (c : Nat) : s.SameMap (s.countClose c) :=
  ⟨rfl, rfl, rfl, rfl⟩

/-! ## The map of a run -/

variable {removed : List Nat}

/-- The invariant. -/
structure Listed (s : ServerState T L) (removed : List Nat) : Prop where
  numbered : ∀ c name, s.names c = some name →
    c < s.server.nextConnId_ ∧ name = connName s.server.name_ c
  past : ∀ c ∈ removed, c < s.server.nextConnId_
  exact : ∀ name c, s.server.connections_ name = some c ↔ s.names c = some name ∧ c ∉ removed

/-- `connections_` has exactly the connections accepted less those removed, each under its name, which no
other one has and the next one will not have. -/
structure MapExact (s : ServerState T L) (removed : List Nat) : Prop where
  named : ∀ c sc, s.conns c = some sc → sc.name_ = connName s.server.name_ c
  distinct : ∀ c d sc sd, s.conns c = some sc → s.conns d = some sd → sc.name_ = sd.name_ → c = d
  free : s.server.connections_ (connName s.server.name_ s.server.nextConnId_) = none
  exact : ∀ name c, s.server.connections_ name = some c ↔
    (∃ sc, s.conns c = some sc ∧ sc.name_ = name) ∧ c ∉ removed

theorem names_eq_some {name : String} : s.names c = some name ↔ ∃ sc, s.conns c = some sc ∧ sc.name_ = name :=
  Option.map_eq_some_iff

theorem start_listed (server : TcpServer L) (h : server.connections_ = fun _ => none) :
    (start server : ServerState T L).Listed [] where
  numbered c name hc := by cases hc
  past c hc := by cases hc
  exact name c := by simp [start, names, h]

theorem Listed.mapExact (h : s.Listed removed) : s.MapExact removed where
  named c sc hc := (h.numbered c _ (names_eq_some.mpr ⟨sc, hc, rfl⟩)).2
  distinct c d sc sd hc hd heq := by
    have hcn := (h.numbered c _ (names_eq_some.mpr ⟨sc, hc, rfl⟩)).2
    have hdn := (h.numbered d _ (names_eq_some.mpr ⟨sd, hd, rfl⟩)).2
    exact connName_inj (hcn.symm.trans (heq.trans hdn))
  free := by
    cases hentry : s.server.connections_ (connName s.server.name_ s.server.nextConnId_) with
    | none => rfl
    | some c =>
      obtain ⟨hlt, heq⟩ := h.numbered c _ ((h.exact _ c).mp hentry).1
      cases connName_inj heq
      exact absurd hlt (Nat.lt_irrefl _)
  exact name c := by rw [h.exact, names_eq_some]

theorem Listed.mapStep {removal : Option Nat} (h : s.Listed removed) (hstep : s.MapStep s' removal) :
    s'.Listed (removed ++ removal.toList) := by
  cases hstep with
  | same hsame =>
    rw [Option.toList_none, List.append_nil]
    refine ⟨?_, ?_, ?_⟩
    · rw [hsame.names, hsame.next, hsame.name]
      exact h.numbered
    · rw [hsame.next]
      exact h.past
    · rw [hsame.connections, hsame.names]
      exact h.exact
  | accepted hname hnext hentry hnames =>
    rw [Option.toList_none, List.append_nil]
    have hnew : s.names s.server.nextConnId_ = none := by
      cases hc : s.names s.server.nextConnId_ with
      | none => rfl
      | some name => exact absurd (h.numbered _ name hc).1 (Nat.lt_irrefl _)
    refine ⟨?_, ?_, ?_⟩
    · intro c name hc
      rw [hnames] at hc
      rw [hname, hnext]
      by_cases heq : c = s.server.nextConnId_
      · subst heq
        rw [Function.update_self] at hc
        exact ⟨Nat.lt_succ_self _, (Option.some.inj hc).symm⟩
      · rw [Function.update_of_ne heq] at hc
        obtain ⟨hlt, hcn⟩ := h.numbered c name hc
        exact ⟨Nat.lt_succ_of_lt hlt, hcn⟩
    · intro c hc
      rw [hnext]
      exact Nat.lt_succ_of_lt (h.past c hc)
    · intro name c
      rw [hentry, hnames]
      by_cases hn : name = connName s.server.name_ s.server.nextConnId_
      · -- only the new connection has the new name
        subst hn
        rw [Function.update_self]
        by_cases heq : c = s.server.nextConnId_
        · subst heq
          rw [Function.update_self]
          have hno : s.server.nextConnId_ ∉ removed := fun hc => Nat.lt_irrefl _ (h.past _ hc)
          simp [hno]
        · rw [Function.update_of_ne heq]
          refine ⟨fun hc => absurd (Option.some.inj hc).symm heq, ?_⟩
          rintro ⟨hc, -⟩
          exact absurd (connName_inj (h.numbered c _ hc).2).symm heq
      · rw [Function.update_of_ne hn, h.exact]
        by_cases heq : c = s.server.nextConnId_
        · subst heq
          rw [Function.update_self, hnew]
          refine ⟨fun hc => absurd hc.1 (Option.some_ne_none _).symm, ?_⟩
          rintro ⟨hc, -⟩
          exact absurd (Option.some.inj hc).symm hn
        · rw [Function.update_of_ne heq]
  | @removed c name hc hname hnext hentry hnames hfault =>
    rw [Option.toList_some]
    refine ⟨?_, ?_, ?_⟩
    · rw [hnames, hnext, hname]
      exact h.numbered
    · rw [hnext]
      intro d hd
      rcases List.mem_append.mp hd with hd | hd
      · exact h.past d hd
      · rw [List.mem_singleton.mp hd]
        exact (h.numbered c name hc).1
    · intro name' d
      rw [hentry, hnames, List.mem_append, List.mem_singleton]
      by_cases hn : name' = name
      · subst hn
        rw [Function.update_self]
        refine ⟨fun hd => absurd hd (Option.some_ne_none _).symm, ?_⟩
        rintro ⟨hd, hno⟩
        have heq := (h.numbered d name' hd).2.symm.trans (h.numbered c name' hc).2
        exact absurd (.inr (connName_inj heq)) hno
      · rw [Function.update_of_ne hn, h.exact]
        have hne : s.names d = some name' → d ≠ c := by
          rintro hd rfl
          exact hn (Option.some.inj (hd.symm.trans hc))
        constructor
        · rintro ⟨hd, hno⟩
          exact ⟨hd, not_or.mpr ⟨hno, hne hd⟩⟩
        · rintro ⟨hd, hno⟩
          exact ⟨hd, (not_or.mp hno).1⟩

/-! ## Steps -/

variable [DecidableEq L]

/-- A method that closes runs `removeConnectionInLoop` at once, if it is called in the loop of the
server. -/
def closing (s : ServerState T L) (c : Nat)
    (method : TcpConnection → Except ConnFault (TcpConnection × List ConnEffect)) : Option Nat :=
  (s.conns c).bind fun sc =>
    match method sc.conn with
    | .ok (_, es) => if .closeCallback ∈ es ∧ sc.loop_ = s.server.loop_ then some c else none
    | .error _ => none

/-- The connection whose `removeConnectionInLoop` a step runs. -/
def removal (s : ServerState T L) : ServerAct T L → Option Nat
  | .loop l a =>
    match a, s.pcs l with
    | .callClose, .event c .. => s.closing c TcpConnection.handleClose
    | .callRead r, .event c .. => s.closing c (·.handleRead r)
    | .runFunctor _, .batch =>
      match (s.functors l).next with
      | some (.removeConnectionInLoop c, _) => some c
      | _ => none
    | _, _ => none
  | _ => none

theorem sameMap_setFunctors (s : ServerState T L) (l : L) (q : BatchQueue ServerFunctor) :
    s.SameMap (s.setFunctors l q) := ⟨rfl, rfl, rfl, rfl⟩

theorem sameMap_queueInLoop (s : ServerState T L) (l : L) (f : ServerFunctor) :
    s.SameMap (s.queueInLoop l f) := ⟨rfl, rfl, rfl, rfl⟩

theorem sameMap_setPc (s : ServerState T L) (l : L) (pc : IoLoopPc) : s.SameMap (s.setPc l pc) :=
  ⟨rfl, rfl, rfl, rfl⟩

/-- A method that does not close. -/
theorem sameMap_after (hc : s.conns c = some sc)
    {r : Except ConnFault (TcpConnection × List ConnEffect)}
    (hquiet : ∀ conn es, r = .ok (conn, es) → .closeCallback ∉ es)
    {f : ServerState T L → ServerState T L} (hf : ∀ t, SameMap t (f t)) : s.SameMap (s.after c sc r f) := by
  cases r with
  | error fault => exact ⟨rfl, rfl, rfl, rfl⟩
  | ok r =>
    obtain ⟨conn, es⟩ := r
    rw [after_quiet rfl (hquiet conn es rfl)]
    exact (sameMap_setConn hc conn).trans ((sameMap_setFunctors ..).trans (hf _))

theorem removeConnectionInLoop_map (hc : s.names c = some sc.name_) :
    s.MapStep (s.removeConnectionInLoop c sc) (some c) := by
  unfold removeConnectionInLoop
  dsimp only [TcpServer.erase]
  split
  · exact .removed hc rfl rfl rfl rfl fun _ => rfl
  · next hnone =>
    refine .removed hc rfl rfl rfl rfl ?_
    intro hne
    simp [Option.isSome_iff_ne_none, hne] at hnone

/-- A method that may close, in the loop of its connection. -/
theorem closing_map (hc : s.conns c = some sc)
    (method : TcpConnection → Except ConnFault (TcpConnection × List ConnEffect))
    (hmethod : ∀ conn es, method sc.conn = .ok (conn, es) → es = [.closeCallback] ∨ .closeCallback ∉ es)
    {f : ServerState T L → ServerState T L} (hf : ∀ t, SameMap t (f t))
    (hfault : ∀ t, (f t).fault = t.fault) :
    s.MapStep (s.after c sc (method sc.conn) f) (s.closing c method) := by
  unfold closing
  rw [hc, Option.bind_some]
  cases hrun : method sc.conn with
  | error fault => exact .same ⟨rfl, rfl, rfl, rfl⟩
  | ok r =>
    obtain ⟨conn, es⟩ := r
    rcases hmethod conn es hrun with rfl | hquiet
    · have hset := (sameMap_setConn hc conn).trans
        (sameMap_countClose (s.setConn c { sc with conn }) c)
      have hloop : ((s.setConn c { sc with conn }).countClose c).server.loop_ = s.server.loop_ := rfl
      simp only [List.mem_singleton, true_and, after, List.foldl_cons, List.foldl_nil, effect,
        removeConnection, hloop]
      by_cases hl : sc.loop_ = s.server.loop_
      · simp only [if_pos hl]
        have hname : s.names c = some sc.name_ := by rw [names, hc, Option.map_some]
        rw [← hset.names] at hname
        have hremoved := hset.mapStep rfl (removeConnectionInLoop_map hname)
        exact hremoved.trans (hf _) fun _ => hfault _
      · simp only [if_neg hl]
        exact .same (hset.trans ((sameMap_queueInLoop ..).trans (hf _)))
    · dsimp only
      rw [if_neg fun hand => hquiet hand.1]
      refine .same (sameMap_after hc ?_ hf)
      intro conn' es' heq
      cases heq
      exact hquiet

theorem handleClose_effects {conn conn' : TcpConnection} {es : List ConnEffect}
    (hrun : conn.handleClose = .ok (conn', es)) : es = [.closeCallback] := by
  obtain ⟨-, hrun⟩ := check_bind_eq_ok.mp hrun
  obtain ⟨_, -, hrun⟩ := bind_eq_ok.mp hrun
  cases hrun
  rfl

theorem handleRead_effects {conn conn' : TcpConnection} {es : List ConnEffect} {r : ReadResult}
    (hrun : conn.handleRead r = .ok (conn', es)) : es = [.closeCallback] ∨ .closeCallback ∉ es := by
  cases r with
  | eof => exact .inl (handleClose_effects hrun)
  | error =>
    cases hrun
    exact .inr List.not_mem_nil
  | data =>
    cases hrun
    refine .inr ?_
    split <;> simp

/-- `connectEstablished` and the two halves of `connectDestroyed` call `connectionCallback_` at most. -/
theorem connectEstablished_effects {conn conn' : TcpConnection} {es : List ConnEffect}
    (hrun : conn.connectEstablished = .ok (conn', es)) : es = [.connectionCallback] := by
  obtain ⟨-, hrun⟩ := check_bind_eq_ok.mp hrun
  obtain ⟨_, -, hrun⟩ := bind_eq_ok.mp hrun
  cases hrun
  rfl

theorem beginDestroyed_effects {conn conn' : TcpConnection} {es : List ConnEffect}
    (hrun : conn.beginDestroyed = .ok (conn', es)) : es = [.connectionCallback] := by
  obtain ⟨-, hrun⟩ := check_bind_eq_ok.mp hrun
  obtain ⟨_, -, hrun⟩ := bind_eq_ok.mp hrun
  cases hrun
  rfl

theorem LoopMoves.mapStep {a : IoLoopStep} (h : s.LoopMoves l a s') :
    s.MapStep s' (s.removal (.loop l a)) := by
  have hpcs : ∀ pc, ∀ t : ServerState T L, t.SameMap (t.setPc l pc) := fun pc t => sameMap_setPc t l pc
  have hid : ∀ t : ServerState T L, t.SameMap (id t) := SameMap.refl
  cases h with
  | poll hpc => exact .same (sameMap_setPc ..)
  | handleEvent hpc => exact .same (sameMap_setPc ..)
  | callClose hpc hc =>
    simp only [removal, hpc]
    exact closing_map hc _ (fun _ _ hrun => .inl (handleClose_effects hrun)) (hpcs _) fun _ => rfl
  | callError hpc hc =>
    refine .same (sameMap_after hc ?_ (hpcs _))
    intro conn es hrun
    cases hrun
    exact List.not_mem_nil
  | @callRead r _ _ _ _ _ _ hpc hc =>
    simp only [removal, hpc]
    exact closing_map hc (·.handleRead r) (fun _ _ hrun => handleRead_effects hrun) (hpcs _) fun _ => rfl
  | callWrite hpc hc =>
    refine .same (sameMap_after hc ?_ (hpcs _))
    intro conn es hrun hmem
    cases TcpConnection.handleWrite_output hrun _ hmem
  | eventDone hpc => exact .same (sameMap_setPc ..)
  | beginFunctors hpc => exact .same ((sameMap_setFunctors ..).trans (sameMap_setPc ..))
  | establish hpc hnext hc =>
    simp only [removal, hpc, hnext]
    refine .same ((sameMap_setFunctors ..).trans (sameMap_after (s := s.setFunctors l _) hc ?_ hid))
    intro conn es hrun
    simp [connectEstablished_effects hrun]
  | send hpc hnext hc =>
    simp only [removal, hpc, hnext]
    refine .same ((sameMap_setFunctors ..).trans (sameMap_after (s := s.setFunctors l _) hc ?_ hid))
    intro conn es hrun hmem
    cases TcpConnection.sendInLoop_output hrun _ hmem
  | @shutdown w c rest sc hpc hnext hc =>
    simp only [removal, hpc, hnext]
    refine .same ((sameMap_setFunctors ..).trans (sameMap_after (s := s.setFunctors l _) hc ?_ hid))
    intro conn es hrun hmem
    cases hrun
    cases TcpConnection.shutdownInLoop_output _ _ hmem
  | writeComplete hpc hnext =>
    simp only [removal, hpc, hnext]
    exact .same (sameMap_setFunctors ..)
  | @remove w c rest sc hpc hnext hc =>
    simp only [removal, hpc, hnext]
    have hname : (s.setFunctors l rest).names c = some sc.name_ := congrArg (Option.map _) hc
    exact (sameMap_setFunctors ..).mapStep rfl (removeConnectionInLoop_map hname)
  | destroy hpc hnext hc =>
    simp only [removal, hpc, hnext]
    refine .same (((sameMap_setFunctors ..).trans (sameMap_countDestroy ..)).trans
      (sameMap_after (s := (s.setFunctors l _).countDestroy _) hc ?_ (hpcs _)))
    intro conn es hrun
    simp [beginDestroyed_effects hrun]
  | endDestroyed hpc hc =>
    refine .same (sameMap_after hc ?_ (hpcs _))
    intro conn es hrun
    obtain ⟨conn, -, heq⟩ := map_eq_ok.mp hrun
    cases heq
    exact List.not_mem_nil
  | endFunctors hpc => exact .same (sameMap_setPc ..)

theorem newConnection_mapStep (s : ServerState T L) : s.MapStep s.newConnection none := by
  have hborn : s.MapStep ({ s with server := s.server.newConnection.2 }.setConn s.server.nextConnId_
      s.server.newConnection.1) none := by
    refine .accepted rfl rfl rfl ?_
    funext d
    by_cases hd : d = s.server.nextConnId_
    · subst hd
      simp [names, setConn, TcpServer.newConnection]
    · simp [names, setConn, hd]
  unfold newConnection
  dsimp only
  split
  · refine hborn.trans (sameMap_after (Function.update_self ..) ?_ .refl) fun hne => absurd rfl hne
    intro conn es hrun
    simp [connectEstablished_effects hrun]
  · exact hborn.trans (sameMap_queueInLoop ..) fun hne => absurd rfl hne

variable [DecidableEq T] {a : ServerAct T L}

theorem sameMap_setCall (s : ServerState T L) (o : Caller T L) (call : ServerCall) :
    s.SameMap (s.setCall o call) := ⟨rfl, rfl, rfl, rfl⟩

theorem Moves.mapStep (h : s.Moves a s') : s.MapStep s' (s.removal a) := by
  have hcalls : ∀ o call, ∀ t : ServerState T L, t.SameMap (t.setCall o call) :=
    fun o call t => sameMap_setCall t o call
  cases h with
  | newConnection => exact newConnection_mapStep s
  | sendTest => exact .same (sameMap_setCall ..)
  | sendNot => exact .same (.refl s)
  | sendHere hcall hc =>
    refine .same (sameMap_after hc ?_ (hcalls _ _))
    intro conn es hrun hmem
    cases TcpConnection.sendInLoop_output hrun _ hmem
  | sendPush => exact .same ((sameMap_queueInLoop ..).trans (sameMap_setCall ..))
  | shutTest => exact .same (sameMap_setCall ..)
  | shutNot => exact .same (.refl s)
  | shutSet hcall hc => exact .same ((sameMap_setConn hc _).trans (sameMap_setCall ..))
  | shutHere hcall hc =>
    refine .same (sameMap_after hc ?_ (hcalls _ _))
    intro conn es hrun hmem
    cases hrun
    cases TcpConnection.shutdownInLoop_output _ _ hmem
  | shutPush => exact .same ((sameMap_queueInLoop ..).trans (sameMap_setCall ..))
  | loop _ hmove => exact hmove.mapStep

end ServerState

/-- A server, and the `removeConnectionInLoop`s so far. -/
def serverMap (T : Type u) (L : Type v) [DecidableEq T] [DecidableEq L] :
    Machine (ServerState T L × List Nat) (ServerAct T L) :=
  (tcpServer T L).observe [] fun removed s a _ => some (removed ++ (s.removal a).toList)

variable {T : Type u} {L : Type v} [DecidableEq T] [DecidableEq L]
  {p p' : ServerState T L × List Nat} {a : ServerAct T L}

theorem serverMap_step (hs : (serverMap T L).step p a = some p') :
    p.1.fault = none ∧ p.1.MapStep p'.1 (p.1.removal a) ∧ p'.2 = p.2 ++ (p.1.removal a).toList := by
  obtain ⟨hs, hsee⟩ := Machine.observe_step.mp hs
  obtain ⟨hfault, hmove⟩ := ServerState.step_moves hs
  exact ⟨hfault, hmove.mapStep, (Option.some.inj hsee).symm⟩

/-- **The server's map is exact.** In every run of a server with any loops and callers, `connections_` has
exactly the accepted connections that `removeConnectionInLoop` has not run for, under names of their
own; and the first `removeConnectionInLoop` of a connection erases its entry, no other, and passes its
assertion. -/
theorem server_map_exact (h : (serverMap T L).Reachable p) : p.1.MapExact p.2 ∧
    ∀ a p' c, (serverMap T L).step p a = some p' → p.1.removal a = some c → c ∉ p.2 →
      ∃ sc, p.1.conns c = some sc ∧ p.1.server.connections_ sc.name_ = some c ∧
        p'.1.server.connections_ = Function.update p.1.server.connections_ sc.name_ none ∧
        p'.1.fault = none := by
  have hlisted : p.1.Listed p.2 := by
    refine h.invariant (fun p => p.1.Listed p.2) ?_ ?_
    · rintro ⟨s, removed⟩ ⟨⟨loop, name, _, _, numThreads, startLoop, server, hserver, rfl⟩, rfl⟩
      exact ServerState.start_listed server (TcpServer.start_connections hserver)
    · intro p a p' hp hs
      obtain ⟨-, hstep, hremoved⟩ := serverMap_step hs
      rw [hremoved]
      exact hp.mapStep hstep
  refine ⟨hlisted.mapExact, ?_⟩
  intro a p' c hs hremoval hfirst
  obtain ⟨hfault, hstep, -⟩ := serverMap_step hs
  rw [hremoval] at hstep
  cases hstep with
  | @removed c name hc hname hnext hentry hnames hpass =>
    obtain ⟨sc, hsc, rfl⟩ := ServerState.names_eq_some.mp hc
    have hown := (hlisted.exact sc.name_ c).mpr ⟨hc, hfirst⟩
    refine ⟨sc, hsc, hown, hentry, (hpass ?_).trans hfault⟩
    rw [hown]
    exact Option.some_ne_none c

/-- A connection on another loop reads the end of the stream, and the server's loop removes it. -/
theorem server_map_exact_eof : ∃ p : ServerState Unit Bool × List Nat,
    (serverMap Unit Bool).Reachable p ∧ p.2 = [1] ∧ p.1.MapExact p.2 := by
  obtain ⟨server, hserver⟩ : ∃ server, ((TcpServer.new false "server" true false).setThreadNum
      1).start (fun _ => true) = .ok server := ⟨_, rfl⟩
  have hend : ((((TcpServer.new false "server" true false).setThreadNum 1).start fun _ =>
      true).toOption.bind fun server => ((serverMap Unit Bool).run (.start server, [])
        [.loop false (.poll []), .newConnection, .loop true (.poll []), .loop true .beginFunctors,
          .loop true (.runFunctor .failed), .loop true .endFunctors,
          .loop true (.poll [(1, { pollin := true })]), .loop true .handleEvent,
          .loop true (.callRead .eof), .loop false .beginFunctors,
          .loop false (.runFunctor .failed)]).map (·.2)) = some [1] := by
    decide +kernel
  rw [hserver] at hend
  obtain ⟨p, hp, hremoved⟩ := Option.map_eq_some_iff.mp hend
  have hreach : (serverMap Unit Bool).Reachable p :=
    ⟨_, _, ⟨⟨_, _, _, _, _, _, server, hserver, rfl⟩, rfl⟩, hp⟩
  exact ⟨p, hreach, hremoved, (server_map_exact hreach).1⟩

end Netfish
