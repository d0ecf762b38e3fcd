import Netfish.Net.OrderlyLoops
import Netfish.Net.ServedSteps

/-!
# A server's connection is a connection

In every run of a server, over any number of loops, connections and callers, each connection has gone
through a run of the machine `tcpConnection`, whose owner and other threads are the server, its other
loops and their user code. What holds of every run of one connection so holds of each connection of a
server; `served_streams` is the integrity of the output streams.

The runs are those up to the first assertion that fails.
-/

set_option autoImplicit false

namespace Netfish

open Kit

universe u v

namespace ServerState

variable {T : Type u} {L : Type v} {s s' : ServerState T L} {c : Nat} {l : L}

/-! ## A connection to come -/

theorem Unborn.unseen (h : s.Unborn c) (hu : Unseen c s s') : s'.Unborn c where
  conns := hu.conns.trans h.conns
  functors l := (hu.functors l).trans (h.functors l)
  calls o := (hu.calls o).trans (h.calls o)
  away l := hu.pcs l ▸ h.away l

theorem Unborn.not_mem (h : s.Unborn c) {f : ServerFunctor} (hf : f ∈ (s.functors l).toList) :
    f.conn ≠ c := by
  intro hfc
  have hmem : f ∈ ((s.functors l).filter (·.conn = c)).toList := by
    rw [BatchQueue.toList_filter]
    exact List.mem_filter.mpr ⟨hf, by simpa using hfc⟩
  rw [h.functors] at hmem
  cases hmem

/-- A loop that is about to handle a connection, handles or destroys it, is not away from it. -/
theorem of_conn {pc : IoLoopPc} (h : pc.conn = some c) : (pc.of c).away = false := by
  cases pc with
  | idle => cases h
  | handlers active =>
    cases active with
    | nil => cases h
    | cons p active =>
      obtain ⟨d, revents⟩ := p
      obtain rfl : d = c := Option.some.inj h
      rw [IoLoopPc.of, List.lookup_cons_self]
      rfl
  | event d revents todo inMessage active =>
    obtain rfl : d = c := Option.some.inj h
    rw [of_event_self]
    rfl
  | batch => cases h
  | destroying d =>
    obtain rfl : d = c := Option.some.inj h
    rw [IoLoopPc.of, if_pos rfl]
    rfl

/-- No loop has to do with a connection to come. -/
theorem Unborn.loopSubject_ne (h : s.Unborn c) (a : IoLoopStep) : s.loopSubject l a ≠ some c := by
  have hpc : (s.pcs l).conn ≠ some c := fun hconn => by cases (h.away l).symm.trans (of_conn hconn)
  cases a with
  | poll => exact nofun
  | beginFunctors => exact nofun
  | endFunctors => exact nofun
  | runFunctor w =>
    intro hsub
    obtain ⟨⟨f, rest⟩, hnext, hf⟩ := Option.map_eq_some_iff.mp hsub
    exact h.not_mem (BatchQueue.next_mem hnext) hf
  | _ => exact hpc

theorem subject_runFunctor {f : ServerFunctor} {rest : BatchQueue ServerFunctor} {w : WriteResult}
    (hnext : (s.functors l).next = some (f, rest)) :
    s.subject (.loop l (.runFunctor w) : ServerAct T L) = some f.conn :=
  loopSubject_runFunctor (w := w) hnext

/-- What is noted is of the connection of the step, and that one was made. -/
theorem subject_of_accepts {a : ServerAct T L} {o : Caller T L} {message : List UInt8}
    (h : s.accepts a = some (c, o, message)) : s.subject a = some c ∧ s.conns c ≠ none := by
  cases a with
  | sendTest o' d message' =>
    dsimp only [accepts] at h
    split at h
    · next hany =>
      cases h
      refine ⟨rfl, fun hnone => ?_⟩
      rw [hnone] at hany
      cases hany
    · cases h
  | _ => cases h

variable [DecidableEq L]

theorem Unborn.setPc (h : s.Unborn c) {pc : IoLoopPc} (haway : (pc.of c).away = true) :
    (s.setPc l pc).Unborn c where
  conns := h.conns
  functors := h.functors
  calls := h.calls
  away l' := by
    by_cases hl : l' = l
    · subst hl
      simpa only [ServerState.setPc, Function.update_self] using haway
    · simpa only [ServerState.setPc, Function.update_of_ne hl] using h.away l'

theorem LoopMoves.unborn {a : IoLoopStep} (hmove : s.LoopMoves l a s') (h : s.Unborn c) :
    s'.Unborn c := by
  cases hsub : s.loopSubject l a with
  | some d =>
    refine h.unseen (hmove.unseen hsub ?_)
    rintro rfl
    exact h.loopSubject_ne a hsub
  | none =>
    cases hmove with
    | @poll active hpc hnodup hrep =>
      refine h.setPc ?_
      have hnone : active.lookup c = none := by
        rw [List.lookup_eq_none_iff]
        intro p hp
        obtain ⟨sd, hd, -⟩ := (Option.any_eq_true ..).mp (List.all_eq_true.mp hrep p hp)
        refine bne_iff_ne.mpr fun heq => ?_
        rw [← heq, h.conns] at hd
        cases hd
      rw [IoLoopPc.of, hnone]
      rfl
    | beginFunctors hpc =>
      have hset : (s.setPc l .batch).Unborn c := h.setPc rfl
      refine ⟨hset.conns, ?_, hset.calls, hset.away⟩
      intro l'
      show ((Function.update s.functors l (s.functors l).swap) l').filter _ = _
      by_cases hl : l' = l
      · subst hl
        rw [Function.update_self, BatchQueue.filter_swap, h.functors]
        rfl
      · rw [Function.update_of_ne hl]
        exact h.functors l'
    | endFunctors => exact h.setPc rfl
    | establish _ hnext | send _ hnext | shutdown _ hnext | writeComplete _ hnext | remove _ hnext
    | destroy _ hnext => cases conn_of_functor hnext hsub
    | handleEvent hpc | callClose hpc | callError hpc | callRead hpc | callWrite hpc | eventDone hpc
    | endDestroyed hpc =>
      cases conn_of_pc hpc hsub

variable [DecidableEq T]

/-- The connection stays to come until the server has made it. -/
theorem Moves.unborn {a : ServerAct T L} (hmove : s.Moves a s') (h : s.Unborn c)
    (hnew : a = .newConnection → s.server.nextConnId_ ≠ c) : s'.Unborn c := by
  have hother : ∀ {d}, s.subject a = some d → d ≠ c → s'.Unborn c :=
    fun hsub hd => h.unseen (hmove.unseen hsub hd)
  have hne : ∀ {d sd}, s.conns d = some sd → d ≠ c := by
    rintro d sd hd rfl
    cases h.conns.symm.trans hd
  cases hmove with
  | newConnection => exact hother rfl (hnew rfl)
  | sendTest _ hd | shutTest _ hd => exact hother rfl (hne hd)
  | sendNot | shutNot => exact h
  | sendHere hcall hd | sendPush hcall hd | shutSet hcall hd | shutHere hcall hd | shutPush hcall hd =>
    exact hother (congrArg ServerCall.conn hcall) (hne hd)
  | loop hidle hmove => exact hmove.unborn h

/-- A connection the server has just made, with `connectEstablished` still to come. -/
theorem Unborn.shows (h : s.Unborn c) (hno : s.fault = none) (server : TcpServer L) {sc : ServerConn L}
    {m w : Bool} (hconn : sc.conn = .new m w) {pc : ConnPc} (hpc : pc = (s.pcs sc.loop_).of c) :
    (({ s with server } : ServerState T L).setConn c sc).Shows c sc .empty
      { ConnState.start m w with pc, fresh := false } := by
  have hcount : ∀ l (f : ServerFunctor), f.conn = c → (s.functors l).toList.count f = 0 :=
    fun l f hf => List.count_eq_zero.mpr fun hmem => h.not_mem hmem hf
  have himp : ∀ f : ServerFunctor, f.isOf c = true → decide (f.conn = c) = true :=
    fun f hf => by simpa using ServerFunctor.isOf_conn hf
  refine ⟨⟨fun l f hf hfc => absurd hfc (h.not_mem hf), fun l _ => h.away l⟩, hconn.symm, ?_, hpc,
    fun o => (h.calls o).symm, hcount _ _ rfl, hcount _ _ rfl, rfl, hno, fun _ => rfl, rfl, rfl⟩
  show BatchQueue.empty.map _ = (s.functors sc.loop_).filter _
  rw [← BatchQueue.filter_filter_of_imp himp, h.functors]
  rfl

/-- `connectEstablished` is queued. -/
theorem Shows.pushFresh {sc : ServerConn L} {h : ConnHistory T L} {v : ConnState (Caller T L)}
    (hv : s.Shows c sc h v) (hfresh : v.fresh = false) :
    (s.queueInLoop sc.loop_ (.connectEstablished c)).Shows c sc h { v with fresh := true } := by
  refine hv.setOnce (BatchQueue.filter_push_of_neg rfl _) ?_ ?_ ?_
  · intro f hf
    rw [BatchQueue.toList_push] at hf
    rcases List.mem_append.mp hf with hf | hf
    · exact .inl hf
    · rw [List.mem_singleton.mp hf]
      exact .inr rfl
  · exact (pending_queueInLoop ..).trans (by rw [hv.fresh, hfresh, if_pos ⟨rfl, rfl⟩]; rfl)
  · exact (pending_queueInLoop ..).trans (by rw [hv.removals, if_neg (by simp), Nat.add_zero])

theorem newConnection_follows (h : s.Unborn s.server.nextConnId_) (hno : s.fault = none) :
    ∃ v, (tcpConnection (Caller T L)).Reachable v ∧
      s.newConnection.Follows s.server.nextConnId_ .empty v := by
  have hborn := @Unborn.shows _ _ _ _ _ _ h hno s.server.newConnection.2 s.server.newConnection.1 _ _ rfl _ rfl
  have haway := h.away s.server.newConnection.1.loop_
  generalize hpc : (s.pcs s.server.newConnection.1.loop_).of s.server.nextConnId_ = pc at hborn haway
  have hreach : (tcpConnection (Caller T L)).Reachable { ConnState.start s.server.messageCallback_
      s.server.writeCompleteCallback_ with pc } := by
    have hstart : (tcpConnection (Caller T L)).init
        (.start s.server.messageCallback_ s.server.writeCompleteCallback_) := ⟨_, _, rfl⟩
    cases pc with
    | idle => exact .start hstart
    | batch => exact ⟨_, [.beginFunctors], hstart, rfl⟩
    | _ => cases haway
  refine ⟨_, hreach, ?_⟩
  unfold newConnection
  dsimp only
  split
  · -- the server's own loop: `connectEstablished` runs at once
    refine hborn.after (b := .connectEstablished) (f := id) (g := id)
      (fun _ _ hr => by rw [connectEstablished_effects hr]; simp) (fun _ ht => ht) (fun _ => rfl) ?_
    cases pc <;> first | rfl | cases haway
  · exact (hborn.pushFresh rfl).follows (Function.update_self ..)

/-! ## Runs -/

theorem subject_of_writes {a : ServerAct T L} {bytes : List UInt8} (h : s.writes a = some (c, bytes)) :
    s.subject a = some c ∧ s.conns c ≠ none := by
  cases a with
  | sendRun o w =>
    dsimp only [writes] at h
    split at h
    · next d message hcall =>
      obtain ⟨sc, hd, h⟩ := Option.bind_eq_some_iff.mp h
      split at h
      · cases h
        exact ⟨congrArg ServerCall.conn hcall, by simp [hd]⟩
      · cases h
    · cases h
  | loop l a =>
    cases a with
    | callWrite w =>
      dsimp only [writes] at h
      split at h
      · next hpc =>
        obtain ⟨sc, hd, h⟩ := Option.map_eq_some_iff.mp h
        cases h
        exact ⟨congrArg IoLoopPc.conn hpc, by simp [hd]⟩
      · cases h
    | runFunctor w =>
      dsimp only [writes] at h
      split at h
      · next hnext =>
        obtain ⟨sc, hd, h⟩ := Option.map_eq_some_iff.mp h
        cases h
        exact ⟨loopSubject_runFunctor (w := w) hnext, by simp [hd]⟩
      · cases h
    | _ => cases h
  | _ => cases h

/-- A step about another connection, or about one that is still to come, is not in the history. -/
theorem note_of_not {a : ServerAct T L} (hnot : s.subject a = some c → s.conns c = none)
    (h : ConnHistory T L) : s.note a c h = h := by
  have haccepted : (s.note a c h).accepted = h.accepted := by
    dsimp only [note]
    split
    · next d o message hacc =>
      refine if_neg ?_
      rintro rfl
      exact (subject_of_accepts hacc).2 (hnot (subject_of_accepts hacc).1)
    · rfl
  have hwire : (s.note a c h).wire = h.wire := by
    dsimp only [note]
    split
    · next d bytes hw =>
      refine if_neg ?_
      rintro rfl
      exact (subject_of_writes hw).2 (hnot (subject_of_writes hw).1)
    · rfl
  calc s.note a c h = ⟨(s.note a c h).accepted, (s.note a c h).wire⟩ := rfl
    _ = h := by rw [haccepted, hwire]

/-- A step of the server that is about the connection. -/
theorem Shows.about {sc : ServerConn L} {h : ConnHistory T L} {v : ConnState (Caller T L)}
    (hv : s.Shows c sc h v) (hc : s.conns c = some sc) (ho : s.Orderly)
    (hborn : s.server.nextConnId_ ≠ c) {a : ServerAct T L} (hs : s.step a = some s')
    (hsub : s.subject a = some c) : s'.Follows c (s.note a c h) v := by
  by_cases htest : ∃ o message, a = .sendTest o c message
  · obtain ⟨o, message, rfl⟩ := htest
    exact hv.sendTest hc hs
  · exact (step_moves hs).2.shows hv hc hsub hborn (fun o message ha => htest ⟨o, message, ha⟩) ho.nodup

/-- A step of the server that is not about the connection. -/
theorem Shows.elsewhere {sc : ServerConn L} {h : ConnHistory T L} {v : ConnState (Caller T L)}
    (hv : s.Shows c sc h v) (hc : s.conns c = some sc) (ho : s.Orderly) {a : ServerAct T L}
    (hs : s.step a = some s') (hsub : s.subject a ≠ some c) (hfault : s'.fault = none) :
    s'.Follows c h v := by
  obtain ⟨-, hmove⟩ := step_moves hs
  cases hany : s.subject a with
  | some d =>
    have hu := hmove.unseen (c := c) hany (by rintro rfl; exact hsub hany)
    exact (hv.unseen hu hfault).follows (hu.conns.trans hc)
  | none =>
    cases hmove with
    | loop hidle hmove =>
      refine hmove.turn hv hc hidle (fun hpc => ho.worked _ ?_) hany
      rw [hpc]
      rfl
    | newConnection | sendTest | sendNot | shutTest | shutNot => cases hany
    | sendHere hcall | sendPush hcall | shutSet hcall | shutHere hcall | shutPush hcall =>
      cases conn_of_call hcall hany

/-- One step of the server. -/
theorem Shows.step {sc : ServerConn L} {h : ConnHistory T L} {v : ConnState (Caller T L)}
    (hv : s.Shows c sc h v) (hc : s.conns c = some sc) (ho : s.Orderly)
    (hborn : s.server.nextConnId_ ≠ c) {a : ServerAct T L} (hs : s.step a = some s')
    (hfault : s'.fault = none) : s'.Follows c (s.note a c h) v := by
  by_cases hsub : s.subject a = some c
  · exact hv.about hc ho hborn hs hsub
  · rw [note_of_not fun heq => absurd heq hsub]
    exact hv.elsewhere hc ho hs hsub hfault

theorem Follows.shows {h : ConnHistory T L} {v : ConnState (Caller T L)} (hf : s'.Follows c h v)
    (hreach : (tcpConnection (Caller T L)).Reachable v) (hfault : s'.fault = none) : ∃ sc v',
      s'.conns c = some sc ∧ (tcpConnection (Caller T L)).Reachable v' ∧ s'.Shows c sc h v' := by
  obtain ⟨bs, v', hrun, ⟨sc, hc, hv⟩ | ⟨fault, hs, -⟩ | hs⟩ := hf
  · exact ⟨sc, v', hc, hreach.run hrun, hv⟩
  · cases hfault.symm.trans hs
  · cases hfault.symm.trans hs

/-- The assertion that stopped the server stops the connection. -/
theorem Follows.stopped {h : ConnHistory T L} {v : ConnState (Caller T L)} (hf : s'.Follows c h v)
    (hreach : (tcpConnection (Caller T L)).Reachable v) {fault : ConnFault}
    (hfault : s'.fault = some (.conn fault)) :
    ∃ v', (tcpConnection (Caller T L)).Reachable v' ∧ v'.fault = some fault := by
  obtain ⟨bs, v', hrun, ⟨sc, hc, hv⟩ | ⟨fault', hs, hv⟩ | hs⟩ := hf
  · cases hv.running.symm.trans hfault
  · cases hfault.symm.trans hs
    exact ⟨v', hreach.run hrun, hv⟩
  · cases hfault.symm.trans hs

/-- A step that fails an assertion is about some connection, made or just being made. -/
theorem Moves.fault_subject {a : ServerAct T L} (hmove : s.Moves a s') (hno : s.fault = none)
    (hfault : s'.fault ≠ none) :
    a = .newConnection ∨ ∃ c sc, s.subject a = some c ∧ s.conns c = some sc := by
  cases hmove with
  | newConnection => exact .inl rfl
  | sendTest | sendNot | shutTest | shutNot | sendPush | shutSet | shutPush => exact absurd hno hfault
  | sendHere hcall hd => exact .inr ⟨_, _, congrArg ServerCall.conn hcall, hd⟩
  | shutHere hcall hd => exact .inr ⟨_, _, congrArg ServerCall.conn hcall, hd⟩
  | loop hidle hmove =>
    refine .inr ?_
    cases hmove with
    | poll | handleEvent | eventDone | beginFunctors | endFunctors | writeComplete =>
      exact absurd hno hfault
    | callClose hpc hd | callError hpc hd | callRead hpc hd | callWrite hpc hd | endDestroyed hpc hd =>
      exact ⟨_, _, congrArg IoLoopPc.conn hpc, hd⟩
    | establish _ hnext hd | send _ hnext hd | shutdown _ hnext hd | remove _ hnext hd
    | destroy _ hnext hd => exact ⟨_, _, subject_runFunctor hnext, hd⟩

/-- The invariant: the connections made show runs of their own, the others nothing. -/
structure Serving (s : ServerState T L) (h : Nat → ConnHistory T L) : Prop where
  orderly : s.Orderly
  fresh : ∀ c, s.server.nextConnId_ ≤ c → s.conns c = none
  unborn : ∀ c, s.conns c = none → s.Unborn c ∧ h c = .empty
  shown : ∀ c sc, s.conns c = some sc → ∃ v,
    (tcpConnection (Caller T L)).Reachable v ∧ s.Shows c sc (h c) v

theorem start_serving (server : TcpServer L) :
    (start server : ServerState T L).Serving fun _ => .empty where
  orderly := ⟨fun _ => List.nodup_nil, fun _ _ => rfl⟩
  fresh _ _ := rfl
  unborn _ _ := ⟨⟨rfl, fun _ => rfl, fun _ => rfl, fun _ => rfl⟩, rfl⟩
  shown _ _ hc := by cases hc

theorem Serving.ne {h : Nat → ConnHistory T L} (hserve : s.Serving h) {sc : ServerConn L}
    (hc : s.conns c = some sc) : s.server.nextConnId_ ≠ c := by
  rintro rfl
  cases (hserve.fresh _ (Nat.le_refl _)).symm.trans hc

/-- The connections made, after a step. -/
theorem Serving.shows {h : Nat → ConnHistory T L} (hserve : s.Serving h) {a : ServerAct T L}
    (hs : s.step a = some s') (hfault : s'.fault = none) {sc : ServerConn L} (hc : s.conns c = some sc) :
    ∃ sc' v, s'.conns c = some sc' ∧ (tcpConnection (Caller T L)).Reachable v ∧
      s'.Shows c sc' (s.note a c (h c)) v := by
  obtain ⟨v, hreach, hv⟩ := hserve.shown c sc hc
  exact (hv.step hc hserve.orderly (hserve.ne hc) hs hfault).shows hreach hfault

/-- The connection made by a step. -/
theorem Serving.made {h : Nat → ConnHistory T L} (hserve : s.Serving h) (hno : s.fault = none)
    (hfault : s.newConnection.fault = none) : ∃ sc v,
      s.newConnection.conns s.server.nextConnId_ = some sc ∧ (tcpConnection (Caller T L)).Reachable v ∧
      s.newConnection.Shows s.server.nextConnId_ sc .empty v := by
  obtain ⟨hunborn, -⟩ := hserve.unborn _ (hserve.fresh _ (Nat.le_refl _))
  obtain ⟨v, hreach, hf⟩ := newConnection_follows hunborn hno
  exact hf.shows hreach hfault

theorem Serving.step {h : Nat → ConnHistory T L} (hserve : s.Serving h) {a : ServerAct T L}
    (hs : s.step a = some s') (hfault : s'.fault = none) :
    s'.Serving fun c => s.note a c (h c) := by
  obtain ⟨hno, hmove⟩ := step_moves hs
  -- a connection made stays, and only the next one is made
  have hstay : ∀ c, s'.conns c = none → s.conns c = none := by
    intro c hnone
    by_contra hsome
    obtain ⟨sc, hc⟩ := Option.ne_none_iff_exists'.mp hsome
    obtain ⟨sc', -, hc', -, -⟩ := hserve.shows hs hfault hc
    cases hnone.symm.trans hc'
  have hnew : ∀ c, s.conns c = none → s'.conns c ≠ none →
      a = .newConnection ∧ s.server.nextConnId_ = c := by
    intro c hnone hsome
    by_contra hnot
    exact hsome (hmove.unborn (hserve.unborn c hnone).1 fun ha hc => hnot ⟨ha, hc⟩).conns
  refine ⟨hmove.orderly hserve.orderly hfault, ?_, ?_, ?_⟩
  · intro c hle
    by_contra hsome
    have hsame : s'.names = s.names → s.conns c = none → False := by
      intro hnames hnone
      have hname : s'.names c = none := by rw [hnames, names, hnone]; rfl
      exact hsome (Option.map_eq_none_iff.mp hname)
    have hmap := hmove.mapStep
    generalize s.removal a = removal at hmap
    cases hmap with
    | same hmap => exact hsame hmap.names (hserve.fresh c (hmap.next ▸ hle))
    | removed _ _ hnext _ hnames => exact hsame hnames (hserve.fresh c (hnext ▸ hle))
    | accepted _ hnext =>
      have hlt : s.server.nextConnId_ < c := by omega
      obtain ⟨-, rfl⟩ := hnew c (hserve.fresh c (Nat.le_of_lt hlt)) hsome
      exact Nat.lt_irrefl _ hlt
  · intro c hnone
    obtain ⟨hunborn, hempty⟩ := hserve.unborn c (hstay c hnone)
    refine ⟨hmove.unborn hunborn ?_, ?_⟩
    · rintro rfl rfl
      cases hmove with
      | newConnection =>
        obtain ⟨sc, -, hc, -⟩ := hserve.made hno hfault
        cases hnone.symm.trans hc
    · rw [note_of_not fun _ => hstay c hnone, hempty]
  · intro c sc hc
    cases hold : s.conns c with
    | some sd =>
      obtain ⟨sc', v, hc', hreach, hv⟩ := hserve.shows hs hfault hold
      cases hc.symm.trans hc'
      exact ⟨v, hreach, hv⟩
    | none =>
      obtain ⟨rfl, rfl⟩ := hnew c hold (by simp [hc])
      have hempty := (hserve.unborn _ hold).2
      cases hmove with
      | newConnection hpc hidle =>
        obtain ⟨sc', v, hc', hreach, hv⟩ := hserve.made hno hfault
        cases hc.symm.trans hc'
        exact ⟨v, hreach, hempty ▸ hv⟩

/-- The step that fails an assertion of a connection. -/
theorem Serving.stopped {h : Nat → ConnHistory T L} (hserve : s.Serving h) {a : ServerAct T L}
    (hs : s.step a = some s') {fault : ConnFault} (hfault : s'.fault = some (.conn fault)) :
    ∃ v, (tcpConnection (Caller T L)).Reachable v ∧ v.fault = some fault := by
  obtain ⟨hno, hmove⟩ := step_moves hs
  rcases hmove.fault_subject hno (by simp [hfault]) with rfl | ⟨c, sc, hsub, hc⟩
  · cases hmove with
    | newConnection =>
      obtain ⟨hunborn, -⟩ := hserve.unborn _ (hserve.fresh _ (Nat.le_refl _))
      obtain ⟨v, hreach, hf⟩ := newConnection_follows hunborn hno
      exact hf.stopped hreach hfault
  · obtain ⟨v, hreach, hv⟩ := hserve.shown c sc hc
    exact (hv.about hc hserve.orderly (hserve.ne hc) hs hsub).stopped hreach hfault

end ServerState

open ServerState

variable {T : Type u} {L : Type v} [DecidableEq T] [DecidableEq L]

/-- A server with the histories of its connections. -/
def servedConnections (T : Type u) (L : Type v) [DecidableEq T] [DecidableEq L] :
    Machine (ServerState T L × (Nat → ConnHistory T L)) (ServerAct T L) :=
  (tcpServer T L).observe (fun _ => .empty) fun h s a _ => some fun c => s.note a c (h c)

variable {p p' : ServerState T L × (Nat → ConnHistory T L)} {c : Nat} {sc : ServerConn L}

/-- Until an assertion fails the invariant holds, and then what the connection's own machine has done. -/
def ServerState.Served (s : ServerState T L) (h : Nat → ConnHistory T L) : Prop :=
  match s.fault with
  | none => s.Serving h
  | some (.conn fault) => ∃ v, (tcpConnection (Caller T L)).Reachable v ∧ v.fault = some fault
  | some .erase => True

theorem served_of_reachable (h : (servedConnections T L).Reachable p) : p.1.Served p.2 := by
  refine h.invariant (fun p => p.1.Served p.2) ?_ ?_
  · rintro ⟨s, h⟩ ⟨⟨_, _, _, _, _, _, server, -, rfl⟩, rfl⟩
    exact start_serving server
  · intro p a p' hinv hs
    obtain ⟨hs, hsee⟩ := Machine.observe_step.mp hs
    have hnote : p'.2 = fun c => p.1.note a c (p.2 c) := (Option.some.inj hsee).symm
    rw [ServerState.Served, (step_moves hs).1] at hinv
    rw [hnote, ServerState.Served]
    split
    · next hfault => exact hinv.step hs hfault
    · next hfault => exact hinv.stopped hs hfault
    · trivial

theorem serving_of_reachable (h : (servedConnections T L).Reachable p) (hfault : p.1.fault = none) :
    p.1.Serving p.2 := by
  have hserved := served_of_reachable h
  rwa [ServerState.Served, hfault] at hserved

/-- **A connection of a server is a connection.** In every run of a server, with any loops, connections and
callers, until an assertion fails: each connection has gone through a run of the machine of one connection,
which has come to what is the connection's of the server's state: its object, its functors in the queue of its
loop, the callers inside its `send` and `shutdown`, where its loop stands, the removals its owner has still to
answer; and to the same history, the messages accepted of each caller and the bytes the kernel took. -/
theorem served_connection_runs (h : (servedConnections T L).Reachable p) (hfault : p.1.fault = none)
    (hc : p.1.conns c = some sc) :
    ∃ v, (tcpConnection (Caller T L)).Reachable v ∧ p.1.Shows c sc (p.2 c) v :=
  (serving_of_reachable h hfault).shown c sc hc

/-- A run of a server with two loops, up to what is looked at of its last state. -/
theorem served_run {α : Type} (f : ServerState Unit Bool × (Nat → ConnHistory Unit Bool) → α) (x : α)
    (as : List (ServerAct Unit Bool))
    (h : ((((TcpServer.new false "server" true false).setThreadNum 1).start fun _ => true).toOption.bind
      fun server => ((servedConnections Unit Bool).run (.start server, fun _ => .empty) as).map f) = some x) :
    ∃ p, (servedConnections Unit Bool).Reachable p ∧ f p = x := by
  obtain ⟨server, hserver⟩ : ∃ server, ((TcpServer.new false "server" true false).setThreadNum
      1).start (fun _ => true) = .ok server := ⟨_, rfl⟩
  rw [hserver] at h
  obtain ⟨p, hp, hx⟩ := Option.map_eq_some_iff.mp h
  exact ⟨p, ⟨_, as, ⟨⟨_, _, _, _, _, _, server, hserver, rfl⟩, rfl⟩, hp⟩, hx⟩

/-- Another thread sends three bytes, of which the kernel takes two. -/
theorem served_short :
    ∃ (p : ServerState Unit Bool × (Nat → ConnHistory Unit Bool)) (sc : ServerConn Bool),
      (servedConnections Unit Bool).Reachable p ∧ p.1.fault = none ∧ p.1.conns 1 = some sc ∧
      sc.conn.outputBuffer_ = [3] ∧ (p.2 1).wire = [1, 2] := by
  obtain ⟨p, h, hx⟩ := served_run (fun p => (p.1.fault, (p.1.conns 1).map (·.conn.outputBuffer_),
      (p.2 1).wire)) (none, some [3], [1, 2])
    [.loop false (.poll []), .newConnection, .loop true (.poll []), .loop true .beginFunctors,
      .loop true (.runFunctor .failed), .loop true .endFunctors, .sendTest (.thread ()) 1 [1, 2, 3],
      .sendRun (.thread ()) .failed, .loop true (.poll []), .loop true .beginFunctors,
      .loop true (.runFunctor (.wrote 2))] (by decide +kernel)
  simp only [Prod.mk.injEq, Option.map_eq_some_iff] at hx
  obtain ⟨hfault, ⟨sc, hc, hbuffer⟩, hwire⟩ := hx
  exact ⟨p, sc, h, hfault, hc, hbuffer, hwire⟩

theorem served_connection_runs_short :
    ∃ (p : ServerState Unit Bool × (Nat → ConnHistory Unit Bool)) (sc : ServerConn Bool)
      (v : ConnState (Caller Unit Bool)), p.1.conns 1 = some sc ∧ sc.conn.outputBuffer_ = [3] ∧
      (tcpConnection (Caller Unit Bool)).Reachable v ∧ p.1.Shows 1 sc (p.2 1) v := by
  obtain ⟨p, sc, h, hfault, hc, hbuffer, -⟩ := served_short
  obtain ⟨v, hv⟩ := served_connection_runs h hfault hc
  exact ⟨p, sc, v, hc, hbuffer, hv⟩

/-- **Assertions of a server.** An assertion of a connection that fails in a run of a server, whatever its
loops, callers and other connections, fails in a run of the machine of one connection. -/
theorem served_fault (h : (servedConnections T L).Reachable p) {fault : ConnFault}
    (hfault : p.1.fault = some (.conn fault)) :
    ∃ v, (tcpConnection (Caller T L)).Reachable v ∧ v.fault = some fault := by
  have hserved := served_of_reachable h
  rwa [ServerState.Served, hfault] at hserved

/-- The peer closes; a message that passed the test in `send` before runs when the connection is destroyed,
and registers its channel once more; the hang-up finds the connection disconnected. -/
theorem served_fault_handleClose :
    ∃ p : ServerState Unit Bool × (Nat → ConnHistory Unit Bool), p.1.fault = some (.conn .handleClose) ∧
      ∃ v, (tcpConnection (Caller Unit Bool)).Reachable v ∧ v.fault = some .handleClose := by
  obtain ⟨p, h, hfault⟩ := served_run (fun p => p.1.fault) (some (.conn .handleClose))
    [.loop false (.poll []), .newConnection, .loop true (.poll []), .loop true .beginFunctors,
      .loop true (.runFunctor .failed), .loop true .endFunctors, .loop false .beginFunctors,
      .loop false .endFunctors, .loop true (.poll [(1, { pollin := true })]), .loop true .handleEvent,
      .sendTest (.thread ()) 1 [1, 2], .loop true (.callRead .eof), .loop true .eventDone,
      .loop true .beginFunctors, .loop true .endFunctors, .loop false (.poll []),
      .loop false .beginFunctors, .loop false (.runFunctor .failed), .loop true (.poll []),
      .loop true .beginFunctors, .loop true (.runFunctor .failed), .loop true .endDestroyed,
      .sendRun (.thread ()) .failed, .loop true .endFunctors, .loop true (.poll []),
      .loop true .beginFunctors, .loop true (.runFunctor (.wrote 1)), .loop true .endFunctors,
      .loop true (.poll [(1, { pollhup := true })]), .loop true .handleEvent, .loop true .callClose]
    (by decide +kernel)
  exact ⟨p, hfault, served_fault h hfault⟩

/-- The caller of a message, as the server has it. -/
theorem getD_eq_iff {l : L} {o : Caller T L} {q : Option (Caller T L)} (hq : q ≠ some (.loop l)) :
    q.getD (.loop l) = o ↔ q = o.seenFrom l := by
  unfold Caller.seenFrom
  cases q with
  | none =>
    split
    · next ho => exact ⟨fun _ => rfl, fun _ => ho.symm⟩
    · next ho => exact ⟨fun heq => absurd heq.symm ho, nofun⟩
  | some o' =>
    have hne : o' ≠ .loop l := fun heq => hq (congrArg some heq)
    split
    · next ho => exact ⟨fun heq => absurd (heq.trans ho) hne, nofun⟩
    · exact Option.some_inj.symm

/-- A connection that no `sendInLoop` waits for has none in its own queue. -/
theorem ServerState.Shows.queued_eq_nil {s : ServerState T L} {h : ConnHistory T L}
    {v : ConnState (Caller T L)} (hv : s.Shows c sc h v)
    (hnone : ∀ message, .sendInLoop c message ∉ (s.functors sc.loop_).toList) :
    ConnState.queued v.functors.toList = [] := by
  rw [ConnState.queued, List.filterMap_eq_nil_iff]
  intro g hg
  cases g with
  | sendInLoop t message =>
    have hmem : ServerFunctor.sendInLoop c message ∈ (v.functors.map (·.inServer c)).toList := by
      rw [BatchQueue.toList_map]
      exact List.mem_map.mpr ⟨_, hg, rfl⟩
    rw [hv.functors, BatchQueue.toList_filter] at hmem
    exact absurd (List.mem_filter.mp hmem).1 (hnone message)
  | _ => rfl

/-- **Output streams of a server.** In every run of a server, for each connection: the bytes the kernel took,
followed by `outputBuffer_`, are messages given to `sendInLoop`, whole; those of each caller are the first of
its accepted ones, in order, and all of them when none is in the queue of the connection's loop and the caller
is not in `send`. -/
theorem served_streams (h : (servedConnections T L).Reachable p) (hfault : p.1.fault = none)
    (hc : p.1.conns c = some sc) : ∃ ran : List (Caller T L × List UInt8),
      (p.2 c).wire ++ sc.conn.outputBuffer_ = (ran.map Prod.snd).flatten ∧
      ∀ o, (ran.filter (·.1 = o)).map Prod.snd <+: (p.2 c).accepted o ∧
        ((∀ message, .sendInLoop c message ∉ (p.1.functors sc.loop_).toList) →
          (∀ message, p.1.calls o ≠ .sending c message) →
          (ran.filter (·.1 = o)).map Prod.snd = (p.2 c).accepted o) := by
  obtain ⟨v, hreach, hv⟩ := (serving_of_reachable h hfault).shown c sc hc
  have hst := ConnState.streams_of_reachable hreach
  refine ⟨v.ran.map fun q => (q.1.getD (.loop sc.loop_), q.2), ?_, ?_⟩
  · rw [← hv.wire, ← hv.conn, hst.bytes, List.map_map]
    rfl
  · intro o
    have hran : ((v.ran.map fun q => (q.1.getD (.loop sc.loop_), q.2)).filter (·.1 = o)).map Prod.snd =
        messagesOf (o.seenFrom sc.loop_) v.ran := by
      rw [List.filter_map, List.map_map, messagesOf]
      congr 1
      apply List.filter_congr
      intro q hq
      have hown : q.1 ≠ some (.loop sc.loop_) := by
        intro heq
        have hmem := hst.accepted_ran hq
        rw [heq, hv.own] at hmem
        cases hmem
      exact decide_eq_decide.mpr (getD_eq_iff hown)
    have horder := hst.order (o.seenFrom sc.loop_)
    rw [hv.accepted, ConnState.stream, messagesOf_append, List.append_assoc] at horder
    rw [hran, horder]
    refine ⟨List.prefix_append .., ?_⟩
    intro hqueue hcall
    have hidle : (v.calls (o.seenFrom sc.loop_)).message = [] := by
      rw [hv.calls]
      cases hat : p.1.calls o with
      | sending d message =>
        have hd : d ≠ c := fun heq => hcall message (heq ▸ hat)
        rw [ServerCall.of, if_neg hd]
        rfl
      | idle => rfl
      | shutting d => rw [ServerCall.of]; split <;> rfl
      | shut d => rw [ServerCall.of]; split <;> rfl
    rw [hv.queued_eq_nil hqueue, hidle]
    simp [messagesOf]

theorem served_streams_short :
    ∃ (p : ServerState Unit Bool × (Nat → ConnHistory Unit Bool)) (sc : ServerConn Bool),
      p.1.conns 1 = some sc ∧ ∃ ran : List (Caller Unit Bool × List UInt8),
      [1, 2] ++ [3] = (ran.map Prod.snd).flatten ∧
      ∀ o, (ran.filter (·.1 = o)).map Prod.snd <+: (p.2 1).accepted o := by
  obtain ⟨p, sc, h, hfault, hc, hbuffer, hwire⟩ := served_short
  obtain ⟨ran, hbytes, horder⟩ := served_streams h hfault hc
  rw [hwire, hbuffer] at hbytes
  exact ⟨p, sc, hc, ran, hbytes, fun o => (horder o).1⟩

end Netfish
