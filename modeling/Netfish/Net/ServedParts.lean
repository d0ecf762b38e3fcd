import Netfish.Net.ServedConnection

/-!
# What a connection shows, part by part

How `Shows` goes through the parts of a server's step: the queue of the loop, its program counter, the
callers, a method of the connection and its effects, the removal from the server.
-/

set_option autoImplicit false

namespace Netfish

open Kit

universe u v

theorem ServerFunctor.isOf_conn {f : ServerFunctor} {c : Nat} (hf : f.isOf c = true) : f.conn = c := by
  cases f <;> first | cases hf | exact of_decide_eq_true hf

theorem ServerFunctor.isOf_home {L : Type v} {f : ServerFunctor} {c : Nat} (hf : f.isOf c = true) (loop : L)
    (sc : ServerConn L) : f.home loop sc = sc.loop_ := by
  cases f <;> first | cases hf | rfl

namespace ServerState

variable {T : Type u} {L : Type v} [DecidableEq L] {s s' t : ServerState T L} {c : Nat}
  {sc : ServerConn L} {h : ConnHistory T L} {v : ConnState (Caller T L)}

theorem removeConnection_setPc (l : L) (pc : IoLoopPc) :
    (s.removeConnection c sc).setPc l pc = (s.setPc l pc).removeConnection c sc := by
  by_cases hl : sc.loop_ = s.server.loop_
  · by_cases hn : (s.server.erase sc.name_).1 = 1
    · simp [removeConnection, ServerState.removeConnectionInLoop, ServerState.setPc, queueInLoop, hl, hn]
    · simp [removeConnection, ServerState.removeConnectionInLoop, ServerState.setPc, hl, hn]
  · simp [removeConnection, ServerState.setPc, queueInLoop, hl]

variable [DecidableEq T]

theorem seenFrom_inj {l : L} {o o' : Caller T L} (ho : o.seenFrom l = o'.seenFrom l) : o = o' := by
  unfold Caller.seenFrom at ho
  split at ho <;> split at ho <;> simp_all

theorem seenFrom_ne {l : L} (o : Caller T L) : o.seenFrom l ≠ some (.loop l) := by
  unfold Caller.seenFrom
  split
  · exact nofun
  · next ho => exact fun heq => ho (Option.some.inj heq)

/-! ## The parts of a state, one at a time -/

theorem Shows.unseen (hv : s.Shows c sc h v) (hu : Unseen c s s') (hfault : s'.fault = none) :
    s'.Shows c sc h v := by
  have hcount : ∀ l f, f.conn = c → s'.pending l f = s.pending l f := by
    intro l f hf
    have hq := congrArg (fun q => q.toList.count f) (hu.functors l)
    rwa [BatchQueue.count_filter (by simpa using hf), BatchQueue.count_filter (by simpa using hf)] at hq
  refine ⟨⟨?_, fun l hl => hu.pcs l ▸ hv.away l hl⟩, hv.conn, ?_, hv.pc.trans (hu.pcs _).symm,
    fun o => (hv.calls o).trans (hu.calls o).symm, (hcount _ _ rfl).trans hv.fresh, ?_, hv.noFault,
    hfault, hv.accepted, hv.own, hv.wire⟩
  · intro l f hf hfc
    rw [hu.loop]
    have hmem : 0 < s'.pending l f := List.count_pos_iff.mpr hf
    rw [hcount l f hfc] at hmem
    exact hv.placed l f (List.count_pos_iff.mp hmem) hfc
  · have himp : ∀ f : ServerFunctor, f.isOf c = true → decide (f.conn = c) = true :=
      fun f hf => by simpa using ServerFunctor.isOf_conn hf
    rw [← BatchQueue.filter_filter_of_imp himp, hu.functors, BatchQueue.filter_filter_of_imp himp]
    exact hv.functors
  · rw [hu.loop, hcount _ _ rfl]
    exact hv.removals

theorem Shows.setPc (hv : s.Shows c sc h v) (pc : IoLoopPc) :
    (s.setPc sc.loop_ pc).Shows c sc h { v with pc := pc.of c } where
  toHoused := by
    refine ⟨hv.placed, ?_⟩
    intro l hl
    simpa only [ServerState.setPc, Function.update_of_ne hl] using hv.away l hl
  conn := hv.conn
  functors := hv.functors
  pc := by simp only [ServerState.setPc, Function.update_self]
  calls := hv.calls
  fresh := hv.fresh
  removals := hv.removals
  noFault := hv.noFault
  running := hv.running
  accepted := hv.accepted
  own := hv.own
  wire := hv.wire

theorem Shows.setCall (hv : s.Shows c sc h v) (o : Caller T L) (call : ServerCall) :
    (s.setCall o call).Shows c sc h (v.setCall (o.seenFrom sc.loop_) (call.of c)) where
  toHoused := ⟨hv.placed, hv.away⟩
  conn := hv.conn
  functors := hv.functors
  pc := hv.pc
  calls o' := by
    simp only [ServerState.setCall, ConnState.setCall]
    by_cases ho : o' = o
    · subst ho
      rw [Function.update_self, Function.update_self]
    · rw [Function.update_of_ne ho, Function.update_of_ne fun heq => ho (seenFrom_inj heq)]
      exact hv.calls o'
  fresh := hv.fresh
  removals := hv.removals
  noFault := hv.noFault
  running := hv.running
  accepted := hv.accepted
  own := hv.own
  wire := hv.wire

theorem seenFrom_self (l : L) : (Caller.loop l : Caller T L).seenFrom l = none := if_pos rfl

/-- A call of user code in the connection's own loop returns. -/
theorem Shows.setIdle (hv : s.Shows c sc h v) {l : L} (hl : sc.loop_ = l) :
    (s.setCall (.loop l) .idle).Shows c sc h (v.setCall none .idle) := by
  have hcall := hv.setCall (.loop l) .idle
  rwa [hl, seenFrom_self] at hcall

theorem Shows.record (hv : s.Shows c sc h v) (o : Option (Caller T L)) (message : List UInt8) :
    s.Shows c sc h (v.record o message) :=
  ⟨hv.toHoused, hv.conn, hv.functors, hv.pc, hv.calls, hv.fresh, hv.removals, hv.noFault, hv.running, hv.accepted, hv.own,
    hv.wire⟩

theorem Shows.setConn (hv : s.Shows c sc h v) (conn : TcpConnection) :
    (s.setConn c { sc with conn }).Shows c { sc with conn } h { v with conn } where
  toHoused := by
    refine ⟨?_, hv.away⟩
    intro l f hf hfc
    have hhome := hv.placed l f hf hfc
    cases f <;> exact hhome
  conn := rfl
  functors := hv.functors
  pc := hv.pc
  calls := hv.calls
  fresh := hv.fresh
  removals := hv.removals
  noFault := hv.noFault
  running := hv.running
  accepted := hv.accepted
  own := hv.own
  wire := hv.wire

/-- The queue of the connection's loop changes in functors that the connection's own machine has. -/
theorem Shows.setFunctors (hv : s.Shows c sc h v) {q : BatchQueue ServerFunctor}
    {functors : BatchQueue (ConnFunctor (Caller T L))}
    (hq : functors.map (·.inServer c) = q.filter (·.isOf c))
    (hcount : ∀ f, f.conn = c → f.isOf c = false → q.toList.count f = s.pending sc.loop_ f) :
    (s.setFunctors sc.loop_ q).Shows c sc h { v with functors } where
  toHoused := by
    refine ⟨?_, hv.away⟩
    intro l f hf hfc
    by_cases hl : l = sc.loop_
    · subst hl
      simp only [ServerState.setFunctors, Function.update_self] at hf
      cases hof : f.isOf c with
      | true => exact ServerFunctor.isOf_home hof ..
      | false =>
        have hmem := List.count_pos_iff.mpr hf
        rw [hcount f hfc hof] at hmem
        exact hv.placed _ f (List.count_pos_iff.mp hmem) hfc
    · simp only [ServerState.setFunctors, Function.update_of_ne hl] at hf
      exact hv.placed l f hf hfc
  conn := hv.conn
  functors := by simpa only [ServerState.setFunctors, Function.update_self] using hq
  pc := hv.pc
  calls := hv.calls
  fresh := by
    rw [pending_setFunctors, if_pos rfl, hcount _ rfl rfl]
    exact hv.fresh
  removals := by
    show (s.setFunctors sc.loop_ q).pending s.server.loop_ _ = v.removals
    rw [pending_setFunctors, ← hv.removals]
    split
    · next hl => rw [hcount _ rfl rfl, hl]
    · rfl
  noFault := hv.noFault
  running := hv.running
  accepted := hv.accepted
  own := hv.own
  wire := hv.wire

/-- The next functor is one of the connection's own machine. -/
theorem Shows.pop (hv : s.Shows c sc h v) {f : ServerFunctor} {rest : BatchQueue ServerFunctor}
    (hnext : (s.functors sc.loop_).next = some (f, rest)) (hf : f.isOf c = true) :
    ∃ g functors, v.functors.next = some (g, functors) ∧ g.inServer c = f ∧
      (s.setFunctors sc.loop_ rest).Shows c sc h { v with functors } := by
  have hown := hv.functors
  have hfirst := BatchQueue.filter_next_of_pos (p := (·.isOf c)) hnext hf
  rw [← hown] at hfirst
  obtain ⟨g, functors, hg, hgf, hrest⟩ := BatchQueue.next_of_map hfirst
  refine ⟨g, functors, hg, hgf, hv.setFunctors hrest ?_⟩
  rintro f' - hf'
  refine BatchQueue.count_rest_of_ne hnext ?_
  rintro rfl
  cases hf.symm.trans hf'

theorem Shows.push (hv : s.Shows c sc h v) (g : ConnFunctor (Caller T L)) :
    (s.queueInLoop sc.loop_ (g.inServer c)).Shows c sc h { v with functors := v.functors.push g } := by
  have hg : (g.inServer c).isOf c = true := by cases g <;> exact decide_eq_true rfl
  refine hv.setFunctors ?_ ?_
  · rw [BatchQueue.map_push, hv.functors, BatchQueue.filter_push_of_pos hg]
  · rintro f - hf
    refine BatchQueue.count_push_of_ne ?_
    rintro rfl
    cases hg.symm.trans hf

/-- What a method that does not close leaves behind. -/
theorem Shows.perform (hv : s.Shows c sc h v) {conn : TcpConnection} {es : List ConnEffect}
    (hclose : .closeCallback ∉ es) :
    ((s.setConn c { sc with conn }).setFunctors sc.loop_
      ((s.functors sc.loop_).pushAll (completionsOf c es))).Shows c { sc with conn }
      { h with wire := h.wire ++ wireOf es } ({ v with conn }.perform es) := by
  have hmap : (Netfish.completionsOf es : List (ConnFunctor (Caller T L))).map (·.inServer c) =
      completionsOf c es := by
    simp only [Netfish.completionsOf, completionsOf, List.map_filterMap]
    congr 1
    ext e : 1
    cases e <;> rfl
  have hall : (completionsOf c es).filter (·.isOf c) = completionsOf c es := by
    rw [List.filter_eq_self]
    intro f hf
    obtain ⟨e, -, he⟩ := List.mem_filterMap.mp hf
    cases e <;> cases he
    exact decide_eq_true rfl
  have hset := @Shows.setFunctors _ _ _ _ _ _ _ _ _ (hv.setConn conn)
    ((s.functors sc.loop_).pushAll (completionsOf c es))
    (v.functors.pushAll (Netfish.completionsOf es)) ?_ ?_
  · rw [ConnState.perform_eq, List.count_eq_zero.mpr hclose]
    exact ⟨hset.toHoused, hset.conn, hset.functors, hset.pc, hset.calls, hset.fresh, hset.removals,
      hset.noFault, hset.running, hset.accepted, hset.own, congrArg (· ++ wireOf es) hset.wire⟩
  · rw [BatchQueue.map_pushAll, hmap, hv.functors, BatchQueue.filter_pushAll, hall]
  · intro f _ hf
    have hnone : (completionsOf c es).count f = 0 := by
      rw [List.count_eq_zero]
      intro hmem
      rw [← hall] at hmem
      cases (List.mem_filter.mp hmem).2.symm.trans hf
    show ((s.functors sc.loop_).pushAll (completionsOf c es)).toList.count f =
      (s.functors sc.loop_).toList.count f
    rw [BatchQueue.toList_pushAll, List.count_append, hnone, Nat.add_zero]

/-- The connection has come by steps of its own to a state that shows the server's, or to the assertion that
stopped the server; the assertion of `removeConnectionInLoop` is not the connection's. -/
def Follows (s' : ServerState T L) (c : Nat) (h : ConnHistory T L) (v : ConnState (Caller T L)) : Prop :=
  ∃ bs v', (tcpConnection (Caller T L)).run v bs = some v' ∧
    ((∃ sc, s'.conns c = some sc ∧ s'.Shows c sc h v') ∨
      (∃ fault, s'.fault = some (.conn fault) ∧ v'.fault = some fault) ∨ s'.fault = some .erase)

theorem Shows.follows (hv : s'.Shows c sc h v) (hc : s'.conns c = some sc) : s'.Follows c h v :=
  ⟨[], v, rfl, .inl ⟨sc, hc, hv⟩⟩

/-- One step first. -/
theorem Follows.cons {v' : ConnState (Caller T L)} {b : ConnAct (Caller T L)}
    (hstep : v.step b = some v') (hf : s'.Follows c h v') : s'.Follows c h v := by
  obtain ⟨bs, u, hrun, hend⟩ := hf
  exact ⟨b :: bs, u, Machine.run_cons_eq_some.mpr ⟨v', hstep, hrun⟩, hend⟩

/-- A method fails an assertion. -/
theorem Follows.stop {r : Except ConnFault (TcpConnection × List ConnEffect)} {fault : ConnFault}
    (hr : r = .error fault) {f : ServerState T L → ServerState T L}
    {g : ConnState (Caller T L) → ConnState (Caller T L)} {v' : ConnState (Caller T L)}
    {b : ConnAct (Caller T L)} (hstep : v.step b = some (v'.after r g)) :
    (s.after c sc r f).Follows c h v := by
  subst hr
  exact ⟨[b], _, (Machine.run_singleton ..).trans hstep, .inr (.inl ⟨fault, rfl, rfl⟩)⟩

/-- A method that does not close, with what its caller does then. -/
theorem Shows.after (hv : s.Shows c sc h v) {r : Except ConnFault (TcpConnection × List ConnEffect)}
    (hclose : ∀ conn es, r = .ok (conn, es) → .closeCallback ∉ es)
    {f : ServerState T L → ServerState T L}
    {g : ConnState (Caller T L) → ConnState (Caller T L)}
    (hfg : ∀ {t sc' h' v'}, sc'.loop_ = sc.loop_ → t.Shows c sc' h' v' → (f t).Shows c sc' h' (g v'))
    (hf : ∀ t, (f t).conns = t.conns) {v₀ : ConnState (Caller T L)} {b : ConnAct (Caller T L)}
    (hstep : v₀.step b = some (v.after r g)) :
    (s.after c sc r f).Follows c { h with wire := h.wire ++ writtenBy r } v₀ := by
  cases r with
  | error fault => exact Follows.stop rfl hstep
  | ok r =>
    obtain ⟨conn, es⟩ := r
    have hquiet := hclose conn es rfl
    have hshow := @Shows.perform _ _ _ _ _ _ _ _ _ hv conn es hquiet
    rw [after_quiet rfl hquiet]
    have hfollows := (hfg (by exact rfl) hshow).follows (by rw [hf]; exact Function.update_self ..)
    exact Follows.cons hstep hfollows

/-! ## The functors that come once in a life -/

/-- A queue changes in the functors that the connection's own machine does not have. -/
theorem Shows.setOnce (hv : s.Shows c sc h v) {l : L} {q : BatchQueue ServerFunctor}
    (hq : q.filter (·.isOf c) = (s.functors l).filter (·.isOf c))
    (hmem : ∀ f ∈ q.toList, f ∈ (s.functors l).toList ∨ f.home s.server.loop_ sc = l) {fresh : Bool}
    {removals : Nat}
    (hfresh : (s.setFunctors l q).pending sc.loop_ (.connectEstablished c) = fresh.toNat)
    (hremovals :
      (s.setFunctors l q).pending s.server.loop_ (.removeConnectionInLoop c) = removals) :
    (s.setFunctors l q).Shows c sc h { v with fresh, removals } := by
  refine ⟨⟨?_, hv.away⟩, hv.conn, ?_, hv.pc, hv.calls, hfresh, hremovals, hv.noFault, hv.running, hv.accepted, hv.own,
    hv.wire⟩
  · intro l' f hf hfc
    by_cases hl : l' = l
    · subst hl
      simp only [ServerState.setFunctors, Function.update_self] at hf
      rcases hmem f hf with hf | hhome
      · exact hv.placed _ f hf hfc
      · exact hhome
    · simp only [ServerState.setFunctors, Function.update_of_ne hl] at hf
      exact hv.placed l' f hf hfc
  · rw [hv.functors]
    by_cases hl : sc.loop_ = l
    · subst hl
      simp only [ServerState.setFunctors, Function.update_self]
      exact hq.symm
    · simp only [ServerState.setFunctors, Function.update_of_ne hl]

variable {rest : BatchQueue ServerFunctor}

/-- `connectEstablished` leaves the queue. -/
theorem Shows.popFresh (hv : s.Shows c sc h v)
    (hnext : (s.functors sc.loop_).next = some (.connectEstablished c, rest)) :
    v.fresh = true ∧ (s.setFunctors sc.loop_ rest).Shows c sc h { v with fresh := false } := by
  have hborn : v.fresh = true := by
    have hpos : 0 < s.pending sc.loop_ (.connectEstablished c) :=
      List.count_pos_iff.mpr (BatchQueue.next_mem hnext)
    rw [hv.fresh] at hpos
    by_contra hno
    rw [eq_false_of_ne_true hno] at hpos
    cases hpos
  refine ⟨hborn, hv.setOnce (BatchQueue.filter_next_of_neg hnext rfl)
    (fun f hf => .inl (BatchQueue.mem_of_mem_rest hnext hf)) ?_ ?_⟩
  · rw [pending_pop hnext, hv.fresh, hborn, if_pos ⟨rfl, rfl⟩]
    rfl
  · rw [pending_pop hnext, hv.removals, if_neg (by simp), Nat.sub_zero]

/-- `removeConnectionInLoop` leaves the queue of the server's loop. -/
theorem Shows.popRemoval (hv : s.Shows c sc h v)
    (hnext : (s.functors s.server.loop_).next = some (.removeConnectionInLoop c, rest)) :
    0 < v.removals ∧
      (s.setFunctors s.server.loop_ rest).Shows c sc h { v with removals := v.removals - 1 } := by
  have hpos : 0 < s.pending s.server.loop_ (.removeConnectionInLoop c) :=
    List.count_pos_iff.mpr (BatchQueue.next_mem hnext)
  rw [hv.removals] at hpos
  refine ⟨hpos, hv.setOnce (BatchQueue.filter_next_of_neg hnext rfl)
    (fun f hf => .inl (BatchQueue.mem_of_mem_rest hnext hf)) ?_ ?_⟩
  · rw [pending_pop hnext, hv.fresh, if_neg (by simp), Nat.sub_zero]
  · rw [pending_pop hnext, hv.removals, if_pos ⟨rfl, rfl⟩]

/-- `removeConnectionInLoop` enters the queue of the server's loop. -/
theorem Shows.pushRemoval (hv : s.Shows c sc h v) :
    (s.queueInLoop s.server.loop_ (.removeConnectionInLoop c)).Shows c sc h
      { v with removals := v.removals + 1 } := by
  refine hv.setOnce (BatchQueue.filter_push_of_neg rfl _) ?_ ?_ ?_
  · intro f hf
    rw [BatchQueue.toList_push] at hf
    rcases List.mem_append.mp hf with hf | hf
    · exact .inl hf
    · rw [List.mem_singleton.mp hf]
      exact .inr rfl
  · exact (pending_queueInLoop ..).trans (by rw [hv.fresh, if_neg (by simp), Nat.add_zero])
  · exact (pending_queueInLoop ..).trans (by rw [hv.removals, if_pos ⟨rfl, rfl⟩])

/-! ## Closing -/

/-- The answer of the owner to a removal. -/
theorem Shows.removeConnectionInLoop (hv : s.Shows c sc h v) :
    (s.removeConnectionInLoop c sc).fault = some .erase ∨
    (s.removeConnectionInLoop c sc).conns = s.conns ∧ (s.removeConnectionInLoop c sc).Shows c sc h
      { v with functors := v.functors.push .connectDestroyed } := by
  unfold ServerState.removeConnectionInLoop
  dsimp only
  split
  · have herase : ServerState.Shows { s with server := (s.server.erase sc.name_).2 } c sc h v :=
      ⟨⟨hv.placed, hv.away⟩, hv.conn, hv.functors, hv.pc, hv.calls, hv.fresh, hv.removals, hv.noFault,
        hv.running, hv.accepted, hv.own, hv.wire⟩
    exact .inr ⟨rfl, herase.push .connectDestroyed⟩
  · exact .inl rfl

/-- `closeCallback_` is called; in the server's own loop the answer comes at once. -/
theorem Shows.removeConnection (hv : s.Shows c sc h v) (hc : s.conns c = some sc) :
    (s.removeConnection c sc).Follows c h { v with removals := v.removals + 1 } := by
  unfold ServerState.removeConnection
  split
  · have hstep : ({ v with removals := v.removals + 1 } : ConnState (Caller T L)).step .queueDestroyed =
        some { v with functors := v.functors.push .connectDestroyed } := by
      simp [ConnState.step, hv.noFault]
    rcases hv.removeConnectionInLoop with hfault | ⟨hconns, hshow⟩
    · exact ⟨[], _, rfl, .inr (.inr hfault)⟩
    · exact Follows.cons hstep (hshow.follows (hconns ▸ hc))
  · exact hv.pushRemoval.follows hc

/-- A callback of the connection's channel, which may close. -/
theorem Shows.callback (hv : s.Shows c sc h v) {r : Except ConnFault (TcpConnection × List ConnEffect)}
    (heffects : ∀ conn es, r = .ok (conn, es) → es = [.closeCallback] ∨ .closeCallback ∉ es)
    {pc : IoLoopPc} {v₀ : ConnState (Caller T L)} {b : ConnAct (Caller T L)}
    (hstep : v₀.step b = some (v.after r fun v => { v with pc := pc.of c })) :
    (s.after c sc r (·.setPc sc.loop_ pc)).Follows c { h with wire := h.wire ++ writtenBy r } v₀ := by
  by_cases hquiet : ∀ conn es, r = .ok (conn, es) → .closeCallback ∉ es
  · exact hv.after (f := (·.setPc sc.loop_ pc)) hquiet (fun hl ht => hl ▸ ht.setPc pc) (fun _ => rfl) hstep
  · simp only [not_forall, not_not] at hquiet
    obtain ⟨conn, es, rfl, hclose⟩ := hquiet
    obtain rfl := (heffects conn es rfl).resolve_right (not_not.mpr hclose)
    have hcount : ((s.setConn c { sc with conn }).countClose c).Shows c { sc with conn } h
        { v with conn } := by
      have hset := hv.setConn conn
      exact ⟨⟨hset.placed, hset.away⟩, hset.conn, hset.functors, hset.pc, hset.calls, hset.fresh,
        hset.removals, hset.noFault, hset.running, hset.accepted, hset.own, hset.wire⟩
    have heq : s.after c sc (.ok (conn, [.closeCallback])) (·.setPc sc.loop_ pc) =
        (((s.setConn c { sc with conn }).countClose c).setPc sc.loop_ pc).removeConnection c
          { sc with conn } := removeConnection_setPc ..
    have hremoved := (hcount.setPc pc).removeConnection (Function.update_self ..)
    rw [heq]
    refine Follows.cons hstep ?_
    rw [show writtenBy (.ok (conn, [.closeCallback])) = [] from rfl, List.append_nil]
    exact hremoved

end ServerState

end Netfish
