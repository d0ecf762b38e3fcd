import Netfish.Net.ServedParts
import Netfish.Net.Stream

/-!
# The steps of a server, seen from a connection

Each step of a server that is about a connection is some steps of the machine `tcpConnection`: one
mostly, and one more where the server answers a close at once. A turn of the loop is a step for all its
connections.
-/

set_option autoImplicit false

namespace Netfish

open Kit

universe u v

namespace ServerState

-- each lemma runs one step of the connection's own machine beside one of the server
attribute [local simp] ConnState.step ConnState.loopStep ConnState.callStep note accepts writes

variable {T : Type u} {L : Type v} [DecidableEq L] [DecidableEq T] {s s' : ServerState T L} {c : Nat}
  {sc : ServerConn L} {h : ConnHistory T L} {v : ConnState (Caller T L)}

theorem Shows.idle (hv : s.Shows c sc h v) (hidle : s.calls (.loop sc.loop_) = .idle) :
    v.calls none = .idle := by
  have hcall := hv.calls (.loop sc.loop_)
  rw [hidle, Caller.seenFrom, if_pos rfl] at hcall
  exact hcall

theorem Shows.fault_isSome (hv : s.Shows c sc h v) : v.fault.isSome = false := by
  rw [hv.noFault]
  rfl

theorem Shows.loop_eq (hv : s.Shows c sc h v) {l : L} (hpc : ((s.pcs l).of c).away = false) :
    l = sc.loop_ := by
  by_contra hl
  cases (hv.away l hl).symm.trans hpc

theorem of_event_self {revents : Events} {todo : List ChannelCallback} {inMessage : Bool}
    {active : List (Nat × Events)} :
    (IoLoopPc.event c revents todo inMessage active).of c = .event todo inMessage :=
  if_pos rfl

theorem writtenBy_eq_nil {r : Except ConnFault (TcpConnection × List ConnEffect)}
    (hr : ∀ conn es, r = .ok (conn, es) → wireOf es = []) : writtenBy r = [] := by
  cases r with
  | error fault => rfl
  | ok r => exact hr r.1 r.2 rfl

variable {l : L} {revents : Events} {cb : ChannelCallback} {todo : List ChannelCallback}
  {inMessage : Bool} {active : List (Nat × Events)}

/-- A callback of the connection's channel. -/
theorem Shows.event (hv : s.Shows c sc h v) (hpc : s.pcs l = .event c revents (cb :: todo) inMessage active)
    (hidle : s.calls (.loop l) = .idle) {r : Except ConnFault (TcpConnection × List ConnEffect)}
    (heffects : ∀ conn es, r = .ok (conn, es) → es = [.closeCallback] ∨ .closeCallback ∉ es)
    {m : Bool} {b : ConnAct (Caller T L)}
    (hstep : v.fault = none → v.calls none = .idle → v.pc = .event (cb :: todo) inMessage →
      v.conn = sc.conn → v.step b = some (v.after r fun v => { v with pc := .event todo m })) :
    (s.after c sc r (·.setPc l (.event c revents todo m active))).Follows c
      { h with wire := h.wire ++ writtenBy r } v := by
  have hl : l = sc.loop_ := hv.loop_eq (by rw [hpc, of_event_self]; rfl)
  subst hl
  refine hv.callback heffects (b := b) ?_
  rw [of_event_self]
  refine hstep hv.noFault (hv.idle hidle) ?_ hv.conn
  rw [hv.pc, hpc, of_event_self]

/-- One functor of the batch, of the connection's own machine. -/
theorem Shows.functor (hv : s.Shows c sc h v) (hpc : s.pcs l = .batch) (hidle : s.calls (.loop l) = .idle)
    {f : ServerFunctor} {rest : BatchQueue ServerFunctor} (hnext : (s.functors l).next = some (f, rest))
    (hf : f.isOf c = true) : l = sc.loop_ ∧ ∃ g v₁, g.inServer c = f ∧ v₁.conn = sc.conn ∧
      (∀ w, v.step (.runFunctor w) = v₁.runFunctor w g) ∧ (s.setFunctors l rest).Shows c sc h v₁ := by
  have hl : l = sc.loop_ :=
    (hv.placed l f (BatchQueue.next_mem hnext) (ServerFunctor.isOf_conn hf)).symm.trans
      (ServerFunctor.isOf_home hf ..)
  subst hl
  obtain ⟨g, functors, hg, hgf, hpop⟩ := hv.pop hnext hf
  have hat : v.pc = .batch := by rw [hv.pc, hpc]; rfl
  refine ⟨rfl, g, { v with functors }, hgf, hv.conn, ?_, hpop⟩
  intro w
  simp [hv.noFault, hv.idle hidle, hat, hg]

theorem Shows.handleEvent (hv : s.Shows c sc h v) (hc : s.conns c = some sc)
    (hidle : s.calls (.loop l) = .idle) (hpc : s.pcs l = .handlers ((c, revents) :: active)) :
    (s.setPc l (.event c revents (Channel.handleEvent revents) false active)).Follows c h v := by
  have hof : (s.pcs l).of c = .active revents := by
    rw [hpc, IoLoopPc.of, List.lookup_cons_self]
    rfl
  have hl : l = sc.loop_ := hv.loop_eq (by rw [hof]; rfl)
  subst hl
  have hat : v.pc = .active revents := hv.pc.trans hof
  refine Follows.cons (b := .handleEvent) ?_ ((hv.setPc _).follows hc)
  simp [hv.noFault, hv.idle hidle, hat, of_event_self]

theorem Shows.eventDone (hv : s.Shows c sc h v) (hc : s.conns c = some sc)
    (hnodup : (s.pcs l).channels.Nodup) (hidle : s.calls (.loop l) = .idle)
    (hpc : s.pcs l = .event c revents [] inMessage active) :
    (s.setPc l (.handlers active)).Follows c h v := by
  have hof : (s.pcs l).of c = .event [] inMessage := by rw [hpc, of_event_self]
  have hl : l = sc.loop_ := hv.loop_eq (by rw [hof]; rfl)
  subst hl
  have hat : v.pc = .event [] inMessage := hv.pc.trans hof
  have hnone : (IoLoopPc.handlers active).of c = .idle := by
    rw [hpc] at hnodup
    have hnot := (List.nodup_cons.mp hnodup).1
    rw [IoLoopPc.of, List.lookup_eq_none_iff.mpr]
    · rfl
    · intro p hp
      exact bne_iff_ne.mpr fun heq => hnot (heq ▸ List.mem_map_of_mem hp)
  refine Follows.cons (b := .eventDone) ?_ ((hv.setPc _).follows hc)
  simp [hv.noFault, hv.idle hidle, hat, hnone]

/-- `handleClose`, called from `handleEvent`. -/
theorem Shows.callClose (hv : s.Shows c sc h v) (hidle : s.calls (.loop l) = .idle)
    (hpc : s.pcs l = .event c revents (.close :: todo) inMessage active) :
    (s.after c sc sc.conn.handleClose (·.setPc l (.event c revents todo false active))).Follows c h v := by
  have hwire : writtenBy sc.conn.handleClose = [] :=
    writtenBy_eq_nil fun _ _ hr => by rw [handleClose_effects hr]; rfl
  have hf := hv.event hpc hidle (r := sc.conn.handleClose) (b := .callClose) (m := false)
    (fun _ _ hr => .inl (handleClose_effects hr)) ?_
  · rw [hwire, List.append_nil] at hf
    exact hf
  · intro hno hcalls hat hconn
    simp [hno, hcalls, hat, hconn]

theorem Shows.callError (hv : s.Shows c sc h v) (hidle : s.calls (.loop l) = .idle)
    (hpc : s.pcs l = .event c revents (.error :: todo) inMessage active) :
    (s.after c sc sc.conn.handleError (·.setPc l (.event c revents todo false active))).Follows c h v := by
  have hf := hv.event hpc hidle (r := sc.conn.handleError) (b := .callError) (m := false) ?_ ?_
  · rw [show writtenBy sc.conn.handleError = [] from rfl, List.append_nil] at hf
    exact hf
  · intro conn es hr
    cases hr
    exact .inr List.not_mem_nil
  · intro hno hcalls hat hconn
    simp [hno, hcalls, hat, hconn]

theorem Shows.callRead (hv : s.Shows c sc h v) (hidle : s.calls (.loop l) = .idle) {r : ReadResult}
    (hpc : s.pcs l = .event c revents (.read :: todo) inMessage active) :
    (s.after c sc (sc.conn.handleRead r) (·.setPc l
      (.event c revents todo (r = .data && sc.conn.messageCallback_) active))).Follows c h v := by
  have hwire : writtenBy (sc.conn.handleRead r) = [] := by
    apply writtenBy_eq_nil
    intro conn es hr
    cases r with
    | eof => rw [handleClose_effects hr]; rfl
    | error => cases hr; rfl
    | data => cases hr; split <;> rfl
  have hf := hv.event hpc hidle (r := sc.conn.handleRead r) (b := .callRead r)
    (m := r = .data && sc.conn.messageCallback_) (fun _ _ => handleRead_effects) ?_
  · rw [hwire, List.append_nil] at hf
    exact hf
  · intro hno hcalls hat hconn
    have hstep : v.step (.callRead r) = some (v.after (sc.conn.handleRead r) fun v =>
        { v with pc := .event todo (r = .data && v.conn.messageCallback_) }) := by
      simp [hno, hcalls, hat, hconn]
    rw [hstep]
    cases r with
    | data =>
      simp only [TcpConnection.handleRead, ConnState.after]
      split <;> rfl
    | _ => rfl

theorem Shows.callWrite (hv : s.Shows c sc h v) (hc : s.conns c = some sc)
    (hidle : s.calls (.loop l) = .idle) {w : WriteResult}
    (hpc : s.pcs l = .event c revents (.write :: todo) inMessage active)
    (hw : w.Within sc.conn.outputBuffer_.length) :
    (s.after c sc (sc.conn.handleWrite w) (·.setPc l (.event c revents todo false active))).Follows c
      (s.note (.loop l (.callWrite w)) c h) v := by
  have hnote : s.note (.loop l (.callWrite w)) c h =
      { h with wire := h.wire ++ writtenBy (sc.conn.handleWrite w) } := by
    simp [hpc, hc]
  rw [hnote]
  refine hv.event hpc hidle (b := .callWrite w) ?_ ?_
  · intro conn es hr
    refine .inr fun hmem => ?_
    cases TcpConnection.handleWrite_output hr _ hmem
  · intro hno hcalls hat hconn
    simp [hno, hcalls, hat, hconn, hw]

/-! ## The functors -/

section

variable {rest : BatchQueue ServerFunctor} {message : List UInt8}

/-- `connectEstablished`. -/
theorem Shows.establish (hv : s.Shows c sc h v) (hpc : s.pcs l = .batch)
    (hidle : s.calls (.loop l) = .idle)
    (hnext : (s.functors l).next = some (.connectEstablished c, rest)) (w : WriteResult) :
    ((s.setFunctors l rest).after c sc sc.conn.connectEstablished id).Follows c
      (s.note (.loop l (.runFunctor w)) c h) v := by
  have hl : sc.loop_ = l := hv.placed l _ (BatchQueue.next_mem hnext) rfl
  subst hl
  obtain ⟨hfresh, hpop⟩ := hv.popFresh hnext
  have hat : v.pc = .batch := by rw [hv.pc, hpc]; rfl
  have hnote : s.note (.loop sc.loop_ (.runFunctor w)) c h =
      { h with wire := h.wire ++ writtenBy sc.conn.connectEstablished } := by
    rw [writtenBy_eq_nil fun _ _ hr => by rw [connectEstablished_effects hr]; rfl, List.append_nil]
    simp [hnext]
  have hstep : v.step .connectEstablished =
      some (v.after sc.conn.connectEstablished fun v => { v with fresh := false }) := by
    simp [hv.noFault, hv.idle hidle, hat, hfresh, hv.conn]
  rw [hnote]
  cases hr : sc.conn.connectEstablished with
  | error fault =>
    rw [hr] at hstep
    exact Follows.stop rfl hstep
  | ok r =>
    obtain ⟨conn, es⟩ := r
    obtain rfl := connectEstablished_effects hr
    refine hpop.after (f := id) (g := id) ?_ (fun _ ht => ht) (fun _ => rfl) (hstep.trans ?_)
    · intro _ _ hr
      cases hr
      simp
    · rw [hr]
      rfl

theorem Shows.send (hv : s.Shows c sc h v) (hc : s.conns c = some sc) (hpc : s.pcs l = .batch)
    (hidle : s.calls (.loop l) = .idle)
    (hnext : (s.functors l).next = some (.sendInLoop c message, rest)) {w : WriteResult}
    (hw : w.Within message.length) :
    ((s.setFunctors l rest).after c sc (sc.conn.sendInLoop message w) id).Follows c
      (s.note (.loop l (.runFunctor w)) c h) v := by
  obtain ⟨rfl, g, v₁, hg, hconn₁, hrun, hpop⟩ := hv.functor hpc hidle hnext (decide_eq_true rfl)
  have hnote : s.note (.loop sc.loop_ (.runFunctor w)) c h =
      { h with wire := h.wire ++ writtenBy (sc.conn.sendInLoop message w) } := by
    simp [hnext, hc]
  cases g with
  | sendInLoop t message' =>
    cases hg
    rw [hnote]
    refine hpop.after (f := id) (g := (·.record (some t) message)) (b := .runFunctor w)
      (fun _ _ hr hmem => by cases TcpConnection.sendInLoop_output hr _ hmem)
      (fun _ ht => ht.record (some t) message) (fun _ => rfl) ?_
    rw [hrun, ConnState.runFunctor, if_pos hw, hconn₁]
  | _ => cases hg

theorem Shows.shutdown (hv : s.Shows c sc h v) (hpc : s.pcs l = .batch)
    (hidle : s.calls (.loop l) = .idle)
    (hnext : (s.functors l).next = some (.shutdownInLoop c, rest)) (w : WriteResult) :
    ((s.setFunctors l rest).after c sc (.ok (sc.conn, sc.conn.shutdownInLoop)) id).Follows c
      (s.note (.loop l (.runFunctor w)) c h) v := by
  obtain ⟨rfl, g, v₁, hg, hconn₁, hrun, hpop⟩ := hv.functor hpc hidle hnext (decide_eq_true rfl)
  have hnote : s.note (.loop sc.loop_ (.runFunctor w)) c h =
      { h with wire := h.wire ++ writtenBy (.ok (sc.conn, sc.conn.shutdownInLoop)) } := by
    rw [show writtenBy (.ok (sc.conn, sc.conn.shutdownInLoop)) = [] from
      ConnState.wireOf_shutdownInLoop sc.conn, List.append_nil]
    simp [hnext]
  cases g with
  | shutdownInLoop =>
    rw [hnote]
    refine hpop.after (f := id) (g := id) (b := .runFunctor w) (fun _ _ hr hmem => by
      cases hr
      cases sc.conn.shutdownInLoop_output _ hmem) (fun _ ht => ht) (fun _ => rfl) ?_
    rw [hrun, ConnState.runFunctor, ← hconn₁]
    rfl
  | _ => cases hg

theorem Shows.writeComplete (hv : s.Shows c sc h v) (hc : s.conns c = some sc) (hpc : s.pcs l = .batch)
    (hidle : s.calls (.loop l) = .idle)
    (hnext : (s.functors l).next = some (.writeComplete c, rest)) (w : WriteResult) :
    (s.setFunctors l rest).Follows c (s.note (.loop l (.runFunctor w)) c h) v := by
  obtain ⟨rfl, g, v₁, hg, hconn₁, hrun, hpop⟩ := hv.functor hpc hidle hnext (decide_eq_true rfl)
  have hnote : s.note (.loop sc.loop_ (.runFunctor w)) c h = h := by
    simp [hnext]
  cases g with
  | writeComplete =>
    rw [hnote]
    refine Follows.cons (b := .runFunctor w) ?_ (hpop.follows hc)
    rw [hrun, ConnState.runFunctor]
  | _ => cases hg

/-- `removeConnectionInLoop`: the owner answers a close. -/
theorem Shows.remove (hv : s.Shows c sc h v) (hc : s.conns c = some sc)
    (hnext : (s.functors l).next = some (.removeConnectionInLoop c, rest)) (w : WriteResult) :
    ((s.setFunctors l rest).removeConnectionInLoop c sc).Follows c
      (s.note (.loop l (.runFunctor w)) c h) v := by
  have hl : s.server.loop_ = l := hv.placed l _ (BatchQueue.next_mem hnext) rfl
  subst hl
  have hnote : s.note (.loop s.server.loop_ (.runFunctor w)) c h = h := by
    simp [hnext]
  obtain ⟨hpos, hpop⟩ := hv.popRemoval hnext
  rw [hnote]
  rcases hpop.removeConnectionInLoop with hfault | ⟨hconns, hshow⟩
  · exact ⟨[], v, rfl, .inr (.inr hfault)⟩
  · refine Follows.cons (b := .queueDestroyed) ?_ (hshow.follows (hconns ▸ hc))
    simp [ConnState.step, hv.noFault, hpos]

/-- `connectDestroyed` up to its callback. -/
theorem Shows.destroy (hv : s.Shows c sc h v) (hpc : s.pcs l = .batch)
    (hidle : s.calls (.loop l) = .idle)
    (hnext : (s.functors l).next = some (.connectDestroyed c, rest)) (w : WriteResult) :
    (((s.setFunctors l rest).countDestroy c).after c sc sc.conn.beginDestroyed
      (·.setPc l (.destroying c))).Follows c (s.note (.loop l (.runFunctor w)) c h) v := by
  obtain ⟨rfl, g, v₁, hg, hconn₁, hrun, hpop⟩ := hv.functor hpc hidle hnext (decide_eq_true rfl)
  have hcount : ((s.setFunctors sc.loop_ rest).countDestroy c).Shows c sc h v₁ :=
    ⟨⟨hpop.placed, hpop.away⟩, hpop.conn, hpop.functors, hpop.pc, hpop.calls, hpop.fresh, hpop.removals,
      hpop.noFault, hpop.running, hpop.accepted, hpop.own, hpop.wire⟩
  have hnote : s.note (.loop sc.loop_ (.runFunctor w)) c h =
      { h with wire := h.wire ++ writtenBy sc.conn.beginDestroyed } := by
    rw [writtenBy_eq_nil fun _ _ hr => by rw [beginDestroyed_effects hr]; rfl, List.append_nil]
    simp [hnext]
  cases g with
  | connectDestroyed =>
    rw [hnote]
    refine hcount.after (f := (·.setPc sc.loop_ (.destroying c))) (b := .runFunctor w)
      (g := fun v => { v with pc := (IoLoopPc.destroying c).of c })
      (fun _ _ hr => by rw [beginDestroyed_effects hr]; simp) (fun hl ht => hl ▸ ht.setPc _)
      (fun _ => rfl) ?_
    rw [hrun, ConnState.runFunctor, hconn₁, show (IoLoopPc.destroying c).of c = .destroying from if_pos rfl]
  | _ => cases hg

end

/-- `connectDestroyed` after its callback. -/
theorem Shows.endDestroyed (hv : s.Shows c sc h v) (hidle : s.calls (.loop l) = .idle)
    (hpc : s.pcs l = .destroying c) :
    (s.after c sc (sc.conn.endDestroyed.map (·, [])) (·.setPc l .batch)).Follows c
      (s.note (.loop l .endDestroyed) c h) v := by
  have hof : (s.pcs l).of c = .destroying := by rw [hpc]; exact if_pos rfl
  have hl : l = sc.loop_ := hv.loop_eq (by rw [hof]; rfl)
  subst hl
  have hat : v.pc = .destroying := hv.pc.trans hof
  have heffects : ∀ conn es, sc.conn.endDestroyed.map (·, ([] : List ConnEffect)) = .ok (conn, es) →
      es = [] := by
    intro conn es hr
    cases hend : sc.conn.endDestroyed with
    | error fault => rw [hend] at hr; cases hr
    | ok conn' => rw [hend] at hr; cases hr; rfl
  have hnote : s.note (.loop sc.loop_ .endDestroyed) c h =
      { h with wire := h.wire ++ writtenBy (sc.conn.endDestroyed.map (·, [])) } := by
    rw [writtenBy_eq_nil fun _ _ hr => by rw [heffects _ _ hr]; rfl, List.append_nil]
    rfl
  rw [hnote]
  refine hv.after (f := (·.setPc sc.loop_ .batch)) (g := fun v => { v with pc := .batch })
    (b := .endDestroyed) (fun _ _ hr => by rw [heffects _ _ hr]; simp)
    (fun hl ht => hl ▸ ht.setPc .batch) (fun _ => rfl) ?_
  simp [hv.noFault, hv.idle hidle, hat, hv.conn]

/-- A step of the thread of a loop that is about the connection. -/
theorem LoopMoves.shows {a : IoLoopStep} (hmove : s.LoopMoves l a s') (hv : s.Shows c sc h v)
    (hc : s.conns c = some sc) (hnodup : (s.pcs l).channels.Nodup) (hidle : s.calls (.loop l) = .idle)
    (hsub : s.loopSubject l a = some c) :
    s'.Follows c (s.note (.loop l a) c h) v := by
  cases hmove with
  | poll | beginFunctors | endFunctors => cases hsub
  | @handleEvent d revents active hpc =>
    obtain rfl : c = d := (Option.some.inj (conn_of_pc hpc hsub)).symm
    exact hv.handleEvent hc hidle hpc
  | @eventDone d revents inMessage active hpc =>
    obtain rfl : c = d := (Option.some.inj (conn_of_pc hpc hsub)).symm
    exact hv.eventDone hc hnodup hidle hpc
  | @callClose d revents todo inMessage active sd hpc hd =>
    obtain rfl : c = d := (Option.some.inj (conn_of_pc hpc hsub)).symm
    cases hc.symm.trans hd
    exact hv.callClose hidle hpc
  | @callError d revents todo inMessage active sd hpc hd =>
    obtain rfl : c = d := (Option.some.inj (conn_of_pc hpc hsub)).symm
    cases hc.symm.trans hd
    exact hv.callError hidle hpc
  | @callRead r d revents todo inMessage active sd hpc hd =>
    obtain rfl : c = d := (Option.some.inj (conn_of_pc hpc hsub)).symm
    cases hc.symm.trans hd
    exact hv.callRead hidle hpc
  | @callWrite w d revents todo inMessage active sd hpc hd hw =>
    obtain rfl : c = d := (Option.some.inj (conn_of_pc hpc hsub)).symm
    cases hc.symm.trans hd
    exact hv.callWrite hc hidle hpc hw
  | @endDestroyed d sd hpc hd =>
    obtain rfl : c = d := (Option.some.inj (conn_of_pc hpc hsub)).symm
    cases hc.symm.trans hd
    exact hv.endDestroyed hidle hpc
  | @establish w d rest sd hpc hnext hd =>
    obtain rfl : c = d := (Option.some.inj (conn_of_functor hnext hsub)).symm
    cases hc.symm.trans hd
    exact hv.establish hpc hidle hnext w
  | @send w d message rest sd hpc hnext hd hw =>
    obtain rfl : c = d := (Option.some.inj (conn_of_functor hnext hsub)).symm
    cases hc.symm.trans hd
    exact hv.send hc hpc hidle hnext hw
  | @shutdown w d rest sd hpc hnext hd =>
    obtain rfl : c = d := (Option.some.inj (conn_of_functor hnext hsub)).symm
    cases hc.symm.trans hd
    exact hv.shutdown hpc hidle hnext w
  | @writeComplete w d rest sd hpc hnext hd =>
    obtain rfl : c = d := (Option.some.inj (conn_of_functor hnext hsub)).symm
    cases hc.symm.trans hd
    exact hv.writeComplete hc hpc hidle hnext w
  | @remove w d rest sd hpc hnext hd =>
    obtain rfl : c = d := (Option.some.inj (conn_of_functor hnext hsub)).symm
    cases hc.symm.trans hd
    exact hv.remove hc hnext w
  | @destroy w d rest sd hpc hnext hd =>
    obtain rfl : c = d := (Option.some.inj (conn_of_functor hnext hsub)).symm
    cases hc.symm.trans hd
    exact hv.destroy hpc hidle hnext w

theorem of_inUserCode {pc : IoLoopPc} (hpc : pc.inUserCode = true) : (pc.of c).inUserCode = true := by
  have hlookup : ∀ o : Option Events, (o.elim ConnPc.idle ConnPc.active).inUserCode = true :=
    fun o => by cases o <;> rfl
  cases pc with
  | idle => rfl
  | handlers active => exact hlookup _
  | event d revents todo inMessage active =>
    by_cases hd : d = c
    · rw [hd, of_event_self]
      exact hpc
    · rw [of_event_ne hd]
      exact hlookup _
  | batch => rfl
  | destroying d =>
    rw [IoLoopPc.of]
    split <;> rfl

theorem Shows.setPcElsewhere (hv : s.Shows c sc h v) (hl : sc.loop_ ≠ l) {pc : IoLoopPc}
    (haway : (pc.of c).away = true) : (s.setPc l pc).Shows c sc h v where
  toHoused := by
    refine ⟨hv.placed, ?_⟩
    intro l' hl'
    by_cases heq : l' = l
    · subst heq
      simpa only [ServerState.setPc, Function.update_self] using haway
    · simpa only [ServerState.setPc, Function.update_of_ne heq] using hv.away l' hl'
  conn := hv.conn
  functors := hv.functors
  pc := by simpa only [ServerState.setPc, Function.update_of_ne hl] using hv.pc
  calls := hv.calls
  fresh := hv.fresh
  removals := hv.removals
  noFault := hv.noFault
  running := hv.running
  accepted := hv.accepted
  own := hv.own
  wire := hv.wire

theorem Shows.poll (hv : s.Shows c sc h v) (hc : s.conns c = some sc) (hidle : s.calls (.loop l) = .idle)
    (hpc : s.pcs l = .idle) (hrep : active.all (s.MayReport l) = true) :
    (s.setPc l (.handlers active)).Follows c h v := by
  cases hlookup : active.lookup c with
  | none =>
    refine (hv.unseen ((Unseen.refl c s).setPc ?_) hv.running).follows hc
    show (active.lookup c).elim ConnPc.idle ConnPc.active = (s.pcs l).of c
    rw [hlookup, hpc]
    rfl
  | some revents =>
    obtain ⟨before, after, hactive, -⟩ := List.lookup_eq_some_iff.mp hlookup
    have hmem : (c, revents) ∈ active := by rw [hactive]; simp
    obtain ⟨sd, hd, hsd⟩ := (Option.any_eq_true ..).mp (List.all_eq_true.mp hrep _ hmem)
    cases hc.symm.trans hd
    obtain ⟨hl, hmask⟩ := Bool.and_eq_true_iff.mp hsd
    obtain ⟨mask, hwatched, hmask⟩ := (Option.any_eq_true ..).mp hmask
    obtain rfl : sc.loop_ = l := of_decide_eq_true hl
    have hat : v.pc = .idle := by rw [hv.pc, hpc]; rfl
    have hof : (IoLoopPc.handlers active).of c = .active revents := by rw [IoLoopPc.of, hlookup]; rfl
    refine Follows.cons (b := .poll revents) ?_ ((hv.setPc (.handlers active)).follows hc)
    simp [hv.noFault, hv.idle hidle, hat, hv.conn, hwatched,
      of_decide_eq_true hmask, hof]

/-- `doPendingFunctors` takes the queue. -/
theorem Shows.beginFunctors (hv : s.Shows c sc h v) (hc : s.conns c = some sc)
    (hidle : s.calls (.loop l) = .idle) (hpc : s.pcs l = .handlers [])
    (hbatch : (s.functors l).batch = []) :
    ((s.setFunctors l (s.functors l).swap).setPc l .batch).Follows c h v := by
  have hlist := BatchQueue.toList_swap hbatch
  by_cases hl : sc.loop_ = l
  · subst hl
    have hswap := @Shows.setFunctors _ _ _ _ _ _ _ _ _ hv (s.functors sc.loop_).swap v.functors.swap
      (by rw [BatchQueue.map_swap, hv.functors, BatchQueue.filter_swap]) (fun f _ _ => by rw [hlist]; rfl)
    refine Follows.cons (b := .beginFunctors) ?_ ((hswap.setPc .batch).follows hc)
    have hat : v.pc = .idle := by rw [hv.pc, hpc]; rfl
    simp [hv.noFault, hv.idle hidle, hat, IoLoopPc.of]
  · -- of the connection another loop has only removals
    have hnone : (s.functors l).pending.filter (·.isOf c) = [] := by
      rw [List.filter_eq_nil_iff]
      intro f hf hof
      have hmem : f ∈ (s.functors l).toList := List.mem_append_right _ hf
      exact hl ((ServerFunctor.isOf_home hof ..).symm.trans
        (hv.placed l f hmem (ServerFunctor.isOf_conn hof)))
    have hpending : ∀ l' f, (s.setFunctors l (s.functors l).swap).pending l' f = s.pending l' f := by
      intro l' f
      rw [pending_setFunctors, hlist]
      split
      · next heq => rw [heq]; rfl
      · rfl
    have hswap := hv.setOnce (l := l) (q := (s.functors l).swap)
      (by simp only [BatchQueue.filter, BatchQueue.swap, hbatch, hnone, List.filter_nil])
      (fun f hf => .inl (hlist ▸ hf)) ((hpending ..).trans hv.fresh) ((hpending ..).trans hv.removals)
    exact (hswap.setPcElsewhere hl rfl).follows hc

theorem Shows.endFunctors (hv : s.Shows c sc h v) (hc : s.conns c = some sc)
    (hidle : s.calls (.loop l) = .idle) (hpc : s.pcs l = .batch) (hbatch : (s.functors l).batch = []) :
    (s.setPc l .idle).Follows c h v := by
  by_cases hl : sc.loop_ = l
  · subst hl
    have hat : v.pc = .batch := by rw [hv.pc, hpc]; rfl
    have hempty : v.functors.batch = [] := by
      have hmap := congrArg BatchQueue.batch hv.functors
      rw [BatchQueue.filter, hbatch] at hmap
      exact List.map_eq_nil_iff.mp hmap
    refine Follows.cons (b := .endFunctors) ?_ ((hv.setPc .idle).follows hc)
    simp [hv.noFault, hv.idle hidle, hat, hempty, IoLoopPc.of]
  · exact (hv.setPcElsewhere hl rfl).follows hc

/-- A step that all connections of the loop see. -/
theorem LoopMoves.turn {a : IoLoopStep} (hmove : s.LoopMoves l a s') (hv : s.Shows c sc h v)
    (hc : s.conns c = some sc) (hidle : s.calls (.loop l) = .idle)
    (hbatch : s.pcs l = .handlers [] → (s.functors l).batch = []) (hsub : s.loopSubject l a = none) :
    s'.Follows c h v := by
  cases hmove with
  | poll hpc _ hrep => exact hv.poll hc hidle hpc hrep
  | beginFunctors hpc => exact hv.beginFunctors hc hidle hpc (hbatch hpc)
  | endFunctors hpc hempty => exact hv.endFunctors hc hidle hpc hempty
  | establish _ hnext | send _ hnext | shutdown _ hnext | writeComplete _ hnext | remove _ hnext
  | destroy _ hnext => cases conn_of_functor hnext hsub
  | handleEvent hpc | callClose hpc | callError hpc | callRead hpc | callWrite hpc | eventDone hpc
  | endDestroyed hpc =>
    cases conn_of_pc hpc hsub

/-- A test in `send` or `shutdown` finds the caller outside both. -/
theorem Shows.mayCall (hv : s.Shows c sc h v) {o : Caller T L} (hmay : s.MayCall o = true) :
    v.MayCall (o.seenFrom sc.loop_) := by
  refine ⟨(hv.calls o).trans (of_mayCall hmay), ?_⟩
  intro ho
  unfold Caller.seenFrom at ho
  split at ho
  · next heq =>
    subst heq
    rw [hv.pc]
    exact of_inUserCode (Bool.and_eq_true_iff.mp hmay).2
  · cases ho

/-- A message passes the test in `send`. -/
theorem Shows.accept (hv : s.Shows c sc h v) (o : Caller T L) (message : List UInt8) :
    s.Shows c sc { h with accepted := Function.update h.accepted o (h.accepted o ++ [message]) }
      { v with
        accepted := Function.update v.accepted (o.seenFrom sc.loop_)
          (v.accepted (o.seenFrom sc.loop_) ++ [message]) } := by
  refine ⟨hv.toHoused, hv.conn, hv.functors, hv.pc, hv.calls, hv.fresh, hv.removals, hv.noFault, hv.running,
    ?_, ?_, hv.wire⟩
  · intro o'
    by_cases ho : o' = o
    · subst ho
      simp only [Function.update_self, hv.accepted]
    · have hseen : o'.seenFrom sc.loop_ ≠ o.seenFrom sc.loop_ := fun heq => ho (seenFrom_inj heq)
      simp only [Function.update_of_ne hseen, Function.update_of_ne ho, hv.accepted]
  · exact (Function.update_of_ne (seenFrom_ne o).symm ..).trans hv.own

theorem Shows.sendTest (hv : s.Shows c sc h v) (hc : s.conns c = some sc) {o : Caller T L}
    {message : List UInt8} (hs : s.step (.sendTest o c message) = some s') :
    s'.Follows c (s.note (.sendTest o c message) c h) v := by
  have hfault : s.fault.isSome = false := by rw [(step_moves hs).1]; rfl
  simp only [ServerState.step, hfault, Bool.false_eq_true, if_false, hc, Option.map_some] at hs
  split at hs
  · next hmay =>
    have hstep : ∀ v', v.step (.sendTest (o.seenFrom sc.loop_) message) = some v' ↔
        (if sc.conn.state_ = .kConnected then
          { v.setCall (o.seenFrom sc.loop_) (.sending message) with
            accepted := Function.update v.accepted (o.seenFrom sc.loop_)
              (v.accepted (o.seenFrom sc.loop_) ++ [message]) } else v) = v' := by
      intro v'
      simp [hv.noFault, hv.mayCall hmay, hv.conn]
    obtain rfl := Option.some.inj hs
    by_cases hstate : sc.conn.state_ = .kConnected
    · have hcalled := hv.setCall o (.sending c message)
      rw [show (ServerCall.sending c message).of c = .sending message from if_pos rfl] at hcalled
      refine Follows.cons ((hstep _).mpr rfl) ?_
      rw [if_pos hstate, if_pos hstate]
      have hnote : s.note (.sendTest o c message) c h =
          { h with accepted := Function.update h.accepted o (h.accepted o ++ [message]) } := by
        simp [hc, hstate]
      rw [hnote]
      exact (hcalled.accept o message).follows hc
    · have hnote : s.note (.sendTest o c message) c h = h := by
        simp [hc, hstate]
      rw [if_neg hstate, hnote]
      exact hv.follows hc
  · cases hs

theorem Shows.called (hv : s.Shows c sc h v) {o : Caller T L} {call : ServerCall} (hcall : s.calls o = call) :
    v.calls (o.seenFrom sc.loop_) = call.of c := by
  rw [hv.calls, hcall]

variable {o : Caller T L} {message : List UInt8}

/-- `send` in the connection's own loop. -/
theorem Shows.sendHere (hv : s.Shows c sc h v) (hc : s.conns c = some sc) {w : WriteResult}
    (hcall : s.calls o = .sending c message) (ho : o = .loop sc.loop_) (hw : w.Within message.length) :
    (s.after c sc (sc.conn.sendInLoop message w) (·.setCall o .idle)).Follows c
      (s.note (.sendRun o w) c h) v := by
  subst ho
  have hsending := hv.called hcall
  rw [seenFrom_self, show (ServerCall.sending c message).of c = .sending message from if_pos rfl] at hsending
  have hnote : s.note (.sendRun (.loop sc.loop_) w) c h =
      { h with wire := h.wire ++ writtenBy (sc.conn.sendInLoop message w) } := by
    simp [hcall, hc]
  rw [hnote]
  refine hv.after (f := (·.setCall (.loop sc.loop_) .idle)) (b := .sendHere w)
    (g := fun v => (v.setCall none .idle).record none message)
    (fun _ _ hr hmem => by cases TcpConnection.sendInLoop_output hr _ hmem)
    (fun hl ht => (ht.setIdle hl).record none message) (fun _ => rfl) ?_
  simp [hv.noFault, hsending, hw, hv.conn]

/-- `send` in another thread. -/
theorem Shows.sendPush (hv : s.Shows c sc h v) (hc : s.conns c = some sc) (w : WriteResult)
    (hcall : s.calls o = .sending c message) (ho : o ≠ .loop sc.loop_) :
    ((s.queueInLoop sc.loop_ (.sendInLoop c message)).setCall o .idle).Follows c
      (s.note (.sendRun o w) c h) v := by
  have hseen : o.seenFrom sc.loop_ = some o := if_neg ho
  have hsending := hv.called hcall
  rw [hseen, show (ServerCall.sending c message).of c = .sending message from if_pos rfl] at hsending
  have hnote : s.note (.sendRun o w) c h = h := by
    simp [hcall, hc, ho]
  have hshow := (hv.push (.sendInLoop o message)).setCall o .idle
  rw [hnote]
  refine Follows.cons (b := .sendPush o) ?_ (hshow.follows hc)
  simp only [ConnState.step, ConnState.callStep, hv.fault_isSome, Bool.false_eq_true, if_false, hsending, hseen]
  rfl

theorem Shows.shutTest (hv : s.Shows c sc h v) (hc : s.conns c = some sc) (hmay : s.MayCall o = true)
    (hstate : sc.conn.state_ = .kConnected) : (s.setCall o (.shutting c)).Follows c h v := by
  have hshow := hv.setCall o (.shutting c)
  rw [show (ServerCall.shutting c).of c = .shutting from if_pos rfl] at hshow
  refine Follows.cons (b := .shutTest (o.seenFrom sc.loop_)) ?_ (hshow.follows hc)
  simp [hv.noFault, hv.mayCall hmay, hv.conn, hstate]

theorem Shows.shutSet (hv : s.Shows c sc h v) (hcall : s.calls o = .shutting c) :
    ((s.setConn c { sc with conn := { sc.conn with state_ := .kDisconnecting } }).setCall o
      (.shut c)).Follows c h v := by
  have hshutting := hv.called hcall
  rw [show (ServerCall.shutting c).of c = .shutting from if_pos rfl] at hshutting
  have hshow := (hv.setConn { sc.conn with state_ := .kDisconnecting }).setCall o (.shut c)
  rw [show (ServerCall.shut c).of c = .shut from if_pos rfl] at hshow
  refine Follows.cons (b := .shutSet (o.seenFrom sc.loop_)) ?_ (hshow.follows (Function.update_self ..))
  simp only [ConnState.step, ConnState.callStep, hv.fault_isSome, Bool.false_eq_true, if_false, hshutting,
    if_pos, hv.conn]
  rfl

/-- `shutdown` in the connection's own loop. -/
theorem Shows.shutHere (hv : s.Shows c sc h v) (hcall : s.calls o = .shut c) (ho : o = .loop sc.loop_) :
    (s.after c sc (.ok (sc.conn, sc.conn.shutdownInLoop)) (·.setCall o .idle)).Follows c
      (s.note (.shutRun o) c h) v := by
  subst ho
  have hshut := hv.called hcall
  rw [seenFrom_self, show (ServerCall.shut c).of c = .shut from if_pos rfl] at hshut
  have hnote : s.note (.shutRun (.loop sc.loop_)) c h =
      { h with wire := h.wire ++ writtenBy (.ok (sc.conn, sc.conn.shutdownInLoop)) } := by
    rw [show writtenBy (.ok (sc.conn, sc.conn.shutdownInLoop)) = [] from
      ConnState.wireOf_shutdownInLoop sc.conn, List.append_nil]
    rfl
  rw [hnote]
  refine hv.after (f := (·.setCall (.loop sc.loop_) .idle)) (g := fun v => v.setCall none .idle)
    (b := .shutHere) (fun _ _ hr hmem => by
      cases hr
      cases sc.conn.shutdownInLoop_output _ hmem) (fun hl ht => ht.setIdle hl) (fun _ => rfl) ?_
  simp only [ConnState.step, ConnState.callStep, hv.fault_isSome, Bool.false_eq_true, if_false, hshut, if_pos,
    ConnState.after, ConnState.perform_eq, ← hv.conn]
  rfl

/-- `shutdown` in another thread. -/
theorem Shows.shutPush (hv : s.Shows c sc h v) (hc : s.conns c = some sc) (hcall : s.calls o = .shut c)
    (ho : o ≠ .loop sc.loop_) :
    ((s.queueInLoop sc.loop_ (.shutdownInLoop c)).setCall o .idle).Follows c h v := by
  have hseen : o.seenFrom sc.loop_ = some o := if_neg ho
  have hshut := hv.called hcall
  rw [hseen, show (ServerCall.shut c).of c = .shut from if_pos rfl] at hshut
  have hshow := (hv.push .shutdownInLoop).setCall o .idle
  refine Follows.cons (b := .shutPush o) ?_ (hshow.follows hc)
  simp only [ConnState.step, ConnState.callStep, hv.fault_isSome, Bool.false_eq_true, if_false, hshut, hseen,
    if_pos]
  rfl

/-- A step of a caller that is about the connection, but for the test in `send`. -/
theorem Moves.shows {a : ServerAct T L} (hmove : s.Moves a s') (hv : s.Shows c sc h v)
    (hc : s.conns c = some sc) (hsub : s.subject a = some c) (hborn : s.server.nextConnId_ ≠ c)
    (htest : ∀ o message, a ≠ .sendTest o c message)
    (hnodup : ∀ l, (s.pcs l).channels.Nodup) :
    s'.Follows c (s.note a c h) v := by
  cases hmove with
  | newConnection => exact absurd (Option.some.inj hsub) hborn
  | sendTest | sendNot =>
    cases hsub
    exact absurd rfl (htest _ _)
  | shutNot => exact hv.follows hc
  | @sendHere o w d message sd hcall hd ho hw =>
    obtain rfl : c = d := (Option.some.inj (conn_of_call hcall hsub)).symm
    cases hc.symm.trans hd
    exact hv.sendHere hc hcall ho hw
  | @sendPush o w d message sd hcall hd ho =>
    obtain rfl : c = d := (Option.some.inj (conn_of_call hcall hsub)).symm
    cases hc.symm.trans hd
    exact hv.sendPush hc w hcall ho
  | @shutTest o d sd hmay hd hstate =>
    obtain rfl : c = d := (Option.some.inj hsub).symm
    cases hc.symm.trans hd
    exact hv.shutTest hc hmay hstate
  | @shutSet o d sd hcall hd =>
    obtain rfl : c = d := (Option.some.inj (conn_of_call hcall hsub)).symm
    cases hc.symm.trans hd
    exact hv.shutSet hcall
  | @shutHere o d sd hcall hd ho =>
    obtain rfl : c = d := (Option.some.inj (conn_of_call hcall hsub)).symm
    cases hc.symm.trans hd
    exact hv.shutHere hcall ho
  | @shutPush o d sd hcall hd ho =>
    obtain rfl : c = d := (Option.some.inj (conn_of_call hcall hsub)).symm
    cases hc.symm.trans hd
    exact hv.shutPush hc hcall ho
  | @loop l a s' hidle hmove => exact hmove.shows hv hc (hnodup l) hidle hsub

end ServerState

end Netfish
