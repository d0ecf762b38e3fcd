import Netfish.Net.ServerLife

/-!
# The steps of a server

Every step of a server, and what it does to a `Lawful` state: those that leave a connection in its
stage first, then those that move it on. `handleClose` comes with a condition, that the connection
has interest in reading; `Lawful.allowed_close` is why the calls still to come of the same
`handleEvent` may be left to run.
-/

set_option autoImplicit false

namespace Netfish

open Kit

universe u v

namespace ServerState

variable {T : Type u} {L : Type v}

/-- The functors that the effects of a method queue. -/
def completionsOf (c : Nat) (es : List ConnEffect) : List ServerFunctor :=
  es.filterMap fun
    | .queueWriteComplete => some (.writeComplete c)
    | _ => none

theorem completionsOf_spec {c : Nat} {es : List ConnEffect} :
    ∀ f ∈ completionsOf c es, f.conn = c ∧ f.once = false := by
  intro f hf
  obtain ⟨e, -, he⟩ := List.mem_filterMap.mp hf
  cases e <;> cases he
  exact ⟨rfl, rfl⟩

variable [DecidableEq L] {s s' : ServerState T L} {l : L} {c : Nat} {sc : ServerConn L}
  {conn : TcpConnection} {es : List ConnEffect}

/-- The effects of a method that does not close. -/
theorem foldl_effect (hclose : .closeCallback ∉ es) (s : ServerState T L) :
    es.foldl (effect c sc) s =
      s.setFunctors sc.loop_ ((s.functors sc.loop_).pushAll (completionsOf c es)) := by
  induction es generalizing s with
  | nil => simp [setFunctors, completionsOf, BatchQueue.pushAll]
  | cons e es ih =>
    obtain ⟨hne, hrest⟩ := not_or.mp (mt List.mem_cons.mpr hclose)
    rw [List.foldl_cons, ih hrest]
    cases e with
    | closeCallback => exact absurd rfl hne
    | queueWriteComplete =>
      simp [effect, queueInLoop, setFunctors, completionsOf, BatchQueue.pushAll, BatchQueue.push]
    | _ => rfl

/-- The state after a method that does not close. -/
theorem after_quiet {r : Except ConnFault (TcpConnection × List ConnEffect)}
    (hrun : r = .ok (conn, es)) (hclose : .closeCallback ∉ es)
    (f : ServerState T L → ServerState T L) :
    s.after c sc r f = f ((s.setConn c { sc with conn }).setFunctors sc.loop_
      ((s.functors sc.loop_).pushAll (completionsOf c es))) := by
  rw [hrun]
  simp only [after, foldl_effect hclose]
  rfl

/-! ## Steps that leave a connection in its stage -/

/-- A method that does not close, in a loop that is not inside `connectDestroyed`. -/
theorem Lawful.quiet (h : s.Lawful) (hc : s.conns c = some sc) (hq : sc.conn.Quiet conn es)
    (hpc : s.pcs sc.loop_ ≠ .destroying c) :
    ((s.setConn c { sc with conn }).setFunctors sc.loop_
      ((s.functors sc.loop_).pushAll (completionsOf c es))).Lawful := by
  have hset := h.setConn hc (fun _ hfits => hfits.quiet hq) fun hd => absurd hd hpc
  have hconn : (s.setConn c { sc with conn }).conns c = some { sc with conn } :=
    Function.update_self ..
  exact hset.pushAll hconn _ completionsOf_spec

/-- A method that changes nothing and has no effects here. -/
theorem after_idle (hc : s.conns c = some sc)
    (hes : ∀ t : ServerState T L, es.foldl (effect c sc) t = t)
    (f : ServerState T L → ServerState T L) : s.after c sc (.ok (sc.conn, es)) f = f s := by
  have hsame : s.setConn c sc = s := by
    simp only [setConn, ← hc, Function.update_eq_self]
  simp only [after, hes]
  exact congrArg f hsame

theorem after_shutdownInLoop (hc : s.conns c = some sc) (f : ServerState T L → ServerState T L) :
    s.after c sc (.ok (sc.conn, sc.conn.shutdownInLoop)) f = f s := by
  refine after_idle hc ?_ f
  intro t
  unfold TcpConnection.shutdownInLoop
  split <;> rfl

section

variable [DecidableEq T] {o : Caller T L}

theorem Lawful.sendTest (h : s.Lawful) {message : List UInt8} (hc : s.conns c = some sc)
    (hstate : sc.conn.state_ = .kConnected) : (s.setCall o (.sending c message)).Lawful := by
  refine h.setCall nofun ?_
  intro l d message _ hcall hpc
  cases hcall
  have hal := h.allowed l
  rw [hpc] at hal
  obtain ⟨⟨sd, hd, -, hdes⟩, -⟩ := hal
  cases hc.symm.trans hd
  rcases hdes.state with hs | hs <;> cases hstate.symm.trans hs

/-- `sendInLoop` called from the connection's own loop. -/
theorem Lawful.sendHere (h : s.Lawful) {w : WriteResult} {message : List UInt8}
    (hcall : s.calls o = .sending c message) (hc : s.conns c = some sc) (ho : o = .loop sc.loop_) :
    (s.after c sc (sc.conn.sendInLoop message w) (·.setCall o .idle)).Lawful := by
  obtain ⟨conn, es, hrun, hsent⟩ := TcpConnection.sendInLoop_spec (h.wf hc) message w
  rw [after_quiet hrun hsent.noClose]
  refine (h.quiet hc hsent.toQuiet ?_).setCall nofun nofun
  intro hpc
  have hal := h.allowed sc.loop_
  rw [hpc] at hal
  exact hal.2 message (ho ▸ hcall)

theorem Lawful.sendPush (h : s.Lawful) {message : List UInt8} (hc : s.conns c = some sc) :
    ((s.queueInLoop sc.loop_ (.sendInLoop c message)).setCall o .idle).Lawful :=
  (h.pushAll hc [.sendInLoop c message] (by simp [ServerFunctor.conn, ServerFunctor.once])).setCall
    nofun nofun

theorem Lawful.shutSet (h : s.Lawful) (hcall : s.calls o = .shutting c)
    (hc : s.conns c = some sc) :
    ((s.setConn c { sc with conn := { sc.conn with state_ := .kDisconnecting } }).setCall o
      (.shut c)).Lawful := by
  obtain ⟨sd, hd, hne⟩ := h.shutting o c hcall
  cases hc.symm.trans hd
  have hset : (s.setConn c { sc with
      conn := { sc.conn with state_ := .kDisconnecting } }).Lawful := by
    refine h.setConn hc (fun stage hfits => ⟨hfits.wf, hfits.interest, ?_⟩)
      fun _ hdes => ⟨hdes.none, hdes.registered, .inl rfl⟩
    cases stage with
    | accepted => exact absurd hfits.state hne
    | destroyed => exact .inl rfl
    | _ => exact .inr rfl
  exact hset.setCall nofun nofun

theorem Lawful.shutHere (h : s.Lawful) (hc : s.conns c = some sc) :
    (s.after c sc (.ok (sc.conn, sc.conn.shutdownInLoop)) (·.setCall o .idle)).Lawful := by
  rw [after_shutdownInLoop hc]
  exact h.setCall nofun nofun

theorem Lawful.shutPush (h : s.Lawful) (hc : s.conns c = some sc) :
    ((s.queueInLoop sc.loop_ (.shutdownInLoop c)).setCall o .idle).Lawful :=
  (h.pushAll hc [.shutdownInLoop c] (by simp [ServerFunctor.conn, ServerFunctor.once])).setCall
    nofun nofun

end

/-- What epoll reports readable has interest in reading. -/
theorem Lawful.poll (h : s.Lawful) {active : List (Nat × Events)} (hpc : s.pcs l = .idle)
    (hnodup : (active.map Prod.fst).Nodup) (hrep : active.all (s.MayReport l) = true) :
    (s.setPc l (.handlers active)).Lawful := by
  have hal := h.allowed l
  rw [hpc] at hal
  refine h.setPc ⟨hal, hnodup, ?_⟩
  intro p hp
  obtain ⟨sd, hd, hsd⟩ := (Option.any_eq_true ..).mp (List.all_eq_true.mp hrep p hp)
  obtain ⟨hl, hmask⟩ := Bool.and_eq_true_iff.mp hsd
  obtain ⟨mask, hwatched, hmask⟩ := (Option.any_eq_true ..).mp hmask
  obtain ⟨stage, -, hfits⟩ := h.staged p.1 sd hd
  obtain ⟨-, rfl⟩ := hfits.wf.watched hwatched
  exact ⟨sd, hd, of_decide_eq_true hl, fun hread =>
    hfits.readable (of_decide_eq_true hmask) hread⟩

/-! ## Steps that move a connection on -/

theorem Lawful.newConnection (h : s.Lawful) : s.newConnection.Lawful := by
  have hfits : Stage.accepted.Fits s.server.newConnection.1.conn := Stage.Fits.new ..
  have hentry : s.server.newConnection.2.connections_ s.server.newConnection.1.name_ =
      some s.server.nextConnId_ := Function.update_self ..
  have htally : ∀ d sd, d ≠ s.server.nextConnId_ → sd.name_ ≠ s.server.newConnection.1.name_ →
      { s with server := s.server.newConnection.2 }.tally d sd = s.tally d sd :=
    fun d sd _ hne => tally_congr rfl (fun _ _ _ _ => rfl) rfl rfl (Function.update_of_ne hne ..)
  unfold ServerState.newConnection
  dsimp only
  split
  · -- the server's own loop: `connectEstablished` runs at once
    obtain ⟨conn, hrun, hfits'⟩ := hfits.connectEstablished
    rw [hrun]
    exact h.born rfl (Function.update_idem ..) rfl ⟨rfl, rfl, rfl⟩ h.noFault rfl rfl ⟨rfl, rfl⟩
      (fun _ _ => .inl) (fun _ => rfl) htally ⟨.established, h.tally_fresh hentry, hfits'⟩
  · refine h.born rfl rfl rfl ⟨rfl, rfl, rfl⟩ h.noFault rfl rfl ⟨rfl, rfl⟩ ?_
      (fun _ => batch_queueInLoop ..) ?_ ⟨.accepted, ?_, hfits⟩
    · intro l f hf
      rcases mem_queueInLoop hf with hf | ⟨rfl, rfl⟩
      · exact .inl hf
      · exact .inr ⟨rfl, rfl⟩
    · intro d sd hd hne
      exact (tally_queueInLoop_ne hd).trans (htally d sd hd hne)
    · have hbefore : (ServerState.setConn { s with server := s.server.newConnection.2 }
          s.server.nextConnId_ s.server.newConnection.1).tally s.server.nextConnId_ s.server.newConnection.1 =
          Stage.established.tally s.server.nextConnId_ := h.tally_fresh hentry
      rw [tally_queueInLoop (l := s.server.newConnection.1.loop_) (c := s.server.nextConnId_)
        (f := .connectEstablished s.server.nextConnId_) rfl rfl, hbefore]
      simp [Stage.tally]

section

variable {rest : BatchQueue ServerFunctor}

/-- `connectEstablished` as a functor. -/
theorem Lawful.establish (h : s.Lawful) (hpc : s.pcs l = .batch)
    (hnext : (s.functors l).next = some (.connectEstablished c, rest))
    (hc : s.conns c = some sc) :
    ((s.setFunctors l rest).after c sc sc.conn.connectEstablished id).Lawful := by
  obtain ⟨sd, stage, hd, hl, htally, hfits, hstage⟩ :=
    h.stage_of_queued (c := c) (BatchQueue.next_mem hnext) rfl
  cases hc.symm.trans hd
  subst hstage
  obtain ⟨conn, hrun, hfits'⟩ := hfits.connectEstablished
  rw [hrun]
  refine h.advance hc rfl ⟨rfl, rfl⟩ ⟨rfl, rfl, rfl⟩ h.noFault rfl
    (fun _ _ hf => .inl (mem_pop hnext hf)) (fun _ _ => ⟨rfl, rfl⟩)
    (fun _ _ hd _ => tally_pop_ne hnext hd) ⟨.established, ?_, hfits'⟩
    (fun _ => hfits'.started nofun) ?_
  · refine (tally_pop (c := c) hnext hl rfl).trans ?_
    rw [htally]
    simp [Stage.tally]
  · intro l'
    by_cases hl' : l' = l
    · subst hl'
      show Allows _ l' (s.pcs l')
      rw [hpc]
      trivial
    · exact h.allowed_of_ne hc rfl (fun heq => hl' (heq.trans hl)) rfl
        (congrArg BatchQueue.batch (Function.update_of_ne hl' ..)) (fun _ => Nat.le_refl _) rfl

/-- `connectDestroyed` up to its callback. -/
theorem Lawful.beginDestroyed (h : s.Lawful)
    (hnext : (s.functors l).next = some (.connectDestroyed c, rest)) (hc : s.conns c = some sc)
    (hidle : s.calls (.loop l) = .idle) :
    (((s.setFunctors l rest).countDestroy c).after c sc sc.conn.beginDestroyed
      (·.setPc l (.destroying c))).Lawful := by
  obtain ⟨sd, stage, hd, hl, htally, hfits, hstage⟩ :=
    h.stage_of_queued (c := c) (BatchQueue.next_mem hnext) rfl
  cases hc.symm.trans hd
  subst hstage
  obtain ⟨conn, hrun, hfits', hnone, hnew⟩ := hfits.beginDestroyed
  have hpop := tally_pop (c := c) hnext hl rfl
  rw [hrun]
  refine h.advance hc rfl ⟨rfl, rfl⟩ ⟨rfl, rfl, rfl⟩ h.noFault rfl
    (fun _ _ hf => .inl (mem_pop hnext hf)) (fun _ hd => ⟨rfl, Function.update_of_ne hd ..⟩) ?_
    ⟨.destroyed, ?_, hfits'⟩ (fun _ => hfits'.started nofun) ?_
  · intro d sd hd _
    exact (tally_countDestroy_ne hd).trans (tally_pop_ne hnext hd)
  · have hcount : (s.setFunctors l rest).destroys c = 0 := congrArg Tally.destroys htally
    show ((s.setFunctors l rest).countDestroy c).tally c sc = _
    rw [tally_countDestroy, hpop, htally, hcount]
    simp [Stage.tally]
  · intro l'
    by_cases hl' : l' = l
    · subst hl'
      show Allows _ l' (Function.update s.pcs l' (.destroying c) l')
      rw [Function.update_self]
      refine ⟨⟨_, Function.update_self .., hl, ⟨hnone, hnew, hfits'.state⟩⟩, ?_⟩
      intro message hcall
      cases hidle.symm.trans hcall
    · exact h.allowed_of_ne hc rfl (fun heq => hl' (heq.trans hl)) (Function.update_of_ne hl' ..)
        (congrArg BatchQueue.batch (Function.update_of_ne hl' ..)) (fun _ => Nat.le_refl _) rfl

/-- A connection still listed is erased, and `connectDestroyed` is queued. -/
theorem removeConnectionInLoop_eq (hentry : s.server.connections_ sc.name_ = some c) :
    s.removeConnectionInLoop c sc =
      (s.eraseEntry sc).queueInLoop sc.loop_ (.connectDestroyed c) := by
  simp [removeConnectionInLoop, eraseEntry, TcpServer.erase, hentry]

/-- `removeConnectionInLoop` as a functor. -/
theorem Lawful.remove (h : s.Lawful) (hpc : s.pcs l = .batch)
    (hnext : (s.functors l).next = some (.removeConnectionInLoop c, rest))
    (hc : s.conns c = some sc) :
    ((s.setFunctors l rest).removeConnectionInLoop c sc).Lawful := by
  obtain ⟨sd, stage, hd, hl, htally, hfits, hstage⟩ :=
    h.stage_of_queued (c := c) (BatchQueue.next_mem hnext) rfl
  cases hc.symm.trans hd
  subst hstage
  rw [removeConnectionInLoop_eq (s := s.setFunctors l rest) (congrArg Tally.entry htally)]
  refine h.advance hc (by rw [← hc, Function.update_eq_self]; rfl) ⟨rfl, rfl⟩ ⟨rfl, rfl, rfl⟩
    h.noFault rfl ?_ (fun _ _ => ⟨rfl, rfl⟩) ?_ ⟨.removed, ?_, hfits.wf, hfits.interest,
    hfits.state⟩ id ?_
  · intro l' f hf
    rcases mem_queueInLoop hf with hf | ⟨rfl, rfl⟩
    · exact .inl (mem_pop hnext hf)
    · exact .inr ⟨rfl, rfl⟩
  · intro d sd hd hsd
    exact (tally_queueInLoop_ne hd).trans
      ((tally_eraseEntry_ne (h.name_ne hc hsd hd)).trans (tally_pop_ne hnext hd))
  · rw [tally_queueInLoop (l := sc.loop_) (c := c) (f := .connectDestroyed c) rfl rfl,
      tally_eraseEntry, tally_pop (c := c) hnext hl rfl, htally]
    simp [Stage.tally]
  · intro l'
    refine (h.allowed l').carry (.of_eq rfl) ?_ (fun _ => Nat.le_refl _) fun _ _ _ => id
    intro hne hb
    have hl' : l' ≠ l := by
      rintro rfl
      exact hne hpc
    rw [batch_queueInLoop]
    exact (congrArg BatchQueue.batch (Function.update_of_ne hl' ..)).trans hb

end

/-- `connectDestroyed` after its callback. -/
theorem Lawful.endDestroyed (h : s.Lawful) (hpc : s.pcs l = .destroying c)
    (hc : s.conns c = some sc) :
    (s.after c sc (sc.conn.endDestroyed.map (·, [])) (·.setPc l .batch)).Lawful := by
  have hal := h.allowed l
  rw [hpc] at hal
  obtain ⟨⟨sd, hd, hl, hdes⟩, -⟩ := hal
  cases hc.symm.trans hd
  obtain ⟨stage, htally, hfits⟩ := h.staged c sc hc
  have hfits' : stage.Fits { sc.conn with channel_ := .new } := by
    refine ⟨Channel.new_wf, ?_, hfits.state⟩
    rw [← hfits.interest, hdes.none]
    rfl
  rw [TcpConnection.endDestroyed_spec hfits.wf hdes.none hdes.registered]
  refine h.advance hc rfl ⟨rfl, rfl⟩ ⟨rfl, rfl, rfl⟩ h.noFault rfl (fun _ _ => .inl)
    (fun _ _ => ⟨rfl, rfl⟩) (fun _ _ _ _ => rfl) ⟨stage, htally, hfits'⟩ id ?_
  intro l'
  by_cases hl' : l' = l
  · subst hl'
    show Allows _ l' (Function.update s.pcs l' .batch l')
    rw [Function.update_self]
    trivial
  · exact h.allowed_of_ne hc rfl (fun heq => hl' (heq.trans hl)) (Function.update_of_ne hl' ..)
      rfl (fun _ => Nat.le_refl _) rfl

variable {revents : Events} {cb : ChannelCallback} {todo : List ChannelCallback} {inMessage : Bool}
  {active : List (Nat × Events)}

/-- Where the loops stand after `handleClose`: the connection has lost its interest in reading, and
none of the calls still to come relies on it. -/
theorem Lawful.allowed_close (h : s.Lawful) {inMessage' : Bool}
    (hpc : s.pcs l = .event c revents (cb :: todo) inMessage active) (hc : s.conns c = some sc)
    (hl : sc.loop_ = l) (hdone : .read ∈ todo → revents.hangup = true)
    (hconns : s'.conns = Function.update s.conns c (some { sc with conn }))
    (hbatch : ∀ l, (s'.functors l).batch = (s.functors l).batch) (hcalls : s'.calls = s.calls)
    (hcloses : s'.closes = Function.update s.closes c (s.closes c + 1))
    (hpcs : s'.pcs = Function.update s.pcs l (.event c revents todo inMessage' active)) (l' : L) :
    s'.Allows l' (s'.pcs l') := by
  by_cases hl' : l' = l
  · subst hl'
    have hal := h.allowed l'
    rw [hpc] at hal
    obtain ⟨hb, hwait, hnot, hhand⟩ := hal
    rw [hpcs, Function.update_self]
    refine ⟨(hbatch l').trans hb, ⟨hwait.1, ?_⟩, hnot,
      (List.suffix_cons cb todo).trans hhand.suffix, ?_, ?_⟩
    · intro p hp
      obtain ⟨sd, hd, hsd⟩ := hwait.2 p hp
      have hne : p.1 ≠ c := fun heq => hnot (heq ▸ List.mem_map_of_mem hp)
      exact ⟨sd, by rw [hconns, Function.update_of_ne hne, hd], hsd⟩
    · refine ⟨{ sc with conn }, by rw [hconns, Function.update_self], hl, ?_⟩
      intro hm hno
      rw [hdone hm] at hno
      cases hno
    · intro _ _
      rw [hcloses, Function.update_self]
      exact Nat.succ_pos _
  · refine h.allowed_of_ne hc hconns (fun heq => hl' (heq.trans hl)) ?_ (hbatch l') ?_ hcalls
    · rw [hpcs, Function.update_of_ne hl']
    · intro d
      rw [hcloses]
      by_cases hd : d = c
      · subst hd
        rw [Function.update_self]
        exact Nat.le_succ _
      · exact Nat.le_of_eq (Function.update_of_ne hd ..).symm

/-- `handleClose` of a connection with interest in reading, from `handleEvent`. -/
theorem Lawful.close (h : s.Lawful)
    (hpc : s.pcs l = .event c revents (cb :: todo) inMessage active) (hc : s.conns c = some sc)
    (hl : sc.loop_ = l) (hread : sc.reading = true)
    (hdone : .read ∈ todo → revents.hangup = true) (inMessage' : Bool) :
    (s.after c sc sc.conn.handleClose
      (·.setPc l (.event c revents todo inMessage' active))).Lawful := by
  obtain ⟨stage, htally, hfits⟩ := h.staged c sc hc
  obtain rfl := hfits.reading.mp hread
  obtain ⟨conn, hrun, hclosing, hremoved⟩ := hfits.handleClose
  have hcount : s.closes c = 0 := congrArg Tally.closes htally
  have hrest : ∀ d, d ≠ c → (s.countClose c).closes d = s.closes d ∧
      (s.countClose c).destroys d = s.destroys d := fun d hd => ⟨Function.update_of_ne hd .., rfl⟩
  rw [hrun]
  simp only [after, List.foldl_cons, List.foldl_nil, effect, removeConnection]
  split
  · -- the server's own loop: `removeConnectionInLoop` runs at once
    rw [removeConnectionInLoop_eq (s := (s.setConn c { sc with conn }).countClose c)
      (congrArg Tally.entry htally)]
    refine h.advance hc rfl ⟨rfl, rfl⟩ ⟨rfl, rfl, rfl⟩ h.noFault rfl ?_ hrest ?_ ⟨.removed, ?_,
      hremoved⟩ (fun _ => hremoved.started (by simp))
      (h.allowed_close hpc hc hl hdone rfl (fun _ => batch_queueInLoop ..) rfl rfl rfl)
    · intro l' f hf
      rcases mem_queueInLoop hf with hf | ⟨rfl, rfl⟩
      · exact .inl hf
      · exact .inr ⟨rfl, rfl⟩
    · intro d sd hd hsd
      exact (tally_queueInLoop_ne hd).trans
        ((tally_eraseEntry_ne (h.name_ne hc hsd hd)).trans (tally_countClose_ne hd))
    · show (((s.countClose c).eraseEntry sc).queueInLoop sc.loop_ (.connectDestroyed c)).tally c sc
        = _
      rw [tally_queueInLoop (l := sc.loop_) (c := c) (f := .connectDestroyed c) rfl rfl,
        tally_eraseEntry, tally_countClose, htally, hcount]
      simp [Stage.tally]
  · refine h.advance hc rfl ⟨rfl, rfl⟩ ⟨rfl, rfl, rfl⟩ h.noFault rfl ?_ hrest ?_ ⟨.closing, ?_,
      hclosing⟩ (fun _ => hclosing.started (by simp))
      (h.allowed_close hpc hc hl hdone rfl (fun _ => batch_queueInLoop ..) rfl rfl rfl)
    · intro l' f hf
      rcases mem_queueInLoop hf with hf | ⟨rfl, rfl⟩
      · exact .inl hf
      · exact .inr ⟨rfl, rfl⟩
    · intro d sd hd hsd
      exact (tally_queueInLoop_ne hd).trans (tally_countClose_ne hd)
    · show ((s.countClose c).queueInLoop s.server.loop_ (.removeConnectionInLoop c)).tally c sc = _
      rw [tally_queueInLoop (s := s.countClose c) (l := s.server.loop_) (c := c)
        (f := .removeConnectionInLoop c) rfl rfl, tally_countClose, htally, hcount]
      simp [Stage.tally]

/-! ## A step that closes in time -/

theorem Lawful.handleEvent (h : s.Lawful) {p : Nat × Events}
    (hpc : s.pcs l = .handlers (p :: active)) :
    (s.setPc l (.event p.1 p.2 (Channel.handleEvent p.2) false active)).Lawful := by
  have hal := h.allowed l
  rw [hpc] at hal
  obtain ⟨hbatch, hnodup, hwait⟩ := hal
  obtain ⟨hnot, hnodup⟩ := List.nodup_cons.mp hnodup
  obtain ⟨sd, hd, hl, hread⟩ := hwait p List.mem_cons_self
  exact h.setPc ⟨hbatch, ⟨hnodup, fun q hq => hwait q (List.mem_cons_of_mem p hq)⟩, hnot,
    List.suffix_rfl, ⟨sd, hd, hl, fun hm _ => hread (Channel.read_mem_handleEvent.mp hm)⟩,
    fun hh hm => absurd (Channel.close_mem_handleEvent.mpr hh) hm⟩

/-- A callback that changes nothing here. -/
theorem Lawful.skip (h : s.Lawful) (hpc : s.pcs l = .event c revents (cb :: todo) inMessage active)
    (hcb : cb ≠ .close) (inMessage' : Bool) :
    (s.setPc l (.event c revents todo inMessage' active)).Lawful := by
  have hal := h.allowed l
  rw [hpc] at hal
  obtain ⟨hbatch, hwait, hnot, hhand⟩ := hal
  exact h.setPc ⟨hbatch, hwait, hnot, hhand.tail hcb⟩

theorem Lawful.callWrite (h : s.Lawful) {w : WriteResult}
    (hpc : s.pcs l = .event c revents (.write :: todo) inMessage active) (hc : s.conns c = some sc)
    (hw : w.Within sc.conn.outputBuffer_.length) :
    (s.after c sc (sc.conn.handleWrite w) (·.setPc l (.event c revents todo false active))).Lawful := by
  obtain ⟨conn, es, hrun, hwrote⟩ := TcpConnection.handleWrite_spec (h.wf hc) hw
  have hl := h.loop_of_event hpc hc
  rw [after_quiet hrun hwrote.noClose]
  refine (h.skip hpc nofun false).quiet hc hwrote.toQuiet ?_
  rw [hl]
  simp [ServerState.setPc]

/-- `sendInLoop` as a functor. -/
theorem Lawful.send (h : s.Lawful) (hpc : s.pcs l = .batch) {rest : BatchQueue ServerFunctor}
    {message : List UInt8} (hnext : (s.functors l).next = some (.sendInLoop c message, rest))
    (hc : s.conns c = some sc) (w : WriteResult) :
    ((s.setFunctors l rest).after c sc (sc.conn.sendInLoop message w) id).Lawful := by
  have hpop := h.pop hnext rfl hpc
  obtain ⟨sd, -, hd, hl, -⟩ :=
    h.stage_of_queued (c := c) (BatchQueue.next_mem hnext) rfl
  cases hc.symm.trans hd
  obtain ⟨conn, es, hrun, hsent⟩ := TcpConnection.sendInLoop_spec (hpop.wf hc) message w
  rw [after_quiet hrun hsent.noClose]
  refine hpop.quiet hc hsent.toQuiet ?_
  rw [show sc.loop_ = l from hl, show (s.setFunctors l rest).pcs l = .batch from hpc]
  nofun

theorem Lawful.beginFunctors (h : s.Lawful) (hpc : s.pcs l = .handlers []) :
    (({ s with functors := Function.update s.functors l (s.functors l).swap }.setPc l
      .batch)).Lawful := by
  have hal := h.allowed l
  rw [hpc] at hal
  have hlist := BatchQueue.toList_swap hal.1
  have hset : (s.setPc l .batch).Lawful := h.setPc trivial
  refine hset.setFunctors ?_ ?_ ?_
  · intro f _
    rw [hlist]; rfl
  · intro f hf
    exact .inl (hlist ▸ hf)
  · intro hne
    exact absurd (Function.update_self ..) hne

end ServerState

end Netfish
