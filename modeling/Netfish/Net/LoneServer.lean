import Netfish.Net.CloseOnce
import Netfish.Net.ServerMoves

/-!
# A server without extra threads

All connections are on the loop of the server, user code calls them from there only, and a hang-up comes
with data while somebody reads. Then a connection that closes is destroyed before the next `poll`, so
nothing can register its channel again in time for one: `Alone` is the invariant, beside `Lawful`.
-/

set_option autoImplicit false

namespace Netfish

open Kit

universe u v

/-- The events of the active channels. -/
def IoLoopPc.reported : IoLoopPc → List Events
  | .handlers active => active.map Prod.snd
  | .event _ revents _ _ active => revents :: active.map Prod.snd
  | _ => []

/-- Active channels are dispatched, or still to be. -/
def IoLoopPc.dispatching : IoLoopPc → Bool
  | .handlers _ => true
  | .event .. => true
  | _ => false

theorem EventLoopThreadPool.start_baseLoop {L : Type v} {pool pool' : EventLoopThreadPool L}
    {startLoop : Nat → L} (hrun : pool.start startLoop = .ok pool') :
    pool'.baseLoop_ = pool.baseLoop_ := by
  unfold EventLoopThreadPool.start at hrun
  split at hrun
  · cases hrun
    rfl
  · cases hrun

theorem TcpServer.start_baseLoop {L : Type v} {server server' : TcpServer L} {startLoop : Nat → L}
    (hrun : server.start startLoop = .ok server')
    (hbase : server.threadPool_.baseLoop_ = server.loop_) :
    server'.threadPool_.baseLoop_ = server'.loop_ := by
  unfold TcpServer.start at hrun
  split at hrun
  · cases hrun
    exact hbase
  · obtain ⟨pool, hpool, hrun⟩ := bind_eq_ok.mp hrun
    cases hrun
    exact (EventLoopThreadPool.start_baseLoop hpool).trans hbase

namespace ServerState

variable {T : Type u} {L : Type v}

/-- User code calls from the thread of the server's loop, and `POLLHUP` is not reported without `POLLIN`
for a connection with interest in reading. -/
def OwnCalls [DecidableEq T] [DecidableEq L] (s : ServerState T L) : ServerAct T L → Bool
  | .sendTest o _ _ => o = .loop s.server.loop_
  | .shutTest o _ => o = .loop s.server.loop_
  | .loop _ (.poll active) => active.all fun p =>
    (s.conns p.1).all fun sc => sc.reading && p.2.pollhup → p.2.pollin
  | _ => true

structure Alone (s : ServerState T L) : Prop where
  pool : s.server.threadPool_.loops_ = [] ∧ s.server.threadPool_.baseLoop_ = s.server.loop_
  home : ∀ c sc, s.conns c = some sc → sc.loop_ = s.server.loop_
  callers : ∀ o, s.calls o ≠ .idle → o = .loop s.server.loop_
  /-- In `send` and `shutdown` the test of `state_` still holds. -/
  tested : ∀ o c, (∃ message, s.calls o = .sending c message) ∨ s.calls o = .shutting c →
    ∃ sc, s.conns c = some sc ∧ sc.conn.state_ = .kConnected
  hangup : ∀ l, ∀ revents ∈ (s.pcs l).reported, revents.hangup = false
  functors : ∀ l, ∀ f ∈ (s.functors l).toList, (∃ c, f = .writeComplete c) ∨ ∃ c, f = .connectDestroyed c
  /-- `connectDestroyed` waits for the functors of this iteration. -/
  prompt : ∀ l c, .connectDestroyed c ∈ (s.functors l).pending → (s.pcs l).dispatching = true
  destroyed : ∀ c sc, s.conns c = some sc → 0 < s.destroys c → sc.conn.state_ = .kDisconnected ∧
    (sc.conn.channel_ = .new ∨ s.pcs sc.loop_ = .destroying c)

variable {s s' : ServerState T L} {l : L} {c : Nat} {sc : ServerConn L}

theorem start_alone {server : TcpServer L} (hpool : server.threadPool_.loops_ = [])
    (hbase : server.threadPool_.baseLoop_ = server.loop_) : (start server : ServerState T L).Alone where
  pool := ⟨hpool, hbase⟩
  home _ _ hc := nomatch hc
  callers _ ho := absurd rfl ho
  tested o c hcall := by
    rcases hcall with ⟨_, hcall⟩ | hcall <;> cases hcall
  hangup _ _ hm := absurd hm List.not_mem_nil
  functors _ _ hf := absurd hf List.not_mem_nil
  prompt _ _ hf := absurd hf List.not_mem_nil
  destroyed _ _ hc := nomatch hc

/-- Between two iterations a connection that epoll watches is established. -/
theorem Alone.reading (h : s.Alone) (hlaw : s.Lawful) (hc : s.conns c = some sc)
    (hpc : s.pcs sc.loop_ = .idle) {mask : Events} (hw : sc.conn.channel_.watched = some mask) :
    sc.reading = true := by
  obtain ⟨stage, htally, hfits⟩ := hlaw.staged c sc hc
  have hqueued : ∀ f, s.pending sc.loop_ f = 1 → (∃ d, f = .writeComplete d) ∨
      ∃ d, f = .connectDestroyed d := fun f hone =>
    h.functors _ f (List.count_pos_iff.mp (Nat.lt_of_lt_of_eq Nat.one_pos hone.symm))
  cases stage with
  | established => exact hfits.reading.mpr rfl
  | accepted =>
    rcases hqueued _ (congrArg Tally.toEstablish htally) with ⟨_, hf⟩ | ⟨_, hf⟩ <;> cases hf
  | closing =>
    have hrem := congrArg Tally.toRemove htally
    simp only [ServerState.tally, ← h.home c sc hc] at hrem
    rcases hqueued _ hrem with ⟨_, hf⟩ | ⟨_, hf⟩ <;> cases hf
  | removed =>
    have hdes : s.pending sc.loop_ (.connectDestroyed c) = 1 := congrArg Tally.toDestroy htally
    have hmem := List.count_pos_iff.mp (hdes ▸ Nat.one_pos)
    have hal := hlaw.allowed sc.loop_
    rw [hpc] at hal
    rw [BatchQueue.toList, show (s.functors sc.loop_).batch = [] from hal] at hmem
    have hdisp := h.prompt _ _ hmem
    rw [hpc] at hdisp
    cases hdisp
  | destroyed =>
    have hdes : s.destroys c = 1 := congrArg Tally.destroys htally
    obtain ⟨-, hnew | hin⟩ := h.destroyed c sc hc (hdes ▸ Nat.one_pos)
    · rw [hnew] at hw
      cases hw
    · cases hpc.symm.trans hin

/-! ## What a step may change -/

theorem Alone.countClose (h : s.Alone) (c : Nat) : (s.countClose c).Alone :=
  ⟨h.pool, h.home, h.callers, h.tested, h.hangup, h.functors, h.prompt, h.destroyed⟩

theorem Alone.eraseEntry (h : s.Alone) (sc : ServerConn L) : (s.eraseEntry sc).Alone :=
  ⟨h.pool, h.home, h.callers, h.tested, h.hangup, h.functors, h.prompt, h.destroyed⟩

theorem Alone.setConn (h : s.Alone) (hc : s.conns c = some sc) {conn : TcpConnection}
    (hstate : conn.state_ = sc.conn.state_ ∨
      ∀ o, s.calls o ≠ .shutting c ∧ ∀ message, s.calls o ≠ .sending c message)
    (hdestroyed : 0 < s.destroys c → conn.state_ = .kDisconnected ∧
      (conn.channel_ = .new ∨ s.pcs sc.loop_ = .destroying c)) :
    (s.setConn c { sc with conn }).Alone where
  pool := h.pool
  home d sd hd := by
    by_cases hdc : d = c
    · subst hdc
      simp only [ServerState.setConn, Function.update_self] at hd
      cases hd
      exact h.home d sc hc
    · simp only [ServerState.setConn, Function.update_of_ne hdc] at hd
      exact h.home d sd hd
  callers := h.callers
  tested o d hcall := by
    obtain ⟨sd, hd, hconnected⟩ := h.tested o d hcall
    by_cases hdc : d = c
    · subst hdc
      cases hc.symm.trans hd
      refine ⟨{ sc with conn }, Function.update_self .., ?_⟩
      rcases hstate with hstate | hnone
      · exact hstate.trans hconnected
      · rcases hcall with ⟨message, hcall⟩ | hcall
        · exact absurd hcall ((hnone o).2 message)
        · exact absurd hcall (hnone o).1
    · exact ⟨sd, (Function.update_of_ne hdc ..).trans hd, hconnected⟩
  hangup := h.hangup
  functors := h.functors
  prompt := h.prompt
  destroyed d sd hd hpos := by
    by_cases hdc : d = c
    · subst hdc
      simp only [ServerState.setConn, Function.update_self] at hd
      cases hd
      exact hdestroyed hpos
    · simp only [ServerState.setConn, Function.update_of_ne hdc] at hd
      exact h.destroyed d sd hd hpos

theorem Alone.setPc [DecidableEq L] (h : s.Alone) {pc : IoLoopPc}
    (hhang : ∀ revents ∈ pc.reported, revents.hangup = false)
    (hprompt : ∀ c, .connectDestroyed c ∈ (s.functors l).pending → pc.dispatching = true)
    (hdone : ∀ c sc, s.conns c = some sc → s.pcs l = .destroying c → sc.conn.channel_ = .new) :
    (s.setPc l pc).Alone where
  pool := h.pool
  home := h.home
  callers := h.callers
  tested := h.tested
  hangup l' := by
    by_cases hl : l' = l
    · subst hl
      simpa only [ServerState.setPc, Function.update_self] using hhang
    · simpa only [ServerState.setPc, Function.update_of_ne hl] using h.hangup l'
  functors := h.functors
  prompt l' c hm := by
    by_cases hl : l' = l
    · subst hl
      simpa only [ServerState.setPc, Function.update_self] using hprompt c hm
    · simpa only [ServerState.setPc, Function.update_of_ne hl] using h.prompt l' c hm
  destroyed c sc hc hpos := by
    obtain ⟨hstate, hch⟩ := h.destroyed c sc hc hpos
    refine ⟨hstate, ?_⟩
    rcases hch with hch | hin
    · exact .inl hch
    · by_cases hl : sc.loop_ = l
      · exact .inl (hdone c sc hc (hl ▸ hin))
      · exact .inr ((Function.update_of_ne hl ..).trans hin)

theorem Alone.setFunctors [DecidableEq L] (h : s.Alone) {q : BatchQueue ServerFunctor}
    (hmem : ∀ f ∈ q.toList, (∃ c, f = .writeComplete c) ∨ ∃ c, f = .connectDestroyed c)
    (hprompt : ∀ c, .connectDestroyed c ∈ q.pending → (s.pcs l).dispatching = true) :
    (s.setFunctors l q).Alone where
  pool := h.pool
  home := h.home
  callers := h.callers
  tested := h.tested
  hangup := h.hangup
  functors l' := by
    by_cases hl : l' = l
    · subst hl
      simpa only [ServerState.setFunctors, Function.update_self] using hmem
    · simpa only [ServerState.setFunctors, Function.update_of_ne hl] using h.functors l'
  prompt l' := by
    by_cases hl : l' = l
    · subst hl
      simpa only [ServerState.setFunctors, Function.update_self] using hprompt
    · simpa only [ServerState.setFunctors, Function.update_of_ne hl] using h.prompt l'
  destroyed := h.destroyed

theorem Alone.setCall [DecidableEq T] [DecidableEq L] (h : s.Alone) {o : Caller T L} {call : ServerCall}
    (ho : call ≠ .idle → o = .loop s.server.loop_)
    (htested : ∀ c, (∃ message, call = .sending c message) ∨ call = .shutting c →
      ∃ sc, s.conns c = some sc ∧ sc.conn.state_ = .kConnected) : (s.setCall o call).Alone where
  pool := h.pool
  home := h.home
  callers o' hne := by
    by_cases heq : o' = o
    · subst heq
      simp only [ServerState.setCall, Function.update_self] at hne
      exact ho hne
    · simp only [ServerState.setCall, Function.update_of_ne heq] at hne
      exact h.callers o' hne
  tested o' c hcall := by
    by_cases heq : o' = o
    · subst heq
      simp only [ServerState.setCall, Function.update_self] at hcall
      exact htested c hcall
    · simp only [ServerState.setCall, Function.update_of_ne heq] at hcall
      exact h.tested o' c hcall
  hangup := h.hangup
  functors := h.functors
  prompt := h.prompt
  destroyed := h.destroyed

/-! ## Steps -/

variable {revents : Events} {todo : List ChannelCallback} {inMessage : Bool}
  {active : List (Nat × Events)} {rest : BatchQueue ServerFunctor}

/-- A connection that a callback of `handleEvent` reads from is established. -/
theorem Lawful.established (hlaw : s.Lawful) (hno : revents.hangup = false)
    (hpc : s.pcs l = .event c revents (.read :: todo) inMessage active) (hc : s.conns c = some sc) :
    s.tally c sc = Stage.established.tally c ∧ Stage.established.Fits sc.conn := by
  obtain ⟨sd, hd, -, hread⟩ := (hlaw.handling hpc).reading
  cases hc.symm.trans hd
  obtain ⟨stage, htally, hfits⟩ := hlaw.staged c sc hc
  obtain rfl := hfits.reading.mp (hread List.mem_cons_self hno)
  exact ⟨htally, hfits⟩

/-- `connectDestroyed` up to its callback, from the batch. -/
theorem Lawful.beginDestroyed_eq (hlaw : s.Lawful)
    (hnext : (s.functors l).next = some (.connectDestroyed c, rest)) (hc : s.conns c = some sc) :
    ∃ conn, sc.conn.beginDestroyed = .ok (conn, [.connectionCallback]) ∧
      conn.state_ = .kDisconnected ∧ sc.loop_ = l ∧ s.destroys c = 0 := by
  obtain ⟨sd, stage, hd, hl, htally, hfits, hstage⟩ :=
    hlaw.stage_of_queued (c := c) (BatchQueue.next_mem hnext) rfl
  cases hc.symm.trans hd
  subst hstage
  obtain ⟨channel, hrun, -⟩ := TcpConnection.beginDestroyed_spec hfits.wf (hfits.inUse nofun nofun)
  exact ⟨_, hrun, rfl, hl, congrArg Tally.destroys htally⟩

theorem Lawful.endDestroyed_eq (hlaw : s.Lawful) (hpc : s.pcs l = .destroying c)
    (hc : s.conns c = some sc) :
    sc.conn.endDestroyed = .ok { sc.conn with channel_ := .new } := by
  have hal := hlaw.allowed l
  rw [hpc] at hal
  obtain ⟨⟨sd, hd, -, hdes⟩, -⟩ := hal
  cases hc.symm.trans hd
  exact TcpConnection.endDestroyed_spec (hlaw.wf hc) hdes.none hdes.registered

/-- No close callback comes from a hang-up. -/
theorem Alone.not_hangup (h : s.Alone) (hlaw : s.Lawful)
    (hpc : s.pcs l = .event c revents (.close :: todo) inMessage active) : False := by
  have hhang := h.hangup l
  rw [hpc] at hhang
  have hno := hhang _ List.mem_cons_self
  have hmem := (hlaw.handling hpc).suffix.subset List.mem_cons_self
  rw [Channel.close_mem_handleEvent.mp hmem] at hno
  cases hno

variable [DecidableEq L]

/-- A method that neither opens nor closes, of a connection in use or with nothing to do. -/
theorem Alone.quiet (h : s.Alone) (hc : s.conns c = some sc) {conn : TcpConnection}
    {es : List ConnEffect} (hq : sc.conn.Quiet conn es)
    (hdestroyed : 0 < s.destroys c → conn = sc.conn) :
    ((s.setConn c { sc with conn }).setFunctors sc.loop_
      ((s.functors sc.loop_).pushAll (completionsOf c es))).Alone := by
  have hset : (s.setConn c { sc with conn }).Alone := by
    refine h.setConn hc (.inl hq.state) ?_
    intro hpos
    rw [hdestroyed hpos]
    exact h.destroyed c sc hc hpos
  refine hset.setFunctors ?_ ?_
  · intro f hf
    rw [BatchQueue.toList_pushAll] at hf
    rcases List.mem_append.mp hf with hf | hf
    · exact h.functors _ f hf
    · obtain ⟨e, -, he⟩ := List.mem_filterMap.mp hf
      cases e <;> cases he
      exact .inl ⟨c, rfl⟩
  · intro d hd
    rcases List.mem_append.mp hd with hd | hd
    · exact h.prompt _ d hd
    · obtain ⟨e, -, he⟩ := List.mem_filterMap.mp hd
      cases e <;> cases he

/-- The next connection is established on the loop of the server, at once. -/
theorem Alone.newConnection_eq (h : s.Alone) : ∃ conn,
    s.server.newConnection.1.conn.connectEstablished = .ok (conn, [.connectionCallback]) ∧
      conn.state_ = .kConnected ∧ s.server.newConnection.1.loop_ = s.server.loop_ ∧
      s.server.newConnection.2.threadPool_ = s.server.threadPool_ ∧
      s.newConnection = { s with
        server := s.server.newConnection.2
        conns := Function.update s.conns s.server.nextConnId_
          (some { s.server.newConnection.1 with conn }) } := by
  obtain ⟨hnil, hbase⟩ := h.pool
  have hnext : s.server.threadPool_.getNextLoop = (s.server.loop_, s.server.threadPool_) := by
    simp [EventLoopThreadPool.getNextLoop, hnil, hbase]
  have hloop : s.server.newConnection.1.loop_ = s.server.loop_ := congrArg Prod.fst hnext
  obtain ⟨channel, hrun, -⟩ := TcpConnection.connectEstablished_spec
    (c := s.server.newConnection.1.conn) Channel.new_wf rfl
  refine ⟨_, hrun, rfl, hloop, congrArg Prod.snd hnext, ?_⟩
  unfold ServerState.newConnection
  dsimp only
  rw [if_pos (show _ = s.server.newConnection.2.loop_ from hloop), hrun]
  simp only [after, List.foldl_cons, List.foldl_nil, effect, ServerState.setConn, Function.update_idem, id]

theorem Alone.newConnection (h : s.Alone) (hlaw : s.Lawful) : s.newConnection.Alone := by
  obtain ⟨conn, -, -, hloop, hpool, heq⟩ := h.newConnection_eq
  have hfresh : ∀ d sd, s.conns d = some sd → d ≠ s.server.nextConnId_ := by
    rintro d sd hd rfl
    cases hd.symm.trans hlaw.fresh
  rw [heq]
  refine ⟨⟨?_, ?_⟩, ?_, h.callers, ?_, h.hangup, h.functors, h.prompt, ?_⟩
  · exact (congrArg EventLoopThreadPool.loops_ hpool).trans h.pool.1
  · exact (congrArg EventLoopThreadPool.baseLoop_ hpool).trans h.pool.2
  · intro d sd hd
    by_cases hdc : d = s.server.nextConnId_
    · subst hdc
      simp only [Function.update_self] at hd
      cases hd
      exact hloop
    · simp only [Function.update_of_ne hdc] at hd
      exact h.home d sd hd
  · intro o d hcall
    obtain ⟨sd, hd, hconnected⟩ := h.tested o d hcall
    exact ⟨sd, (Function.update_of_ne (hfresh d sd hd) ..).trans hd, hconnected⟩
  · intro d sd hd hpos
    by_cases hdc : d = s.server.nextConnId_
    · subst hdc
      have hzero := (hlaw.unborn _ hlaw.fresh).2
      exact absurd hpos (hzero ▸ Nat.lt_irrefl 0)
    · simp only [Function.update_of_ne hdc] at hd
      exact h.destroyed d sd hd hpos

/-- `handleClose` of an established connection: it is out of the map at once. -/
theorem Alone.close_eq (h : s.Alone) (hc : s.conns c = some sc)
    (htally : s.tally c sc = Stage.established.tally c) (hfits : Stage.established.Fits sc.conn) :
    ∃ conn, sc.conn.handleClose = .ok (conn, [.closeCallback]) ∧ conn.state_ = sc.conn.state_ ∧
      ∀ f : ServerState T L → ServerState T L, s.after c sc sc.conn.handleClose f =
        f ((((s.setConn c { sc with conn }).countClose c).eraseEntry sc).queueInLoop sc.loop_
          (.connectDestroyed c)) := by
  obtain ⟨channel, hrun, -⟩ := TcpConnection.handleClose_spec hfits.wf (hfits.inUse nofun nofun)
  refine ⟨_, hrun, rfl, ?_⟩
  intro f
  rw [hrun]
  simp only [after, List.foldl_cons, List.foldl_nil, effect]
  rw [removeConnection, if_pos, removeConnectionInLoop_eq]
  · exact congrArg Tally.entry htally
  · exact h.home c sc hc

theorem Alone.close (h : s.Alone) (hlaw : s.Lawful)
    (hpc : s.pcs l = .event c revents (.read :: todo) inMessage active) (hc : s.conns c = some sc)
    (inMessage' : Bool) : (s.after c sc sc.conn.handleClose
      (·.setPc l (.event c revents todo inMessage' active))).Alone := by
  have hhang := h.hangup l
  rw [hpc] at hhang
  obtain ⟨htally, hfits⟩ := hlaw.established (hhang _ List.mem_cons_self) hpc hc
  have hl := hlaw.loop_of_event hpc hc
  have hzero : s.destroys c = 0 := congrArg Tally.destroys htally
  obtain ⟨conn, -, hstate, heq⟩ := h.close_eq hc htally hfits
  rw [heq]
  have hset : (s.setConn c { sc with conn }).Alone :=
    h.setConn hc (.inl hstate) fun hpos => absurd hpos (hzero ▸ Nat.lt_irrefl 0)
  have herased := (hset.countClose c).eraseEntry sc
  have hqueued := herased.setFunctors (l := sc.loop_)
    (q := ((s.functors sc.loop_).push (.connectDestroyed c))) ?_ ?_
  · refine hqueued.setPc hhang (fun _ _ => rfl) ?_
    intro d sd _ hin
    cases hpc.symm.trans hin
  · intro f hf
    rw [BatchQueue.toList_push] at hf
    rcases List.mem_append.mp hf with hf | hf
    · exact h.functors _ f hf
    · exact .inr ⟨c, List.mem_singleton.mp hf⟩
  · intro d _
    show (s.pcs sc.loop_).dispatching = true
    rw [hl, hpc]
    rfl

/-- The batch is worked off. -/
theorem Alone.pop (h : s.Alone) {f : ServerFunctor} (hnext : (s.functors l).next = some (f, rest)) :
    (s.setFunctors l rest).Alone := by
  refine h.setFunctors ?_ ?_
  · intro g hg
    exact h.functors l g (BatchQueue.mem_of_mem_rest hnext hg)
  · intro d hd
    exact h.prompt l d (BatchQueue.pending_of_next hnext ▸ hd)

theorem Alone.beginFunctors (h : s.Alone) (hpc : s.pcs l = .handlers []) (hlaw : s.Lawful) :
    ((s.setFunctors l (s.functors l).swap).setPc l .batch).Alone := by
  have hal := hlaw.allowed l
  rw [hpc] at hal
  have hset : (s.setFunctors l (s.functors l).swap).Alone := by
    refine h.setFunctors ?_ fun _ hd => absurd hd List.not_mem_nil
    intro f hf
    rw [BatchQueue.toList_swap hal.1] at hf
    exact h.functors l f hf
  refine hset.setPc (fun _ hm => absurd hm List.not_mem_nil) ?_ ?_
  · intro d hd
    simp only [ServerState.setFunctors, Function.update_self] at hd
    exact absurd hd List.not_mem_nil
  · intro d sd _ hin
    cases hpc.symm.trans hin

theorem Alone.beginDestroyed (h : s.Alone) (hlaw : s.Lawful) (hpc : s.pcs l = .batch)
    (hidle : s.calls (.loop l) = .idle)
    (hnext : (s.functors l).next = some (.connectDestroyed c, rest)) (hc : s.conns c = some sc) :
    (((s.setFunctors l rest).countDestroy c).after c sc sc.conn.beginDestroyed
      (·.setPc l (.destroying c))).Alone := by
  obtain ⟨conn, hrun, hstate, hl, hzero⟩ := hlaw.beginDestroyed_eq hnext hc
  have hpop := h.pop hnext
  have hbegun : ((s.setFunctors l rest).setPc l (.destroying c)).Alone := by
    refine hpop.setPc (fun _ hm => absurd hm List.not_mem_nil) ?_ ?_
    · intro d hd
      have hdisp : (s.pcs l).dispatching = true := hpop.prompt l d hd
      rw [hpc] at hdisp
      cases hdisp
    · intro d sd _ hin
      cases hpc.symm.trans hin
  have hset : (((s.setFunctors l rest).setPc l (.destroying c)).setConn c { sc with conn }).Alone := by
    refine hbegun.setConn hc (.inr ?_) fun hpos => absurd hpos (hzero ▸ Nat.lt_irrefl 0)
    intro o
    have hno : s.calls o = .idle := by
      by_contra hcall
      refine hcall ?_
      rw [h.callers o hcall, ← h.home c sc hc, hl, hidle]
    exact ⟨by simp [ServerState.setPc, ServerState.setFunctors, hno],
      by simp [ServerState.setPc, ServerState.setFunctors, hno]⟩
  rw [hrun]
  refine ⟨hset.pool, hset.home, hset.callers, hset.tested, hset.hangup, hset.functors, hset.prompt, ?_⟩
  intro d sd hd hpos
  by_cases hdc : d = c
  · subst hdc
    cases (Function.update_self ..).symm.trans hd
    exact ⟨hstate, .inr (by rw [hl]; exact Function.update_self ..)⟩
  · exact hset.destroyed d sd hd (Nat.lt_of_lt_of_eq hpos (Function.update_of_ne hdc ..))

/-- `connectDestroyed` after its callback. -/
theorem Alone.endDestroyed (h : s.Alone) (hlaw : s.Lawful) (hpc : s.pcs l = .destroying c)
    (hc : s.conns c = some sc) :
    (s.after c sc (sc.conn.endDestroyed.map (·, [])) (·.setPc l .batch)).Alone := by
  rw [hlaw.endDestroyed_eq hpc hc]
  have hset : (s.setConn c { sc with conn := { sc.conn with channel_ := .new } }).Alone :=
    h.setConn hc (.inl rfl) fun hpos => ⟨(h.destroyed c sc hc hpos).1, .inl rfl⟩
  refine hset.setPc (fun _ hm => absurd hm List.not_mem_nil) ?_ ?_
  · intro d hd
    have hdisp := h.prompt l d hd
    rw [hpc] at hdisp
    cases hdisp
  · intro d sd hd hin
    cases hpc.symm.trans hin
    cases (Function.update_self ..).symm.trans hd
    rfl

/-- The loop goes on among the active channels it has, or leaves them. -/
theorem Alone.forward (h : s.Alone) {pc pc' : IoLoopPc} (hpc : s.pcs l = pc)
    (hnot : ∀ c, pc ≠ .destroying c) (hreported : pc'.reported ⊆ pc.reported)
    (hdisp : pc.dispatching = true → pc'.dispatching = true) : (s.setPc l pc').Alone := by
  subst hpc
  exact h.setPc (fun revents hm => h.hangup l revents (hreported hm))
    (fun c hd => hdisp (h.prompt l c hd)) fun c _ _ hin => absurd hin (hnot c)

/-- What epoll reports of a connection that is read from is no hang-up. -/
theorem Alone.poll [DecidableEq T] (h : s.Alone) (hlaw : s.Lawful) (hpc : s.pcs l = .idle)
    (hrep : active.all (s.MayReport l) = true) (hown : s.OwnCalls (.loop l (.poll active)) = true) :
    (s.setPc l (.handlers active)).Alone := by
  refine h.setPc ?_ (fun _ _ => rfl) fun c _ _ hin => nomatch hpc.symm.trans hin
  intro revents hm
  obtain ⟨p, hp, rfl⟩ := List.mem_map.mp hm
  obtain ⟨sc, hc, hsc⟩ := (Option.any_eq_true ..).mp (List.all_eq_true.mp hrep p hp)
  obtain ⟨hl, hmask⟩ := Bool.and_eq_true_iff.mp hsc
  obtain ⟨mask, hw, -⟩ := (Option.any_eq_true ..).mp hmask
  have hread := h.reading hlaw hc ((of_decide_eq_true hl).symm ▸ hpc) hw
  have hboth := List.all_eq_true.mp hown p hp
  simp only [hc, Option.all_some, hread, Bool.true_and, decide_eq_true_eq] at hboth
  simp only [Events.hangup, Bool.and_eq_false_iff, Bool.not_eq_false']
  by_cases hhup : p.2.pollhup = true
  · exact .inr (hboth hhup)
  · exact .inl (Bool.eq_false_iff.mpr hhup)

theorem Alone.callWrite (h : s.Alone) (hlaw : s.Lawful) {w : WriteResult}
    (hpc : s.pcs l = .event c revents (.write :: todo) inMessage active) (hc : s.conns c = some sc)
    (hw : w.Within sc.conn.outputBuffer_.length) :
    (s.after c sc (sc.conn.handleWrite w) (·.setPc l (.event c revents todo false active))).Alone := by
  obtain ⟨conn, es, hrun, hwrote⟩ := TcpConnection.handleWrite_spec (hlaw.wf hc) hw
  rw [after_quiet hrun hwrote.noClose]
  refine (h.quiet hc hwrote.toQuiet ?_).forward hpc (by simp) (List.Subset.refl _) id
  intro hpos
  obtain ⟨-, hnew | hin⟩ := h.destroyed c sc hc hpos
  · -- a channel that was removed is not writing
    have hoff : sc.conn.channel_.isWriting = false := by rw [hnew]; rfl
    simp only [TcpConnection.handleWrite, hoff, Bool.false_eq_true, if_false] at hrun
    cases hrun
    rfl
  · rw [hlaw.loop_of_event hpc hc, hpc] at hin
    cases hin

theorem Alone.callRead (h : s.Alone) (hlaw : s.Lawful) {r : ReadResult}
    (hpc : s.pcs l = .event c revents (.read :: todo) inMessage active) (hc : s.conns c = some sc) :
    (s.after c sc (sc.conn.handleRead r) (·.setPc l
      (.event c revents todo (r = .data && sc.conn.messageCallback_) active))).Alone := by
  cases r with
  | data =>
    rw [TcpConnection.handleRead, after_idle hc fun t => by split <;> rfl]
    exact h.forward hpc (by simp) (List.Subset.refl _) id
  | error =>
    rw [TcpConnection.handleRead, TcpConnection.handleError, after_idle hc fun _ => rfl]
    exact h.forward hpc (by simp) (List.Subset.refl _) id
  | eof => exact h.close hlaw hpc hc _

theorem Alone.sendHere [DecidableEq T] (h : s.Alone) (hlaw : s.Lawful) {o : Caller T L} {w : WriteResult}
    {message : List UInt8} (hcall : s.calls o = .sending c message) (hc : s.conns c = some sc) :
    (s.after c sc (sc.conn.sendInLoop message w) (·.setCall o .idle)).Alone := by
  obtain ⟨conn, es, hrun, hsent⟩ := TcpConnection.sendInLoop_spec (hlaw.wf hc) message w
  rw [after_quiet hrun hsent.noClose]
  refine (h.quiet hc hsent.toQuiet ?_).setCall (absurd rfl) (by simp)
  intro hpos
  obtain ⟨sd, hd, hconnected⟩ := h.tested o c (.inl ⟨message, hcall⟩)
  cases hc.symm.trans hd
  cases hconnected.symm.trans (h.destroyed c sc hc hpos).1

theorem Alone.shutSet [DecidableEq T] (h : s.Alone) {o : Caller T L} (hcall : s.calls o = .shutting c)
    (hc : s.conns c = some sc) :
    ((s.setConn c { sc with conn := { sc.conn with state_ := .kDisconnecting } }).setCall o
      (.shut c)).Alone := by
  have ho : o = .loop s.server.loop_ := h.callers o (by rw [hcall]; nofun)
  have hshut : (s.setCall o (.shut c)).Alone := h.setCall (fun _ => ho) (by simp)
  refine hshut.setConn hc (.inr ?_) ?_
  · intro o'
    by_cases heq : o' = o
    · subst heq
      simp [ServerState.setCall]
    · have hno : s.calls o' = .idle := by
        by_contra hne
        exact heq ((h.callers o' hne).trans ho.symm)
      simp [ServerState.setCall, Function.update_of_ne heq, hno]
  · intro hpos
    obtain ⟨sd, hd, hconnected⟩ := h.tested o c (.inr hcall)
    cases hc.symm.trans hd
    cases hconnected.symm.trans (h.destroyed c sc hc hpos).1

end ServerState

end Netfish
