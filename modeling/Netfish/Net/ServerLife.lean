import Netfish.Net.ServerThreads

/-!
# The life of a server's connections

A connection of a server goes through five stages: accepted, established, closing, removed,
destroyed. `Stage.tally` is the table of what is queued, called and listed in each, `Lawful` the
invariant that says every connection stands in one of them, and the rules below say how a `Lawful`
state changes: the steps that move no connection to another stage, and, in `Lawful.advance`, those
that move one.
-/

set_option autoImplicit false

namespace Netfish

open Kit

universe u v

/-- What a server holds about one connection: its queued functors that come once in a life, how often
its two ends were called, and its entry in `connections_`. -/
structure Tally where
  toEstablish : Nat
  toRemove : Nat
  toDestroy : Nat
  closes : Nat
  destroys : Nat
  entry : Option Nat

inductive Stage where
  /-- `connectEstablished` is queued. -/
  | accepted
  | established
  /-- `closeCallback_` was called, and `removeConnectionInLoop` is queued. -/
  | closing
  /-- Out of `connections_`, and `connectDestroyed` is queued. -/
  | removed
  | destroyed
deriving DecidableEq, Repr

namespace Stage

/-- The table of the stages. -/
def tally (c : Nat) : Stage → Tally
  | .accepted => ⟨1, 0, 0, 0, 0, some c⟩
  | .established => ⟨0, 0, 0, 0, 0, some c⟩
  | .closing => ⟨0, 1, 0, 1, 0, some c⟩
  | .removed => ⟨0, 0, 1, 1, 0, none⟩
  | .destroyed => ⟨0, 0, 0, 1, 1, none⟩

/-- The state a connection may be in. A late `setState(kDisconnecting)` may follow
`connectDestroyed`. -/
def Allows : Stage → StateE → Prop
  | .accepted, state => state = .kConnecting
  | .destroyed, state => state = .kDisconnecting ∨ state = .kDisconnected
  | _, state => state = .kConnected ∨ state = .kDisconnecting

/-- The connection stands as the stage asks: only an established one has interest in reading. -/
structure Fits (stage : Stage) (conn : TcpConnection) : Prop where
  wf : conn.channel_.Wf
  interest : conn.channel_.events_.minus kWriteEvent =
    if stage = .established then kReadEvent else .none
  state : stage.Allows conn.state_

end Stage

/-- Interest in reading. -/
def ServerConn.reading {L : Type v} (sc : ServerConn L) : Bool := sc.conn.channel_.events_.pollin

/-- The connection is between the two halves of `connectDestroyed`. -/
structure ServerConn.Destroying {L : Type v} (sc : ServerConn L) : Prop where
  none : sc.conn.channel_.events_ = .none
  registered : sc.conn.channel_.index_ ≠ .kNew
  state : Stage.destroyed.Allows sc.conn.state_

/-- The loop in whose queue a functor belongs. -/
def ServerFunctor.home {L : Type v} (f : ServerFunctor) (loop : L) (sc : ServerConn L) : L :=
  match f with
  | .removeConnectionInLoop _ => loop
  | _ => sc.loop_

/-- The functors that come once in a life. -/
def ServerFunctor.once : ServerFunctor → Bool
  | .connectEstablished _ => true
  | .removeConnectionInLoop _ => true
  | .connectDestroyed _ => true
  | _ => false

/-- The stage of a connection with such a functor in a queue. -/
def ServerFunctor.Fires : ServerFunctor → Stage → Prop
  | .connectEstablished _, stage => stage = .accepted
  | .removeConnectionInLoop _, stage => stage = .closing
  | .connectDestroyed _, stage => stage = .removed
  | _, _ => True

namespace Stage

variable {stage : Stage} {conn : TcpConnection}

theorem Fits.reading (h : stage.Fits conn) :
    conn.channel_.events_.pollin = true ↔ stage = .established := by
  rw [← Events.minus_write_pollin, h.interest]
  split <;> simp_all [kReadEvent, Events.none]

/-- Only an established connection is reported readable. -/
theorem Fits.readable (h : stage.Fits conn) {revents : Events}
    (hrep : conn.channel_.events_.Reports revents) (hread : revents.readable = true) :
    conn.channel_.events_.pollin = true := by
  rw [h.reading]
  by_contra hno
  have hnone := h.interest
  rw [if_neg hno] at hnone
  have hin : conn.channel_.events_.pollin = false := by
    rw [← Events.minus_write_pollin, hnone]; rfl
  have hpri : conn.channel_.events_.pollpri = false := by
    rw [← Events.minus_write_pollpri, hnone]; rfl
  have hrdhup : conn.channel_.events_.pollrdhup = false := by
    rw [← Events.minus_write_pollrdhup, hnone]; rfl
  simp only [Events.readable, Bool.or_eq_true] at hread
  rcases hread with (hread | hread) | hread
  · exact absurd (hrep.1 hread) (by simp [hin])
  · exact absurd (hrep.2.1 hread) (by simp [hpri])
  · exact absurd (hrep.2.2.2.2 hread) (by simp [hrdhup])

/-- A connection with interest in reading is in use, and nobody has called its ends. -/
theorem Fits.inUse (h : stage.Fits conn) (hs : stage ≠ .accepted) (hd : stage ≠ .destroyed) :
    conn.inUse = true := by
  have hstate := h.state
  cases stage <;> simp_all [Allows, TcpConnection.inUse]

theorem Fits.quiet (h : stage.Fits conn) {conn' : TcpConnection} {es : List ConnEffect}
    (hq : conn.Quiet conn' es) : stage.Fits conn' :=
  ⟨hq.wf, hq.interest.trans h.interest, hq.state ▸ h.state⟩

theorem Fits.new (messageCallback writeCompleteCallback : Bool) :
    Stage.accepted.Fits (.new messageCallback writeCompleteCallback) :=
  ⟨Channel.new_wf, rfl, rfl⟩

theorem Fits.connectEstablished (h : Stage.accepted.Fits conn) : ∃ conn',
    conn.connectEstablished = .ok (conn', [.connectionCallback]) ∧ Stage.established.Fits conn' := by
  obtain ⟨channel, hrun, hwf, hev, -⟩ := TcpConnection.connectEstablished_spec h.wf h.state
  refine ⟨_, hrun, hwf, ?_, .inl rfl⟩
  rw [hev, Events.union_read_minus h.interest]
  rfl

theorem Fits.handleClose (h : Stage.established.Fits conn) : ∃ conn',
    conn.handleClose = .ok (conn', [.closeCallback]) ∧ Stage.closing.Fits conn' ∧
      Stage.removed.Fits conn' := by
  obtain ⟨channel, hrun, hwf, hev, -⟩ := TcpConnection.handleClose_spec h.wf (h.inUse nofun nofun)
  exact ⟨_, hrun, ⟨hwf, by rw [hev]; rfl, h.state⟩, ⟨hwf, by rw [hev]; rfl, h.state⟩⟩

theorem Fits.beginDestroyed (h : Stage.removed.Fits conn) : ∃ conn',
    conn.beginDestroyed = .ok (conn', [.connectionCallback]) ∧ Stage.destroyed.Fits conn' ∧
      conn'.channel_.events_ = .none ∧ conn'.channel_.index_ ≠ .kNew := by
  obtain ⟨channel, hrun, hwf, hev, hnew⟩ :=
    TcpConnection.beginDestroyed_spec h.wf (h.inUse nofun nofun)
  exact ⟨_, hrun, ⟨hwf, by rw [hev]; rfl, .inr rfl⟩, hev, hnew⟩

theorem Fits.started (h : stage.Fits conn) (hs : stage ≠ .accepted) :
    conn.state_ ≠ .kConnecting := by
  have hstate := h.state
  cases stage <;> simp_all [Allows] <;> rcases hstate with hstate | hstate <;> simp [hstate]

theorem tally_closes_le (stage : Stage) (c : Nat) :
    (stage.tally c).closes ≤ 1 ∧ (stage.tally c).destroys ≤ 1 := by
  cases stage <;> simp [tally]

end Stage

namespace ServerState

variable {T : Type u} {L : Type v}

/-- How often a functor waits in the queue of a loop. -/
def pending (s : ServerState T L) (l : L) (f : ServerFunctor) : Nat :=
  (s.functors l).toList.count f

def tally (s : ServerState T L) (c : Nat) (sc : ServerConn L) : Tally where
  toEstablish := s.pending sc.loop_ (.connectEstablished c)
  toRemove := s.pending s.server.loop_ (.removeConnectionInLoop c)
  toDestroy := s.pending sc.loop_ (.connectDestroyed c)
  closes := s.closes c
  destroys := s.destroys c
  entry := s.server.connections_ sc.name_

/-- The connection is one of this loop, and stands so. -/
def Serves (s : ServerState T L) (l : L) (c : Nat) (P : ServerConn L → Prop) : Prop :=
  ∃ sc, s.conns c = some sc ∧ sc.loop_ = l ∧ P sc

/-- The active channels still to come, one for each connection; those reported readable have
interest in reading. -/
def Waiting (s : ServerState T L) (l : L) (active : List (Nat × Events)) : Prop :=
  (active.map Prod.fst).Nodup ∧
    ∀ p ∈ active, s.Serves l p.1 fun sc => p.2.readable = true → sc.reading = true

/-- In `handleEvent`: unless the close callback is one of its calls, the connection has interest in
reading until the read callback is called; once the close callback has been called it counts. -/
structure Handling (s : ServerState T L) (l : L) (c : Nat) (revents : Events)
    (todo : List ChannelCallback) : Prop where
  suffix : todo <:+ Channel.handleEvent revents
  reading : s.Serves l c fun sc => .read ∈ todo → revents.hangup = false → sc.reading = true
  closed : revents.hangup = true → .close ∉ todo → 0 < s.closes c

/-- What holds where the loop stands. -/
def Allows (s : ServerState T L) (l : L) : IoLoopPc → Prop
  | .idle => (s.functors l).batch = []
  | .handlers active => (s.functors l).batch = [] ∧ s.Waiting l active
  | .event c revents todo _ active =>
    (s.functors l).batch = [] ∧ s.Waiting l active ∧ c ∉ active.map Prod.fst ∧
      s.Handling l c revents todo
  | .batch => True
  | .destroying c =>
    s.Serves l c ServerConn.Destroying ∧ ∀ message, s.calls (.loop l) ≠ .sending c message

/-- The invariant. -/
structure Lawful (s : ServerState T L) : Prop where
  noFault : s.fault = none
  placed : ∀ l, ∀ f ∈ (s.functors l).toList, ∃ sc, s.conns f.conn = some sc ∧
    f.home s.server.loop_ sc = l
  unborn : ∀ c, s.conns c = none → s.closes c = 0 ∧ s.destroys c = 0
  numbered : ∀ c sc, s.conns c = some sc →
    c < s.server.nextConnId_ ∧ sc.name_ = connName s.server.name_ c
  shutting : ∀ o c, s.calls o = .shutting c →
    ∃ sc, s.conns c = some sc ∧ sc.conn.state_ ≠ .kConnecting
  staged : ∀ c sc, s.conns c = some sc →
    ∃ stage : Stage, s.tally c sc = stage.tally c ∧ stage.Fits sc.conn
  allowed : ∀ l, s.Allows l (s.pcs l)

theorem start_lawful (server : TcpServer L) : (start server : ServerState T L).Lawful where
  noFault := rfl
  placed _ _ hf := absurd hf List.not_mem_nil
  unborn _ _ := ⟨rfl, rfl⟩
  numbered _ _ := nofun
  shutting _ _ := nofun
  staged _ _ := nofun
  allowed _ := rfl

/-! ## What a step may change -/

section

variable {s s' : ServerState T L} {l : L} {c : Nat} {sc sc' : ServerConn L} {pc : IoLoopPc}

/-- The connections of the loop keep what `Allows` asks of them where the loop stands. -/
def Carries (s s' : ServerState T L) (l : L) (pc : IoLoopPc) : Prop :=
  ∀ d sd, s.conns d = some sd → sd.loop_ = l → ∃ sd', s'.conns d = some sd' ∧ sd'.loop_ = l ∧
    (sd.reading = true → sd'.reading = true) ∧ (pc = .destroying d → sd.Destroying → sd'.Destroying)

theorem Carries.of_eq (h : s'.conns = s.conns) : s.Carries s' l pc :=
  fun _ sd hd hl => ⟨sd, h ▸ hd, hl, id, fun _ => id⟩

/-- The connections of other loops are not concerned. -/
theorem Carries.elsewhere (hc : s.conns c = some sc)
    (hconns : s'.conns = Function.update s.conns c (some sc')) (hl : l ≠ sc.loop_) :
    s.Carries s' l pc := by
  intro d sd hd hsd
  have hdc : d ≠ c := by
    rintro rfl
    cases hc.symm.trans hd
    exact hl hsd.symm
  exact ⟨sd, by rw [hconns, Function.update_of_ne hdc, hd], hsd, id, fun _ => id⟩

theorem Waiting.carry (hcarry : s.Carries s' l pc) {active : List (Nat × Events)}
    (h : s.Waiting l active) : s'.Waiting l active := by
  refine ⟨h.1, ?_⟩
  intro p hp
  obtain ⟨sd, hd, hl, hread⟩ := h.2 p hp
  obtain ⟨sd', hd', hl', hread', -⟩ := hcarry p.1 sd hd hl
  exact ⟨sd', hd', hl', fun hr => hread' (hread hr)⟩

theorem Handling.carry (hcarry : s.Carries s' l pc) (hcloses : s.closes c ≤ s'.closes c)
    {revents : Events} {todo : List ChannelCallback} (h : s.Handling l c revents todo) :
    s'.Handling l c revents todo where
  suffix := h.suffix
  reading := by
    obtain ⟨sd, hd, hl, hread⟩ := h.reading
    obtain ⟨sd', hd', hl', hread', -⟩ := hcarry c sd hd hl
    exact ⟨sd', hd', hl', fun hm hh => hread' (hread hm hh)⟩
  closed hh hm := Nat.lt_of_lt_of_le (h.closed hh hm) hcloses

/-- What is still to come of `handleEvent`, one callback later. -/
theorem Handling.tail {revents : Events} {cb : ChannelCallback} {todo : List ChannelCallback}
    (h : s.Handling l c revents (cb :: todo)) (hcb : cb ≠ .close) :
    s.Handling l c revents todo where
  suffix := (List.suffix_cons cb todo).trans h.suffix
  reading := by
    obtain ⟨sd, hd, hl, hread⟩ := h.reading
    exact ⟨sd, hd, hl, fun hm => hread (List.mem_cons_of_mem cb hm)⟩
  closed hh hm := h.closed hh fun hmem =>
    (List.mem_cons.mp hmem).elim (fun heq => hcb heq.symm) hm

/-- A loop that stays where it is. -/
theorem Allows.carry (h : s.Allows l pc) (hcarry : s.Carries s' l pc)
    (hbatch : pc ≠ .batch → (s.functors l).batch = [] → (s'.functors l).batch = [])
    (hcloses : ∀ d, s.closes d ≤ s'.closes d)
    (hcalls : ∀ d message, pc = .destroying d → s.calls (.loop l) ≠ .sending d message →
      s'.calls (.loop l) ≠ .sending d message) : s'.Allows l pc := by
  cases pc with
  | idle => exact hbatch nofun h
  | handlers active => exact ⟨hbatch nofun h.1, h.2.carry hcarry⟩
  | event d revents todo inMessage active =>
    exact ⟨hbatch nofun h.1, h.2.1.carry hcarry, h.2.2.1, h.2.2.2.carry hcarry (hcloses d)⟩
  | batch => trivial
  | destroying d =>
    obtain ⟨⟨sd, hd, hl, hdes⟩, hcall⟩ := h
    obtain ⟨sd', hd', hl', -, hdes'⟩ := hcarry d sd hd hl
    exact ⟨⟨sd', hd', hl', hdes' rfl hdes⟩, fun message => hcalls d message rfl (hcall message)⟩

/-- Where the queued functors of a connection and its entry are the same, so is the tally. -/
theorem tally_congr (hloop : s'.server.loop_ = s.server.loop_)
    (hpending : ∀ l f, f.conn = c → f.once = true → s'.pending l f = s.pending l f)
    (hcloses : s'.closes c = s.closes c) (hdestroys : s'.destroys c = s.destroys c)
    (hentry : s'.server.connections_ sc.name_ = s.server.connections_ sc.name_) :
    s'.tally c sc = s.tally c sc := by
  simp only [tally, hloop, hcloses, hdestroys, hentry]
  rw [hpending, hpending, hpending] <;> rfl

theorem tally_countDestroy :
    (s.countDestroy c).tally c sc = { s.tally c sc with destroys := s.destroys c + 1 } := by
  simp only [tally, countDestroy, Function.update_self]
  rfl

theorem tally_countDestroy_ne {d : Nat} (hd : d ≠ c) :
    (s.countDestroy c).tally d sc = s.tally d sc := by
  simp only [tally, countDestroy, Function.update_of_ne hd]
  rfl

theorem tally_countClose :
    (s.countClose c).tally c sc = { s.tally c sc with closes := s.closes c + 1 } := by
  simp only [tally, countClose, Function.update_self]
  rfl

theorem tally_countClose_ne {d : Nat} (hd : d ≠ c) :
    (s.countClose c).tally d sc = s.tally d sc := by
  simp only [tally, countClose, Function.update_of_ne hd]
  rfl

/-- The entry of the connection is erased. -/
def eraseEntry (s : ServerState T L) (sc : ServerConn L) : ServerState T L :=
  { s with server := (s.server.erase sc.name_).2 }

theorem tally_eraseEntry : (s.eraseEntry sc).tally c sc = { s.tally c sc with entry := none } := by
  simp only [tally, eraseEntry, TcpServer.erase, Function.update_self]
  rfl

theorem tally_eraseEntry_ne {sd : ServerConn L} (hne : sd.name_ ≠ sc.name_) :
    (s.eraseEntry sc).tally c sd = s.tally c sd := by
  simp only [tally, eraseEntry, TcpServer.erase, Function.update_of_ne hne]
  rfl

theorem Lawful.name_ne (h : s.Lawful) (hc : s.conns c = some sc) {d : Nat} {sd : ServerConn L}
    (hd : s.conns d = some sd) (hne : d ≠ c) : sd.name_ ≠ sc.name_ := by
  rw [(h.numbered c sc hc).2, (h.numbered d sd hd).2]
  exact fun heq => hne (connName_inj heq)

/-- A connection moves to another stage, or stays in its own. -/
theorem Lawful.advance (h : s.Lawful) (hc : s.conns c = some sc)
    (hconns : s'.conns = Function.update s.conns c (some sc'))
    (hsame : sc'.loop_ = sc.loop_ ∧ sc'.name_ = sc.name_)
    (hserver : s'.server.loop_ = s.server.loop_ ∧ s'.server.name_ = s.server.name_ ∧
      s'.server.nextConnId_ = s.server.nextConnId_)
    (hfault : s'.fault = none) (hcalls : s'.calls = s.calls)
    (hplaced : ∀ l, ∀ f ∈ (s'.functors l).toList, f ∈ (s.functors l).toList ∨
      f.conn = c ∧ f.home s.server.loop_ sc = l)
    (hhistory : ∀ d, d ≠ c → s'.closes d = s.closes d ∧ s'.destroys d = s.destroys d)
    (htally : ∀ d sd, d ≠ c → s.conns d = some sd → s'.tally d sd = s.tally d sd)
    (hstage : ∃ stage : Stage, s'.tally c sc' = stage.tally c ∧ stage.Fits sc'.conn)
    (hstate : sc.conn.state_ ≠ .kConnecting → sc'.conn.state_ ≠ .kConnecting)
    (hallowed : ∀ l, s'.Allows l (s'.pcs l)) : s'.Lawful where
  noFault := hfault
  placed l f hf := by
    rw [hserver.1, hconns]
    by_cases hfc : f.conn = c
    · rw [hfc, Function.update_self]
      refine ⟨sc', rfl, ?_⟩
      have hhome : f.home s.server.loop_ sc' = f.home s.server.loop_ sc := by
        cases f <;> first | rfl | exact hsame.1
      rcases hplaced l f hf with hf | ⟨-, hf⟩
      · obtain ⟨sd, hd, hl⟩ := h.placed l f hf
        cases hc.symm.trans (hfc ▸ hd)
        rw [hhome, hl]
      · rw [hhome, hf]
    · rw [Function.update_of_ne hfc]
      exact h.placed l f ((hplaced l f hf).resolve_right fun hf => hfc hf.1)
  unborn d hd := by
    have hdc : d ≠ c := by
      rintro rfl
      rw [hconns, Function.update_self] at hd
      cases hd
    rw [hconns, Function.update_of_ne hdc] at hd
    obtain ⟨hcl, hde⟩ := hhistory d hdc
    rw [hcl, hde]
    exact h.unborn d hd
  numbered d sd hd := by
    rw [hconns] at hd
    rw [hserver.2.1, hserver.2.2]
    by_cases hdc : d = c
    · subst hdc
      rw [Function.update_self] at hd
      cases hd
      rw [hsame.2]
      exact h.numbered d sc hc
    · rw [Function.update_of_ne hdc] at hd
      exact h.numbered d sd hd
  shutting o d hd := by
    obtain ⟨sd, hsd, hst⟩ := h.shutting o d (hcalls ▸ hd)
    rw [hconns]
    by_cases hdc : d = c
    · subst hdc
      cases hc.symm.trans hsd
      exact ⟨sc', Function.update_self .., hstate hst⟩
    · exact ⟨sd, (Function.update_of_ne hdc ..).trans hsd, hst⟩
  staged d sd hd := by
    rw [hconns] at hd
    by_cases hdc : d = c
    · subst hdc
      rw [Function.update_self] at hd
      cases hd
      exact hstage
    · rw [Function.update_of_ne hdc] at hd
      obtain ⟨stage, hst, hfits⟩ := h.staged d sd hd
      exact ⟨stage, (htally d sd hdc hd).trans hst, hfits⟩
  allowed := hallowed

theorem Lawful.wf (h : s.Lawful) (hc : s.conns c = some sc) : sc.conn.channel_.Wf := by
  obtain ⟨stage, -, hfits⟩ := h.staged c sc hc
  exact hfits.wf

/-- The next number is not in use. -/
theorem Lawful.fresh (h : s.Lawful) : s.conns s.server.nextConnId_ = none := by
  cases hc : s.conns s.server.nextConnId_ with
  | none => rfl
  | some sc => exact absurd (h.numbered _ sc hc).1 (Nat.lt_irrefl _)

/-- Nothing is queued, called or listed for the next connection before it is made. -/
theorem Lawful.tally_fresh (h : s.Lawful) {server : TcpServer L}
    (hentry : server.connections_ sc.name_ = some s.server.nextConnId_) :
    { s with server }.tally s.server.nextConnId_ sc =
      Stage.established.tally s.server.nextConnId_ := by
  have hnone : ∀ l f, f.conn = s.server.nextConnId_ → (s.functors l).toList.count f = 0 := by
    refine fun l f hf => List.count_eq_zero.mpr ?_
    intro hm
    obtain ⟨sd, hd, -⟩ := h.placed l f hm
    rw [hf, h.fresh] at hd
    cases hd
  obtain ⟨hcloses, hdestroys⟩ := h.unborn _ h.fresh
  simp only [tally, pending, Stage.tally, hcloses, hdestroys, hentry]
  rw [hnone _ _ rfl, hnone _ _ rfl, hnone _ _ rfl]

/-- A connection is made with the next number. -/
theorem Lawful.born (h : s.Lawful) (hc : c = s.server.nextConnId_)
    (hconns : s'.conns = Function.update s.conns c (some sc))
    (hname : sc.name_ = connName s.server.name_ c)
    (hserver : s'.server.loop_ = s.server.loop_ ∧ s'.server.name_ = s.server.name_ ∧
      s'.server.nextConnId_ = c + 1)
    (hfault : s'.fault = none) (hcalls : s'.calls = s.calls) (hpcs : s'.pcs = s.pcs)
    (hhistory : s'.closes = s.closes ∧ s'.destroys = s.destroys)
    (hplaced : ∀ l, ∀ f ∈ (s'.functors l).toList, f ∈ (s.functors l).toList ∨
      f.conn = c ∧ f.home s.server.loop_ sc = l)
    (hbatch : ∀ l, (s'.functors l).batch = (s.functors l).batch)
    (htally : ∀ d sd, d ≠ c → sd.name_ ≠ sc.name_ → s'.tally d sd = s.tally d sd)
    (hstage : ∃ stage : Stage, s'.tally c sc = stage.tally c ∧ stage.Fits sc.conn) :
    s'.Lawful where
  noFault := hfault
  placed l f hf := by
    rw [hserver.1, hconns]
    rcases hplaced l f hf with hf | ⟨rfl, hf⟩
    · obtain ⟨sd, hd, hl⟩ := h.placed l f hf
      refine ⟨sd, ?_, hl⟩
      rw [Function.update_of_ne, hd]
      rintro heq
      rw [heq, hc, h.fresh] at hd
      cases hd
    · exact ⟨sc, Function.update_self .., hf⟩
  unborn d hd := by
    have hdc : d ≠ c := by
      rintro rfl
      rw [hconns, Function.update_self] at hd
      cases hd
    rw [hconns, Function.update_of_ne hdc] at hd
    rw [hhistory.1, hhistory.2]
    exact h.unborn d hd
  numbered d sd hd := by
    rw [hserver.2.1, hserver.2.2]
    rw [hconns] at hd
    by_cases hdc : d = c
    · subst hdc
      rw [Function.update_self] at hd
      cases hd
      exact ⟨Nat.lt_succ_self _, hname⟩
    · rw [Function.update_of_ne hdc] at hd
      obtain ⟨hlt, hsd⟩ := h.numbered d sd hd
      exact ⟨Nat.lt_succ_of_lt (hc ▸ hlt), hsd⟩
  shutting o d hd := by
    obtain ⟨sd, hsd, hst⟩ := h.shutting o d (hcalls ▸ hd)
    refine ⟨sd, ?_, hst⟩
    rw [hconns, Function.update_of_ne, hsd]
    rintro rfl
    rw [hc, h.fresh] at hsd
    cases hsd
  staged d sd hd := by
    rw [hconns] at hd
    by_cases hdc : d = c
    · subst hdc
      rw [Function.update_self] at hd
      cases hd
      exact hstage
    · rw [Function.update_of_ne hdc] at hd
      obtain ⟨stage, hst, hfits⟩ := h.staged d sd hd
      refine ⟨stage, (htally d sd hdc ?_).trans hst, hfits⟩
      rw [hname, (h.numbered d sd hd).2]
      exact fun heq => hdc (connName_inj heq)
  allowed l := by
    rw [hpcs]
    refine (h.allowed l).carry (fun d sd hd hl => ⟨sd, ?_, hl, id, fun _ => id⟩)
      (fun _ hb => (hbatch l).trans hb) (fun _ => Nat.le_of_eq (by rw [hhistory.1])) ?_
    · rw [hconns, Function.update_of_ne, hd]
      rintro rfl
      rw [hc, h.fresh] at hd
      cases hd
    · intro d message _ hno
      rw [hcalls]
      exact hno

/-- A queued functor tells the loop, and one that comes once the stage, of its connection. -/
theorem Lawful.stage_of_queued (h : s.Lawful) {f : ServerFunctor}
    (hm : f ∈ (s.functors l).toList) (hfc : f.conn = c) : ∃ sc stage, s.conns c = some sc ∧
      f.home s.server.loop_ sc = l ∧ s.tally c sc = stage.tally c ∧ stage.Fits sc.conn ∧
      f.Fires stage := by
  subst hfc
  obtain ⟨sc, hc, hl⟩ := h.placed l f hm
  obtain ⟨stage, htally, hfits⟩ := h.staged f.conn sc hc
  refine ⟨sc, stage, hc, hl, htally, hfits, ?_⟩
  have hpos : 0 < s.pending (f.home s.server.loop_ sc) f := List.count_pos_iff.mpr (hl ▸ hm)
  simp only [tally] at htally
  cases f with
  | connectEstablished c =>
    have hcount := congrArg Tally.toEstablish htally
    cases stage <;> simp_all [Stage.tally, ServerFunctor.conn, ServerFunctor.home,
      ServerFunctor.Fires]
  | removeConnectionInLoop c =>
    have hcount := congrArg Tally.toRemove htally
    cases stage <;> simp_all [Stage.tally, ServerFunctor.conn, ServerFunctor.home,
      ServerFunctor.Fires]
  | connectDestroyed c =>
    have hcount := congrArg Tally.toDestroy htally
    cases stage <;> simp_all [Stage.tally, ServerFunctor.conn, ServerFunctor.home,
      ServerFunctor.Fires]
  | _ => trivial

/-- The loops of other connections stay where they are. -/
theorem Lawful.allowed_of_ne (h : s.Lawful) (hc : s.conns c = some sc)
    (hconns : s'.conns = Function.update s.conns c (some sc')) (hl : l ≠ sc.loop_)
    (hpc : s'.pcs l = s.pcs l) (hbatch : (s'.functors l).batch = (s.functors l).batch)
    (hcloses : ∀ d, s.closes d ≤ s'.closes d) (hcalls : s'.calls = s.calls) :
    s'.Allows l (s'.pcs l) := by
  rw [hpc]
  refine (h.allowed l).carry (.elsewhere hc hconns hl) (fun _ hb => hbatch.trans hb) hcloses ?_
  intro d message _ hno
  rw [hcalls]
  exact hno

theorem Lawful.handling (h : s.Lawful) {revents : Events} {todo : List ChannelCallback}
    {inMessage : Bool} {active : List (Nat × Events)}
    (hpc : s.pcs l = .event c revents todo inMessage active) : s.Handling l c revents todo := by
  have hal := h.allowed l
  rw [hpc] at hal
  exact hal.2.2.2

/-- `handleEvent` of a connection runs in its loop. -/
theorem Lawful.loop_of_event (h : s.Lawful) {revents : Events} {todo : List ChannelCallback}
    {inMessage : Bool} {active : List (Nat × Events)}
    (hpc : s.pcs l = .event c revents todo inMessage active) (hc : s.conns c = some sc) :
    sc.loop_ = l := by
  obtain ⟨sd, hd, hl, -⟩ := (h.handling hpc).reading
  cases hc.symm.trans hd
  exact hl

/-- A connection changes within its stage. -/
theorem Lawful.setConn (h : s.Lawful) (hc : s.conns c = some sc) {conn : TcpConnection}
    (hfits : ∀ stage : Stage, stage.Fits sc.conn → stage.Fits conn)
    (hdes : s.pcs sc.loop_ = .destroying c → sc.Destroying →
      ({ sc with conn } : ServerConn L).Destroying) :
    (s.setConn c { sc with conn }).Lawful := by
  obtain ⟨stage, htally, hst⟩ := h.staged c sc hc
  have hst' := hfits stage hst
  refine h.advance hc rfl ⟨rfl, rfl⟩ ⟨rfl, rfl, rfl⟩ h.noFault rfl (fun _ _ => .inl)
    (fun _ _ => ⟨rfl, rfl⟩) (fun _ _ _ _ => rfl) ⟨stage, htally, hst'⟩ ?_ ?_
  · intro hne heq
    cases stage with
    | accepted => exact hne hst.state
    | destroyed => rcases hst'.state with h | h <;> cases heq.symm.trans h
    | _ => rcases hst'.state with h | h <;> cases heq.symm.trans h
  · intro l
    refine (h.allowed l).carry ?_ (fun _ => id) (fun _ => Nat.le_refl _) fun _ _ _ => id
    intro d sd hd hl
    by_cases hdc : d = c
    · subst hdc
      cases hc.symm.trans hd
      refine ⟨_, Function.update_self .., hl, ?_, fun hpc => hdes (hl ▸ hpc)⟩
      intro hread
      exact hst'.reading.mpr (hst.reading.mp hread)
    · exact ⟨sd, (Function.update_of_ne hdc ..).trans hd, hl, id, fun _ => id⟩

end

variable [DecidableEq L] {s : ServerState T L} {l : L} {c : Nat} {sc : ServerConn L}

/-- The queue of a loop is replaced. -/
def setFunctors (s : ServerState T L) (l : L) (q : BatchQueue ServerFunctor) : ServerState T L :=
  { s with functors := Function.update s.functors l q }

theorem pending_setFunctors (l' : L) (q : BatchQueue ServerFunctor) (f : ServerFunctor) :
    (s.setFunctors l q).pending l' f = if l' = l then q.toList.count f else s.pending l' f := by
  simp only [pending, setFunctors]
  split
  · next h => rw [h, Function.update_self]
  · next h => rw [Function.update_of_ne h]

theorem Lawful.setPc (h : s.Lawful) {pc : IoLoopPc} (hpc : s.Allows l pc) : (s.setPc l pc).Lawful where
  noFault := h.noFault
  placed := h.placed
  unborn := h.unborn
  numbered := h.numbered
  shutting := h.shutting
  staged := h.staged
  allowed l' := by
    by_cases hl : l' = l
    · subst hl
      simp only [ServerState.setPc, Function.update_self]
      exact hpc.carry (.of_eq rfl) (fun _ => id) (fun _ => Nat.le_refl _) fun _ _ _ => id
    · simp only [ServerState.setPc, Function.update_of_ne hl]
      exact (h.allowed l').carry (.of_eq rfl) (fun _ => id) (fun _ => Nat.le_refl _)
        fun _ _ _ => id

/-- The queue of a loop changes, but not in the functors that come once. -/
theorem Lawful.setFunctors (h : s.Lawful) {q : BatchQueue ServerFunctor}
    (honce : ∀ f, f.once = true → q.toList.count f = s.pending l f)
    (hplaced : ∀ f ∈ q.toList, f ∈ (s.functors l).toList ∨
      ∃ sc, s.conns f.conn = some sc ∧ f.home s.server.loop_ sc = l)
    (hbatch : s.pcs l ≠ .batch → (s.functors l).batch = [] → q.batch = []) :
    (s.setFunctors l q).Lawful where
  noFault := h.noFault
  placed l' f hf := by
    by_cases hl : l' = l
    · subst hl
      simp only [ServerState.setFunctors, Function.update_self] at hf
      rcases hplaced f hf with hf | hf
      · exact h.placed l' f hf
      · exact hf
    · simp only [ServerState.setFunctors, Function.update_of_ne hl] at hf
      exact h.placed l' f hf
  unborn := h.unborn
  numbered := h.numbered
  shutting := h.shutting
  staged d sd hd := by
    obtain ⟨stage, htally, hfits⟩ := h.staged d sd hd
    have hsame : (s.setFunctors l q).tally d sd = s.tally d sd := by
      refine tally_congr rfl ?_ rfl rfl rfl
      intro l' f _ hf
      rw [pending_setFunctors]
      split
      · next hl => rw [hl, honce f hf]
      · rfl
    exact ⟨stage, hsame.trans htally, hfits⟩
  allowed l' := by
    refine (h.allowed l').carry (.of_eq rfl) ?_ (fun _ => Nat.le_refl _) fun _ _ _ => id
    intro hpc hb
    by_cases hl : l' = l
    · subst hl
      simp only [ServerState.setFunctors, Function.update_self]
      exact hbatch hpc hb
    · simp only [ServerState.setFunctors, Function.update_of_ne hl]
      exact hb

/-- Functors of a connection that do not come once are queued. -/
theorem Lawful.pushAll (h : s.Lawful) (hc : s.conns c = some sc) (fs : List ServerFunctor)
    (hfs : ∀ f ∈ fs, f.conn = c ∧ f.once = false) :
    (s.setFunctors sc.loop_ ((s.functors sc.loop_).pushAll fs)).Lawful := by
  refine h.setFunctors ?_ ?_ fun _ => id
  · intro f hf
    have hnone : fs.count f = 0 := List.count_eq_zero.mpr fun hm => by
      simp [(hfs f hm).2] at hf
    rw [BatchQueue.toList_pushAll, List.count_append, hnone]
    rfl
  · intro f hf
    rw [BatchQueue.toList_pushAll] at hf
    rcases List.mem_append.mp hf with hf | hf
    · exact .inl hf
    · obtain ⟨rfl, honce⟩ := hfs f hf
      refine .inr ⟨sc, hc, ?_⟩
      cases f <;> first | rfl | cases honce

/-- A functor that does not come once leaves the batch. -/
theorem Lawful.pop (h : s.Lawful) {f : ServerFunctor} {rest : BatchQueue ServerFunctor}
    (hnext : (s.functors l).next = some (f, rest)) (hf : f.once = false) (hpc : s.pcs l = .batch) :
    (s.setFunctors l rest).Lawful := by
  have hlist := BatchQueue.toList_of_next hnext
  refine h.setFunctors ?_ ?_ fun hne => absurd hpc hne
  · intro g hg
    rw [pending, hlist, List.count_cons_of_ne]
    rintro rfl
    simp [hf] at hg
  · intro g hg
    exact .inl (hlist ▸ List.mem_cons_of_mem f hg)

theorem Lawful.setCall [DecidableEq T] (h : s.Lawful) {o : Caller T L} {call : ServerCall}
    (hshut : ∀ c, call = .shutting c → ∃ sc, s.conns c = some sc ∧ sc.conn.state_ ≠ .kConnecting)
    (hsend : ∀ l c message, o = .loop l → call = .sending c message → s.pcs l ≠ .destroying c) :
    (s.setCall o call).Lawful where
  noFault := h.noFault
  placed := h.placed
  unborn := h.unborn
  numbered := h.numbered
  shutting o' c hc := by
    by_cases ho : o' = o
    · subst ho
      simp only [ServerState.setCall, Function.update_self] at hc
      exact hshut c hc
    · simp only [ServerState.setCall, Function.update_of_ne ho] at hc
      exact h.shutting o' c hc
  staged := h.staged
  allowed l := by
    refine (h.allowed l).carry (.of_eq rfl) (fun _ => id) (fun _ => Nat.le_refl _) ?_
    intro d message hpc hno
    by_cases ho : .loop l = o
    · subst ho
      simp only [ServerState.setCall, Function.update_self]
      exact fun hcall => hsend l d message rfl hcall hpc
    · simp only [ServerState.setCall, Function.update_of_ne ho]
      exact hno

/-! ## The functors that come once -/

theorem pending_pop {f : ServerFunctor} {rest : BatchQueue ServerFunctor}
    (hnext : (s.functors l).next = some (f, rest)) (l' : L) (g : ServerFunctor) :
    (s.setFunctors l rest).pending l' g = s.pending l' g - if l' = l ∧ g = f then 1 else 0 := by
  rw [pending_setFunctors]
  by_cases hl : l' = l
  · subst hl
    rw [pending, BatchQueue.toList_of_next hnext]
    by_cases hg : g = f
    · simp [hg]
    · simp [hg, List.count_cons_of_ne (Ne.symm hg)]
  · simp [hl]

theorem pending_queueInLoop (f : ServerFunctor) (l' : L) (g : ServerFunctor) :
    (s.queueInLoop l f).pending l' g = s.pending l' g + if l' = l ∧ g = f then 1 else 0 := by
  have heq : s.queueInLoop l f = s.setFunctors l ((s.functors l).push f) := rfl
  rw [heq, pending_setFunctors]
  by_cases hl : l' = l
  · subst hl
    rw [BatchQueue.toList_push, List.count_append]
    by_cases hg : g = f
    · simp [pending, hg]
    · simp [pending, hg, Ne.symm hg]
  · simp [hl]

theorem batch_queueInLoop (f : ServerFunctor) (l' : L) :
    ((s.queueInLoop l f).functors l').batch = (s.functors l').batch := by
  by_cases hl : l' = l
  · subst hl
    simp [queueInLoop, BatchQueue.push]
  · simp [queueInLoop, hl]

theorem mem_queueInLoop {f g : ServerFunctor} {l' : L}
    (h : g ∈ ((s.queueInLoop l f).functors l').toList) :
    g ∈ (s.functors l').toList ∨ g = f ∧ l' = l := by
  by_cases hl : l' = l
  · subst hl
    simpa [queueInLoop] using h
  · simp only [queueInLoop, Function.update_of_ne hl] at h
    exact .inl h

theorem mem_pop {f g : ServerFunctor} {rest : BatchQueue ServerFunctor}
    (hnext : (s.functors l).next = some (f, rest)) {l' : L}
    (h : g ∈ ((s.setFunctors l rest).functors l').toList) : g ∈ (s.functors l').toList := by
  by_cases hl : l' = l
  · subst hl
    simp only [ServerState.setFunctors, Function.update_self] at h
    exact BatchQueue.mem_of_mem_rest hnext h
  · simpa only [ServerState.setFunctors, Function.update_of_ne hl] using h

/-- The tally after a functor of the connection left the batch. -/
theorem tally_pop {f : ServerFunctor} {rest : BatchQueue ServerFunctor}
    (hnext : (s.functors l).next = some (f, rest)) (hl : f.home s.server.loop_ sc = l)
    (hc : f.conn = c) : (s.setFunctors l rest).tally c sc = { s.tally c sc with
      toEstablish := (s.tally c sc).toEstablish - if f = .connectEstablished c then 1 else 0
      toRemove := (s.tally c sc).toRemove - if f = .removeConnectionInLoop c then 1 else 0
      toDestroy := (s.tally c sc).toDestroy - if f = .connectDestroyed c then 1 else 0 } := by
  subst hl hc
  simp only [tally, pending_pop hnext]
  cases f <;> simp [ServerFunctor.home, ServerFunctor.conn, ServerState.setFunctors]

/-- The tally after a functor of the connection was queued. -/
theorem tally_queueInLoop {f : ServerFunctor} (hl : f.home s.server.loop_ sc = l)
    (hc : f.conn = c) : (s.queueInLoop l f).tally c sc = { s.tally c sc with
      toEstablish := (s.tally c sc).toEstablish + if f = .connectEstablished c then 1 else 0
      toRemove := (s.tally c sc).toRemove + if f = .removeConnectionInLoop c then 1 else 0
      toDestroy := (s.tally c sc).toDestroy + if f = .connectDestroyed c then 1 else 0 } := by
  subst hl hc
  simp only [tally, pending_queueInLoop]
  cases f <;> simp [ServerFunctor.home, ServerFunctor.conn, queueInLoop]

theorem tally_pop_ne {f : ServerFunctor} {rest : BatchQueue ServerFunctor}
    (hnext : (s.functors l).next = some (f, rest)) (hne : c ≠ f.conn) :
    (s.setFunctors l rest).tally c sc = s.tally c sc := by
  refine tally_congr rfl ?_ rfl rfl rfl
  intro l' g hg _
  rw [pending_pop hnext, if_neg, Nat.sub_zero]
  rintro ⟨-, rfl⟩
  exact hne hg.symm

theorem tally_queueInLoop_ne {f : ServerFunctor} (hne : c ≠ f.conn) :
    (s.queueInLoop l f).tally c sc = s.tally c sc := by
  refine tally_congr rfl ?_ rfl rfl rfl
  intro l' g hg _
  rw [pending_queueInLoop, if_neg, Nat.add_zero]
  rintro ⟨-, rfl⟩
  exact hne hg.symm

end ServerState

end Netfish
