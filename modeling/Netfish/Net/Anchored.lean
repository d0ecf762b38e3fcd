import Netfish.Net.ServerMap

/-!
# What holds a connection

When user code calls a connection from its own loop only, a connection in use is `Tied`: it is in
`connections_`, or a functor to come holds it, `removeConnectionInLoop` in the queue of the server's loop or
`connectDestroyed` in that of its own. `Anchored` says so of every connection, whether it is closed once or
again and again, until an assertion fails; and that the channels a loop has to dispatch are of connections
in use.
-/

set_option autoImplicit false

namespace Netfish

open Kit

universe u v

/-- The connections whose channels are in `activeChannels_` and not yet handled. -/
def IoLoopPc.channels : IoLoopPc → List Nat
  | .handlers active => active.map Prod.fst
  | .event c _ _ _ active => c :: active.map Prod.fst
  | _ => []

/-- In `doPendingFunctors`. -/
def IoLoopPc.working : IoLoopPc → Bool
  | .batch => true
  | .destroying _ => true
  | _ => false

/-- The connection of a call. -/
def ServerCall.conn : ServerCall → Option Nat
  | .idle => none
  | .sending c _ => some c
  | .shutting c => some c
  | .shut c => some c

/-- The call has found `kConnected`, and nothing has changed it since. -/
def ServerCall.tested : ServerCall → Bool
  | .sending .. => true
  | .shutting _ => true
  | _ => false

namespace ServerState

variable {T : Type u} {L : Type v}

/-- User code calls a connection from the loop of the connection. -/
def OwnLoop [DecidableEq T] [DecidableEq L] (s : ServerState T L) : ServerAct T L → Bool
  | .sendTest o c _ => (s.conns c).any fun sc => o = .loop sc.loop_
  | .shutTest o c => (s.conns c).any fun sc => o = .loop sc.loop_
  | _ => true

/-- Listed, or a functor that will close the matter holds it. -/
def Tied (s : ServerState T L) (c : Nat) (sc : ServerConn L) : Prop :=
  s.server.connections_ sc.name_ = some c ∨
    .removeConnectionInLoop c ∈ (s.functors s.server.loop_).toList ∨
    .connectDestroyed c ∈ (s.functors sc.loop_).toList

/-- What holds of a functor in the queue of a loop. -/
def Awaits (s : ServerState T L) (l : L) : ServerFunctor → Prop
  | .connectEstablished c => ∃ sc, s.conns c = some sc ∧ sc.loop_ = l
  | .connectDestroyed c => ∃ sc, s.conns c = some sc ∧ sc.loop_ = l
  | .removeConnectionInLoop c => ∃ sc, s.conns c = some sc ∧ sc.conn.state_ ≠ .kConnecting
  | .writeComplete _ => True
  | _ => False

/-- The invariant; connections that are `gone` are out of use for good. -/
structure Anchored (s : ServerState T L) (gone : Nat → Bool) : Prop where
  wf : ∀ c sc, s.conns c = some sc → sc.conn.channel_.Wf
  accepted : ∀ c sc, s.conns c = some sc → sc.conn.state_ = .kConnecting →
    sc.conn.channel_ = .new ∧ s.server.connections_ sc.name_ = some c
  inUse : ∀ c sc, s.conns c = some sc → sc.conn.inUse = true → s.Tied c sc
  destroyed : ∀ c sc, s.conns c = some sc → sc.conn.state_ = .kDisconnected →
    sc.conn.channel_ = .new ∨ s.pcs sc.loop_ = .destroying c
  active : ∀ l, ∀ c ∈ (s.pcs l).channels, ∃ sc, s.conns c = some sc ∧ sc.loop_ = l ∧ sc.conn.inUse = true
  calls : ∀ o c, (s.calls o).conn = some c → ∃ sc, s.conns c = some sc ∧ o = .loop sc.loop_ ∧
    ((s.calls o).tested = true → sc.conn.state_ = .kConnected)
  functors : ∀ l, ∀ f ∈ (s.functors l).toList, s.Awaits l f
  worked : ∀ l, (s.pcs l).working = false → (s.functors l).batch = []
  down : ∀ c, gone c = true → ∃ sc, s.conns c = some sc ∧ sc.conn.state_ = .kDisconnected

variable {s s' : ServerState T L} {l : L} {c : Nat} {sc : ServerConn L} {removed : List Nat}
  {gone : Nat → Bool}

theorem start_anchored (server : TcpServer L) :
    (start server : ServerState T L).Anchored fun _ => false where
  wf _ _ hc := by cases hc
  accepted _ _ hc := by cases hc
  inUse _ _ hc := by cases hc
  destroyed _ _ hc := by cases hc
  active _ _ hc := absurd hc List.not_mem_nil
  calls _ _ hc := by cases hc
  functors _ _ hf := absurd hf List.not_mem_nil
  worked _ _ := rfl
  down _ hg := by cases hg

theorem Anchored.tied (h : s.Anchored gone) (hc : s.conns c = some sc)
    (hstate : sc.conn.state_ ≠ .kDisconnected) : s.Tied c sc := by
  by_cases hconn : sc.conn.state_ = .kConnecting
  · exact .inl (h.accepted c sc hc hconn).2
  · refine h.inUse c sc hc ?_
    cases hs : sc.conn.state_ <;> simp_all [TcpConnection.inUse]

/-- What epoll watches between two iterations is in use. -/
theorem Anchored.watched (h : s.Anchored gone) (hc : s.conns c = some sc) (hpc : s.pcs sc.loop_ = .idle)
    {mask : Events} (hw : sc.conn.channel_.watched = some mask) : sc.conn.inUse = true := by
  have hne : sc.conn.channel_ ≠ .new := by
    intro hnew
    rw [hnew] at hw
    cases hw
  cases hstate : sc.conn.state_ with
  | kConnecting => exact absurd (h.accepted c sc hc hstate).1 hne
  | kConnected => simp [TcpConnection.inUse, hstate]
  | kDisconnecting => simp [TcpConnection.inUse, hstate]
  | kDisconnected =>
    rcases h.destroyed c sc hc hstate with hnew | hin
    · exact absurd hnew hne
    · cases hpc.symm.trans hin

/-! ## What a step may change -/

theorem Awaits.congr {f : ServerFunctor} (h : s.Awaits l f) (hconns : s'.conns = s.conns) :
    s'.Awaits l f := by
  unfold Awaits at h ⊢
  rw [hconns]
  exact h

theorem Awaits.setConn (hc : s.conns c = some sc) {conn : TcpConnection}
    (hstarted : conn.state_ ≠ .kConnecting) {f : ServerFunctor} (h : s.Awaits l f) :
    (s.setConn c { sc with conn }).Awaits l f := by
  have hfind : ∀ d sd, s.conns d = some sd → ∃ sd', (s.setConn c { sc with conn }).conns d = some sd' ∧
      sd'.loop_ = sd.loop_ ∧ (sd.conn.state_ ≠ .kConnecting → sd'.conn.state_ ≠ .kConnecting) := by
    intro d sd hd
    by_cases hdc : d = c
    · subst hdc
      cases hc.symm.trans hd
      exact ⟨_, Function.update_self .., rfl, fun _ => hstarted⟩
    · exact ⟨sd, (Function.update_of_ne hdc ..).trans hd, rfl, id⟩
  cases f with
  | connectEstablished d =>
    obtain ⟨sd, hd, hl⟩ := h
    obtain ⟨sd', hd', hloop, -⟩ := hfind d sd hd
    exact ⟨sd', hd', hloop.trans hl⟩
  | connectDestroyed d =>
    obtain ⟨sd, hd, hl⟩ := h
    obtain ⟨sd', hd', hloop, -⟩ := hfind d sd hd
    exact ⟨sd', hd', hloop.trans hl⟩
  | removeConnectionInLoop d =>
    obtain ⟨sd, hd, hl⟩ := h
    obtain ⟨sd', hd', -, hst⟩ := hfind d sd hd
    exact ⟨sd', hd', hst hl⟩
  | writeComplete d => trivial
  | sendInLoop d message => exact h
  | shutdownInLoop d => exact h

/-- A connection that was accepted changes. -/
theorem Anchored.setConn (h : s.Anchored gone) (hc : s.conns c = some sc) (conn : TcpConnection)
    (hwf : conn.channel_.Wf) (hstarted : conn.state_ ≠ .kConnecting)
    (hinUse : conn.inUse = true → s.Tied c sc)
    (hdestroyed : conn.state_ = .kDisconnected →
      conn.channel_ = .new ∨ s.pcs sc.loop_ = .destroying c)
    (hactive : c ∈ (s.pcs sc.loop_).channels → conn.inUse = true)
    (hcalls : (s.calls (.loop sc.loop_)).conn = some c → (s.calls (.loop sc.loop_)).tested = true →
      conn.state_ = .kConnected)
    (hdown : sc.conn.state_ = .kDisconnected → conn.state_ = .kDisconnected) :
    (s.setConn c { sc with conn }).Anchored gone := by
  have hself : (s.setConn c { sc with conn }).conns c = some { sc with conn } :=
    Function.update_self ..
  have hother : ∀ d, d ≠ c → (s.setConn c { sc with conn }).conns d = s.conns d :=
    fun d hd => Function.update_of_ne hd ..
  refine ⟨?_, ?_, ?_, ?_, ?_, ?_, fun l f hf => (h.functors l f hf).setConn hc hstarted, h.worked, ?_⟩
  · intro d sd hd
    by_cases hdc : d = c
    · subst hdc
      cases hself.symm.trans hd
      exact hwf
    · exact h.wf d sd (hother d hdc ▸ hd)
  · intro d sd hd hstate
    by_cases hdc : d = c
    · subst hdc
      cases hself.symm.trans hd
      exact absurd hstate hstarted
    · exact h.accepted d sd (hother d hdc ▸ hd) hstate
  · intro d sd hd hin
    by_cases hdc : d = c
    · subst hdc
      cases hself.symm.trans hd
      exact hinUse hin
    · exact h.inUse d sd (hother d hdc ▸ hd) hin
  · intro d sd hd hstate
    by_cases hdc : d = c
    · subst hdc
      cases hself.symm.trans hd
      exact hdestroyed hstate
    · exact h.destroyed d sd (hother d hdc ▸ hd) hstate
  · intro l d hd
    obtain ⟨sd, hsd, hl, hin⟩ := h.active l d hd
    by_cases hdc : d = c
    · subst hdc
      cases hc.symm.trans hsd
      subst hl
      exact ⟨_, hself, rfl, hactive hd⟩
    · exact ⟨sd, (hother d hdc).trans hsd, hl, hin⟩
  · intro o d hcall
    obtain ⟨sd, hsd, ho, htested⟩ := h.calls o d hcall
    by_cases hdc : d = c
    · subst hdc
      cases hc.symm.trans hsd
      subst ho
      exact ⟨_, hself, rfl, hcalls hcall⟩
    · exact ⟨sd, (hother d hdc).trans hsd, ho, htested⟩
  · intro d hd
    obtain ⟨sd, hsd, hstate⟩ := h.down d hd
    by_cases hdc : d = c
    · subst hdc
      cases hc.symm.trans hsd
      exact ⟨_, hself, hdown hstate⟩
    · exact ⟨sd, (hother d hdc).trans hsd, hstate⟩

/-- The entry of a connection is erased, and `connectDestroyed` of it is queued. -/
theorem Anchored.erase (h : s.Anchored gone) (hlist : s.Listed removed) (hc : s.conns c = some sc)
    (hstarted : sc.conn.state_ ≠ .kConnecting) (hconns : s'.conns = s.conns) (hpcs : s'.pcs = s.pcs)
    (hcalls : s'.calls = s.calls) (hloop : s'.server.loop_ = s.server.loop_)
    (hentries : s'.server.connections_ = Function.update s.server.connections_ sc.name_ none)
    (hqueued : .connectDestroyed c ∈ (s'.functors sc.loop_).toList)
    (hsub : ∀ l, ∀ f ∈ (s'.functors l).toList,
      f ∈ (s.functors l).toList ∨ f = .connectDestroyed c ∧ l = sc.loop_)
    (hkeep : ∀ l, ∀ f ∈ (s.functors l).toList,
      f = .removeConnectionInLoop c ∨ f ∈ (s'.functors l).toList)
    (hbatch : ∀ l, (s.pcs l).working = false → (s'.functors l).batch = (s.functors l).batch) :
    s'.Anchored gone := by
  have hentry : ∀ d sd, s.conns d = some sd → d ≠ c →
      s'.server.connections_ sd.name_ = s.server.connections_ sd.name_ := by
    intro d sd hd hdc
    rw [hentries, Function.update_of_ne]
    exact fun heq => hdc (hlist.mapExact.distinct d c sd sc hd hc heq)
  refine ⟨hconns ▸ h.wf, ?_, ?_, hconns ▸ hpcs ▸ h.destroyed, hconns ▸ hpcs ▸ h.active,
    hconns ▸ hcalls ▸ h.calls, ?_, ?_, hconns ▸ h.down⟩
  · intro d sd hd hstate
    rw [hconns] at hd
    have hdc : d ≠ c := by
      rintro rfl
      cases hc.symm.trans hd
      exact hstarted hstate
    rw [hentry d sd hd hdc]
    exact h.accepted d sd hd hstate
  · intro d sd hd hin
    rw [hconns] at hd
    by_cases hdc : d = c
    · subst hdc
      cases hc.symm.trans hd
      exact .inr (.inr hqueued)
    · rcases h.inUse d sd hd hin with htied | htied | htied
      · exact .inl ((hentry d sd hd hdc).trans htied)
      · rw [← hloop] at htied
        rcases hkeep _ _ htied with heq | htied
        · cases heq
          exact absurd rfl hdc
        · exact .inr (.inl htied)
      · rcases hkeep _ _ htied with heq | htied
        · cases heq
        · exact .inr (.inr htied)
  · intro l f hf
    rcases hsub l f hf with hf | ⟨rfl, rfl⟩
    · exact (h.functors l f hf).congr hconns
    · exact ⟨sc, hconns ▸ hc, rfl⟩
  · intro l hpc
    rw [hpcs] at hpc
    exact (hbatch l hpc).trans (h.worked l hpc)

/-- A connection is accepted. -/
theorem Anchored.born (h : s.Anchored gone) (hlist : s.Listed removed) :
    ({ s with
      server := s.server.newConnection.2
      conns := Function.update s.conns s.server.nextConnId_ (some s.server.newConnection.1) } :
      ServerState T L).Anchored gone := by
  have hfresh : ∀ d sd, s.conns d = some sd → d ≠ s.server.nextConnId_ := by
    rintro d sd hd rfl
    exact absurd (hlist.numbered _ _ (names_eq_some.mpr ⟨sd, hd, rfl⟩)).1 (Nat.lt_irrefl _)
  have hother : ∀ d sd, s.conns d = some sd →
      Function.update s.conns s.server.nextConnId_ (some s.server.newConnection.1) d = some sd :=
    fun d sd hd => (Function.update_of_ne (hfresh d sd hd) ..).trans hd
  have hentry : ∀ d sd, s.conns d = some sd → s.server.connections_ sd.name_ = some d →
      s.server.newConnection.2.connections_ sd.name_ = some d := by
    intro d sd hd hlisted
    refine (Function.update_of_ne ?_ ..).trans hlisted
    rw [hlist.mapExact.named d sd hd]
    exact fun heq => hfresh d sd hd (connName_inj heq)
  have hcases : ∀ d sd, Function.update s.conns s.server.nextConnId_
      (some s.server.newConnection.1) d = some sd →
      d = s.server.nextConnId_ ∧ sd = s.server.newConnection.1 ∨ s.conns d = some sd := by
    intro d sd hd
    by_cases hdc : d = s.server.nextConnId_
    · subst hdc
      rw [Function.update_self] at hd
      exact .inl ⟨rfl, (Option.some.inj hd).symm⟩
    · exact .inr ((Function.update_of_ne hdc ..).symm.trans hd)
  refine ⟨?_, ?_, ?_, ?_, ?_, ?_, ?_, h.worked, ?_⟩
  · intro d sd hd
    rcases hcases d sd hd with ⟨rfl, rfl⟩ | hd
    · exact Channel.new_wf
    · exact h.wf d sd hd
  · intro d sd hd hstate
    rcases hcases d sd hd with ⟨rfl, rfl⟩ | hd
    · exact ⟨rfl, Function.update_self ..⟩
    · obtain ⟨hnew, hlisted⟩ := h.accepted d sd hd hstate
      exact ⟨hnew, hentry d sd hd hlisted⟩
  · intro d sd hd hin
    rcases hcases d sd hd with ⟨rfl, rfl⟩ | hd
    · cases hin
    · rcases h.inUse d sd hd hin with htied | htied
      · exact .inl (hentry d sd hd htied)
      · exact .inr htied
  · intro d sd hd hstate
    rcases hcases d sd hd with ⟨rfl, rfl⟩ | hd
    · cases hstate
    · exact h.destroyed d sd hd hstate
  · intro l d hd
    obtain ⟨sd, hsd, hrest⟩ := h.active l d hd
    exact ⟨sd, hother d sd hsd, hrest⟩
  · intro o d hcall
    obtain ⟨sd, hsd, hrest⟩ := h.calls o d hcall
    exact ⟨sd, hother d sd hsd, hrest⟩
  · intro l f hf
    have hawaits := h.functors l f hf
    cases f with
    | writeComplete d => trivial
    | sendInLoop d message => exact hawaits
    | shutdownInLoop d => exact hawaits
    | _ =>
      obtain ⟨sd, hsd, hrest⟩ := hawaits
      exact ⟨sd, hother _ sd hsd, hrest⟩
  · intro d hd
    obtain ⟨sd, hsd, hstate⟩ := h.down d hd
    exact ⟨sd, hother d sd hsd, hstate⟩

theorem Listed.same (h : s.Listed removed) (hsame : s.SameMap s') : s'.Listed removed := by
  simpa using h.mapStep (.same hsame)

theorem Anchored.calls_tested (h : s.Anchored gone) (hc : s.conns c = some sc)
    (hcall : (s.calls (.loop sc.loop_)).conn = some c)
    (htested : (s.calls (.loop sc.loop_)).tested = true) : sc.conn.state_ = .kConnected := by
  obtain ⟨sd, hd, -, hstate⟩ := h.calls _ c hcall
  cases hc.symm.trans hd
  exact hstate htested

/-- A connection in use keeps its state. -/
theorem Anchored.setChannel (h : s.Anchored gone) (hc : s.conns c = some sc) (hin : sc.conn.inUse = true)
    (conn : TcpConnection) (hwf : conn.channel_.Wf) (hstate : conn.state_ = sc.conn.state_) :
    (s.setConn c { sc with conn }).Anchored gone := by
  have hin' : conn.inUse = true := by
    rw [TcpConnection.inUse, hstate]
    exact hin
  refine h.setConn hc conn hwf ?_ (fun _ => h.inUse c sc hc hin) ?_ (fun _ => hin') ?_ hstate.trans
  · intro hconn
    simp [TcpConnection.inUse, hconn] at hin'
  · intro hdown
    simp [TcpConnection.inUse, hdown] at hin'
  · intro hcall htested
    exact hstate.trans (h.calls_tested hc hcall htested)

/-- The connection of the event is in use. -/
theorem Anchored.of_event (h : s.Anchored gone) {revents : Events}
    {todo : List ChannelCallback} {inMessage : Bool} {active : List (Nat × Events)}
    (hpc : s.pcs l = .event c revents todo inMessage active) (hc : s.conns c = some sc) :
    sc.conn.inUse = true := by
  obtain ⟨sd, hd, -, hin⟩ := h.active l c (by rw [hpc]; exact List.mem_cons_self)
  cases hc.symm.trans hd
  exact hin

section

variable [DecidableEq L]

theorem Anchored.setPc (h : s.Anchored gone) {pc : IoLoopPc}
    (hactive : ∀ c ∈ pc.channels, ∃ sc, s.conns c = some sc ∧ sc.loop_ = l ∧ sc.conn.inUse = true)
    (hdone : ∀ c sc, s.conns c = some sc → s.pcs l = .destroying c → pc ≠ .destroying c →
      sc.conn.state_ = .kDisconnected → sc.conn.channel_ = .new)
    (hworked : pc.working = false → (s.functors l).batch = []) : (s.setPc l pc).Anchored gone where
  wf := h.wf
  accepted := h.accepted
  inUse := h.inUse
  destroyed c sc hc hstate := by
    rcases h.destroyed c sc hc hstate with hnew | hin
    · exact .inl hnew
    · by_cases hl : sc.loop_ = l
      · subst hl
        by_cases hpc : pc = .destroying c
        · exact .inr ((Function.update_self ..).trans hpc)
        · exact .inl (hdone c sc hc hin hpc hstate)
      · exact .inr ((Function.update_of_ne hl ..).trans hin)
  active l' := by
    by_cases hl : l' = l
    · subst hl
      simpa only [ServerState.setPc, Function.update_self] using hactive
    · simpa only [ServerState.setPc, Function.update_of_ne hl] using h.active l'
  calls := h.calls
  functors := h.functors
  worked l' := by
    by_cases hl : l' = l
    · subst hl
      simpa only [ServerState.setPc, Function.update_self] using hworked
    · simpa only [ServerState.setPc, Function.update_of_ne hl] using h.worked l'
  down := h.down

/-- The loop goes on among the active channels it has. -/
theorem Anchored.forward (h : s.Anchored gone) {pc pc' : IoLoopPc} (hpc : s.pcs l = pc)
    (hwork : pc.working = false) (hsub : pc'.channels ⊆ pc.channels) : (s.setPc l pc').Anchored gone := by
  subst hpc
  refine h.setPc (fun c hm => h.active l c (hsub hm)) ?_ fun _ => h.worked l hwork
  intro c _ _ hin
  rw [hin] at hwork
  cases hwork

/-- The functors of a loop change, and no connection in use is let go. -/
theorem Anchored.setFunctors (h : s.Anchored gone) {q : BatchQueue ServerFunctor}
    (hawaits : ∀ f ∈ q.toList, s.Awaits l f)
    (htied : ∀ c sc, s.conns c = some sc → sc.conn.inUse = true → (s.setFunctors l q).Tied c sc)
    (hbatch : (s.pcs l).working = false → q.batch = []) : (s.setFunctors l q).Anchored gone where
  wf := h.wf
  accepted := h.accepted
  inUse := htied
  destroyed := h.destroyed
  active := h.active
  calls := h.calls
  functors l' f hf := by
    refine Awaits.congr (s := s) ?_ rfl
    by_cases hl : l' = l
    · subst hl
      simp only [ServerState.setFunctors, Function.update_self] at hf
      exact hawaits f hf
    · simp only [ServerState.setFunctors, Function.update_of_ne hl] at hf
      exact h.functors l' f hf
  worked l' hpc := by
    by_cases hl : l' = l
    · subst hl
      simpa only [ServerState.setFunctors, Function.update_self] using hbatch hpc
    · simpa only [ServerState.setFunctors, Function.update_of_ne hl] using h.worked l' hpc
  down := h.down

theorem Tied.setFunctors (h : s.Tied c sc) {q : BatchQueue ServerFunctor}
    (hkeep : ∀ f ∈ (s.functors l).toList, f = .removeConnectionInLoop c ∨ f = .connectDestroyed c →
      f ∈ q.toList) : (s.setFunctors l q).Tied c sc := by
  have hmem : ∀ l' f, f ∈ (s.functors l').toList →
      f = .removeConnectionInLoop c ∨ f = .connectDestroyed c →
      f ∈ ((s.setFunctors l q).functors l').toList := by
    intro l' f hf hkind
    by_cases hl : l' = l
    · subst hl
      simpa only [ServerState.setFunctors, Function.update_self] using hkeep f hf hkind
    · simpa only [ServerState.setFunctors, Function.update_of_ne hl] using hf
  rcases h with h | h | h
  · exact .inl h
  · exact .inr (.inl (hmem _ _ h (.inl rfl)))
  · exact .inr (.inr (hmem _ _ h (.inr rfl)))

theorem Anchored.pushAll (h : s.Anchored gone) (fs : List ServerFunctor) (hfs : ∀ f ∈ fs, s.Awaits l f) :
    (s.setFunctors l ((s.functors l).pushAll fs)).Anchored gone := by
  refine h.setFunctors ?_ (fun c sc hc hin => (h.inUse c sc hc hin).setFunctors fun f hf _ => ?_)
    (h.worked l)
  · intro f hf
    rw [BatchQueue.toList_pushAll] at hf
    exact (List.mem_append.mp hf).elim (h.functors l f) (hfs f)
  · rw [BatchQueue.toList_pushAll]
    exact List.mem_append_left _ hf

/-- A functor leaves the batch; where it would close the matter of a connection, that one is not in use
any more. -/
theorem Anchored.pop (h : s.Anchored gone) {f : ServerFunctor} {rest : BatchQueue ServerFunctor}
    (hnext : (s.functors l).next = some (f, rest)) (hwork : (s.pcs l).working = true)
    (hf : ∀ c sc, s.conns c = some sc → sc.conn.inUse = true →
      ¬ (f = .removeConnectionInLoop c ∨ f = .connectDestroyed c)) :
    (s.setFunctors l rest).Anchored gone := by
  have hlist := BatchQueue.toList_of_next hnext
  refine h.setFunctors ?_ (fun c sc hc hin => (h.inUse c sc hc hin).setFunctors fun g hg hkind => ?_)
    fun hpc => by cases hwork.symm.trans hpc
  · intro g hg
    exact h.functors l g (hlist ▸ List.mem_cons_of_mem f hg)
  · rw [hlist] at hg
    rcases List.mem_cons.mp hg with rfl | hg
    · exact absurd hkind (hf c sc hc hin)
    · exact hg

theorem Anchored.beginFunctors (h : s.Anchored gone) (hpc : s.pcs l = .handlers []) :
    ((s.setFunctors l (s.functors l).swap).setPc l .batch).Anchored gone := by
  have hlist := BatchQueue.toList_swap (h.worked l (by rw [hpc]; rfl))
  have hbegun : (s.setPc l .batch).Anchored gone := by
    refine h.setPc (fun _ hm => absurd hm List.not_mem_nil) ?_ (by simp [IoLoopPc.working])
    intro d sd _ hin
    cases hpc.symm.trans hin
  refine hbegun.setFunctors (l := l) (q := (s.functors l).swap) ?_
    (fun c sc hc hin => (hbegun.inUse c sc hc hin).setFunctors fun g hg _ => hlist.symm ▸ hg) ?_
  · intro f hf
    exact hbegun.functors l f (hlist ▸ hf)
  · intro hwork
    simp [ServerState.setPc, IoLoopPc.working] at hwork

theorem Anchored.setCall [DecidableEq T] (h : s.Anchored gone) {o : Caller T L} {call : ServerCall}
    (hcall : ∀ c, call.conn = some c → ∃ sc, s.conns c = some sc ∧ o = .loop sc.loop_ ∧
      (call.tested = true → sc.conn.state_ = .kConnected)) : (s.setCall o call).Anchored gone where
  wf := h.wf
  accepted := h.accepted
  inUse := h.inUse
  destroyed := h.destroyed
  active := h.active
  calls o' := by
    by_cases heq : o' = o
    · subst heq
      simpa only [ServerState.setCall, Function.update_self] using hcall
    · simpa only [ServerState.setCall, Function.update_of_ne heq] using h.calls o'
  functors := h.functors
  worked := h.worked
  down := h.down

/-! ## Steps -/

/-- A method that does not close, of a connection in use. -/
theorem Anchored.quiet (h : s.Anchored gone) (hc : s.conns c = some sc) (hin : sc.conn.inUse = true)
    {conn : TcpConnection} {es : List ConnEffect} (hq : sc.conn.Quiet conn es) :
    ((s.setConn c { sc with conn }).setFunctors sc.loop_
      ((s.functors sc.loop_).pushAll (completionsOf c es))).Anchored gone := by
  refine (h.setChannel hc hin conn hq.wf hq.state).pushAll _ ?_
  intro f hf
  obtain ⟨e, -, he⟩ := List.mem_filterMap.mp hf
  cases e <;> cases he
  trivial

theorem queueInLoop_mem (f : ServerFunctor) : f ∈ ((s.queueInLoop l f).functors l).toList := by
  simp [queueInLoop]

theorem mem_queueInLoop_of_mem {f g : ServerFunctor} {l' : L} (h : g ∈ (s.functors l').toList) :
    g ∈ ((s.queueInLoop l f).functors l').toList := by
  by_cases hl : l' = l
  · subst hl
    simpa [queueInLoop] using Or.inl h
  · simpa [queueInLoop, hl] using h

/-- `removeConnectionInLoop` that passes its assertion. -/
theorem Anchored.remove (h : s.Anchored gone) (hlist : s.Listed removed) (hc : s.conns c = some sc)
    (hstarted : sc.conn.state_ ≠ .kConnecting) {q : BatchQueue ServerFunctor}
    (hsub : ∀ f ∈ q.toList, f ∈ (s.functors l).toList)
    (hkeep : ∀ f ∈ (s.functors l).toList, f = .removeConnectionInLoop c ∨ f ∈ q.toList)
    (hbatch : (s.pcs l).working = false → q.batch = (s.functors l).batch)
    (hfault : ((s.setFunctors l q).removeConnectionInLoop c sc).fault = none) :
    ((s.setFunctors l q).removeConnectionInLoop c sc).Anchored gone := by
  have heq : (s.setFunctors l q).removeConnectionInLoop c sc =
      ((s.setFunctors l q).eraseEntry sc).queueInLoop sc.loop_ (.connectDestroyed c) := by
    unfold removeConnectionInLoop at hfault ⊢
    dsimp only at hfault ⊢
    split at hfault
    · next hone => rw [if_pos hone]; rfl
    · cases hfault
  have hsame : ∀ l', l' ≠ l → ((s.setFunctors l q).eraseEntry sc).functors l' = s.functors l' :=
    fun l' hl => Function.update_of_ne hl ..
  have hhere : ((s.setFunctors l q).eraseEntry sc).functors l = q := Function.update_self ..
  rw [heq]
  refine h.erase hlist hc hstarted rfl rfl rfl rfl rfl (queueInLoop_mem _) ?_ ?_ ?_
  · intro l' f hf
    rcases mem_queueInLoop hf with hf | hf
    · by_cases hl : l' = l
      · subst hl
        exact .inl (hsub f (hhere ▸ hf))
      · exact .inl (hsame l' hl ▸ hf)
    · exact .inr hf
  · intro l' f hf
    by_cases hl : l' = l
    · subst hl
      rcases hkeep f hf with hf | hf
      · exact .inl hf
      · exact .inr (mem_queueInLoop_of_mem (hhere.symm ▸ hf))
    · exact .inr (mem_queueInLoop_of_mem ((hsame l' hl).symm ▸ hf))
  · intro l' hpc
    rw [batch_queueInLoop]
    by_cases hl : l' = l
    · subst hl
      exact hhere.symm ▸ hbatch hpc
    · rw [hsame l' hl]

theorem removeConnection_pcs : (s.removeConnection c sc).pcs = s.pcs := by
  unfold removeConnection
  split
  · simp only [removeConnectionInLoop]
    split <;> rfl
  · rfl

variable {revents : Events} {cb : ChannelCallback} {todo : List ChannelCallback} {inMessage : Bool}
  {active : List (Nat × Events)} {rest : BatchQueue ServerFunctor} {w : WriteResult}

theorem Anchored.removeConnection (h : s.Anchored gone) (hlist : s.Listed removed)
    (hc : s.conns c = some sc) (hin : sc.conn.inUse = true)
    (hfault : (s.removeConnection c sc).fault = none) : (s.removeConnection c sc).Anchored gone := by
  have hstarted : sc.conn.state_ ≠ .kConnecting := by
    intro hconn
    simp [TcpConnection.inUse, hconn] at hin
  unfold ServerState.removeConnection at hfault ⊢
  split
  · next hl =>
    rw [if_pos hl] at hfault
    have hsame : s.setFunctors sc.loop_ (s.functors sc.loop_) = s := by
      simp only [ServerState.setFunctors, Function.update_eq_self]
    have hremove := h.remove (l := sc.loop_) (q := s.functors sc.loop_) hlist hc hstarted
      (fun _ => id) (fun _ => .inr) fun _ => rfl
    rw [hsame] at hremove
    exact hremove hfault
  · refine h.pushAll [.removeConnectionInLoop c] ?_
    intro f hf
    rw [List.mem_singleton.mp hf]
    exact ⟨sc, hc, hstarted⟩

/-- A close, for the first time or not. -/
theorem Anchored.close (h : s.Anchored gone) (hlist : s.Listed removed) {pc : IoLoopPc}
    (hpc : s.pcs l = .event c revents todo inMessage active) (hc : s.conns c = some sc)
    (hsub : pc.channels ⊆ c :: active.map Prod.fst)
    (hfault : (s.after c sc sc.conn.handleClose (·.setPc l pc)).fault = none) :
    (s.after c sc sc.conn.handleClose (·.setPc l pc)).Anchored gone := by
  have hin := h.of_event hpc hc
  obtain ⟨channel, hrun, hwf, -⟩ := TcpConnection.handleClose_spec (h.wf c sc hc) hin
  rw [hrun] at hfault ⊢
  have hset := h.setChannel hc hin { sc.conn with channel_ := channel } hwf rfl
  have hcount : ((s.setConn c { sc with conn := { sc.conn with channel_ := channel } }).countClose
      c).Anchored gone :=
    ⟨hset.wf, hset.accepted, hset.inUse, hset.destroyed, hset.active, hset.calls, hset.functors,
      hset.worked, hset.down⟩
  have hlist' := hlist.same ((sameMap_setConn hc { sc.conn with channel_ := channel }).trans
    (sameMap_countClose _ c))
  have hremove := hcount.removeConnection hlist' (Function.update_self c _ s.conns) hin hfault
  exact hremove.forward ((congrFun removeConnection_pcs l).trans hpc) rfl hsub

theorem Anchored.establish (h : s.Anchored gone) (hc : s.conns c = some sc)
    (hstate : sc.conn.state_ = .kConnecting) :
    (s.after c sc sc.conn.connectEstablished id).Anchored gone := by
  obtain ⟨channel, hrun, hwf, -⟩ := TcpConnection.connectEstablished_spec (h.wf c sc hc) hstate
  rw [hrun]
  refine h.setConn hc _ hwf (by simp) (fun _ => h.tied hc (by simp [hstate])) (by simp) (fun _ => rfl)
    (fun _ _ => rfl) (by simp [hstate])

/-- `connectDestroyed` up to its callback, where it passes its assertion. -/
theorem Anchored.beginDestroyed (h : s.Anchored gone) (hpc : s.pcs l = .batch)
    (hidle : s.calls (.loop l) = .idle)
    (hnext : (s.functors l).next = some (.connectDestroyed c, rest)) (hc : s.conns c = some sc)
    (hfault : (((s.setFunctors l rest).countDestroy c).after c sc sc.conn.beginDestroyed
      (·.setPc l (.destroying c))).fault = none) :
    (((s.setFunctors l rest).countDestroy c).after c sc sc.conn.beginDestroyed
      (·.setPc l (.destroying c))).Anchored gone := by
  obtain ⟨sd, hd, hl⟩ := h.functors l (.connectDestroyed c)
    (BatchQueue.next_mem hnext)
  cases hc.symm.trans hd
  subst hl
  by_cases hin : sc.conn.inUse = true
  · obtain ⟨channel, hrun, hwf, -⟩ := TcpConnection.beginDestroyed_spec (h.wf c sc hc) hin
    have hbegun : (s.setPc sc.loop_ (.destroying c)).Anchored gone := by
      refine h.setPc (fun _ hm => absurd hm List.not_mem_nil) ?_ (by simp [IoLoopPc.working])
      intro d sd _ hin
      cases hpc.symm.trans hin
    have hset := hbegun.setConn hc { sc.conn with state_ := .kDisconnected, channel_ := channel }
      hwf (by simp) (by simp [TcpConnection.inUse]) (fun _ => .inr (Function.update_self ..))
      (fun hm => absurd hm (by simp [ServerState.setPc, IoLoopPc.channels])) ?_ (fun _ => rfl)
    · have hpop := hset.pop (l := sc.loop_) hnext (by simp [ServerState.setConn, ServerState.setPc,
        IoLoopPc.working]) ?_
      · rw [hrun]
        exact ⟨hpop.wf, hpop.accepted, hpop.inUse, hpop.destroyed, hpop.active, hpop.calls,
          hpop.functors, hpop.worked, hpop.down⟩
      · rintro d sd hd hin (heq | heq)
        · cases heq
        · cases heq
          cases (Function.update_self ..).symm.trans hd
          simp [TcpConnection.inUse] at hin
    · intro hcall
      have hidle' : (s.setPc sc.loop_ (.destroying c)).calls (.loop sc.loop_) = .idle := hidle
      rw [hidle'] at hcall
      cases hcall
  · rw [TcpConnection.beginDestroyed, check_neg hin] at hfault
    cases hfault

/-- `connectDestroyed` after its callback, where it passes its assertions. -/
theorem Anchored.endDestroyed (h : s.Anchored gone) (hpc : s.pcs l = .destroying c) (hc : s.conns c = some sc)
    (hfault : (s.after c sc (sc.conn.endDestroyed.map (·, [])) (·.setPc l .batch)).fault = none) :
    (s.after c sc (sc.conn.endDestroyed.map (·, [])) (·.setPc l .batch)).Anchored gone := by
  have hwf := h.wf c sc hc
  cases hrun : sc.conn.channel_.removeChannel with
  | error fault =>
    rw [TcpConnection.endDestroyed, hrun] at hfault
    cases hfault
  | ok channel =>
    obtain rfl := hwf.removeChannel_eq hrun
    have hset : (s.setConn c { sc with conn := { sc.conn with channel_ := .new } }).Anchored gone := by
      by_cases hin : sc.conn.inUse = true
      · exact h.setChannel hc hin _ Channel.new_wf rfl
      · refine h.setConn hc _ Channel.new_wf ?_ (fun hin' => absurd hin' hin) (fun _ => .inl rfl) ?_ ?_
          id
        · intro hconn
          rw [(h.accepted c sc hc hconn).1] at hrun
          cases hrun
        · intro hm
          obtain ⟨sd, hd, -, hin'⟩ := h.active _ c hm
          cases hc.symm.trans hd
          exact absurd hin' hin
        · exact fun hcall htested => h.calls_tested hc hcall htested
    have hend : sc.conn.endDestroyed = .ok { sc.conn with channel_ := .new } := by
      rw [TcpConnection.endDestroyed, hrun]
      rfl
    rw [hend]
    refine hset.setPc (fun _ hm => absurd hm List.not_mem_nil) ?_ (by simp [IoLoopPc.working])
    intro d sd hd hin _ _
    cases hpc.symm.trans hin
    cases (Function.update_self ..).symm.trans hd
    rfl

theorem Anchored.newConnection (h : s.Anchored gone) (hlist : s.Listed removed) :
    s.newConnection.Anchored gone := by
  have hborn := h.born hlist
  have hnew : Function.update s.conns s.server.nextConnId_ (some s.server.newConnection.1)
      s.server.nextConnId_ = some s.server.newConnection.1 := Function.update_self ..
  unfold ServerState.newConnection
  dsimp only
  split
  · -- the server's own loop
    exact hborn.establish hnew rfl
  · refine hborn.pushAll [.connectEstablished s.server.nextConnId_] ?_
    intro f hf
    rw [List.mem_singleton.mp hf]
    exact ⟨_, hnew, rfl⟩

/-- A step of a loop that does not end the run. -/
theorem LoopMoves.anchored {a : IoLoopStep} (hmove : s.LoopMoves l a s') (h : s.Anchored gone)
    (hlist : s.Listed removed) (hidle : s.calls (.loop l) = .idle) (hfault : s'.fault = none) :
    s'.Anchored gone := by
  have hawaits : ∀ {f rest}, (s.functors l).next = some (f, rest) → s.Awaits l f := fun hnext =>
    h.functors l _ (BatchQueue.next_mem hnext)
  cases hmove with
  | poll hpc _ hrep =>
    refine h.setPc ?_ (fun d sd _ hin => by cases hpc.symm.trans hin)
      fun _ => h.worked l (by rw [hpc]; rfl)
    intro d hd
    obtain ⟨p, hp, rfl⟩ := List.mem_map.mp hd
    obtain ⟨sd, hsd, hrep⟩ := (Option.any_eq_true ..).mp (List.all_eq_true.mp hrep p hp)
    obtain ⟨hl, hmask⟩ := Bool.and_eq_true_iff.mp hrep
    obtain ⟨mask, hw, -⟩ := (Option.any_eq_true ..).mp hmask
    have hl : sd.loop_ = l := of_decide_eq_true hl
    exact ⟨sd, hsd, hl, h.watched hsd (hl.symm ▸ hpc) hw⟩
  | handleEvent hpc => exact h.forward hpc rfl (List.Subset.refl _)
  | callClose hpc hc => exact h.close hlist hpc hc (List.Subset.refl _) hfault
  | callError hpc hc =>
    rw [TcpConnection.handleError, after_idle hc fun _ => rfl]
    exact h.forward hpc rfl (List.Subset.refl _)
  | @callRead r c revents todo inMessage active sc hpc hc =>
    cases r with
    | eof => exact h.close hlist hpc hc (List.Subset.refl _) hfault
    | error =>
      rw [TcpConnection.handleRead, TcpConnection.handleError, after_idle hc fun _ => rfl]
      exact h.forward hpc rfl (List.Subset.refl _)
    | data =>
      rw [TcpConnection.handleRead, after_idle hc fun t => by split <;> rfl]
      exact h.forward hpc rfl (List.Subset.refl _)
  | callWrite hpc hc hw =>
    obtain ⟨conn, es, hrun, hwrote⟩ := TcpConnection.handleWrite_spec (h.wf _ _ hc) hw
    rw [after_quiet hrun hwrote.noClose]
    exact (h.quiet hc (h.of_event hpc hc) hwrote.toQuiet).forward hpc rfl (List.Subset.refl _)
  | eventDone hpc => exact h.forward hpc rfl (List.subset_cons_self ..)
  | beginFunctors hpc => exact h.beginFunctors hpc
  | @establish w c rest sc hpc hnext hc =>
    have hpop := h.pop hnext (by rw [hpc]; rfl) (by simp)
    by_cases hstate : sc.conn.state_ = .kConnecting
    · exact hpop.establish hc hstate
    · rw [TcpConnection.connectEstablished, check_neg hstate] at hfault
      cases hfault
  | send hpc hnext hc hw => exact (hawaits hnext).elim
  | shutdown hpc hnext hc => exact (hawaits hnext).elim
  | writeComplete hpc hnext hc => exact h.pop hnext (by rw [hpc]; rfl) (by simp)
  | @remove w c rest sc hpc hnext hc =>
    have hlist' := BatchQueue.toList_of_next hnext
    obtain ⟨sd, hd, hstarted⟩ := hawaits hnext
    cases hc.symm.trans hd
    refine h.remove hlist hc hstarted ?_ ?_ (by simp [hpc, IoLoopPc.working]) hfault
    · exact fun f hf => hlist' ▸ List.mem_cons_of_mem _ hf
    · intro f hf
      exact List.mem_cons.mp (hlist' ▸ hf)
  | destroy hpc hnext hc => exact h.beginDestroyed hpc hidle hnext hc hfault
  | endDestroyed hpc hc => exact h.endDestroyed hpc hc hfault
  | endFunctors hpc hb =>
    refine h.setPc (fun _ hm => absurd hm List.not_mem_nil) ?_ fun _ => hb
    intro d sd _ hin
    cases hpc.symm.trans hin

/-- A step that does not end the run. -/
theorem Moves.anchored [DecidableEq T] {a : ServerAct T L} (hmove : s.Moves a s') (h : s.Anchored gone)
    (hlist : s.Listed removed) (hown : s.OwnLoop a = true) (hfault : s'.fault = none) :
    s'.Anchored gone := by
  cases hmove with
  | newConnection hpc hidle => exact h.newConnection hlist
  | @sendTest o c message sc hmay hc hstate =>
    refine h.setCall ?_
    intro d hd
    cases hd
    obtain ⟨sd, hsd, ho⟩ := (Option.any_eq_true ..).mp hown
    cases hc.symm.trans hsd
    exact ⟨sc, hc, of_decide_eq_true ho, fun _ => hstate⟩
  | sendNot => exact h
  | @sendHere o w c message sc hcall hc ho hw =>
    subst ho
    have hstate := h.calls_tested hc (by rw [hcall]; rfl) (by rw [hcall]; rfl)
    obtain ⟨conn, es, hrun, hsent⟩ := TcpConnection.sendInLoop_spec (h.wf c sc hc) message w
    rw [after_quiet hrun hsent.noClose]
    exact (h.quiet hc (by simp [TcpConnection.inUse, hstate]) hsent.toQuiet).setCall fun _ => by simp [ServerCall.conn]
  | @sendPush o w c message sc hcall hc ho =>
    obtain ⟨sd, hd, heq, -⟩ := h.calls o c (by rw [hcall]; rfl)
    cases hc.symm.trans hd
    exact absurd heq ho
  | @shutTest o c sc hmay hc hstate =>
    refine h.setCall ?_
    intro d hd
    cases hd
    obtain ⟨sd, hsd, ho⟩ := (Option.any_eq_true ..).mp hown
    cases hc.symm.trans hsd
    exact ⟨sc, hc, of_decide_eq_true ho, fun _ => hstate⟩
  | shutNot => exact h
  | @shutSet o c sc hcall hc =>
    obtain ⟨sd, hd, rfl, -⟩ := h.calls o c (by rw [hcall]; rfl)
    cases hc.symm.trans hd
    have hstate := h.calls_tested hc (by rw [hcall]; rfl) (by rw [hcall]; rfl)
    have hin : sc.conn.inUse = true := by simp [TcpConnection.inUse, hstate]
    have hshut : (s.setCall (.loop sc.loop_) (.shut c)).Anchored gone := by
      refine h.setCall ?_
      intro d hd
      cases hd
      exact ⟨sc, hc, rfl, fun htested => by cases htested⟩
    refine hshut.setConn hc _ (h.wf c sc hc) (by simp) (fun _ => h.inUse c sc hc hin) (by simp)
      (fun _ => rfl) ?_ (by simp [hstate])
    intro _ htested
    simp [ServerState.setCall, ServerCall.tested] at htested
  | @shutHere o c sc hcall hc ho =>
    rw [after_shutdownInLoop hc]
    exact h.setCall fun _ => by simp [ServerCall.conn]
  | @shutPush o c sc hcall hc ho =>
    obtain ⟨sd, hd, heq, -⟩ := h.calls o c (by rw [hcall]; rfl)
    cases hc.symm.trans hd
    exact absurd heq ho
  | loop hidle hmove => exact hmove.anchored h hlist hidle hfault

end

end ServerState

end Netfish
