import Netfish.Net.Lifetimes

/-!
# Every entry is of a channel that is there

`Kept` is the agreement of the pollers of a loop and its io loops with the objects: who is in `channels_`,
and which descriptors are whose. The rules below say how a state that has it may change: a connection,
an acceptor or a connector with its channel, the queues, the objects that go.
-/

set_option autoImplicit false

namespace Netfish

open Kit

universe u

/-- A connector owns the descriptor of its channel during an attempt only, the others as long as they
live. -/
def ChannelRef.owns : ChannelRef → Channel → Bool
  | .acceptor _, _ => true
  | .connector _, channel => channel.mapped
  | .conn _, _ => true

/-- The descriptor of a functor `resetChannel` of the connector. -/
def NetFunctor.reset (i : Nat) : NetFunctor → Option Nat
  | .resetChannel j sockfd => if j = i then some sockfd else none
  | _ => none

/-- Between `connecting` and the end of the attempt the channel is watched for writing; from there on it
is out of the poller, and at most one `resetChannel` is queued to destroy it. -/
def Connector.Placed (c : Connector) (resets : List Nat) : Prop :=
  match c.channel_ with
  | none => resets = [] ∧ c.state_ ≠ .kConnecting
  | some ⟨_, channel⟩ =>
    (resets = [] ∧ channel = attempting) ∨
      (c.state_ ≠ .kConnecting ∧ resets.length ≤ 1 ∧ channel = .new)

namespace NetState

variable {L : Type u}

def place (s : NetState L) (o : ChannelRef) : Option (Place L Nat) :=
  (s.channelOf o).map fun (l, fd, channel) =>
    { table := l, key := fd, owned := o.owns channel, entered := channel.mapped }

/-- The `resetChannel`s of the connector that are queued. -/
def resets (s : NetState L) (i : Nat) : List Nat :=
  (s.functors s.base).toList.filterMap (NetFunctor.reset i)

/-- A connection is in the poller from `connectEstablished` on, until `connectDestroyed` is over. -/
structure ConnFits (pc : NetPc) (c : ConnRef) (conn : TcpConnection) : Prop where
  wf : conn.channel_.Wf
  early : conn.state_ = .kConnecting → conn.channel_.mapped = false
  used : conn.inUse = true → conn.channel_.mapped = true
  done : conn.state_ = .kDisconnected → conn.channel_.mapped = true → pc = .destroying c

/-- The connection was made before. -/
def Numbered (s : NetState L) (c : ConnRef) : Prop :=
  c.owner < s.nextObject ∧ (∀ server, s.servers c.owner = some server → c.number < server.nextConnId_) ∧
    ∀ client, s.clients c.owner = some client → c.number < client.nextConnId_

/-- There is no object with this number. -/
def Unmade (s : NetState L) (i : Nat) : Prop :=
  s.acceptors i = none ∧ s.servers i = none ∧ s.connectors i = none ∧ s.clients i = none ∧
    s.resets i = []

/-- The functor `connectDestroyed` that has been called for the connection of this loop keeps it. -/
def Destroying (s : NetState L) (l : L) (c : ConnRef) : Prop :=
  .connectDestroyed c ∈ s.spent l ∧
    ∃ nc, s.conns c = some nc ∧ nc.loop_ = l ∧ nc.conn.state_ = .kDisconnected

structure Kept (s : NetState L) : Prop where
  registered : Registered s.channels_ s.place
  opened : ∀ {o p}, s.place o = some p → p.owned = true → s.opened p.key = true
  passes : ∀ fault, s.fault = some fault → fault.present = false
  unmade : ∀ {i}, s.nextObject ≤ i → s.Unmade i
  kinds : ∀ {i client}, s.clients i = some client → s.servers i = none
  acceptors : ∀ {i a}, s.acceptors i = some a → a.Fits
  connectors : ∀ {i c}, s.connectors i = some c → c.Placed (s.resets i)
  /-- While `connection_` is set the connector has done its work. -/
  clients : ∀ {i client c}, s.clients i = some client → client.connection_ ≠ none →
    s.connectors i = some c → c.state_ = .kConnected
  conns : ∀ {c nc}, s.conns c = some nc → ConnFits (s.pcs nc.loop_) c nc.conn
  numbered : ∀ {c nc}, s.conns c = some nc → s.Numbered c
  home : ∀ {l i sockfd}, .resetChannel i sockfd ∈ (s.functors l).toList → l = s.base
  destroying : ∀ {l c}, s.pcs l = .destroying c → s.Destroying l c

variable {s s' : NetState L} {o : ChannelRef} {c : ConnRef} {nc : NetConn L} {i fd : Nat}

theorem start_kept (base : L) : (start base).Kept where
  registered := by
    have hplace : (start base).place = fun _ => none := by
      funext o
      cases o <;> rfl
    rw [hplace]
    exact registered_empty
  opened {o _} h _ := by cases o <;> cases h
  passes _ h := by cases h
  unmade _ := ⟨rfl, rfl, rfl, rfl, rfl⟩
  kinds _ := rfl
  acceptors h := by cases h
  connectors h := by cases h
  clients h := by cases h
  conns h := by cases h
  numbered h := by cases h
  home h := absurd h List.not_mem_nil
  destroying h := by cases h

/-! ## Places -/

theorem place_conn (hc : s.conns c = some nc) :
    s.place (.conn c) = some ⟨nc.loop_, nc.fd_, true, nc.conn.channel_.mapped⟩ := by
  simp only [place, channelOf, hc, Option.map_some, ChannelRef.owns]

theorem place_acceptor {a : Acceptor} (ha : s.acceptors i = some a) :
    s.place (.acceptor i) = some ⟨s.base, a.acceptSocket_, true, a.acceptChannel_.mapped⟩ := by
  simp only [place, channelOf, ha, Option.map_some, ChannelRef.owns]

theorem place_connector {c : Connector} {channel : ConnectorChannel} (hc : s.connectors i = some c)
    (hch : c.channel_ = some channel) : s.place (.connector i) =
      some ⟨s.base, channel.fd_, channel.channel.mapped, channel.channel.mapped⟩ := by
  simp only [place, channelOf, hc, hch, Option.bind_some, Option.map_some, ChannelRef.owns]

theorem place_connector_none {c : Connector} (hc : s.connectors i = some c) (hch : c.channel_ = none) :
    s.place (.connector i) = none := by
  simp only [place, channelOf, hc, hch, Option.bind_some, Option.map_none]

/-- Only one object has another place. -/
theorem place_update {p : Option (Place L Nat)} (hp : s'.place o = p) (hbase : s'.base = s.base)
    (hacc : ∀ i, o ≠ .acceptor i → s'.acceptors i = s.acceptors i)
    (hcon : ∀ i, o ≠ .connector i → s'.connectors i = s.connectors i)
    (hconns : ∀ c, o ≠ .conn c → s'.conns c = s.conns c) :
    s'.place = Function.update s.place o p := by
  funext o'
  by_cases hne : o' = o
  · subst hne
    rw [Function.update_self, hp]
  · rw [Function.update_of_ne hne]
    cases o' with
    | acceptor i => simp only [place, channelOf, hbase, hacc i fun h => hne h.symm]
    | connector i => simp only [place, channelOf, hbase, hcon i fun h => hne h.symm]
    | conn c => simp only [place, channelOf, hconns c fun h => hne h.symm]

theorem place_setConn (s : NetState L) (c : ConnRef) (nc : NetConn L) :
    { s with conns := Function.update s.conns c (some nc) }.place = Function.update s.place (.conn c)
      (some ⟨nc.loop_, nc.fd_, true, nc.conn.channel_.mapped⟩) := by
  have hc : Function.update s.conns c (some nc) c = some nc := Function.update_self ..
  refine place_update (place_conn hc) rfl (fun _ _ => rfl) (fun _ _ => rfl) ?_
  intro d hd
  have hdc : d ≠ c := by
    rintro rfl
    exact hd rfl
  exact Function.update_of_ne hdc ..

theorem place_setAcceptor (s : NetState L) (i : Nat) (a : Acceptor) :
    { s with acceptors := Function.update s.acceptors i (some a) }.place =
      Function.update s.place (.acceptor i)
        (some ⟨s.base, a.acceptSocket_, true, a.acceptChannel_.mapped⟩) := by
  have ha : Function.update s.acceptors i (some a) i = some a := Function.update_self ..
  refine place_update (place_acceptor ha) rfl ?_ (fun _ _ => rfl) (fun _ _ => rfl)
  intro j hj
  have hji : j ≠ i := by
    rintro rfl
    exact hj rfl
  exact Function.update_of_ne hji ..

theorem place_removeAcceptor (s : NetState L) (i : Nat) :
    { s with acceptors := Function.update s.acceptors i none }.place =
      Function.update s.place (.acceptor i) none := by
  refine place_update ?_ rfl ?_ (fun _ _ => rfl) (fun _ _ => rfl)
  · simp [place, channelOf]
  · intro j hj
    have hji : j ≠ i := by
      rintro rfl
      exact hj rfl
    exact Function.update_of_ne hji ..

theorem place_removeConnector (s : NetState L) (i : Nat) :
    { s with connectors := Function.update s.connectors i none }.place =
      Function.update s.place (.connector i) none := by
  refine place_update ?_ rfl (fun _ _ => rfl) ?_ (fun _ _ => rfl)
  · simp [place, channelOf]
  · intro j hj
    have hji : j ≠ i := by
      rintro rfl
      exact hj rfl
    exact Function.update_of_ne hji ..

theorem place_setConnector (s : NetState L) (i : Nat) (c : Connector) :
    { s with connectors := Function.update s.connectors i (some c) }.place =
      Function.update s.place (.connector i) (c.channel_.map fun channel =>
        ⟨s.base, channel.fd_, channel.channel.mapped, channel.channel.mapped⟩) := by
  have hc : Function.update s.connectors i (some c) i = some c := Function.update_self ..
  refine place_update ?_ rfl (fun _ _ => rfl) ?_ (fun _ _ => rfl)
  · cases hch : c.channel_ with
    | none => exact place_connector_none hc hch
    | some channel => exact place_connector hc hch
  · intro j hj
    have hji : j ≠ i := by
      rintro rfl
      exact hj rfl
    exact Function.update_of_ne hji ..

/-- No object owns the descriptor. -/
def Unowned (s : NetState L) (fd : Nat) : Prop :=
  ∀ o p, s.place o = some p → p.owned = true → p.key ≠ fd

/-- Nobody owns a descriptor the kernel may give. -/
theorem Kept.unowned (h : s.Kept) (hfd : s.opened fd = false) : s.Unowned fd := by
  rintro o p hp howned rfl
  cases (h.opened hp howned).symm.trans hfd

theorem Unowned.keyFree (h : s.Unowned fd) (o : ChannelRef) : KeyFree s.place o fd :=
  fun o' p _ => h o' p

theorem Kept.opened_update (h : s.Kept) {q : Place L Nat}
    (hplace : s'.place = Function.update s.place o (some q))
    (hq : q.owned = true → s.opened q.key = true) {o' : ChannelRef} {p : Place L Nat}
    (hp : s'.place o' = some p) (howned : p.owned = true) : s.opened p.key = true := by
  rw [hplace] at hp
  by_cases hne : o' = o
  · subst hne
    rw [Function.update_self] at hp
    cases hp
    exact hq howned
  · rw [Function.update_of_ne hne] at hp
    exact h.opened hp howned

/-- A connector that has a channel keeps it; what it registers is a channel of a descriptor of its own. -/
structure Moves (s : NetState L) (con con' : Connector) : Prop where
  stay : ∀ ch, con.channel_ = some ch → ∃ ch', con'.channel_ = some ch' ∧ ch'.fd_ = ch.fd_
  key : ∀ ch', con'.channel_ = some ch' → ch'.channel.mapped = true → s.Unowned ch'.fd_ ∨
    ∃ ch, con.channel_ = some ch ∧ ch.channel.mapped = true ∧ ch.fd_ = ch'.fd_

theorem Moves.same {con con' : Connector} (h : con'.channel_ = con.channel_) : s.Moves con con' := by
  refine ⟨?_, ?_⟩
  · intro ch hch
    exact ⟨ch, h.trans hch, rfl⟩
  · intro ch hch hmapped
    exact .inr ⟨ch, h.symm.trans hch, hmapped, rfl⟩

/-! ## What is no channel's business -/

theorem Kept.fail (h : s.Kept) {fault : NetFault} (hf : fault.present = false) :
    (s.fail fault).Kept :=
  { h with
    passes := by
      intro fault' hf'
      obtain rfl := Option.some.inj hf'
      cases hs : s.fault with
      | none => exact hf
      | some first => exact h.passes first hs }

theorem Kept.timers (h : s.Kept) (timers : List (Nat × Nat)) (nextTimer : Nat) :
    { s with timers, nextTimer }.Kept :=
  { h with }

/-- A descriptor is opened, or one that nobody owns is closed. -/
theorem Kept.setOpened (h : s.Kept) {b : Bool} (hb : b = true ∨ s.Unowned fd) :
    (s.setOpened fd b).Kept :=
  { h with
    opened := by
      intro o p hp howned
      have hold := h.opened hp howned
      by_cases hfd : p.key = fd
      · rcases hb with rfl | hun
        · simp [NetState.setOpened, hfd]
        · exact absurd hfd (hun o p hp howned)
      · simpa [NetState.setOpened, hfd] using hold }

/-- A connector has done something with its channel, or nothing; its `resetChannel` may have been queued,
and a descriptor been opened. -/
theorem Kept.withConnector (h : s.Kept) {con con' : Connector} (hc : s.connectors i = some con)
    {channels_ : L → Nat → Option ChannelRef} {functors : L → BatchQueue NetFunctor}
    {opened : Nat → Bool}
    (hreg : Registered channels_
      { s with connectors := Function.update s.connectors i (some con') }.place)
    (hopen : ∀ fd, s.opened fd = true → opened fd = true)
    (hown : ∀ ch', con'.channel_ = some ch' → ch'.channel.mapped = true → opened ch'.fd_ = true)
    (hclient : ∀ client, s.clients i = some client → client.connection_ ≠ none →
      con'.state_ = .kConnected)
    (hothers : ∀ j, j ≠ i → { s with functors }.resets j = s.resets j)
    (hhome : ∀ {l j sockfd}, .resetChannel j sockfd ∈ (functors l).toList → l = s.base)
    (hplaced : con'.Placed ({ s with functors }.resets i)) :
    { s with
      connectors := Function.update s.connectors i (some con')
      channels_, functors, opened }.Kept :=
  { h with
    registered := hreg
    opened := by
      intro o p hp howned
      replace hp : { s with connectors := Function.update s.connectors i (some con') }.place o = some p := hp
      rw [place_setConnector] at hp
      by_cases hne : o = .connector i
      · subst hne
        rw [Function.update_self] at hp
        obtain ⟨ch, hch, rfl⟩ := Option.map_eq_some_iff.mp hp
        exact hown ch hch howned
      · rw [Function.update_of_ne hne] at hp
        exact hopen _ (h.opened hp howned)
    unmade := by
      intro j hj
      obtain ⟨hacc, hsv, hcon, hcl, hr⟩ := h.unmade hj
      have hji : j ≠ i := by
        rintro rfl
        cases hc.symm.trans hcon
      exact ⟨hacc, hsv, (Function.update_of_ne hji ..).trans hcon, hcl, (hothers j hji).trans hr⟩
    connectors := by
      intro j b hb
      by_cases hji : j = i
      · subst hji
        simp only [Function.update_self, Option.some.injEq] at hb
        subst hb
        exact hplaced
      · simp only [Function.update_of_ne hji] at hb
        have hold := h.connectors hb
        rw [← hothers j hji] at hold
        exact hold
    clients := by
      intro j client b hclt hconn hb
      by_cases hji : j = i
      · subst hji
        simp only [Function.update_self, Option.some.injEq] at hb
        subst hb
        exact hclient client hclt hconn
      · simp only [Function.update_of_ne hji] at hb
        exact h.clients hclt hconn hb
    home := hhome }

variable [DecidableEq L] {l : L} {f : NetFunctor}

theorem resets_push_of_ne (hf : f.reset i = none) : (s.push l f).resets i = s.resets i := by
  unfold resets
  by_cases hl : l = s.base
  · subst hl
    simp [push, hf]
  · simp [push, Function.update_of_ne (Ne.symm hl)]

theorem mem_push {g : NetFunctor} {l' : L} (hg : g ∈ ((s.push l f).functors l').toList) :
    g ∈ (s.functors l').toList ∨ (g = f ∧ l' = l) := by
  by_cases hl : l' = l
  · subst hl
    simp only [push, Function.update_self, BatchQueue.toList_push, List.mem_append,
      List.mem_singleton] at hg
    exact hg.imp_right fun hgf => ⟨hgf, rfl⟩
  · simp only [push, Function.update_of_ne hl] at hg
    exact .inl hg

/-- A functor that is no `resetChannel` is queued. -/
theorem Kept.push (h : s.Kept) (hf : ∀ i, f.reset i = none) : (s.push l f).Kept :=
  { h with
    unmade := by
      intro i hi
      obtain ⟨ha, hsv, hc, hcl, hr⟩ := h.unmade hi
      exact ⟨ha, hsv, hc, hcl, (resets_push_of_ne (hf i)).trans hr⟩
    connectors := by
      intro i c hc
      rw [resets_push_of_ne (hf i)]
      exact h.connectors hc
    home := by
      intro l' i sockfd hmem
      rcases mem_push hmem with hmem | ⟨rfl, -⟩
      · exact h.home hmem
      · have hreset := hf i
        simp [NetFunctor.reset] at hreset }

/-- A connection fits wherever the thread of a loop goes that is in no `connectDestroyed`. -/
theorem ConnFits.setPc {conn : TcpConnection} {l' : L} (h : ConnFits (s.pcs l') c conn)
    (hold : ∀ c, s.pcs l ≠ .destroying c) (pc : NetPc) : ConnFits ((s.setPc l pc).pcs l') c conn := by
  obtain ⟨hwf, hearly, hused, hdone⟩ := h
  refine ⟨hwf, hearly, hused, ?_⟩
  intro hstate hmapped
  have hpc := hdone hstate hmapped
  have hl : l' ≠ l := by
    rintro rfl
    exact hold c hpc
  simpa [NetState.setPc, Function.update_of_ne hl] using hpc

/-- The thread of the loop goes somewhere else. -/
theorem Kept.setPc (h : s.Kept) {pc : NetPc} (hold : ∀ c, s.pcs l ≠ .destroying c)
    (hnew : ∀ c, pc ≠ .destroying c) : (s.setPc l pc).Kept :=
  { h with
    conns := fun hc => (h.conns hc).setPc hold pc
    destroying := by
      intro l' c hpc
      by_cases hl : l' = l
      · subst hl
        exact absurd (by simpa [NetState.setPc] using hpc) (hnew c)
      · exact h.destroying (by simpa [NetState.setPc, Function.update_of_ne hl] using hpc) }

/-! ## A channel and its poller -/

/-- What an object with a new place tells the poller is in order. -/
theorem Kept.note (h : s.Kept) {q : Place L Nat} (was : Bool)
    (hplace : s'.place = Function.update s.place o (some q)) (hentry : s'.channels_ = s.channels_)
    (hwas : was = (s.place o).any Place.entered)
    (hstay : ∀ p, s.place o = some p → p.entered = true → q.table = p.table ∧ q.key = p.key)
    (howned : q.entered = true → q.owned = true) (hkey : q.owned = true → KeyFree s.place o q.key) :
    ∃ channels_, s'.note o q.table q.key was q.entered = { s' with channels_ } ∧
      Registered channels_ s'.place := by
  obtain ⟨hreg, hfree⟩ := h.registered.note hwas hstay howned hkey
  refine ⟨noteEntry s'.channels_ o q.table q.key was q.entered, ?_, ?_⟩
  · unfold NetState.note
    rw [if_neg]
    rintro ⟨hf, hq, hocc⟩
    rw [hentry] at hocc
    exact hocc (hfree hf hq)
  · rw [hplace, hentry]
    exact hreg

/-- A connection has done something with its channel, or nothing, and threads may have gone somewhere
else. -/
theorem Kept.setConnAt (h : s.Kept) (hc : s.conns c = some nc) {conn : TcpConnection} {pcs : L → NetPc}
    (hfits : ConnFits (pcs nc.loop_) c conn)
    (hothers : ∀ d nd, d ≠ c → s.conns d = some nd → ConnFits (pcs nd.loop_) d nd.conn)
    (hdestroying : ∀ {l d}, pcs l = .destroying d →
      { s with conns := Function.update s.conns c (some { nc with conn }) }.Destroying l d) :
    ({ s with pcs }.setConn c nc conn).Kept := by
  have hp := place_conn hc
  have hplace : { s with pcs, conns := Function.update s.conns c (some { nc with conn }) }.place =
      Function.update s.place (.conn c) (some ⟨nc.loop_, nc.fd_, true, conn.channel_.mapped⟩) :=
    place_setConn s c { nc with conn }
  obtain ⟨channels_, hnote, hreg⟩ := h.note nc.conn.channel_.mapped hplace rfl
    (by rw [hp]; rfl) (by rintro p hp' -; cases hp.symm.trans hp'; exact ⟨rfl, rfl⟩) (fun _ => rfl)
    (fun _ => (h.registered.keyFree hp rfl : KeyFree s.place (.conn c) nc.fd_))
  unfold NetState.setConn
  rw [hnote]
  exact { h with
    registered := hreg
    opened := h.opened_update hplace fun _ => (h.opened hp rfl : s.opened nc.fd_ = true)
    conns := by
      intro d nd hd
      by_cases hdc : d = c
      · subst hdc
        simp only [Function.update_self, Option.some.injEq] at hd
        subst hd
        exact hfits
      · simp only [Function.update_of_ne hdc] at hd
        exact hothers d nd hdc hd
    numbered := by
      intro d nd hd
      by_cases hdc : d = c
      · subst hdc
        exact h.numbered hc
      · simp only [Function.update_of_ne hdc] at hd
        exact h.numbered hd
    destroying := hdestroying }

/-- A connection has done something with its channel, or nothing. -/
theorem Kept.setConn (h : s.Kept) (hc : s.conns c = some nc) {conn : TcpConnection}
    (hfits : ConnFits (s.pcs nc.loop_) c conn)
    (hstays : nc.conn.state_ = .kDisconnected → conn.state_ = .kDisconnected) :
    (s.setConn c nc conn).Kept := by
  refine h.setConnAt hc hfits (fun d nd _ hd => h.conns hd) ?_
  intro l d hpc
  obtain ⟨hspent, nd, hd, hl, hstate⟩ := h.destroying hpc
  refine ⟨hspent, ?_⟩
  by_cases hdc : d = c
  · subst hdc
    cases hc.symm.trans hd
    exact ⟨_, Function.update_self .., hl, hstays hstate⟩
  · exact ⟨nd, (Function.update_of_ne hdc ..).trans hd, hl, hstate⟩

/-- A connection is made of a descriptor that is open and nobody's. -/
theorem Kept.addConn (h : s.Kept) (hnone : s.conns c = none) (hnum : s.Numbered c)
    (hfd : s.Unowned nc.fd_) (hopen : s.opened nc.fd_ = true)
    (hfits : ConnFits (s.pcs nc.loop_) c nc.conn) (hnew : nc.conn.channel_.mapped = false) :
    { s with conns := Function.update s.conns c (some nc) }.Kept := by
  have hplace := place_setConn s c nc
  have hp : s.place (.conn c) = none := by simp only [place, channelOf, hnone, Option.map_none]
  exact { h with
    registered := by
      rw [hplace]
      exact h.registered.put (fun p hp' => by cases hp.symm.trans hp') hnew
        fun _ => hfd.keyFree (.conn c)
    opened := h.opened_update hplace fun _ => hopen
    conns := by
      intro d nd hd
      by_cases hdc : d = c
      · subst hdc
        simp only [Function.update_self, Option.some.injEq] at hd
        subst hd
        exact hfits
      · simp only [Function.update_of_ne hdc] at hd
        exact h.conns hd
    numbered := by
      intro d nd hd
      by_cases hdc : d = c
      · subst hdc
        exact hnum
      · simp only [Function.update_of_ne hdc] at hd
        exact h.numbered hd
    destroying := by
      intro l d hpc
      obtain ⟨hspent, nd, hd, hrest⟩ := h.destroying hpc
      have hdc : d ≠ c := by
        rintro rfl
        cases hnone.symm.trans hd
      exact ⟨hspent, nd, (Function.update_of_ne hdc ..).trans hd, hrest⟩ }

theorem Kept.listen (h : s.Kept) {a : Acceptor} (ha : s.acceptors i = some a) :
    (s.listen i a).Kept := by
  obtain ⟨channel, hrun, hfits⟩ := (h.acceptors ha).listen
  have hp := place_acceptor ha
  have hplace := place_setAcceptor s i { a with listening_ := true, acceptChannel_ := channel }
  obtain ⟨channels_, hnote, hreg⟩ := h.note a.acceptChannel_.mapped hplace rfl
    (by rw [hp]; rfl) (by rintro p hp' -; cases hp.symm.trans hp'; exact ⟨rfl, rfl⟩) (fun _ => rfl)
    (fun _ => (h.registered.keyFree hp rfl : KeyFree s.place (.acceptor i) a.acceptSocket_))
  unfold NetState.listen
  rw [hrun]
  dsimp only
  rw [hnote]
  exact { h with
    registered := hreg
    opened := h.opened_update hplace fun _ => (h.opened hp rfl : s.opened a.acceptSocket_ = true)
    unmade := by
      intro j hj
      obtain ⟨hacc, hrest⟩ := h.unmade hj
      have hji : j ≠ i := by
        rintro rfl
        cases ha.symm.trans hacc
      exact ⟨(Function.update_of_ne hji ..).trans hacc, hrest⟩
    acceptors := by
      intro j b hb
      by_cases hji : j = i
      · subst hji
        simp only [Function.update_self, Option.some.injEq] at hb
        subst hb
        exact hfits
      · simp only [Function.update_of_ne hji] at hb
        exact h.acceptors hb }

/-! ## Connectors -/

section

variable {con con' : Connector}

/-- What it tells the poller is in order. -/
theorem Kept.noteConnector (h : s.Kept) (hc : s.connectors i = some con) (hm : s.Moves con con') :
    ∃ channels_, s.setConnector i con con' =
      { s with connectors := Function.update s.connectors i (some con'), channels_ } ∧
        Registered channels_
          { s with connectors := Function.update s.connectors i (some con') }.place := by
  have hplace := place_setConnector s i con'
  unfold NetState.setConnector
  cases hch' : con'.channel_ with
  | none =>
    have hch : con.channel_ = none := by
      cases hch : con.channel_ with
      | none => rfl
      | some ch =>
        obtain ⟨ch', hsome, -⟩ := hm.stay ch hch
        cases hch'.symm.trans hsome
    refine ⟨s.channels_, rfl, ?_⟩
    rw [hplace, hch', Option.map_none, ← place_connector_none hc hch, Function.update_eq_self]
    exact h.registered
  | some ch' =>
    dsimp only
    have hwas : con.channel_.any (·.channel.mapped) = (s.place (.connector i)).any Place.entered := by
      cases hch : con.channel_ with
      | none => rw [place_connector_none hc hch]; rfl
      | some ch => rw [place_connector hc hch]; rfl
    rw [hch', Option.map_some] at hplace
    refine h.note _ hplace rfl hwas ?_ id ?_
    · intro p hp hin
      cases hch : con.channel_ with
      | none => cases (place_connector_none hc hch).symm.trans hp
      | some ch =>
        cases (place_connector hc hch).symm.trans hp
        obtain ⟨_, hsome, hfd⟩ := hm.stay ch hch
        cases hch'.symm.trans hsome
        exact ⟨rfl, hfd⟩
    · intro hmapped
      rcases hm.key ch' hch' hmapped with hun | ⟨ch, hch, hin, hfd⟩
      · exact hun.keyFree _
      · have hfree := h.registered.keyFree (place_connector hc hch) hin
        rwa [hfd] at hfree

end

end NetState

end Netfish
