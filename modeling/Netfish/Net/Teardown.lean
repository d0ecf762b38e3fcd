import Netfish.Net.PlacedSteps

/-!
# Destroyed channels

No destructor takes a channel out of its poller: `~Acceptor` and `~TcpServer` leave that of a socket which
listens, and the last `TcpConnectionPtr` of a connection in use that of the connection. `Connector` is
the one that asserts. `no_stale_channel_iff` says that there is no other way for `channels_` to keep a
channel that is gone, and so none for the next channel on its descriptor to fail at the poller.
-/

set_option autoImplicit false

namespace Netfish

open Kit

universe u

theorem Connector.Placed.sublist {c : Connector} {resets resets' : List Nat} (h : c.Placed resets)
    (hsub : resets'.Sublist resets) : c.Placed resets' := by
  unfold Placed at h ⊢
  split at h
  · rw [h.1] at hsub
    exact ⟨List.sublist_nil.mp hsub, h.2⟩
  · rcases h with ⟨hresets, hch⟩ | ⟨hstate, hlen, hch⟩
    · rw [hresets] at hsub
      exact .inl ⟨List.sublist_nil.mp hsub, hch⟩
    · exact .inr ⟨hstate, Nat.le_trans hsub.length_le hlen, hch⟩

namespace NetState

variable {L : Type u} {s s' : NetState L} {i fd : Nat} {con : Connector} {c : ConnRef} {nc : NetConn L}
  {l : L}

/-- `channels_` has nothing but channels that are there, under their loop and descriptor, and no
`assert(channels_.find(fd) == channels_.end())` has failed. -/
structure NoStale (s : NetState L) : Prop where
  live : ∀ l fd o, s.channels_ l fd = some o → ∃ channel, s.channelOf o = some (l, fd, channel)
  passes : ∀ fault, s.fault = some fault → fault.present = false

/-- The connections that go with one of these pointers are not in use: `connectEstablished` has not run,
or `connectDestroyed` has. -/
def LetsGoInTime (s : NetState L) (cs : List ConnRef) : Prop :=
  ∀ c nc, s.conns c = some nc → s.Goes cs c nc → nc.conn.inUse = false

/-- An acceptor goes that does not listen, and the last pointer to a connection when the connection is
not in use. -/
def TearsDownInTime [DecidableEq L] (s : NetState L) : NetAct L → Prop
  | .destroyAcceptor i => ∀ a, s.acceptors i = some a → a.listening_ = false
  | .destroyTcpServer i => ∀ server a, s.servers i = some server → s.acceptors i = some a →
    a.listening_ = false ∧
      { s with servers := Function.update s.servers i none }.LetsGoInTime (pointers i server)
  | .destroyTcpClient i => ∀ client, s.clients i = some client →
    { s with clients := Function.update s.clients i none }.LetsGoInTime
      (client.connection_.toList.map (⟨i, ·⟩))
  | .endFunctors l => { s with spent := Function.update s.spent l [] }.LetsGoInTime
      ((s.spent l).filterMap NetFunctor.holds)
  | _ => True

theorem Kept.noStale (h : s.Kept) : s.NoStale where
  live l fd o he := by
    obtain ⟨p, hp, rfl, rfl, -⟩ := h.registered.live he
    obtain ⟨⟨l, fd, channel⟩, hch, rfl⟩ := Option.map_eq_some_iff.mp hp
    exact ⟨channel, hch⟩
  passes := h.passes

/-! ## Queues -/

/-- Functors that are no `resetChannel`s come and go. -/
theorem Kept.withFunctors (h : s.Kept) {functors : L → BatchQueue NetFunctor}
    (hsub : ∀ i, ({ s with functors }.resets i).Sublist (s.resets i))
    (hhome : ∀ {l i sockfd}, .resetChannel i sockfd ∈ (functors l).toList → l = s.base) :
    { s with functors }.Kept :=
  { h with
    unmade := by
      intro i hi
      obtain ⟨hacc, hsv, hcon, hcl, hr⟩ := h.unmade hi
      have hsub := hsub i
      rw [hr] at hsub
      exact ⟨hacc, hsv, hcon, hcl, List.sublist_nil.mp hsub⟩
    connectors := by
      intro i con hc
      exact (h.connectors hc).sublist (hsub i)
    home := hhome }

theorem Kept.withSpent (h : s.Kept) {spent : L → List NetFunctor}
    (hspent : ∀ {l c}, s.pcs l = .destroying c → .connectDestroyed c ∈ spent l) :
    { s with spent }.Kept :=
  { h with destroying := fun hpc => ⟨hspent hpc, (h.destroying hpc).2⟩ }

/-- The channel of a finished attempt goes. -/
theorem Kept.resetChannel (h : s.Kept) (hc : s.connectors i = some con)
    (hch : con.channel_ = some ⟨fd, .new⟩) (hstate : con.state_ ≠ .kConnecting)
    (hresets : s.resets i = []) :
    { s with connectors := Function.update s.connectors i (some con.resetChannel) }.Kept := by
  refine h.withConnector hc ?_ (fun _ => id) ?_ ?_ (fun _ _ => rfl) h.home ?_
  · refine h.registered.gone ?_
    intro o
    rw [place_setConnector]
    by_cases hne : o = .connector i
    · subst hne
      refine .inr ⟨Function.update_self .., ?_⟩
      intro p hp
      cases (place_connector hc hch).symm.trans hp
      rfl
    · exact .inl (Function.update_of_ne hne ..)
  · intro ch hno
    cases hno
  · intro client hcl hset
    exact (h.clients hcl hset hc : con.state_ = .kConnected)
  · exact ⟨hresets, hstate⟩

/-! ## Objects that go -/

/-- A connection that is in the poller is in use, or its `connectDestroyed` still holds a pointer. -/
theorem Kept.mapped_iff (h : s.Kept) (hc : s.conns c = some nc) (hgone : ¬ s.Owned c nc) :
    nc.conn.channel_.mapped = true ↔ nc.conn.inUse = true := by
  obtain ⟨-, hearly, hused, hdone⟩ := h.conns hc
  refine ⟨?_, hused⟩
  intro hmapped
  cases hstate : nc.conn.state_ with
  | kConnecting => cases (hearly hstate).symm.trans hmapped
  | kConnected => simp [TcpConnection.inUse, hstate]
  | kDisconnecting => simp [TcpConnection.inUse, hstate]
  | kDisconnected =>
    have hspent := (h.destroying (hdone hstate hmapped)).1
    refine absurd (.inr ⟨nc.loop_, by simp, .connectDestroyed c, ?_, rfl⟩) hgone
    exact List.mem_append_left _ hspent

theorem mem_letGo {cs : List ConnRef} (hc : (s.letGo cs).conns c = some nc) :
    s.conns c = some nc ∧ ¬ s.Goes cs c nc := by
  obtain ⟨hc, hstays⟩ := Option.filter_eq_some_iff.mp hc
  exact ⟨hc, by simpa using hstays⟩

theorem letGo_conns {cs : List ConnRef} (hc : s.conns c = some nc) (hgoes : s.Goes cs c nc) :
    (s.letGo cs).conns c = none := by
  simp [letGo, hc, hgoes]

/-- What is left has its place. -/
theorem letGo_place {cs : List ConnRef} {o : ChannelRef} {p : Place L Nat}
    (hp : (s.letGo cs).place o = some p) : s.place o = some p := by
  cases o with
  | acceptor i => exact hp
  | connector i => exact hp
  | conn c =>
    cases hc : (s.letGo cs).conns c with
    | none => simp [place, channelOf, hc] at hp
    | some nc =>
      rw [place_conn hc] at hp
      rw [place_conn (mem_letGo hc).1, hp]

/-- Connections go that are not in use. -/
theorem Kept.letGo (h : s.Kept) {cs : List ConnRef} (hin : s.LetsGoInTime cs) : (s.letGo cs).Kept :=
  { h with
    registered := by
      refine h.registered.gone ?_
      intro o
      cases o with
      | acceptor i => exact .inl rfl
      | connector i => exact .inl rfl
      | conn c =>
        cases hc : s.conns c with
        | none => exact .inl (by simp [place, channelOf, NetState.letGo, hc])
        | some nc =>
          by_cases hgoes : s.Goes cs c nc
          · refine .inr ⟨by simp only [place, channelOf, letGo_conns hc hgoes, Option.map_none], ?_⟩
            intro p hp
            cases (place_conn hc).symm.trans hp
            cases hm : nc.conn.channel_.mapped with
            | false => rfl
            | true =>
              cases (hin c nc hc hgoes).symm.trans ((h.mapped_iff hc hgoes.2).mp hm)
          · exact .inl (by simp [place, channelOf, NetState.letGo, hc, hgoes])
    opened := by
      intro o p hp howned
      have hold := letGo_place hp
      simp only [NetState.letGo, Bool.and_eq_true, Bool.not_eq_true', List.any_eq_false]
      refine ⟨h.opened hold howned, ?_⟩
      intro c hmem hany
      obtain ⟨nc, hc, hgoes⟩ := (Option.any_eq_true _ _).mp hany
      obtain ⟨hgoes, hfd⟩ := of_decide_eq_true hgoes
      cases h.registered.alone hold (place_conn hc) howned rfl hfd.symm
      rw [place, channelOf, letGo_conns hc hgoes] at hp
      cases hp
    conns := by
      intro c nc hc
      exact h.conns (mem_letGo hc).1
    numbered := by
      intro c nc hc
      exact h.numbered (mem_letGo hc).1
    destroying := by
      intro l c hpc
      obtain ⟨hspent, nc, hc, hl, hstate⟩ := h.destroying hpc
      refine ⟨hspent, nc, ?_, hl, hstate⟩
      have hstays : ¬ s.Goes cs c nc := by
        rintro ⟨-, hgone⟩
        refine hgone (.inr ⟨l, by simp [hl], .connectDestroyed c, ?_, rfl⟩)
        exact List.mem_append_left _ hspent
      simp [NetState.letGo, hc, hstays] }

/-- What is left of the objects when one of the numbers has none. -/
theorem update_none_eq_some {α : Type u} {f : Nat → Option α} {j : Nat} {x : α}
    (hx : Function.update f i none j = some x) : f j = some x ∧ j ≠ i := by
  by_cases hji : j = i
  · subst hji
    rw [Function.update_self] at hx
    cases hx
  · exact ⟨by rwa [Function.update_of_ne hji] at hx, hji⟩

theorem update_none_eq_none {α : Type u} {f : Nat → Option α} {j : Nat} (hf : f j = none) :
    Function.update f i none j = none := by
  by_cases hji : j = i
  · rw [hji, Function.update_self]
  · rwa [Function.update_of_ne hji]

theorem Kept.destroyAcceptor (h : s.Kept) {a : Acceptor} (ha : s.acceptors i = some a)
    (hlisten : a.listening_ = false) : (s.destroyAcceptor i a).Kept := by
  have hp := place_acceptor ha
  have hplace : (s.destroyAcceptor i a).place = Function.update s.place (.acceptor i) none :=
    place_removeAcceptor s i
  exact { h with
    registered := by
      refine h.registered.gone ?_
      intro o
      rw [hplace]
      by_cases hne : o = .acceptor i
      · subst hne
        refine .inr ⟨Function.update_self .., ?_⟩
        intro p hp'
        cases hp.symm.trans hp'
        exact (h.acceptors ha).mapped.trans hlisten
      · exact .inl (Function.update_of_ne hne ..)
    opened := by
      intro o p hpo howned
      rw [hplace] at hpo
      by_cases hne : o = .acceptor i
      · subst hne
        rw [Function.update_self] at hpo
        cases hpo
      · rw [Function.update_of_ne hne] at hpo
        have hkey : p.key ≠ a.acceptSocket_ :=
          fun hkey => hne (h.registered.alone hpo hp howned rfl hkey)
        exact (Function.update_of_ne hkey ..).trans (h.opened hpo howned)
    unmade := by
      intro j hj
      obtain ⟨hacc, hrest⟩ := h.unmade hj
      exact ⟨update_none_eq_none hacc, hrest⟩
    acceptors := fun hb => h.acceptors (update_none_eq_some hb).1 }

/-- `~Connector` asserts that there is no channel. -/
theorem Kept.destroyConnector (h : s.Kept) (hc : s.connectors i = some con) :
    (s.destroyConnector i con).Kept := by
  have hcancel : (s.cancel con.timerId_).Kept := h.timers _ _
  unfold NetState.destroyConnector
  dsimp only
  split
  · next hch =>
    have hplace := place_removeConnector s i
    rw [← place_connector_none hc hch, Function.update_eq_self] at hplace
    exact { hcancel with
      registered := hplace ▸ h.registered
      opened := by
        intro o p hp howned
        exact h.opened ((congrFun hplace o).symm.trans hp) howned
      unmade := by
        intro j hj
        obtain ⟨hacc, hsv, hcon, hrest⟩ := h.unmade hj
        exact ⟨hacc, hsv, update_none_eq_none hcon, hrest⟩
      connectors := fun hd => h.connectors (update_none_eq_some hd).1
      clients := fun hcl hset hd => h.clients hcl hset (update_none_eq_some hd).1 }
  · exact hcancel.fail rfl

/-- Connections with another `closeCallback_` are the same otherwise. -/
theorem detached {cs : List ConnRef} {nc' : NetConn L}
    (hc : (if c ∈ cs then (s.conns c).map (NetConn.setCloseCallback .detail) else s.conns c) = some nc') :
    ∃ nc, s.conns c = some nc ∧ nc'.toServerConn = nc.toServerConn ∧ nc'.fd_ = nc.fd_ := by
  split at hc
  · obtain ⟨nc, hnc, rfl⟩ := Option.map_eq_some_iff.mp hc
    exact ⟨nc, hnc, rfl, rfl⟩
  · exact ⟨nc', hc, rfl, rfl⟩

/-- `~TcpClient` -/
theorem Kept.destroyTcpClient (h : s.Kept) {client : TcpClient} (hc : s.connectors i = some con)
    (hin : { s with clients := Function.update s.clients i none }.LetsGoInTime
      (client.connection_.toList.map (⟨i, ·⟩))) : (s.destroyTcpClient i client con).Kept := by
  unfold NetState.destroyTcpClient
  dsimp only
  generalize client.connection_.toList.map (⟨i, ·⟩ : Nat → ConnRef) = cs at hin ⊢
  refine Kept.destroyConnector (Kept.letGo ?_ ?_) hc
  · have hplace : { s with conns := fun c =>
        if c ∈ cs then (s.conns c).map (NetConn.setCloseCallback .detail) else s.conns c }.place =
          s.place := by
      funext o
      cases o with
      | acceptor j => rfl
      | connector j => rfl
      | conn c =>
        cases hc : s.conns c <;> by_cases hmem : c ∈ cs <;>
          simp [place, channelOf, hc, hmem, NetConn.setCloseCallback, ChannelRef.owns]
    exact { h with
      registered := hplace ▸ h.registered
      opened := by
        intro o p hp howned
        exact h.opened ((congrFun hplace o).symm.trans hp) howned
      unmade := by
        intro j hj
        obtain ⟨hacc, hsv, hcon, hclt, hr⟩ := h.unmade hj
        exact ⟨hacc, hsv, hcon, update_none_eq_none hclt, hr⟩
      kinds := fun hd => h.kinds (update_none_eq_some hd).1
      clients := fun hd hset hcon => h.clients (update_none_eq_some hd).1 hset hcon
      conns := by
        intro c nc' hc'
        obtain ⟨nc, hnc, hsame, -⟩ := detached hc'
        rw [hsame]
        exact h.conns hnc
      destroying := by
        intro l c hpc
        obtain ⟨hspent, nc, hnc, hl, hstate⟩ := h.destroying hpc
        refine ⟨hspent, ?_⟩
        by_cases hmem : c ∈ cs
        · exact ⟨nc.setCloseCallback .detail, by simp [hmem, hnc], hl, hstate⟩
        · exact ⟨nc, by simp [hmem, hnc], hl, hstate⟩
      numbered := by
        intro c nc' hc'
        obtain ⟨nc, hnc, -⟩ := detached hc'
        obtain ⟨howner, hserver, hclient⟩ := h.numbered hnc
        exact ⟨howner, hserver, fun d hd => hclient d (update_none_eq_some hd).1⟩ }
  · intro c nc' hc' hgoes
    obtain ⟨nc, hnc, hsame, -⟩ := detached hc'
    rw [hsame]
    refine hin c nc hnc ⟨hgoes.1, ?_⟩
    intro howned
    refine hgoes.2 ?_
    simp only [Owned, listed, hsame] at howned ⊢
    exact howned

/-- `~TcpServer` -/
theorem Kept.destroyTcpServer (h : s.Kept) {server : TcpServer L} {a : Acceptor}
    (ha : s.acceptors i = some a) (hlisten : a.listening_ = false)
    (hin : { s with servers := Function.update s.servers i none }.LetsGoInTime (pointers i server)) :
    (s.destroyTcpServer i server a).Kept := by
  have hgone : { s with servers := Function.update s.servers i none }.Kept :=
    { h with
      unmade := by
        intro j hj
        obtain ⟨hacc, hsv, hrest⟩ := h.unmade hj
        exact ⟨hacc, update_none_eq_none hsv, hrest⟩
      kinds := fun hcl => update_none_eq_none (h.kinds hcl)
      numbered := by
        intro c nc hc
        obtain ⟨howner, hserver, hclient⟩ := h.numbered hc
        exact ⟨howner, fun d hd => hserver d (update_none_eq_some hd).1, hclient⟩ }
  exact (hgone.letGo hin).destroyAcceptor ha hlisten

/-! ## New objects -/

theorem Kept.newConnector (h : s.Kept) (cb : Bool) : (s.newConnector cb).Kept := by
  obtain ⟨-, -, hcon, -, hresets⟩ := h.unmade (Nat.le_refl s.nextObject)
  have hplace : (s.newConnector cb).place = s.place := by
    have hnone : s.place (.connector s.nextObject) = none := by
      rw [place, channelOf, hcon, Option.bind_none, Option.map_none]
    have hset := place_setConnector s s.nextObject (.new cb)
    rwa [show (Connector.new cb).channel_ = none from rfl, Option.map_none, ← hnone,
      Function.update_eq_self] at hset
  have hold : ∀ {j d}, Function.update s.connectors s.nextObject (some (.new cb)) j = some d →
      j = s.nextObject ∧ d = .new cb ∨ s.connectors j = some d := by
    intro j d hd
    by_cases hj : j = s.nextObject
    · subst hj
      cases (Function.update_self ..).symm.trans hd
      exact .inl ⟨rfl, rfl⟩
    · exact .inr ((Function.update_of_ne hj ..).symm.trans hd)
  exact { h with
    registered := hplace ▸ h.registered
    opened := by
      intro o p hp howned
      exact h.opened ((congrFun hplace o).symm.trans hp) howned
    unmade := by
      intro j hj
      obtain ⟨hacc, hsv, hc, hrest⟩ := h.unmade (Nat.le_of_succ_le hj)
      exact ⟨hacc, hsv, (Function.update_of_ne (Nat.ne_of_gt hj) ..).trans hc, hrest⟩
    connectors := by
      intro j d hd
      rcases hold hd with ⟨rfl, rfl⟩ | hd
      · refine ⟨hresets, ?_⟩
        intro hno
        cases hno
      · exact h.connectors hd
    clients := by
      intro j client d hcl hset hd
      rcases hold hd with ⟨rfl, rfl⟩ | hd
      · cases (h.unmade (Nat.le_refl _)).2.2.2.1.symm.trans hcl
      · exact h.clients hcl hset hd
    numbered := by
      intro c nc hc
      obtain ⟨howner, hrest⟩ := h.numbered hc
      exact ⟨Nat.lt_succ_of_lt howner, hrest⟩ }

/-- The server of a new acceptor. -/
theorem Kept.newServer (h : s.Kept) (hi : i < s.nextObject) (hcl : s.clients i = none)
    (hconns : ∀ c nc, s.conns c = some nc → c.owner ≠ i) (server : TcpServer L) :
    { s with servers := Function.update s.servers i (some server) }.Kept :=
  { h with
    unmade := by
      intro j hj
      obtain ⟨hacc, hsv, hrest⟩ := h.unmade hj
      exact ⟨hacc, (Function.update_of_ne (Nat.ne_of_gt (Nat.lt_of_lt_of_le hi hj)) ..).trans hsv, hrest⟩
    kinds := by
      intro j client hclient
      have hji : j ≠ i := by
        rintro rfl
        cases hcl.symm.trans hclient
      exact (Function.update_of_ne hji ..).trans (h.kinds hclient)
    numbered := by
      intro c nc hc
      obtain ⟨howner, hserver, hclient⟩ := h.numbered hc
      exact ⟨howner, fun d hd =>
        hserver d ((Function.update_of_ne (hconns c nc hc) ..).symm.trans hd), hclient⟩ }

/-- The client of a new connector. -/
theorem Kept.newClient (h : s.Kept) (hi : i < s.nextObject) (hsv : s.servers i = none)
    (hconns : ∀ c nc, s.conns c = some nc → c.owner ≠ i) {client : TcpClient}
    (hnone : client.connection_ = none) :
    { s with clients := Function.update s.clients i (some client) }.Kept :=
  { h with
    unmade := by
      intro j hj
      obtain ⟨hacc, hserver, hcon, hcl, hr⟩ := h.unmade hj
      exact ⟨hacc, hserver, hcon,
        (Function.update_of_ne (Nat.ne_of_gt (Nat.lt_of_lt_of_le hi hj)) ..).trans hcl, hr⟩
    kinds := by
      intro j d hd
      by_cases hji : j = i
      · rw [hji]
        exact hsv
      · exact h.kinds ((Function.update_of_ne hji ..).symm.trans hd)
    clients := by
      intro j d con hd hset hc
      by_cases hji : j = i
      · subst hji
        cases (Function.update_self ..).symm.trans hd
        exact absurd hnone hset
      · exact h.clients ((Function.update_of_ne hji ..).symm.trans hd) hset hc
    numbered := by
      intro c nc hc
      obtain ⟨howner, hserver, hclient⟩ := h.numbered hc
      exact ⟨howner, hserver, fun d hd =>
        hclient d ((Function.update_of_ne (hconns c nc hc) ..).symm.trans hd)⟩ }

/-! ## Stale entries -/

theorem not_noStale {o : ChannelRef} (he : s.channels_ l fd = some o) (hgone : s.channelOf o = none) :
    ¬ s.NoStale := by
  intro h
  obtain ⟨channel, hch⟩ := h.live l fd o he
  cases hgone.symm.trans hch

theorem Kept.entry_acceptor (h : s.Kept) {a : Acceptor} (ha : s.acceptors i = some a)
    (hlisten : a.listening_ = true) : s.channels_ s.base a.acceptSocket_ = some (.acceptor i) :=
  h.registered.entered (place_acceptor ha) ((h.acceptors ha).mapped.trans hlisten)

theorem Kept.entry_conn (h : s.Kept) (hc : s.conns c = some nc) (hin : nc.conn.inUse = true) :
    s.channels_ nc.loop_ nc.fd_ = some (.conn c) :=
  h.registered.entered (place_conn hc) ((h.conns hc).used hin)

/-- `~Acceptor` of a socket that listens. -/
theorem Kept.stale_acceptor (h : s.Kept) {a : Acceptor} (ha : s.acceptors i = some a)
    (hlisten : ¬ a.listening_ = false) : ¬ (s.destroyAcceptor i a).NoStale := by
  have he := h.entry_acceptor ha ((Bool.not_eq_false _).mp hlisten)
  refine not_noStale (s := s.destroyAcceptor i a) he ?_
  simp only [channelOf, NetState.destroyAcceptor, Function.update_self, Option.map_none]

/-- Pointers go and with them a connection in use; the rest of the step is about other things. -/
theorem Kept.stale_conn (h : s.Kept) {t : NetState L} {cs : List ConnRef}
    (hno : ¬ t.LetsGoInTime cs) (hconns : t.conns = s.conns)
    (hchannels : s'.channels_ = s.channels_)
    (hgone : ∀ c nc, s.conns c = some nc → t.Goes cs c nc → s'.conns c = none) : ¬ s'.NoStale := by
  intro hstale
  refine hno ?_
  intro c nc hc hgoes
  rw [hconns] at hc
  by_contra hin
  have he := h.entry_conn hc ((Bool.not_eq_false _).mp hin)
  rw [← hchannels] at he
  refine not_noStale he ?_ hstale
  rw [channelOf, hgone c nc hc hgoes, Option.map_none]

/-- `~Connector` is not about connections. -/
theorem destroyConnector_frame : (s.destroyConnector i con).channels_ = s.channels_ ∧
    (s.destroyConnector i con).conns = s.conns := by
  unfold NetState.destroyConnector
  dsimp only
  split <;> exact ⟨rfl, rfl⟩

theorem Kept.stale_server (h : s.Kept) {server : TcpServer L} {a : Acceptor}
    (ha : s.acceptors i = some a)
    (hno : ¬ (a.listening_ = false ∧
      { s with servers := Function.update s.servers i none }.LetsGoInTime (pointers i server))) :
    ¬ (s.destroyTcpServer i server a).NoStale := by
  by_cases hlisten : a.listening_ = false
  · have hlets := fun hin => hno ⟨hlisten, hin⟩
    refine h.stale_conn hlets rfl rfl ?_
    intro c nc hc hgoes
    exact letGo_conns (s := { s with servers := Function.update s.servers i none }) hc hgoes
  · have he := h.entry_acceptor ha ((Bool.not_eq_false _).mp hlisten)
    refine not_noStale (s := s.destroyTcpServer i server a) he ?_
    simp only [channelOf, NetState.destroyTcpServer, NetState.destroyAcceptor, Function.update_self,
      Option.map_none]

theorem Kept.stale_client (h : s.Kept) {client : TcpClient}
    (hno : ¬ { s with clients := Function.update s.clients i none }.LetsGoInTime
      (client.connection_.toList.map (⟨i, ·⟩))) : ¬ (s.destroyTcpClient i client con).NoStale := by
  unfold NetState.destroyTcpClient
  dsimp only
  generalize client.connection_.toList.map (⟨i, ·⟩ : Nat → ConnRef) = cs at hno ⊢
  refine h.stale_conn hno rfl destroyConnector_frame.1 ?_
  intro c nc hc hgoes
  rw [destroyConnector_frame.2]
  have hdetached : (if c ∈ cs then (s.conns c).map (NetConn.setCloseCallback .detail) else s.conns c) =
      some (nc.setCloseCallback .detail) := by
    rw [if_pos hgoes.1, hc, Option.map_some]
  exact letGo_conns hdetached ⟨hgoes.1, hgoes.2⟩

/-! ## Steps -/

variable [DecidableEq L] {f : NetFunctor} {k : Answers}

/-- A functor of the batch is taken. -/
theorem Kept.taken (h : s.Kept) {rest : BatchQueue NetFunctor}
    (hnext : (s.functors l).next = some (f, rest)) : { s with
      functors := Function.update s.functors l rest
      spent := Function.update s.spent l (s.spent l ++ [f]) }.Kept := by
  have hlist := BatchQueue.toList_of_next hnext
  have hmem : ∀ {l' g}, g ∈ (Function.update s.functors l rest l').toList → g ∈ (s.functors l').toList := by
    intro l' g hg
    by_cases hl : l' = l
    · subst hl
      rw [Function.update_self] at hg
      rw [hlist]
      exact List.mem_cons_of_mem f hg
    · rwa [Function.update_of_ne hl] at hg
  have hsub : ∀ i, ({ s with functors := Function.update s.functors l rest }.resets i).Sublist
      (s.resets i) := by
    intro i
    refine List.Sublist.filterMap _ ?_
    by_cases hl : s.base = l
    · simp only [hl, Function.update_self, hlist]
      exact List.sublist_cons_self ..
    · simp only [Function.update_of_ne hl]
      exact List.Sublist.refl _
  have hspent : ∀ {l' c}, s.pcs l' = .destroying c →
      .connectDestroyed c ∈ Function.update s.spent l (s.spent l ++ [f]) l' := by
    intro l' c hpc
    have hold := (h.destroying hpc).1
    by_cases hl : l' = l
    · subst hl
      rw [Function.update_self]
      exact List.mem_append_left _ hold
    · rwa [Function.update_of_ne hl]
  exact (h.withFunctors hsub fun hg => h.home (hmem hg)).withSpent hspent

/-- `connectDestroyed` up to its callback. -/
theorem Kept.connectDestroyed (h : s.Kept) (hpc : s.pcs l = .batch)
    (hspent : .connectDestroyed c ∈ s.spent l) : (s.runFunctor l (.connectDestroyed c)).Kept := by
  dsimp only [NetState.runFunctor]
  split
  · next nc hc =>
    split
    · next hl =>
      have hwf := (h.conns hc).wf
      by_cases hin : nc.conn.inUse = true
      · obtain ⟨channel, hrun, hwf', -, hnew⟩ := TcpConnection.beginDestroyed_spec hwf hin
        rw [hrun]
        have hmapped : channel.mapped = true := hwf'.mapped_iff.mpr hnew
        refine h.setConnAt hc ⟨hwf', ?_, fun _ => hmapped, ?_⟩ ?_ ?_
        · intro hno
          cases hno
        · intro _ _
          rw [hl]
          exact Function.update_self ..
        · intro d nd _ hd
          exact (h.conns hd).setPc (fun e he => by cases hpc.symm.trans he) _
        · intro l' d hpc'
          by_cases hl' : l' = l
          · subst hl'
            cases (Function.update_self ..).symm.trans hpc'
            exact ⟨hspent, _, Function.update_self .., hl, rfl⟩
          · obtain ⟨hold, nd, hd, hloop, hstate⟩ :=
              h.destroying ((Function.update_of_ne hl' ..).symm.trans hpc')
            have hdc : d ≠ c := by
              rintro rfl
              cases hc.symm.trans hd
              exact hl' (hloop.symm.trans hl)
            exact ⟨hold, nd, (Function.update_of_ne hdc ..).trans hd, hloop, hstate⟩
      · have hrun : nc.conn.beginDestroyed = .error .connectDestroyed := by
          rw [TcpConnection.beginDestroyed, check_neg hin]
          rfl
        rw [hrun]
        exact h.fail rfl
    · exact h.fail rfl
  · exact h.fail rfl

theorem Kept.runFunctor (h : s.Kept) {rest : BatchQueue NetFunctor} (hpc : s.pcs l = .batch)
    (hnext : (s.functors l).next = some (f, rest)) : ({ s with
      functors := Function.update s.functors l rest
      spent := Function.update s.spent l (s.spent l ++ [f]) }.runFunctor l f).Kept := by
  have htaken := h.taken hnext
  cases f with
  | connectEstablished c =>
    dsimp only [NetState.runFunctor]
    split
    · next nc hc =>
      split
      · exact htaken.connectEstablished hc
      · exact htaken.fail rfl
    · exact htaken.fail rfl
  | writeComplete c => exact htaken
  | removeConnectionInLoop c =>
    dsimp only [NetState.runFunctor]
    split
    · exact htaken.removeConnectionInLoop
    · exact htaken.fail rfl
  | connectDestroyed c =>
    refine htaken.connectDestroyed hpc ?_
    simp
  | resetChannel i sockfd =>
    dsimp only [NetState.runFunctor]
    split
    · next con hc =>
      have hlist := BatchQueue.toList_of_next hnext
      have hl : l = s.base := h.home (by rw [hlist]; exact List.mem_cons_self)
      subst hl
      have hplaced := h.connectors hc
      have hresets : s.resets i = sockfd :: rest.toList.filterMap (NetFunctor.reset i) := by
        simp [resets, hlist, NetFunctor.reset]
      rw [hresets] at hplaced
      obtain ⟨⟨fd, hch⟩, hstate, hnone⟩ := hplaced.reset
      refine htaken.resetChannel hc hch hstate ?_
      simpa [resets] using hnone
    · exact htaken.fail rfl

theorem removeChannel_error {channel : Channel} {fault : PollerFault}
    (hrun : channel.removeChannel = .error fault) : fault ≠ .present := by
  rintro rfl
  unfold Channel.removeChannel at hrun
  by_cases hmapped : channel.mapped = true
  · rw [check_pos hmapped, ok_bind] at hrun
    by_cases hnone : channel.isNoneEvent = true
    · rw [check_pos hnone, ok_bind] at hrun
      by_cases hindex : channel.index_ = .kAdded ∨ channel.index_ = .kDeleted
      · rw [check_pos hindex] at hrun
        cases hrun
      · rw [check_neg hindex] at hrun
        cases hrun
    · rw [check_neg hnone] at hrun
      cases hrun
  · rw [check_neg hmapped] at hrun
    cases hrun

/-- `connectDestroyed` after its callback. -/
theorem Kept.endDestroyed (h : s.Kept) (hpc : s.pcs l = .destroying c) : (s.endDestroyed l c).Kept := by
  obtain ⟨-, nc, hc, hl, hstate⟩ := h.destroying hpc
  unfold NetState.endDestroyed
  rw [hc]
  dsimp only
  cases hrun : nc.conn.endDestroyed with
  | error fault =>
    refine h.fail ?_
    unfold TcpConnection.endDestroyed TcpConnection.onChannel at hrun
    split at hrun
    · cases hrun
    · next hremove =>
      cases hrun
      simp [NetFault.present, removeChannel_error hremove]
  | ok conn =>
    unfold TcpConnection.endDestroyed TcpConnection.onChannel at hrun
    split at hrun
    · next hremove =>
      cases hrun
      cases (h.conns hc).wf.removeChannel_eq hremove
      refine h.setConnAt hc ⟨Channel.new_wf, fun _ => rfl, ?_, ?_⟩ ?_ ?_
      · intro hin
        simp [TcpConnection.inUse, hstate] at hin
      · intro _ hno
        cases hno
      · intro d nd hdc hd
        obtain ⟨hwf, hearly, hused, hdone⟩ := h.conns hd
        refine ⟨hwf, hearly, hused, ?_⟩
        intro hst hmapped
        have hpc' := hdone hst hmapped
        have hl' : nd.loop_ ≠ l := by
          intro hl'
          rw [hl', hpc] at hpc'
          exact hdc (NetPc.destroying.inj hpc').symm
        exact (Function.update_of_ne hl' ..).trans hpc'
      · intro l' d hpc'
        have hl' : l' ≠ l := by
          rintro rfl
          cases (Function.update_self ..).symm.trans hpc'
        obtain ⟨hold, nd, hd, hloop, hst⟩ :=
          h.destroying ((Function.update_of_ne hl' ..).symm.trans hpc')
        have hdc : d ≠ c := by
          rintro rfl
          cases hc.symm.trans hd
          exact hl' (hloop.symm.trans hl)
        exact ⟨hold, nd, (Function.update_of_ne hdc ..).trans hd, hloop, hst⟩
    · cases hrun

/-- The end of a batch. -/
theorem Kept.endFunctors (h : s.Kept) (hpc : s.pcs l = .batch)
    (hin : { s with spent := Function.update s.spent l [] }.LetsGoInTime
      ((s.spent l).filterMap NetFunctor.holds)) : (s.endFunctors l).Kept := by
  have hidle : (s.setPc l .idle).Kept := h.setPc (fun c hc => by cases hpc.symm.trans hc) (fun _ hno => by cases hno)
  have hspent : { s.setPc l .idle with spent := Function.update s.spent l [] }.Kept := by
    refine hidle.withSpent ?_
    intro l' c hpc'
    have hl : l' ≠ l := by
      rintro rfl
      cases (Function.update_self ..).symm.trans hpc'
    rw [Function.update_of_ne hl]
    exact (hidle.destroying hpc').1
  exact hspent.letGo hin

theorem Kept.poll (h : s.Kept) (hpc : s.pcs l = .idle) {todo : List Handler} :
    (s.setPc l (.handlers todo)).Kept :=
  h.setPc (fun c hc => by cases hpc.symm.trans hc) (fun _ hno => by cases hno)

theorem Kept.handle (h : s.Kept) {first : Handler} {todo : List Handler}
    (hpc : s.pcs l = .handlers (first :: todo)) (hfresh : s.Fresh k)
    (hans : s.Answered k first = true) : (s.handle l k todo first).Kept := by
  have hstay : ∀ c, s.pcs l ≠ .destroying c := fun c hc => by cases hpc.symm.trans hc
  have hgo : (s.setPc l (.handlers todo)).Kept := h.setPc hstay fun _ hno => by cases hno
  cases first with
  | callback o cb => exact hgo.callback hfresh hans
  | timerRead => exact Kept.timers (h.setPc hstay fun _ hno => by cases hno) _ _
  | timer i id => exact hgo.startInLoop hfresh.1

theorem Kept.beginFunctors (h : s.Kept) (hpc : s.pcs l = .handlers []) : { s.setPc l .batch with
    functors := Function.update s.functors l (s.functors l).swap }.Kept := by
  have hbatch : (s.setPc l .batch).Kept :=
    h.setPc (fun c hc => by cases hpc.symm.trans hc) (fun _ hno => by cases hno)
  have hswap : ∀ l', (Function.update s.functors l (s.functors l).swap l').toList.Sublist
      (s.functors l').toList := by
    intro l'
    by_cases hl : l' = l
    · subst hl
      rw [Function.update_self, BatchQueue.toList, BatchQueue.swap, List.append_nil]
      exact List.sublist_append_right ..
    · rw [Function.update_of_ne hl]
  exact hbatch.withFunctors (fun i => (hswap _).filterMap _) fun hmem => h.home ((hswap _).subset hmem)

/-- What user code calls between two iterations. -/
theorem Kept.use (h : s.Kept) (hfresh : s.Fresh k) {u : Use L} (hs : s.use i k u = some s') :
    s'.Kept := by
  cases u with
  | listen =>
    dsimp only [NetState.use] at hs
    split at hs
    · obtain ⟨a, ha, rfl⟩ := Option.map_eq_some_iff.mp hs
      exact h.listen ha
    · cases hs
  | setThreadNum numThreads =>
    obtain ⟨server, hsv, rfl⟩ := Option.map_eq_some_iff.mp hs
    exact h.setServer hsv (Nat.le_refl _)
  | startServer startLoop =>
    obtain ⟨server, hsv, rfl⟩ := Option.map_eq_some_iff.mp hs
    exact h.startServer hsv startLoop
  | enableRetry =>
    obtain ⟨client, hcl, rfl⟩ := Option.map_eq_some_iff.mp hs
    exact h.setClient hcl (Nat.le_refl _) .inl
  | connect =>
    obtain ⟨client, hcl, rfl⟩ := Option.map_eq_some_iff.mp hs
    have hset : (s.setClient i { client with connect_ := true }).Kept :=
      h.setClient hcl (Nat.le_refl _) .inl
    exact hset.startConnector hfresh.1
  | disconnect =>
    obtain ⟨client, hcl, rfl⟩ := Option.map_eq_some_iff.mp hs
    have hset : (s.setClient i { client with connect_ := false }).Kept :=
      h.setClient hcl (Nat.le_refl _) .inl
    dsimp only
    split
    · exact hset.shutdown
    · exact hset
  | stopClient =>
    obtain ⟨client, hcl, rfl⟩ := Option.map_eq_some_iff.mp hs
    have hset : (s.setClient i { client with connect_ := false }).Kept :=
      h.setClient hcl (Nat.le_refl _) .inl
    exact hset.stopConnector
  | start =>
    dsimp only [NetState.use] at hs
    split at hs
    · cases hs
      exact h.startConnector hfresh.1
    · cases hs
  | restart =>
    dsimp only [NetState.use] at hs
    split at hs
    · next hcond =>
      cases hs
      refine h.restart hfresh.1 ?_
      intro client hcl
      simp [hcl] at hcond
    · cases hs
  | stop =>
    dsimp only [NetState.use] at hs
    split at hs
    · cases hs
      exact h.stopConnector
    · cases hs

theorem Kept.newAcceptor (h : s.Kept) (hfd : s.opened fd = false) (cb : Bool) :
    (s.newAcceptor fd cb).Kept := by
  have hopen : (s.setOpened fd true).Kept := h.setOpened (.inl rfl)
  have hplace : (s.newAcceptor fd cb).place =
      Function.update s.place (.acceptor s.nextObject) (some ⟨s.base, fd, true, false⟩) :=
    place_setAcceptor s s.nextObject (.new fd cb)
  exact { hopen with
    registered := by
      rw [hplace]
      refine h.registered.put ?_ rfl fun _ => (h.unowned hfd).keyFree _
      intro p hp
      rw [place, channelOf, (h.unmade (Nat.le_refl _)).1] at hp
      cases hp
    opened := hopen.opened_update hplace fun _ => Function.update_self ..
    unmade := by
      intro j hj
      obtain ⟨hacc, hrest⟩ := h.unmade (Nat.le_of_succ_le hj)
      exact ⟨(Function.update_of_ne (Nat.ne_of_gt hj) ..).trans hacc, hrest⟩
    acceptors := by
      intro j a ha
      by_cases hj : j = s.nextObject
      · subst hj
        cases (Function.update_self ..).symm.trans ha
        exact Acceptor.new_fits fd cb
      · exact h.acceptors ((Function.update_of_ne hj ..).symm.trans ha)
    numbered := by
      intro c nc hc
      obtain ⟨howner, hrest⟩ := h.numbered hc
      exact ⟨Nat.lt_succ_of_lt howner, hrest⟩ }

theorem Kept.idleStep (h : s.Kept) {a : NetAct L} (hok : s.TearsDownInTime a)
    (hs : s.idleStep a = some s') : s'.Kept := by
  have hnew := h.unmade (Nat.le_refl s.nextObject)
  have hconns : ∀ c nc, s.conns c = some nc → c.owner ≠ s.nextObject :=
    fun c nc hc => Nat.ne_of_lt (h.numbered hc).1
  unfold NetState.idleStep at hs
  split at hs
  · split at hs
    · next hfd =>
      cases hs
      exact h.newAcceptor hfd _
    · cases hs
  · split at hs
    · next hfd =>
      cases hs
      exact (h.newAcceptor hfd true).newServer (Nat.lt_succ_self _) hnew.2.2.2.1 hconns _
    · cases hs
  · cases hs
    exact (h.newConnector true).newClient (Nat.lt_succ_self _) hnew.2.1 hconns rfl
  · cases hs
    exact h.newConnector _
  · split at hs
    · next hfresh => exact h.use hfresh hs
    · cases hs
  · split at hs
    · next a _ ha =>
      cases hs
      exact h.destroyAcceptor ha (hok a ha)
    · cases hs
  · split at hs
    · next server a hsv ha =>
      cases hs
      obtain ⟨hlisten, hin⟩ := hok server a hsv ha
      exact h.destroyTcpServer ha hlisten hin
    · cases hs
  · split at hs
    · next client con hcl hc =>
      cases hs
      exact h.destroyTcpClient hc (hok client hcl)
    · cases hs
  · split at hs
    · next con _ hc =>
      cases hs
      exact h.destroyConnector hc
    · cases hs
  · cases hs

/-- A step that tears down in time keeps the agreement. -/
theorem Kept.step (h : s.Kept) {a : NetAct L} (hok : s.TearsDownInTime a)
    (hs : s.step a = some s') : s'.Kept := by
  unfold NetState.step at hs
  split at hs
  · cases hs
  · split at hs
    · split at hs
      · next nc hc =>
        split at hs
        · next hstate =>
          split at hs
          · cases hs
            exact h.connSend hc hstate _
          · cases hs
        · cases hs
          exact h
      · cases hs
    · split at hs
      · cases hs
        exact h.shutdown
      · cases hs
    · split at hs
      · next hcond =>
        cases hs
        exact h.poll hcond.1
      · cases hs
    · split at hs
      · next hpc =>
        split at hs
        · next hcond =>
          cases hs
          exact h.handle hpc hcond.1 hcond.2
        · cases hs
      · cases hs
    · split at hs
      · next hpc =>
        cases hs
        exact h.beginFunctors hpc
      · cases hs
    · split at hs
      · next hpc =>
        obtain ⟨⟨f, rest⟩, hnext, rfl⟩ := Option.map_eq_some_iff.mp hs
        exact h.runFunctor hpc hnext
      · cases hs
    · split at hs
      · next hpc =>
        cases hs
        exact h.endDestroyed hpc
      · cases hs
    · split at hs
      · next hcond =>
        cases hs
        exact h.endFunctors hcond.1 hok
      · cases hs
    · split at hs
      · exact h.idleStep hok hs
      · cases hs

theorem Kept.stale_batch (h : s.Kept)
    (hno : ¬ { s with spent := Function.update s.spent l [] }.LetsGoInTime
      ((s.spent l).filterMap NetFunctor.holds)) : ¬ (s.endFunctors l).NoStale := by
  refine h.stale_conn hno rfl rfl ?_
  intro c nc hc hgoes
  exact letGo_conns (s := { s.setPc l .idle with spent := Function.update s.spent l [] }) hc hgoes

/-- A step that does not tear down in time leaves a channel in its poller that is gone. -/
theorem Kept.stale (h : s.Kept) {a : NetAct L} (hno : ¬ s.TearsDownInTime a)
    (hs : s.step a = some s') : ¬ s'.NoStale := by
  unfold NetState.step at hs
  split at hs
  · cases hs
  · cases a with
    | destroyAcceptor i =>
      dsimp only [NetState.idleStep] at hs
      split at hs
      · split at hs
        · next a _ ha =>
          cases hs
          refine h.stale_acceptor ha fun hlisten => hno ?_
          intro b hb
          cases ha.symm.trans hb
          exact hlisten
        · cases hs
      · cases hs
    | destroyTcpServer i =>
      dsimp only [NetState.idleStep] at hs
      split at hs
      · split at hs
        · next server a hsv ha =>
          cases hs
          refine h.stale_server ha fun hlets => hno ?_
          intro server' b hsv' hb
          cases hsv.symm.trans hsv'
          cases ha.symm.trans hb
          exact hlets
        · cases hs
      · cases hs
    | destroyTcpClient i =>
      dsimp only [NetState.idleStep] at hs
      split at hs
      · split at hs
        · next client con hcl hc =>
          cases hs
          refine h.stale_client fun hlets => hno ?_
          intro client' hcl'
          cases hcl.symm.trans hcl'
          exact hlets
        · cases hs
      · cases hs
    | endFunctors l =>
      dsimp only at hs
      split at hs
      · cases hs
        exact h.stale_batch hno
      · cases hs
    | _ => exact absurd trivial hno

/-- `channels_` keeps a channel that is gone if and only if somebody lets a channel go too early. -/
theorem no_stale_channel_iff (base : L) (as : List (NetAct L)) :
    (netLoop L).Along NoStale (.start base) as ↔
      (netLoop L).Guarded TearsDownInTime (.start base) as :=
  Machine.along_iff_guarded Kept (fun _ => Kept.noStale) (fun _ _ _ h hok hs => h.step hok hs)
    (fun _ _ _ h hno hs => h.stale hno hs) (start_kept base)

/-- An acceptor listens and is destroyed. The kernel gives its descriptor to the next one, whose `listen`
stops at the assertion of `updateChannel`. -/
theorem no_stale_channel_fails : ¬ ∀ s₀ : NetState Unit, (netLoop Unit).init s₀ →
    ∀ as s, (netLoop Unit).run s₀ as = some s → s.NoStale := by
  intro hall
  let k : Answers := ⟨none, 4, .zero, false, false, "", .data, .failed, []⟩
  have hend : ((netLoop Unit).run (.start ()) [.newAcceptor 3 false, .use 0 .listen k,
      .destroyAcceptor 0, .newAcceptor 3 false, .use 1 .listen k]).map (·.fault) =
        some (some (.poller .present)) := by
    decide
  obtain ⟨s, hs, hfault⟩ := Option.map_eq_some_iff.mp hend
  have hpasses := (hall _ ⟨(), rfl⟩ _ s hs).passes _ hfault
  cases hpasses

end NetState

end Netfish
