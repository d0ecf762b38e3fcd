import Netfish.Net.Placed

/-!
# Methods and places

What the methods of the objects do to a state in which every entry is of a channel that is there.
-/

set_option autoImplicit false

namespace Netfish

open Kit

universe u

namespace Connector

variable {c c' : Connector} {es : List ConnectorEffect} {sockfd timerId : Nat} {e : ConnectErrno}
  {resets : List Nat}

/-- A `startInLoop` that gets past its assertions. -/
theorem startInLoop_ok (hrun : c.startInLoop sockfd e timerId = .ok (c', es)) :
    c.state_ = .kDisconnected ∧ c.Started sockfd timerId e c' es ∧
      (c.connect_ = true → e.begins = true → c.channel_ = none) := by
  by_cases hstate : c.state_ = .kDisconnected
  · have hch : c.connect_ = true → e.begins = true → c.channel_ = none := by
      intro hconnect he
      by_contra hch
      cases (startInLoop_connecting hstate hconnect he hch).symm.trans hrun
    obtain ⟨d, ds, hspec, hstarted⟩ := startInLoop_spec sockfd timerId hstate hch
    cases hspec.symm.trans hrun
    exact ⟨hstate, hstarted, hch⟩
  · cases (startInLoop_fault hstate).symm.trans hrun

theorem startInLoop_error {fault : ConnectorFault}
    (hrun : c.startInLoop sockfd e timerId = .error fault) : fault ≠ .poller .present := by
  rintro rfl
  by_cases hstate : c.state_ = .kDisconnected
  · by_cases hch : c.connect_ = true → e.begins = true → c.channel_ = none
    · obtain ⟨d, ds, hspec, -⟩ := startInLoop_spec sockfd timerId hstate hch
      cases hspec.symm.trans hrun
    · push Not at hch
      obtain ⟨hconnect, he, hch⟩ := hch
      cases (startInLoop_connecting hstate hconnect he hch).symm.trans hrun
  · cases (startInLoop_fault hstate).symm.trans hrun

theorem Placed.congr (h : c.Placed resets) (hch : c'.channel_ = c.channel_)
    (hstate : c'.state_ = .kConnecting → c.state_ = .kConnecting) : c'.Placed resets := by
  unfold Placed at h ⊢
  rw [hch]
  split at h
  · exact ⟨h.1, fun hc => h.2 (hstate hc)⟩
  · exact h.imp_right fun hr => ⟨fun hc => hr.1 (hstate hc), hr.2⟩

/-- In an attempt the channel is watched and no `resetChannel` is queued. -/
theorem Placed.of_connecting (h : c.Placed resets) (hstate : c.state_ = .kConnecting) :
    ∃ sockfd, c.channel_ = some ⟨sockfd, attempting⟩ ∧ resets = [] := by
  unfold Placed at h
  split at h
  · exact absurd hstate h.2
  · next sockfd channel hch =>
    rcases h with ⟨hresets, rfl⟩ | ⟨hno, -⟩
    · exact ⟨sockfd, hch, hresets⟩
    · exact absurd hstate hno

theorem Placed.none (h : c.Placed resets) (hch : c.channel_ = none) : resets = [] := by
  unfold Placed at h
  rw [hch] at h
  exact h.1

/-- A queued `resetChannel` finds a channel that is out of the poller, and is the only one. -/
theorem Placed.reset {rest : List Nat} (h : c.Placed (sockfd :: rest)) :
    (∃ fd, c.channel_ = some ⟨fd, .new⟩) ∧ c.state_ ≠ .kConnecting ∧ rest = [] := by
  unfold Placed at h
  split at h
  · cases h.1
  · next fd channel hch =>
    rcases h with ⟨hresets, -⟩ | ⟨hstate, hlen, rfl⟩
    · cases hresets
    · exact ⟨⟨fd, hch⟩, hstate, List.length_eq_zero_iff.mp (by simpa using hlen)⟩

end Connector

namespace NetState

variable {L : Type u} {s : NetState L} {i fd : Nat}

/-! ## Clients and servers -/

/-- The client has a connection more, or less, or none of both. -/
theorem Kept.setClient (h : s.Kept) {client client' : TcpClient} (hcl : s.clients i = some client)
    (hnum : client.nextConnId_ ≤ client'.nextConnId_)
    (hconn : client'.connection_ ≠ none → client.connection_ ≠ none ∨
      ∀ con, s.connectors i = some con → con.state_ = .kConnected) :
    (s.setClient i client').Kept :=
  { h with
    unmade := by
      intro j hj
      obtain ⟨hacc, hsv, hcon, hclt, hr⟩ := h.unmade hj
      have hji : j ≠ i := by
        rintro rfl
        cases hcl.symm.trans hclt
      exact ⟨hacc, hsv, hcon, (Function.update_of_ne hji ..).trans hclt, hr⟩
    kinds := by
      intro j d hd
      by_cases hji : j = i
      · subst hji
        exact h.kinds hcl
      · simp only [NetState.setClient, Function.update_of_ne hji] at hd
        exact h.kinds hd
    clients := by
      intro j d con hd hset hcon
      by_cases hji : j = i
      · subst hji
        simp only [NetState.setClient, Function.update_self, Option.some.injEq] at hd
        subst hd
        rcases hconn hset with hold | hnew
        · exact h.clients hcl hold hcon
        · exact hnew con hcon
      · simp only [NetState.setClient, Function.update_of_ne hji] at hd
        exact h.clients hd hset hcon
    numbered := by
      intro c nc hc
      obtain ⟨howner, hserver, hclient⟩ := h.numbered hc
      refine ⟨howner, hserver, ?_⟩
      intro d hd
      by_cases hji : c.owner = i
      · simp only [NetState.setClient, hji, Function.update_self, Option.some.injEq] at hd
        subst hd
        exact Nat.lt_of_lt_of_le (hclient client (hji ▸ hcl)) hnum
      · simp only [NetState.setClient, Function.update_of_ne hji] at hd
        exact hclient d hd }

theorem Kept.setServer (h : s.Kept) {server server' : TcpServer L} (hsv : s.servers i = some server)
    (hnum : server.nextConnId_ ≤ server'.nextConnId_) : (s.setServer i server').Kept :=
  { h with
    unmade := by
      intro j hj
      obtain ⟨hacc, hserver, hrest⟩ := h.unmade hj
      have hji : j ≠ i := by
        rintro rfl
        cases hsv.symm.trans hserver
      exact ⟨hacc, (Function.update_of_ne hji ..).trans hserver, hrest⟩
    kinds := by
      intro j d hd
      have hji : j ≠ i := by
        rintro rfl
        cases hsv.symm.trans (h.kinds hd)
      exact (Function.update_of_ne hji ..).trans (h.kinds hd)
    numbered := by
      intro c nc hc
      obtain ⟨howner, hserver, hclient⟩ := h.numbered hc
      refine ⟨howner, ?_, hclient⟩
      intro d hd
      by_cases hji : c.owner = i
      · simp only [NetState.setServer, hji, Function.update_self, Option.some.injEq] at hd
        subst hd
        exact Nat.lt_of_lt_of_le (hserver server (hji ▸ hsv)) hnum
      · simp only [NetState.setServer, Function.update_of_ne hji] at hd
        exact hserver d hd }

/-- No connection has the number that comes next. -/
theorem Kept.unmadeConn (h : s.Kept) {number : Nat}
    (hnext : (∃ server, s.servers i = some server ∧ server.nextConnId_ ≤ number) ∨
      ∃ client, s.clients i = some client ∧ client.nextConnId_ ≤ number) :
    s.conns ⟨i, number⟩ = none := by
  cases hc : s.conns ⟨i, number⟩ with
  | none => rfl
  | some nc =>
    obtain ⟨-, hserver, hclient⟩ := h.numbered hc
    rcases hnext with ⟨server, hsv, hle⟩ | ⟨client, hcl, hle⟩
    · exact absurd (hserver server hsv) (Nat.not_lt.mpr hle)
    · exact absurd (hclient client hcl) (Nat.not_lt.mpr hle)

/-! ## New connections -/

theorem letGo_nil : s.letGo [] = s := by
  have hconns : (fun c => (s.conns c).filter fun nc => ¬ s.Goes [] c nc) = s.conns := by
    funext c
    cases s.conns c <;> simp [Goes, Option.filter]
  unfold letGo
  rw [hconns]
  simp only [List.any_nil, Bool.not_false, Bool.and_true]

variable [DecidableEq L] {con con' : Connector} {c : ConnRef} {nc : NetConn L} {k : Answers}

theorem Kept.connectEstablished (h : s.Kept) (hc : s.conns c = some nc) :
    (s.connectEstablished c nc).Kept := by
  unfold NetState.connectEstablished
  have hfits := h.conns hc
  by_cases hstate : nc.conn.state_ = .kConnecting
  · obtain ⟨channel, hrun, hwf, -, hnew⟩ := TcpConnection.connectEstablished_spec hfits.wf hstate
    rw [hrun]
    refine h.setConn hc ⟨hwf, ?_, fun _ => hwf.mapped_iff.mpr hnew, ?_⟩ ?_
    · intro hno
      cases hno
    · intro hno
      cases hno
    · intro hno
      cases hstate.symm.trans hno
  · have hrun : nc.conn.connectEstablished = .error .connectEstablished := by
      rw [TcpConnection.connectEstablished, check_neg hstate]
      rfl
    rw [hrun]
    exact h.fail rfl

theorem Kept.newClientConnection (h : s.Kept) {client : TcpClient} (hcl : s.clients i = some client)
    (hnone : client.connection_ = none)
    (hcon : ∀ con, s.connectors i = some con → con.state_ = .kConnected) (hun : s.Unowned fd)
    (hopen : s.opened fd = true) (peerAddr : String) :
    (s.newClientConnection i client fd peerAddr).Kept := by
  have hset : (s.setClient i client.newConnection.2).Kept :=
    h.setClient hcl (Nat.le_succ _) fun _ => .inr hcon
  have hnew : s.conns ⟨i, client.nextConnId_⟩ = none :=
    h.unmadeConn (.inr ⟨client, hcl, Nat.le_refl _⟩)
  have howner : i < s.nextObject := by
    by_contra hge
    cases hcl.symm.trans (h.unmade (Nat.le_of_not_lt hge)).2.2.2.1
  have hnum : (s.setClient i client.newConnection.2).Numbered ⟨i, client.nextConnId_⟩ := by
    refine ⟨howner, ?_, ?_⟩
    · intro server hsv
      cases (h.kinds hcl).symm.trans hsv
    · intro d hd
      simp only [NetState.setClient, Function.update_self, Option.some.injEq] at hd
      subst hd
      exact Nat.lt_succ_self _
  unfold NetState.newClientConnection
  dsimp only
  rw [hnone, Option.toList_none, List.map_nil, letGo_nil]
  refine Kept.connectEstablished ?_ (Function.update_self ..)
  refine hset.addConn hnew hnum hun hopen ⟨Channel.new_wf, fun _ => rfl, ?_, ?_⟩ rfl
  · intro hno
    cases hno
  · intro hno
    cases hno

/-! ## Connectors -/

/-- The connectors's channel is as it was. -/
theorem Kept.sameChannel (h : s.Kept) (hc : s.connectors i = some con)
    (hch : con'.channel_ = con.channel_)
    (hstate : con'.state_ = .kConnecting → con.state_ = .kConnecting)
    (hclient : ∀ client, s.clients i = some client → client.connection_ ≠ none →
      con'.state_ = .kConnected) :
    (s.setConnector i con con').Kept ∧ (s.setConnector i con con').opened = s.opened := by
  obtain ⟨channels_, hrun, hreg⟩ := h.noteConnector hc (.same hch)
  rw [hrun]
  refine ⟨h.withConnector hc hreg (fun _ => id) ?_ hclient (fun _ _ => rfl) h.home
    ((h.connectors hc).congr hch hstate), rfl⟩
  intro ch hch' hmapped
  exact h.opened (place_connector hc (hch.symm.trans hch')) hmapped

/-- An attempt begins. -/
theorem Kept.began (h : s.Kept) (hc : s.connectors i = some con) (hfresh : s.opened fd = false)
    (hnone : con.channel_ = none) (hch' : con'.channel_ = some ⟨fd, attempting⟩)
    (hclient : ∀ client, s.clients i = some client → client.connection_ ≠ none →
      con'.state_ = .kConnected) :
    ((s.setConnector i con con').setOpened fd true).Kept := by
  have hm : s.Moves con con' := by
    refine ⟨?_, ?_⟩
    · intro ch hch
      cases hnone.symm.trans hch
    · intro ch hch _
      cases hch'.symm.trans hch
      exact .inl (h.unowned hfresh)
  obtain ⟨channels_, hrun, hreg⟩ := h.noteConnector hc hm
  rw [hrun]
  refine h.withConnector hc hreg ?_ ?_ hclient (fun _ _ => rfl) h.home ?_
  · intro fd' hopen
    by_cases hfd : fd' = fd
    · rw [hfd, Function.update_self]
    · rwa [Function.update_of_ne hfd]
  · intro ch hch _
    cases hch'.symm.trans hch
    exact Function.update_self ..
  · unfold Connector.Placed
    rw [hch']
    exact .inl ⟨(h.connectors hc).none hnone, rfl⟩

theorem resets_push_self (fd : Nat) :
    (s.push s.base (.resetChannel i fd)).resets i = s.resets i ++ [fd] := by
  simp [resets, push, NetFunctor.reset]

/-- An attempt is over: the channel leaves the poller, its `resetChannel` is queued, and the descriptor
is nobody's. -/
theorem Kept.ended (h : s.Kept) (hc : s.connectors i = some con)
    (hch : con.channel_ = some ⟨fd, attempting⟩) (hresets : s.resets i = [])
    (hch' : con'.channel_ = some ⟨fd, .new⟩) (hstate : con'.state_ ≠ .kConnecting)
    (hclient : ∀ client, s.clients i = some client → client.connection_ ≠ none →
      con'.state_ = .kConnected) :
    ∃ channels_, s.setConnector i con con' =
      { s with connectors := Function.update s.connectors i (some con'), channels_ } ∧
      ({ s with connectors := Function.update s.connectors i (some con'), channels_ }.push s.base
        (.resetChannel i fd)).Kept ∧
      { s with connectors := Function.update s.connectors i (some con') }.Unowned fd ∧
      s.opened fd = true := by
  have hp := place_connector hc hch
  have hm : s.Moves con con' := by
    refine ⟨?_, ?_⟩
    · intro ch hsome
      cases hch.symm.trans hsome
      exact ⟨_, hch', rfl⟩
    · intro ch hsome hmapped
      cases hch'.symm.trans hsome
      cases hmapped
  obtain ⟨channels_, hrun, hreg⟩ := h.noteConnector hc hm
  refine ⟨channels_, hrun, ?_, ?_, h.opened hp rfl⟩
  · refine h.withConnector hc hreg (fun _ => id) ?_ hclient ?_ ?_ ?_
    · intro ch hsome hmapped
      cases hch'.symm.trans hsome
      cases hmapped
    · intro j hji
      exact resets_push_of_ne (if_neg (Ne.symm hji))
    · intro l j sockfd hmem
      rcases mem_push hmem with hmem | ⟨-, hl⟩
      · exact h.home hmem
      · exact hl
    · have hone : (s.push s.base (.resetChannel i fd)).resets i = [fd] := by
        rw [resets_push_self, hresets, List.nil_append]
      have hplaced : con'.Placed [fd] := by
        unfold Connector.Placed
        rw [hch']
        exact .inr ⟨hstate, Nat.le_refl 1, rfl⟩
      rw [← hone] at hplaced
      exact hplaced
  · intro o p hpo howned hkey
    rw [place_setConnector, hch'] at hpo
    by_cases hne : o = .connector i
    · subst hne
      rw [Function.update_self] at hpo
      cases hpo
      cases howned
    · rw [Function.update_of_ne hne] at hpo
      exact hne (h.registered.alone hpo hp howned rfl hkey)

/-- The descriptor goes to the client, or to user code. -/
theorem Kept.handOver (h : s.Kept) (hun : s.Unowned fd) (hopen : s.opened fd = true)
    (hnone : ∀ client, s.clients i = some client → client.connection_ = none)
    (hcon : ∀ con, s.connectors i = some con → con.state_ = .kConnected) :
    (s.connectorEffect i k (.newConnectionCallback fd)).Kept := by
  unfold NetState.connectorEffect
  dsimp only
  cases hcl : s.clients i with
  | some client => exact h.newClientConnection hcl (hnone client hcl) hcon hun hopen k.peerAddr
  | none => exact h.setOpened (.inr hun)

/-- `startInLoop`, of the connector as it is or with other flags. -/
theorem Kept.started (h : s.Kept) (hc : s.connectors i = some con) (hfresh : s.opened k.sockfd = false)
    (hch : con'.channel_ = con.channel_)
    (hclient : ∀ client, s.clients i = some client → client.connection_ ≠ none →
      con'.state_ = .kConnected) {timerId : Nat}
    {method : Connector → Except ConnectorFault (Connector × List ConnectorEffect)}
    (hm : method con = con'.startInLoop k.sockfd k.savedErrno timerId) :
    (s.onConnector i k method).Kept := by
  unfold onConnector
  rw [hc]
  dsimp only
  rw [hm]
  cases hrun : con'.startInLoop k.sockfd k.savedErrno timerId with
  | error fault =>
    refine h.fail ?_
    simp [NetFault.present, Connector.startInLoop_error hrun]
  | ok r =>
    obtain ⟨d, es⟩ := r
    obtain ⟨hstate, hstarted, hfree⟩ := Connector.startInLoop_ok hrun
    have hnone : ∀ client, s.clients i = some client → client.connection_ = none := by
      intro client hcl
      by_contra hset
      cases hstate.symm.trans (hclient client hcl hset)
    have hsame : ∀ d, d.channel_ = con.channel_ → d.state_ = .kDisconnected →
        (s.setConnector i con d).Kept ∧ (s.setConnector i con d).Unowned k.sockfd := by
      intro d hd hstate
      obtain ⟨hkept, hopened⟩ := h.sameChannel hc hd (fun hno => by cases hstate.symm.trans hno)
        fun client hcl hset => absurd (hnone client hcl) hset
      exact ⟨hkept, hkept.unowned (by rw [hopened]; exact hfresh)⟩
    dsimp only
    cases hstarted with
    | off => exact (hsame con' hch hstate).1
    | began hconnect he =>
      exact h.began hc hfresh (hch.symm.trans (hfree hconnect he)) rfl
        fun client hcl hset => absurd (hnone client hcl) hset
    | retried =>
      obtain ⟨hkept, hun⟩ := hsame (con'.armed timerId) hch hstate
      exact ((hkept.setOpened (.inl rfl)).setOpened (.inr hun)).timers _ _
    | failed =>
      obtain ⟨hkept, hun⟩ := hsame con' hch hstate
      exact (hkept.setOpened (.inl rfl)).setOpened (.inr hun)

/-- The end of an attempt. -/
theorem Kept.afterEnd (h : s.Kept) (hc : s.connectors i = some con) (hstate : con.state_ = .kConnecting)
    (hch : con.channel_ = some ⟨fd, attempting⟩) {timerId : Nat} {es : List ConnectorEffect}
    (hended : con.Ended fd timerId con' es) :
    (es.foldl (connectorEffect i k) (s.setConnector i con con')).Kept := by
  have hresets : s.resets i = [] := ((h.connectors hc).of_connecting hstate).choose_spec.2
  have hnone : ∀ client, s.clients i = some client → client.connection_ = none := by
    intro client hcl
    by_contra hset
    cases hstate.symm.trans (h.clients hcl hset hc)
  have hclient : ∀ client, s.clients i = some client → client.connection_ ≠ none →
      con'.state_ = .kConnected :=
    fun client hcl hset => absurd (hnone client hcl) hset
  have hch' : con'.channel_ = some ⟨fd, .new⟩ := by
    cases hended <;> rfl
  have hstate' : con'.state_ ≠ .kConnecting := by
    intro hno
    cases hended <;> cases hno
  obtain ⟨channels_, hrun, hkept, hun, hopen⟩ := h.ended hc hch hresets hch' hstate' hclient
  rw [hrun]
  cases hended with
  | retried => exact (hkept.setOpened (.inr hun)).timers _ _
  | stopped => exact hkept.setOpened (.inr hun)
  | unwanted => exact hkept.setOpened (.inr hun)
  | connected hconnect =>
    rw [List.foldl_cons]
    split
    · refine Kept.handOver hkept hun hopen hnone ?_
      intro d hd
      cases (Function.update_self ..).symm.trans hd
      rfl
    · exact hkept

theorem Kept.handleWrite (h : s.Kept) {timerId : Nat} :
    (s.onConnector i k fun c => c.handleWrite k.err k.selfConnect timerId).Kept := by
  unfold onConnector
  cases hc : s.connectors i with
  | none => exact h.fail rfl
  | some con =>
    dsimp only
    by_cases hstate : con.state_ = .kConnecting
    · obtain ⟨fd, hch, -⟩ := (h.connectors hc).of_connecting hstate
      obtain ⟨d, es, hrun, hended, -⟩ :=
        Connector.handleWrite_spec timerId hstate hch k.err k.selfConnect
      rw [hrun]
      exact h.afterEnd hc hstate hch hended
    · rw [Connector.handleWrite_of_ne hstate]
      exact (h.sameChannel hc rfl id fun client hcl hset => h.clients hcl hset hc).1

theorem Kept.handleError (h : s.Kept) {timerId : Nat} :
    (s.onConnector i k fun c => c.handleError timerId).Kept := by
  unfold onConnector
  cases hc : s.connectors i with
  | none => exact h.fail rfl
  | some con =>
    dsimp only
    by_cases hstate : con.state_ = .kConnecting
    · obtain ⟨fd, hch, -⟩ := (h.connectors hc).of_connecting hstate
      obtain ⟨d, es, hrun, hended, -⟩ := Connector.handleError_spec timerId hstate hch
      rw [hrun]
      exact h.afterEnd hc hstate hch hended
    · rw [Connector.handleError_fault hstate]
      exact h.fail rfl

theorem Kept.startInLoop (h : s.Kept) (hfresh : s.opened k.sockfd = false) :
    (s.startInLoop i k).Kept := by
  unfold NetState.startInLoop
  cases hc : s.connectors i with
  | none =>
    unfold onConnector
    rw [hc]
    exact h.fail rfl
  | some con => exact h.started hc hfresh rfl (fun client hcl hset => h.clients hcl hset hc) rfl

theorem Kept.startConnector (h : s.Kept) (hfresh : s.opened k.sockfd = false) :
    (s.startConnector i k).Kept := by
  unfold NetState.startConnector
  cases hc : s.connectors i with
  | none =>
    unfold onConnector
    rw [hc]
    exact h.fail rfl
  | some con =>
    have hch : { con with connect_ := true }.channel_ = con.channel_ := rfl
    have hclient : ∀ client, s.clients i = some client → client.connection_ ≠ none →
        con.state_ = .kConnected := fun client hcl hset => h.clients hcl hset hc
    exact h.started hc hfresh hch hclient rfl

theorem Kept.stopConnector (h : s.Kept) : (s.stopConnector i k).Kept := by
  unfold NetState.stopConnector
  cases hc : s.connectors i with
  | none => exact h.fail rfl
  | some con =>
    dsimp only
    unfold onConnector
    rw [hc]
    have hch : { con with connect_ := false }.channel_ = con.channel_ := rfl
    have hset : (s.setConnector i con { con with connect_ := false }).Kept := by
      refine (h.sameChannel hc hch id ?_).1
      intro client hcl hset
      exact (h.clients hcl hset hc : con.state_ = .kConnected)
    exact hset.timers _ _

/-! ## Servers and acceptors -/

theorem Kept.newServerConnection (h : s.Kept) {server : TcpServer L} (hsv : s.servers i = some server)
    (hun : s.Unowned fd) (hopen : s.opened fd = true) :
    (s.newServerConnection i server fd).Kept := by
  have hset : (s.setServer i server.newConnection.2).Kept :=
    h.setServer hsv (Nat.le_succ _)
  have hnew : s.conns ⟨i, server.nextConnId_⟩ = none :=
    h.unmadeConn (.inl ⟨server, hsv, Nat.le_refl _⟩)
  have howner : i < s.nextObject := by
    by_contra hge
    cases hsv.symm.trans (h.unmade (Nat.le_of_not_lt hge)).2.1
  have hnum : (s.setServer i server.newConnection.2).Numbered ⟨i, server.nextConnId_⟩ := by
    refine ⟨howner, ?_, ?_⟩
    · intro d hd
      simp only [NetState.setServer, Function.update_self, Option.some.injEq] at hd
      subst hd
      exact Nat.lt_succ_self _
    · intro client hcl
      cases hsv.symm.trans (h.kinds hcl)
  have hfits : ∀ pc, ConnFits pc ⟨i, server.nextConnId_⟩ server.newConnection.1.conn := by
    intro pc
    refine ⟨Channel.new_wf, fun _ => rfl, ?_, ?_⟩
    · intro hno
      cases hno
    · intro hno
      cases hno
  unfold NetState.newServerConnection
  dsimp only
  split
  · refine Kept.connectEstablished ?_ (Function.update_self ..)
    exact hset.addConn hnew hnum hun hopen (hfits _) rfl
  · refine Kept.push ?_ fun _ => rfl
    exact hset.addConn hnew hnum hun hopen (hfits _) rfl

/-- The read callback of an acceptor. -/
theorem Kept.accepted (h : s.Kept) {a : Acceptor} (hfresh : ∀ connfd ∈ k.connfd, s.opened connfd = false) :
    ((a.handleRead k.connfd).foldl (acceptorEffect i) s).Kept := by
  unfold Acceptor.handleRead
  split
  · next connfd hfd =>
    have hun := h.unowned (hfresh connfd hfd)
    have hopened : (s.setOpened connfd true).Kept := h.setOpened (.inl rfl)
    split
    · simp only [List.foldl_cons, List.foldl_nil, acceptorEffect]
      split
      · next server hsv =>
        exact hopened.newServerConnection hsv hun (Function.update_self ..)
      · exact hopened.setOpened (.inr hun)
    · exact hopened.setOpened (.inr hun)
  · exact h

theorem Kept.startServer (h : s.Kept) {server : TcpServer L} (hsv : s.servers i = some server)
    (startLoop : Nat → L) : (s.startServer i server startLoop).Kept := by
  unfold NetState.startServer
  cases hrun : server.start startLoop with
  | error fault => exact h.fail rfl
  | ok server' =>
    have hnum : server.nextConnId_ ≤ server'.nextConnId_ := by
      unfold TcpServer.start at hrun
      split at hrun
      · cases hrun
        exact Nat.le_refl _
      · obtain ⟨pool, -, hrun⟩ := bind_eq_ok.mp hrun
        cases hrun
        exact Nat.le_refl _
    have hset : (s.setServer i server').Kept := h.setServer hsv hnum
    dsimp only
    split
    · next a ha =>
      split
      · exact hset
      · exact hset.listen ha
    · exact h.fail rfl

/-! ## Connections -/

theorem Kept.removeConnectionInLoop (h : s.Kept) : (s.removeConnectionInLoop c nc).Kept := by
  unfold NetState.removeConnectionInLoop
  split
  · next server hsv =>
    dsimp only
    split
    · have hset : (s.setServer c.owner (server.erase nc.name_).2).Kept :=
        h.setServer hsv (Nat.le_refl _)
      exact hset.push fun _ => rfl
    · exact h.fail rfl
  · exact h.fail rfl

theorem Kept.removeServerConnection (h : s.Kept) : (s.removeServerConnection c nc).Kept := by
  unfold NetState.removeServerConnection
  split
  · split
    · exact h.removeConnectionInLoop
    · exact h.push fun _ => rfl
  · exact h.fail rfl

theorem Kept.restart (h : s.Kept) (hfresh : s.opened k.sockfd = false)
    (hnone : ∀ client, s.clients i = some client → client.connection_ = none) :
    (s.restart i k).Kept := by
  unfold NetState.restart
  cases hc : s.connectors i with
  | none =>
    unfold onConnector
    rw [hc]
    exact h.fail rfl
  | some con =>
    have hch : con.restart.channel_ = con.channel_ := rfl
    exact h.started hc hfresh hch (fun client hcl hset => absurd (hnone client hcl) hset) rfl

theorem Kept.removeClientConnection (h : s.Kept) (hfresh : s.opened k.sockfd = false) :
    (s.removeClientConnection c k).Kept := by
  unfold NetState.removeClientConnection
  split
  · next client hcl =>
    cases hrun : client.removeConnection c.number with
    | error fault => exact h.fail rfl
    | ok client' =>
      obtain ⟨-, hclient⟩ := check_bind_eq_ok.mp hrun
      cases hclient
      have hclient : (s.setClient c.owner { client with connection_ := none }).Kept :=
        h.setClient hcl (Nat.le_refl _) fun hno => absurd rfl hno
      have hset : ((s.setClient c.owner { client with connection_ := none }).push s.base
          (.connectDestroyed c)).Kept := hclient.push fun _ => rfl
      dsimp only
      split
      · refine hset.restart hfresh ?_
        intro d hd
        cases (Function.update_self ..).symm.trans hd
        rfl
      · exact hset
  · exact h.fail rfl

theorem Kept.closeCallback (h : s.Kept) (hfresh : s.opened k.sockfd = false) :
    (s.closeCallback c nc k).Kept := by
  unfold NetState.closeCallback
  split
  · exact h.removeServerConnection
  · exact h.removeClientConnection hfresh
  · exact h.push fun _ => rfl

theorem setConn_opened {conn : TcpConnection} : (s.setConn c nc conn).opened = s.opened := by
  unfold setConn note
  split <;> rfl

/-- The effects of a method that does not close. -/
theorem Kept.quietEffects (h : s.Kept) {es : List ConnEffect} (hes : .closeCallback ∉ es) :
    (es.foldl (connEffect c nc k) s).Kept := by
  induction es generalizing s with
  | nil => exact h
  | cons e es ih =>
    have hrest : .closeCallback ∉ es := fun hmem => hes (List.mem_cons_of_mem e hmem)
    cases e with
    | queueWriteComplete => exact ih (h.push fun _ => rfl) hrest
    | closeCallback => exact absurd List.mem_cons_self hes
    | _ => exact ih h hrest

/-- A method that leaves `state_` alone and does not close. -/
theorem Kept.quiet (h : s.Kept) (hc : s.conns c = some nc) {conn : TcpConnection}
    {es : List ConnEffect} (hq : nc.conn.Quiet conn es)
    (hreg : conn.channel_.mapped = nc.conn.channel_.mapped) :
    (es.foldl (connEffect c nc k) (s.setConn c nc conn)).Kept := by
  obtain ⟨-, hearly, hused, hdone⟩ := h.conns hc
  refine Kept.quietEffects (h.setConn hc ⟨hq.wf, ?_, ?_, ?_⟩ hq.state.trans) hq.noClose
  · rw [hq.state, hreg]
    exact hearly
  · rw [TcpConnection.inUse, hq.state, hreg]
    exact hused
  · rw [hq.state, hreg]
    exact hdone

/-- `isWriting` is for channels in the poller. -/
theorem mapped_of_writing {channel : Channel} (hwf : channel.Wf) (hw : channel.isWriting = true) :
    channel.mapped = true := by
  unfold Channel.Wf at hwf
  split at hwf
  · rw [Channel.isWriting, hwf.2.2] at hw
    cases hw
  · exact hwf.1
  · exact hwf.1

theorem Kept.handleClose (h : s.Kept) (hc : s.conns c = some nc) (hfresh : s.opened k.sockfd = false)
    {conn : TcpConnection} {es : List ConnEffect} (hrun : nc.conn.handleClose = .ok (conn, es)) :
    (es.foldl (connEffect c nc k) (s.setConn c nc conn)).Kept := by
  obtain ⟨hwf, hearly, hused, hdone⟩ := h.conns hc
  obtain ⟨hin, -⟩ := check_bind_eq_ok.mp hrun
  obtain ⟨channel, hspec, hwf', -, hnew⟩ := TcpConnection.handleClose_spec hwf hin
  cases hspec.symm.trans hrun
  have hmapped : channel.mapped = true := hwf'.mapped_iff.mpr hnew
  refine Kept.closeCallback (h.setConn hc ⟨hwf', ?_, fun _ => hmapped, ?_⟩ id) ?_
  · intro hstate
    simp [TcpConnection.inUse, show nc.conn.state_ = .kConnecting from hstate] at hin
  · intro hstate
    simp [TcpConnection.inUse, show nc.conn.state_ = .kDisconnected from hstate] at hin
  · rw [setConn_opened]
    exact hfresh

/-- A method of a connection that keeps its registration. -/
theorem registered_mapped {conn conn' : TcpConnection} (hwf : conn.channel_.Wf) (hwf' : conn'.channel_.Wf)
    (hmapped : conn.channel_.mapped = true)
    (hreg : conn.channel_.index_ ≠ .kNew → conn'.channel_.index_ ≠ .kNew) :
    conn'.channel_.mapped = conn.channel_.mapped := by
  rw [hmapped]
  exact hwf'.mapped_iff.mpr (hreg (hwf.mapped_iff.mp hmapped))

theorem Kept.connWrite (h : s.Kept) (hc : s.conns c = some nc)
    (hw : k.write.Within nc.conn.outputBuffer_.length) :
    (s.onConn c k fun conn => conn.handleWrite k.write).Kept := by
  have hwf := (h.conns hc).wf
  unfold onConn
  rw [hc]
  dsimp only
  obtain ⟨conn, es, hrun, hspec⟩ := TcpConnection.handleWrite_spec hwf hw
  rw [hrun]
  refine h.quiet hc hspec.toQuiet ?_
  by_cases hwriting : nc.conn.channel_.isWriting = true
  · exact registered_mapped hwf hspec.wf (mapped_of_writing hwf hwriting) hspec.registered
  · have hstay : nc.conn.handleWrite k.write = .ok (nc.conn, []) := if_neg hwriting
    cases hstay.symm.trans hrun
    rfl

theorem Kept.connSend (h : s.Kept) (hc : s.conns c = some nc) (hstate : nc.conn.state_ = .kConnected)
    (message : List UInt8) : (s.onConn c k fun conn => conn.sendInLoop message k.write).Kept := by
  obtain ⟨hwf, -, hused, -⟩ := h.conns hc
  unfold onConn
  rw [hc]
  dsimp only
  obtain ⟨conn, es, hrun, hspec⟩ := TcpConnection.sendInLoop_spec hwf message k.write
  rw [hrun]
  have hin : nc.conn.inUse = true := by simp [TcpConnection.inUse, hstate]
  exact h.quiet hc hspec.toQuiet (registered_mapped hwf hspec.wf (hused hin) hspec.registered)

/-- A method whose result is known. -/
theorem Kept.onConn (h : s.Kept)
    {method : TcpConnection → Except ConnFault (TcpConnection × List ConnEffect)}
    (hok : ∀ nc conn es, s.conns c = some nc → method nc.conn = .ok (conn, es) →
      (es.foldl (connEffect c nc k) (s.setConn c nc conn)).Kept)
    (herror : ∀ nc fault, s.conns c = some nc → method nc.conn = .error fault →
      fault ≠ .poller .present) : (s.onConn c k method).Kept := by
  unfold NetState.onConn
  split
  · next nc hc =>
    split
    · next conn es hrun => exact hok nc conn es hc hrun
    · next fault hrun =>
      refine h.fail ?_
      simp [NetFault.present, herror nc fault hc hrun]
  · exact h.fail rfl

theorem handleClose_error {conn : TcpConnection} (hwf : conn.channel_.Wf) {fault : ConnFault}
    (hrun : conn.handleClose = .error fault) : fault ≠ .poller .present := by
  rintro rfl
  by_cases hin : conn.inUse = true
  · obtain ⟨channel, hspec, -⟩ := TcpConnection.handleClose_spec hwf hin
    cases hspec.symm.trans hrun
  · rw [TcpConnection.handleClose, check_neg hin] at hrun
    cases hrun

theorem Kept.connRead (h : s.Kept) (hfresh : s.opened k.sockfd = false) :
    (s.onConn c k fun conn => conn.handleRead k.read).Kept := by
  refine h.onConn ?_ ?_
  · intro nc conn es hc hrun
    unfold TcpConnection.handleRead at hrun
    split at hrun
    · cases hrun
      refine h.quiet hc ⟨rfl, (h.conns hc).wf, rfl, ?_⟩ rfl
      split <;> simp
    · exact h.handleClose hc hfresh hrun
    · cases hrun
      exact h.quiet hc ⟨rfl, (h.conns hc).wf, rfl, List.not_mem_nil⟩ rfl
  · intro nc fault hc hrun
    unfold TcpConnection.handleRead at hrun
    split at hrun
    · cases hrun
    · exact handleClose_error (h.conns hc).wf hrun
    · cases hrun

/-- A callback of a channel. -/
theorem Kept.callback (h : s.Kept) (hfresh : s.Fresh k) {o : ChannelRef} {cb : ChannelCallback}
    (hans : s.Answered k (.callback o cb) = true) : (s.callback k o cb).Kept := by
  cases o with
  | acceptor i =>
    cases cb with
    | read =>
      dsimp only [NetState.callback]
      split
      · exact h.accepted hfresh.2
      · exact h.fail rfl
    | close => exact h
    | error => exact h
    | write => exact h
  | connector i =>
    cases cb with
    | write => exact h.handleWrite
    | error => exact h.handleError
    | close => exact h
    | read => exact h
  | conn c =>
    cases cb with
    | close =>
      exact h.onConn (fun nc conn es hc hrun => h.handleClose hc hfresh.1 hrun)
        fun nc fault hc hrun => handleClose_error (h.conns hc).wf hrun
    | error =>
      show (s.onConn c k TcpConnection.handleError).Kept
      refine h.onConn ?_ ?_
      · intro nc conn es hc hrun
        cases hrun
        exact h.quiet hc ⟨rfl, (h.conns hc).wf, rfl, List.not_mem_nil⟩ rfl
      · intro nc fault _ hrun
        cases hrun
    | read => exact h.connRead hfresh.1
    | write =>
      cases hc : s.conns c with
      | none =>
        dsimp only [NetState.callback, NetState.onConn]
        rw [hc]
        exact h.fail rfl
      | some nc =>
        simp only [Answered, hc, Option.all_some, decide_eq_true_eq] at hans
        exact h.connWrite hc hans

theorem Kept.shutdown (h : s.Kept) : (s.shutdown c).Kept := by
  unfold NetState.shutdown
  split
  · next nc hc =>
    split
    · next hstate =>
      obtain ⟨hwf, -, hused, -⟩ := h.conns hc
      have hmapped := hused (by simp [TcpConnection.inUse, hstate])
      refine h.setConn hc ⟨hwf, ?_, fun _ => hmapped, ?_⟩ ?_
      · intro hno
        cases hno
      · intro hno
        cases hno
      · intro hno
        cases hstate.symm.trans hno
    · exact h
  · exact h.fail rfl

end NetState

end Netfish
