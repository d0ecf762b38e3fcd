import Netfish.Net.PingPong

/-!
# The ping-pong programs run on

What circulates could still stand: bytes in a buffer that the loop is not going to write, or in the kernel on
the way to an end that has stopped reading. `ping_pong_runs_on` says that up to the first `disableAll` some byte
is always in a place that it is going to leave: with a `send`, with the message callback, in an `outputBuffer_`
that the kernel is watched for room for, or in the kernel under a watch for what can be read.
-/

set_option autoImplicit false

namespace Netfish

open Kit

universe u

/-- What a channel asks for, if it asks for anything, the kernel watches. -/
theorem Channel.Wf.watched_eq {c : Channel} (h : c.Wf) (hsome : c.events_ ≠ .none) :
    c.watched = some c.events_ := by
  unfold Channel.Wf at h
  split at h
  · exact absurd h.2.2 hsome
  · exact h.2
  · exact absurd h.2.2 hsome

namespace TcpConnection

variable {c c' : TcpConnection} {es : List ConnEffect} {w : WriteResult} {message : List UInt8}

/-- A connection that gives its user what it reads. -/
structure Listening (c : TcpConnection) : Prop where
  reading : c.state_ = .kConnected → c.channel_.events_.pollin = true
  callback : c.messageCallback_ = true

theorem onChannel_callback {channel : Except PollerFault Channel} (hrun : c.onChannel channel = .ok c') :
    c'.messageCallback_ = c.messageCallback_ := by
  unfold onChannel at hrun
  split at hrun
  · cases hrun
    rfl
  · cases hrun

theorem sendInLoop_callback (hrun : c.sendInLoop message w = .ok (c', es)) :
    c'.messageCallback_ = c.messageCallback_ := by
  unfold sendInLoop at hrun
  dsimp only at hrun
  split at hrun
  · split at hrun
    · cases hrun
      rfl
    · obtain ⟨d, hd, hrun⟩ := bind_eq_ok.mp hrun
      cases hrun
      have hsame := onChannel_callback hd
      exact hsame
  · cases hrun
    rfl

theorem retrieveWritten_callback {n : Nat} (hrun : c.retrieveWritten n = .ok (c', es)) :
    c'.messageCallback_ = c.messageCallback_ := by
  obtain ⟨-, hrun⟩ := check_bind_eq_ok.mp hrun
  dsimp only at hrun
  split at hrun
  · obtain ⟨⟨d, ds⟩, hdrained, hrun⟩ := bind_eq_ok.mp hrun
    obtain ⟨d', hd, hdrained⟩ := bind_eq_ok.mp hdrained
    cases hrun
    cases hdrained
    have hsame := onChannel_callback hd
    exact hsame
  · cases hrun
    rfl

theorem handleWrite_callback (hrun : c.handleWrite w = .ok (c', es)) :
    c'.messageCallback_ = c.messageCallback_ := by
  unfold handleWrite at hrun
  split at hrun
  · cases w with
    | failed =>
      cases hrun
      rfl
    | wrote n =>
      dsimp only at hrun
      split at hrun
      · exact retrieveWritten_callback hrun
      · cases hrun
        rfl
  · cases hrun
    rfl

/-- The methods of the output path leave the read interest alone. -/
theorem Listening.of_quiet (h : c.Listening) (hquiet : c.Quiet c' es)
    (hcallback : c'.messageCallback_ = c.messageCallback_) : c'.Listening where
  reading hstate := by
    have hpollin := congrArg Events.pollin hquiet.interest
    rw [Events.minus_write_pollin, Events.minus_write_pollin] at hpollin
    exact hpollin.trans (h.reading (hquiet.state.symm.trans hstate))
  callback := hcallback.trans h.callback

theorem Listening.connectEstablished (h : c.Listening) (hwf : c.channel_.Wf)
    (hrun : c.connectEstablished = .ok (c', es)) : c'.Listening := by
  obtain ⟨hstate, -⟩ := check_bind_eq_ok.mp hrun
  obtain ⟨channel, hrun', -, hev, -⟩ := connectEstablished_spec hwf hstate
  cases hrun.symm.trans hrun'
  refine ⟨?_, h.callback⟩
  intro _
  show channel.events_.pollin = true
  rw [hev]
  exact Bool.or_true _

end TcpConnection

namespace ConnState

section

variable {T : Type u} {s s' : ConnState T}

/-- The state after a method that keeps it. -/
theorem listening_after {r : Except ConnFault (TcpConnection × List ConnEffect)}
    {f : ConnState T → ConnState T} (h : s.conn.Listening) (hf : ∀ t, (f t).conn = t.conn)
    (hr : ∀ c es, r = .ok (c, es) → c.Listening) : (s.after r f).conn.Listening := by
  cases r with
  | error => exact h
  | ok p =>
    show (f ({ s with conn := p.1 }.perform p.2)).conn.Listening
    rw [hf, perform_eq]
    exact hr p.1 p.2 rfl

theorem listening_runFunctor {w : WriteResult} {f : ConnFunctor T} (h : s.conn.Listening)
    (hwf : s.conn.channel_.Wf) (hf : f ≠ .connectDestroyed) (hs : s.runFunctor w f = some s') :
    s'.conn.Listening := by
  cases f with
  | sendInLoop t message =>
    obtain ⟨-, hs⟩ := Option.ite_none_right_eq_some.mp hs
    obtain ⟨c, es, hrun, hsent⟩ := TcpConnection.sendInLoop_spec hwf message w
    cases hs
    refine listening_after h (fun _ => ?_) ?_
    · rfl
    intro c' es' hrun'
    cases hrun.symm.trans hrun'
    exact h.of_quiet hsent.toQuiet (TcpConnection.sendInLoop_callback hrun)
  | shutdownInLoop =>
    cases hs
    rw [perform_eq]
    exact h
  | writeComplete =>
    cases hs
    exact h
  | connectDestroyed => exact absurd rfl hf

end

variable {T : Type u} [DecidableEq T] {s s' : ConnState T} {a : ConnAct T}

/-- Each step up to the first `disableAll` keeps it. -/
theorem listening_step (h : s.conn.Listening) (hwf : s.conn.channel_.Wf)
    (hopen : s.beforeDisableAll a = true) (hs : s.step a = some s') : s'.conn.Listening := by
  cases (step_moves hs).2 with
  | callClose | endDestroyed => cases hopen
  | shutSet => exact ⟨nofun, h.callback⟩
  | @sendHere w message =>
    obtain ⟨c, es, hrun, hsent⟩ := TcpConnection.sendInLoop_spec hwf message w
    refine listening_after h (fun _ => ?_) ?_
    · rfl
    intro c' es' hrun'
    cases hrun.symm.trans hrun'
    exact h.of_quiet hsent.toQuiet (TcpConnection.sendInLoop_callback hrun)
  | shutHere =>
    rw [perform_eq]
    exact h
  | connectEstablished =>
    refine listening_after h (fun _ => ?_) ?_
    · rfl
    intro c es hrun
    exact h.connectEstablished hwf hrun
  | callError =>
    refine listening_after h (fun _ => ?_) ?_
    · rfl
    intro c es hrun
    cases hrun
    exact h
  | @callRead r =>
    refine listening_after h (fun _ => ?_) ?_
    · rfl
    intro c es hrun
    cases r with
    | eof => cases hopen
    | data | error =>
      cases hrun
      exact h
  | @callWrite w _ _ _ _ hw =>
    obtain ⟨c, es, hrun, hwrote⟩ := TcpConnection.handleWrite_spec hwf hw
    refine listening_after h (fun _ => ?_) ?_
    · rfl
    intro c' es' hrun'
    cases hrun.symm.trans hrun'
    exact h.of_quiet hwrote.toQuiet (TcpConnection.handleWrite_callback hrun)
  | @runFunctor w f rest _ _ _ hnext hrun =>
    refine listening_runFunctor (s := { s with functors := rest }) h hwf ?_ hrun
    rintro rfl
    simp [beforeDisableAll, hnext] at hopen
  | _ => exact h

/-- A step of another thread, or of the owner, does not move the loop's. -/
theorem pc_of_step_elsewhere (ha : a.inLoop = false) (hs : s.step a = some s') : s'.pc = s.pc := by
  cases (step_moves hs).2 with
  | sendTest | sendNot | sendPush | shutTest | shutNot | shutSet | shutPush | queueDestroyed => rfl
  | _ => cases ha

/-- A read that brings bytes comes to the callback. -/
theorem inMessage_of_read (h : s.conn.messageCallback_ = true) (hs : s.step (.callRead .data) = some s') :
    s'.pc.inMessage = true := by
  cases (step_moves hs).2 with
  | callRead =>
    simp only [after, TcpConnection.handleRead, perform_eq]
    exact (Bool.true_and _).trans h

end ConnState

namespace Peer

/-- An end up to its first `disableAll`, with its message callback on the way when there is something to
read. -/
structure Alert {T : Type u} (p : Peer T) : Prop extends p.Open where
  listening : p.conn.conn.Listening
  pending : p.inputBuffer_.readable ≠ [] → p.conn.pc.inMessage = true

theorem start_alert {T : Type u} : (start true false : Peer T).Alert where
  followed := ConnState.start_followed true false
  unsealed _ hq := (nomatch hq)
  there := rfl
  listening := ⟨nofun, rfl⟩
  pending h := absurd Buffer.new_readable h

variable {T : Type u} [DecidableEq T] {p p' other : Peer T} {a : PeerAct T}

/-- A step that leaves the input alone, or reads into an empty buffer. -/
theorem pending_step (h : p.Alert) (ha : a.inLoop = true → p.inputBuffer_.readable = [])
    (hr : ∀ len, a ≠ .retrieve len) (hs : p.step other a = some p')
    (hsome : p'.inputBuffer_.readable ≠ []) : p'.conn.pc.inMessage = true := by
  cases step_moves hs with
  | @conn a conn _ hconn =>
    cases hloop : a.inLoop with
    | true => exact absurd (ha hloop) hsome
    | false =>
      show conn.pc.inMessage = true
      rw [ConnState.pc_of_step_elsewhere hloop hconn]
      exact h.pending hsome
  | read _ hconn =>
    exact ConnState.inMessage_of_read h.listening.callback hconn
  | abort => exact h.pending hsome
  | readEnd => exact absurd (ha rfl) hsome
  | retrieve => exact absurd rfl (hr _)
  | close => exact h.pending hsome

theorem listening_step (h : p.Alert) (hfed : p.Fed other) (hopen : p.beforeDisableAll a = true)
    (hs : p.step other a = some p') : p'.conn.conn.Listening := by
  cases step_moves hs with
  | conn _ hconn => exact ConnState.listening_step h.listening hfed.streams.wf hopen hconn
  | read _ hconn => exact ConnState.listening_step h.listening hfed.streams.wf rfl hconn
  | readEnd | close => cases hopen
  | abort | retrieve => exact h.listening

/-- A step up to the first `disableAll`, of which the callback is known. -/
theorem Alert.step (h : p.Alert) (hfed : p.Fed other) (hopen : p.beforeDisableAll a = true)
    (hs : p.step other a = some p')
    (hpending : p'.inputBuffer_.readable ≠ [] → p'.conn.pc.inMessage = true) : p'.Alert :=
  ⟨h.toOpen.step hfed hopen hs, listening_step h hfed hopen hs, hpending⟩

theorem Alert.sends {message : List UInt8} (h : p.Alert) (hfed : p.Fed other)
    (hs : p.step other (.conn (.sendTest none message)) = some p') : p'.Alert := by
  apply h.step hfed rfl hs
  cases step_moves hs with
  | conn _ hconn =>
    rcases ConnState.sendTest_of_step hconn with ⟨-, rfl⟩ | ⟨-, rfl⟩
    · exact h.pending
    · exact h.pending

theorem Alert.onMessage {q : Peer T} (h : p.Alert) (hfed : p.Fed other)
    (hr : p.step other (.retrieve p.inputBuffer_.readableBytes) = some q)
    (hs : q.step other (.conn (.sendTest none p.inputBuffer_.readable)) = some p') : p'.Alert := by
  obtain ⟨-, -, -, hnone⟩ := retrieve_all hfed hr
  have hq : q.Alert := h.step hfed rfl hr fun hsome => absurd hnone hsome
  exact hq.sends (hfed.step hr).1 hs

/-- Nothing has been read before the connection is up. -/
theorem Alert.connected {greeting : List UInt8} (h : p.Alert) (hfed : p.Fed other)
    (hechoes : p.Echoes greeting) (hs : p.step other (.conn .connectEstablished) = some p') : p'.Alert := by
  apply h.step hfed rfl hs
  apply pending_step h ?_ (by simp) hs
  intro _
  by_contra hsome
  cases (hechoes.fresh_of_inMessage (h.pending hsome)).symm.trans (connected_eq hs).1

end Peer

namespace PingPong

section

variable {T : Type u} {s : PingPong T}

theorem alert_update {link : Party → Peer T} {i : Party} {p : Peer T} (h : ∀ j, (link j).Alert)
    (hp : p.Alert) (j : Party) : (Function.update link i p j).Alert := by
  by_cases hj : j = i
  · subst hj
    rw [Function.update_self]
    exact hp
  · rw [Function.update_of_ne hj]
    exact h j

/-- The loop's thread goes on when there is nothing to read. -/
theorem readable_of_allows {i : Party} {a : PeerAct T} (h : s.allows (i, a) = true)
    (ha : a.inLoop = true) : (s.link i).inputBuffer_.readable = [] := by
  simp only [allows, inCallback, ha, Bool.and_eq_true, Bool.not_true, Bool.false_or, Bool.not_or,
    Bool.not_not, List.isEmpty_iff] at h
  exact h.2.1

end

variable {T : Type u} [DecidableEq T] {s s' : PingPong T} {message : List UInt8}

/-- Up to the first `disableAll` of either end. -/
def beforeDisableAll (s : PingPong T) : PingPongAct T → Bool
  | .link a => (s.link a.1).beforeDisableAll a.2
  | _ => true

/-- The invariant up to there. -/
structure Runs (message : List UInt8) (s : PingPong T) : Prop extends s.Flows message where
  alert : ∀ i, (s.link i).Alert

/-- The step lemma. -/
theorem Runs.step (h : s.Runs message) {a : PingPongAct T} (hopen : s.beforeDisableAll a = true)
    (hs : (pingPong T message).step s a = some s') : s'.Runs message := by
  refine ⟨h.toFlows.step hs, ?_⟩
  cases step_moves hs with
  | @connected i p hp => exact alert_update h.alert ((h.alert i).connected (h.fed i) (h.echoes i) hp)
  | greet _ hp => exact alert_update h.alert ((h.alert .client).sends (h.fed .client) hp)
  | @onMessage i q p _ _ hr hp => exact alert_update h.alert ((h.alert i).onMessage (h.fed i) hr hp)
  | @link i a p hallows hp =>
    apply alert_update h.alert
    apply (h.alert i).step (h.fed i) hopen hp
    apply Peer.pending_step (h.alert i) (readable_of_allows hallows) ?_ hp
    rintro len rfl
    cases hallows

end PingPong

/-- The two programs up to the first `disableAll` of either end. -/
def openPingPong (T : Type u) [DecidableEq T] (message : List UInt8) :
    Machine (PingPong T) (PingPongAct T) :=
  (pingPong T message).restrict PingPong.beforeDisableAll

variable {T : Type u} [DecidableEq T] {s : PingPong T} {message : List UInt8}

theorem PingPong.runs_of_reachable (h : (openPingPong T message).Reachable s) : s.Runs message := by
  apply h.invariant (PingPong.Runs message)
  · intro s hinit
    refine ⟨PingPong.flows_of_reachable (.start hinit), ?_⟩
    cases hinit
    exact fun i => Peer.start_alert
  · intro s a s' hruns hs
    obtain ⟨hopen, hs⟩ := Machine.restrict_step.mp hs
    exact hruns.step hopen hs

/-- The kernel watches a connected end for what can be read. -/
theorem Peer.Alert.watched {p other : Peer T} (h : p.Alert) (hfed : p.Fed other)
    (hup : p.conn.conn.state_ = .kConnected) :
    ∃ mask, p.conn.conn.channel_.watched = some mask ∧ mask.pollin = true := by
  have hpollin := h.listening.reading hup
  refine ⟨_, hfed.streams.wf.watched_eq ?_, hpollin⟩
  intro hnone
  rw [hnone] at hpollin
  cases hpollin

/-- **The ping-pong never stands still.** While both ends are connected, up to the first `disableAll`, and the
client has sent a message with bytes: at one end a message is in `send`, or the message callback is running
with bytes to retrieve, or the kernel watches the socket for room for the bytes in `outputBuffer_`, or watches
it for the bytes that are there to read. -/
theorem ping_pong_runs_on (h : (openPingPong T message).Reachable s) (hne : message ≠ [])
    (hup : ∀ i, (s.link i).conn.conn.state_ = .kConnected) (hgreeted : s.inOnConnection = false) :
    ∃ i, (∃ m, m ≠ [] ∧ (s.link i).conn.calls none = .sending m) ∨
      ((s.link i).inputBuffer_.readable ≠ [] ∧ (s.link i).conn.pc.inMessage = true) ∨
      ((s.link i).conn.conn.outputBuffer_ ≠ [] ∧
        ∃ mask, (s.link i).conn.conn.channel_.watched = some mask ∧ mask.pollout = true) ∨
      ((s.link i).arriving (s.link i.other) ≠ [] ∧
        ∃ mask, (s.link i).conn.conn.channel_.watched = some mask ∧ mask.pollin = true) := by
  have hruns := PingPong.runs_of_reachable h
  have hcirculates := hruns.circulates hup hgreeted
  -- one of the two ways has bytes on it
  have hsome : ∃ i, (s.link i).toCome (s.link i.other) ≠ [] := by
    by_contra hnone
    have hnil : ∀ i, (s.link i).toCome (s.link i.other) = [] := fun i =>
      not_not.mp fun hi => hnone ⟨i, hi⟩
    have hclient := hnil .client
    have hserver := hnil .server
    simp only [Party.other] at hclient hserver
    rw [hclient, hserver] at hcirculates
    exact hne (List.rotate_eq_nil_iff.mp hcirculates.symm)
  obtain ⟨i, hi⟩ := hsome
  by_cases hcall : ((s.link i.other).conn.calls none).message.flatten = []
  · by_cases hout : (s.link i.other).conn.conn.outputBuffer_ = []
    · by_cases hin : (s.link i).inputBuffer_.readable = []
      · refine ⟨i, .inr (.inr (.inr ⟨?_, (hruns.alert i).watched (hruns.fed i) (hup i)⟩))⟩
        intro harriving
        apply hi
        rw [Peer.toCome, hin, harriving, hout, hcall]
        rfl
      · exact ⟨i, .inr (.inl ⟨hin, (hruns.alert i).pending hin⟩)⟩
    · exact ⟨i.other, .inr (.inr (.inl ⟨hout, (hruns.alert i.other).followed.synced.watched hout⟩))⟩
  · refine ⟨i.other, .inl ?_⟩
    cases hpc : (s.link i.other).conn.calls none with
    | sending m =>
      rw [hpc] at hcall
      exact ⟨m, by simpa [CallerPc.message] using hcall, rfl⟩
    | idle | shutting | shut =>
      rw [hpc] at hcall
      exact absurd rfl hcall

set_option maxRecDepth 20000 in
/-- One byte is in the client's buffer. -/
theorem ping_pong_runs_on_round : ∃ s : PingPong Unit, (openPingPong Unit [5, 6]).Reachable s ∧
    ∃ i, (∃ m, m ≠ [] ∧ (s.link i).conn.calls none = .sending m) ∨
      ((s.link i).inputBuffer_.readable ≠ [] ∧ (s.link i).conn.pc.inMessage = true) ∨
      ((s.link i).conn.conn.outputBuffer_ ≠ [] ∧
        ∃ mask, (s.link i).conn.conn.channel_.watched = some mask ∧ mask.pollout = true) ∨
      ((s.link i).arriving (s.link i.other) ≠ [] ∧
        ∃ mask, (s.link i).conn.conn.channel_.watched = some mask ∧ mask.pollin = true) := by
  have hreach : (openPingPong Unit [5, 6]).Reachable _ := ⟨_, roundRun, rfl, rfl⟩
  exact ⟨_, hreach, ping_pong_runs_on hreach (by decide) (fun i => by cases i <;> rfl) rfl⟩

end Netfish
