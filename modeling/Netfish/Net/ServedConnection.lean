import Netfish.Net.Anchored
import Netfish.Net.ConnectionMoves

/-!
# A connection in its server

What one connection sees of a server and its loops. `ServerFunctor.isOf`, `ServerCall.of` and
`IoLoopPc.of` are the projections of the queues, the callers and the loops; `Shows` says that a state
of the connection's own machine is what they show. To the connection, another loop and user code in it
are threads like any other. `Unseen` is for the steps that do not concern it.

The histories beside the server record, for each connection, the messages `send` accepted of each
caller and the bytes the kernel took.
-/

set_option autoImplicit false

namespace Netfish

open Kit

universe u v

/-- How the server queues a functor of the connection. -/
def ConnFunctor.inServer {T : Type u} (c : Nat) : ConnFunctor T → ServerFunctor
  | .sendInLoop _ message => .sendInLoop c message
  | .shutdownInLoop => .shutdownInLoop c
  | .writeComplete => .writeComplete c
  | .connectDestroyed => .connectDestroyed c

/-- The functor has a counterpart in the queue of the connection's own machine. -/
def ServerFunctor.isOf (c : Nat) : ServerFunctor → Bool
  | .connectEstablished _ => false
  | .removeConnectionInLoop _ => false
  | .sendInLoop d _ => d = c
  | .shutdownInLoop d => d = c
  | .writeComplete d => d = c
  | .connectDestroyed d => d = c

/-- Where a caller stands, as far as the connection goes. -/
def ServerCall.of (c : Nat) : ServerCall → CallerPc
  | .idle => .idle
  | .sending d message => if d = c then .sending message else .idle
  | .shutting d => if d = c then .shutting else .idle
  | .shut d => if d = c then .shut else .idle

/-- Where the thread of a loop stands, as far as the connection goes. -/
def IoLoopPc.of (c : Nat) : IoLoopPc → ConnPc
  | .idle => .idle
  | .handlers active => (active.lookup c).elim .idle .active
  | .event d _ todo inMessage active =>
    if d = c then .event todo inMessage else (active.lookup c).elim .idle .active
  | .batch => .batch
  | .destroying d => if d = c then .destroying else .batch

/-- Where a loop stands that has nothing to do with the connection. -/
def ConnPc.away : ConnPc → Bool
  | .idle => true
  | .batch => true
  | _ => false

/-- A caller, seen from a connection of the loop. -/
def Caller.seenFrom {T : Type u} {L : Type v} [DecidableEq T] [DecidableEq L] (l : L)
    (o : Caller T L) : Option (Caller T L) :=
  if o = .loop l then none else some o

/-- The connection the loop is about to handle, handles or destroys. -/
def IoLoopPc.conn : IoLoopPc → Option Nat
  | .handlers active => active.head?.map Prod.fst
  | .event c .. => some c
  | .destroying c => some c
  | _ => none

/-- History: what a connection was given and what the kernel took of it. -/
structure ConnHistory (T : Type u) (L : Type v) where
  /-- The messages of each caller that passed the test in `send`. -/
  accepted : Caller T L → List (List UInt8)
  /-- The bytes the kernel took. -/
  wire : List UInt8

def ConnHistory.empty {T : Type u} {L : Type v} : ConnHistory T L := ⟨fun _ => [], []⟩

/-- The bytes the kernel took in a method. -/
def writtenBy (r : Except ConnFault (TcpConnection × List ConnEffect)) : List UInt8 :=
  match r with
  | .ok (_, es) => wireOf es
  | .error _ => []

namespace ServerState

variable {T : Type u} {L : Type v}

/-- The connection a step of the thread of the loop is about; `poll` and the turns of the batch are
about all. -/
def loopSubject (s : ServerState T L) (l : L) : IoLoopStep → Option Nat
  | .poll _ => none
  | .beginFunctors => none
  | .endFunctors => none
  | .runFunctor _ => (s.functors l).next.map (·.1.conn)
  | _ => (s.pcs l).conn

/-- The connection a step is about. -/
def subject (s : ServerState T L) : ServerAct T L → Option Nat
  | .newConnection => some s.server.nextConnId_
  | .sendTest _ c _ => some c
  | .shutTest _ c => some c
  | .sendRun o _ => (s.calls o).conn
  | .shutSet o => (s.calls o).conn
  | .shutRun o => (s.calls o).conn
  | .loop l a => s.loopSubject l a

/-- The message a `sendTest` lets through, with its connection and its caller. -/
def accepts (s : ServerState T L) : ServerAct T L → Option (Nat × Caller T L × List UInt8)
  | .sendTest o c message =>
    if (s.conns c).any (·.conn.state_ = .kConnected) then some (c, o, message) else none
  | _ => none

/-- What is of the connection is in its loop, or in the server's. -/
structure Housed (s : ServerState T L) (c : Nat) (sc : ServerConn L) : Prop where
  placed : ∀ l, ∀ f ∈ (s.functors l).toList, f.conn = c → f.home s.server.loop_ sc = l
  away : ∀ l, l ≠ sc.loop_ → ((s.pcs l).of c).away = true

/-- Nothing is of the connection. -/
structure Unborn (s : ServerState T L) (c : Nat) : Prop where
  conns : s.conns c = none
  functors : ∀ l, (s.functors l).filter (·.conn = c) = .empty
  calls : ∀ o, (s.calls o).of c = .idle
  away : ∀ l, ((s.pcs l).of c).away = true

/-- The connection sees nothing of the step. -/
structure Unseen (c : Nat) (s s' : ServerState T L) : Prop where
  conns : s'.conns c = s.conns c
  loop : s'.server.loop_ = s.server.loop_
  functors : ∀ l, (s'.functors l).filter (·.conn = c) = (s.functors l).filter (·.conn = c)
  pcs : ∀ l, (s'.pcs l).of c = (s.pcs l).of c
  calls : ∀ o, (s'.calls o).of c = (s.calls o).of c

/-! ## What a connection does not see -/

variable {s s' t : ServerState T L} {c d : Nat} {sd : ServerConn L} {l : L}

theorem Unseen.refl (c : Nat) (s : ServerState T L) : Unseen c s s :=
  ⟨rfl, rfl, fun _ => rfl, fun _ => rfl, fun _ => rfl⟩

theorem Unseen.setConn (h : Unseen c s t) (hd : d ≠ c) (sd : ServerConn L) :
    Unseen c s (t.setConn d sd) :=
  ⟨(Function.update_of_ne hd.symm ..).trans h.conns, h.loop, h.functors, h.pcs, h.calls⟩

theorem loopSubject_runFunctor {f : ServerFunctor} {rest : BatchQueue ServerFunctor}
    {w : WriteResult} (hnext : (s.functors l).next = some (f, rest)) :
    s.loopSubject l (.runFunctor w) = some f.conn := by
  simp only [loopSubject, hnext, Option.map_some]

theorem conn_of_functor {f : ServerFunctor} {rest : BatchQueue ServerFunctor} {w : WriteResult}
    {o : Option Nat} (hnext : (s.functors l).next = some (f, rest))
    (hsub : s.loopSubject l (.runFunctor w) = o) : some f.conn = o :=
  (loopSubject_runFunctor hnext).symm.trans hsub

theorem conn_of_pc {pc : IoLoopPc} {o : Option Nat} (hpc : s.pcs l = pc) (hsub : (s.pcs l).conn = o) :
    pc.conn = o :=
  hpc ▸ hsub

theorem conn_of_call {o : Caller T L} {call : ServerCall} {q : Option Nat} (hcall : s.calls o = call)
    (hsub : (s.calls o).conn = q) : call.conn = q :=
  hcall ▸ hsub

/-- The callbacks of another connection's channel. -/
theorem of_event_ne {revents : Events} {todo : List ChannelCallback} {inMessage : Bool}
    {active : List (Nat × Events)} (hd : d ≠ c) :
    (IoLoopPc.event d revents todo inMessage active).of c = (active.lookup c).elim .idle .active :=
  if_neg hd

theorem of_call_ne {call : ServerCall} (hsub : call.conn = some d) (hd : d ≠ c) :
    call.of c = .idle := by
  cases call <;> cases hsub <;> exact if_neg hd

theorem of_mayCall {o : Caller T L} (h : s.MayCall o = true) : (s.calls o).of c = .idle := by
  rw [of_decide_eq_true (Bool.and_eq_true_iff.mp h).1]
  rfl

variable [DecidableEq L]

theorem Unseen.setPc (h : Unseen c s t) {pc : IoLoopPc} (hpc : pc.of c = (s.pcs l).of c) :
    Unseen c s (t.setPc l pc) := by
  refine ⟨h.conns, h.loop, h.functors, ?_, h.calls⟩
  intro l'
  by_cases hl : l' = l
  · subst hl
    simpa [ServerState.setPc] using hpc
  · simpa [ServerState.setPc, hl] using h.pcs l'

/-- The queue of a loop changes, but not in functors of the connection. -/
theorem Unseen.setFunctors (h : Unseen c s t) {q : BatchQueue ServerFunctor}
    (hq : q.filter (·.conn = c) = (t.functors l).filter (·.conn = c)) :
    Unseen c s (t.setFunctors l q) := by
  refine ⟨h.conns, h.loop, ?_, h.pcs, h.calls⟩
  intro l'
  rw [← h.functors l']
  by_cases hl : l' = l
  · subst hl
    simpa [ServerState.setFunctors] using hq
  · simp [ServerState.setFunctors, hl]

theorem Unseen.queueInLoop (h : Unseen c s t) {f : ServerFunctor} (hf : f.conn ≠ c) (l : L) :
    Unseen c s (t.queueInLoop l f) :=
  h.setFunctors (BatchQueue.filter_push_of_neg (by simpa using hf) _)

theorem Unseen.pop {f : ServerFunctor} {rest : BatchQueue ServerFunctor}
    (hnext : (s.functors l).next = some (f, rest)) (hf : f.conn ≠ c) :
    Unseen c s (s.setFunctors l rest) :=
  (Unseen.refl c s).setFunctors (BatchQueue.filter_next_of_neg hnext (by simpa using hf))

theorem Unseen.removeConnectionInLoop (h : Unseen c s t) (hd : d ≠ c) (sd : ServerConn L) :
    Unseen c s (t.removeConnectionInLoop d sd) := by
  have herase : ∀ fault, Unseen c s { t with server := (t.server.erase sd.name_).2, fault } :=
    fun _ => ⟨h.conns, h.loop, h.functors, h.pcs, h.calls⟩
  unfold ServerState.removeConnectionInLoop
  dsimp only
  split
  · exact (herase t.fault).queueInLoop (f := .connectDestroyed d) hd sd.loop_
  · exact herase _

theorem Unseen.effect (h : Unseen c s t) (hd : d ≠ c) (sd : ServerConn L) (e : ConnEffect) :
    Unseen c s (ServerState.effect d sd t e) := by
  have hcount : Unseen c s (t.countClose d) := ⟨h.conns, h.loop, h.functors, h.pcs, h.calls⟩
  cases e with
  | queueWriteComplete => exact h.queueInLoop (f := .writeComplete d) hd sd.loop_
  | closeCallback =>
    dsimp only [ServerState.effect, ServerState.removeConnection]
    split
    · exact hcount.removeConnectionInLoop hd sd
    · exact hcount.queueInLoop (f := .removeConnectionInLoop d) hd _
  | _ => exact h

/-- A method of another connection. -/
theorem Unseen.after (h : Unseen c s t) (hd : d ≠ c)
    {r : Except ConnFault (TcpConnection × List ConnEffect)} {f : ServerState T L → ServerState T L}
    (hf : ∀ u, Unseen c s u → Unseen c s (f u)) : Unseen c s (t.after d sd r f) := by
  cases r with
  | error fault => exact ⟨h.conns, h.loop, h.functors, h.pcs, h.calls⟩
  | ok r =>
    obtain ⟨conn, es⟩ := r
    apply hf
    have hset := h.setConn hd { sd with conn }
    show Unseen c s (es.foldl (ServerState.effect d sd) (t.setConn d { sd with conn }))
    generalize t.setConn d { sd with conn } = u at hset
    induction es generalizing u with
    | nil => exact hset
    | cons e es ih => exact ih (ServerState.effect d sd u e) (hset.effect hd sd e)

/-- A callback of another connection. -/
theorem Unseen.callback {revents : Events} {todo todo' : List ChannelCallback}
    {inMessage inMessage' : Bool} {active : List (Nat × Events)} (hd : d ≠ c)
    (hpc : s.pcs l = .event d revents todo inMessage active)
    {r : Except ConnFault (TcpConnection × List ConnEffect)} :
    Unseen c s (s.after d sd r (·.setPc l (.event d revents todo' inMessage' active))) := by
  apply (Unseen.refl c s).after hd
  intro u hu
  apply hu.setPc
  rw [hpc, of_event_ne hd, of_event_ne hd]

/-- A step of the thread of a loop that is about another connection. -/
theorem LoopMoves.unseen {a : IoLoopStep} (hmove : s.LoopMoves l a s')
    (hsub : s.loopSubject l a = some d) (hd : d ≠ c) : Unseen c s s' := by
  have hrefl := Unseen.refl c s
  cases hmove with
  | poll => cases hsub
  | beginFunctors => cases hsub
  | endFunctors => cases hsub
  | handleEvent hpc =>
    cases conn_of_pc hpc hsub
    apply hrefl.setPc
    rw [hpc, of_event_ne hd, IoLoopPc.of, List.lookup_cons, beq_false_of_ne hd.symm]
  | callClose hpc hc =>
    cases conn_of_pc hpc hsub
    exact Unseen.callback hd hpc
  | callError hpc hc =>
    cases conn_of_pc hpc hsub
    exact Unseen.callback hd hpc
  | @callRead r _ _ _ _ _ _ hpc hc =>
    cases conn_of_pc hpc hsub
    exact Unseen.callback hd hpc
  | @callWrite w _ _ _ _ _ _ hpc hc hw =>
    cases conn_of_pc hpc hsub
    exact Unseen.callback hd hpc
  | eventDone hpc =>
    cases conn_of_pc hpc hsub
    apply hrefl.setPc
    rw [hpc, of_event_ne hd]
    rfl
  | endDestroyed hpc hc =>
    cases conn_of_pc hpc hsub
    apply hrefl.after hd
    intro u hu
    apply hu.setPc
    rw [hpc, IoLoopPc.of, IoLoopPc.of, if_neg hd]
  | @establish w e rest _ hpc hnext hc =>
    cases conn_of_functor hnext hsub
    exact (Unseen.pop hnext hd).after hd fun _ hu => hu
  | @send w e message rest _ hpc hnext hc hw =>
    cases conn_of_functor hnext hsub
    exact (Unseen.pop hnext hd).after hd fun _ hu => hu
  | shutdown hpc hnext hc =>
    cases conn_of_functor hnext hsub
    exact (Unseen.pop hnext hd).after hd fun _ hu => hu
  | writeComplete hpc hnext hc =>
    cases conn_of_functor hnext hsub
    exact Unseen.pop hnext hd
  | remove hpc hnext hc =>
    cases conn_of_functor hnext hsub
    exact (Unseen.pop hnext hd).removeConnectionInLoop hd _
  | @destroy w e rest _ hpc hnext hc =>
    cases conn_of_functor hnext hsub
    have hpop := Unseen.pop (c := c) hnext hd
    have hcount : Unseen c s ((s.setFunctors l rest).countDestroy e) :=
      ⟨hpop.conns, hpop.loop, hpop.functors, hpop.pcs, hpop.calls⟩
    apply hcount.after hd
    intro u hu
    apply hu.setPc
    rw [hpc]
    exact if_neg hd

theorem newConnection_unseen (hne : s.server.nextConnId_ ≠ c) : Unseen c s s.newConnection := by
  have hserver : Unseen c s { s with server := s.server.newConnection.2 } := by
    refine ⟨rfl, ?_, fun _ => rfl, fun _ => rfl, fun _ => rfl⟩
    rfl
  have hset := hserver.setConn hne s.server.newConnection.1
  unfold newConnection
  dsimp only
  split
  · exact hset.after hne fun _ hu => hu
  · exact hset.queueInLoop (f := .connectEstablished s.server.nextConnId_) hne _

variable [DecidableEq T]

theorem Unseen.setCall (h : Unseen c s t) {o : Caller T L} {call : ServerCall}
    (hcall : call.of c = (s.calls o).of c) : Unseen c s (t.setCall o call) := by
  refine ⟨h.conns, h.loop, h.functors, h.pcs, ?_⟩
  intro o'
  by_cases ho : o' = o
  · subst ho
    simpa [ServerState.setCall] using hcall
  · simpa [ServerState.setCall, ho] using h.calls o'

/-- A step that is about another connection. -/
theorem Moves.unseen {a : ServerAct T L} (hmove : s.Moves a s') (hsub : s.subject a = some d)
    (hd : d ≠ c) : Unseen c s s' := by
  have hrefl := Unseen.refl c s
  cases hmove with
  | newConnection =>
    cases hsub
    exact newConnection_unseen hd
  | sendNot => exact hrefl
  | shutNot => exact hrefl
  | sendTest hmay hc =>
    cases hsub
    exact hrefl.setCall ((of_call_ne rfl hd).trans (of_mayCall hmay).symm)
  | shutTest hmay hc =>
    cases hsub
    exact hrefl.setCall ((of_call_ne rfl hd).trans (of_mayCall hmay).symm)
  | @sendHere o w _ message _ hcall =>
    cases conn_of_call hcall hsub
    apply hrefl.after hd
    intro u hu
    exact hu.setCall (of_call_ne hsub hd).symm
  | @sendPush o w _ message _ hcall =>
    cases conn_of_call hcall hsub
    exact (hrefl.queueInLoop (f := .sendInLoop _ message) hd _).setCall
      (of_call_ne hsub hd).symm
  | @shutSet o _ _ hcall =>
    cases conn_of_call hcall hsub
    exact (hrefl.setConn hd _).setCall ((of_call_ne rfl hd).trans (of_call_ne hsub hd).symm)
  | @shutHere o _ _ hcall =>
    cases conn_of_call hcall hsub
    apply hrefl.after hd
    intro u hu
    exact hu.setCall (of_call_ne hsub hd).symm
  | @shutPush o _ _ hcall =>
    cases conn_of_call hcall hsub
    exact (hrefl.queueInLoop (f := .shutdownInLoop _) hd _).setCall
      (of_call_ne hsub hd).symm
  | loop hidle hmove => exact hmove.unseen hsub hd

/-- The bytes the kernel takes in a step, with the connection. -/
def writes (s : ServerState T L) : ServerAct T L → Option (Nat × List UInt8)
  | .sendRun o w =>
    match s.calls o with
    | .sending c message => (s.conns c).bind fun sc =>
      if o = .loop sc.loop_ then some (c, writtenBy (sc.conn.sendInLoop message w)) else none
    | _ => none
  | .loop l (.callWrite w) =>
    match s.pcs l with
    | .event c _ (.write :: _) _ _ =>
      (s.conns c).map fun sc => (c, writtenBy (sc.conn.handleWrite w))
    | _ => none
  | .loop l (.runFunctor w) =>
    match (s.functors l).next with
    | some (.sendInLoop c message, _) =>
      (s.conns c).map fun sc => (c, writtenBy (sc.conn.sendInLoop message w))
    | _ => none
  | _ => none

/-- The history of a connection after a step. -/
def note (s : ServerState T L) (a : ServerAct T L) (c : Nat) (h : ConnHistory T L) :
    ConnHistory T L where
  accepted :=
    match s.accepts a with
    | some (d, o, message) =>
      if d = c then Function.update h.accepted o (h.accepted o ++ [message]) else h.accepted
    | none => h.accepted
  wire :=
    match s.writes a with
    | some (d, bytes) => if d = c then h.wire ++ bytes else h.wire
    | none => h.wire

/-- A state of the connection's own machine shows what is of the connection. -/
structure Shows (s : ServerState T L) (c : Nat) (sc : ServerConn L) (h : ConnHistory T L)
    (v : ConnState (Caller T L)) : Prop extends s.Housed c sc where
  conn : v.conn = sc.conn
  functors : v.functors.map (·.inServer c) = (s.functors sc.loop_).filter (·.isOf c)
  pc : v.pc = (s.pcs sc.loop_).of c
  calls : ∀ o, v.calls (o.seenFrom sc.loop_) = (s.calls o).of c
  fresh : s.pending sc.loop_ (.connectEstablished c) = v.fresh.toNat
  removals : s.pending s.server.loop_ (.removeConnectionInLoop c) = v.removals
  noFault : v.fault = none
  running : s.fault = none
  accepted : ∀ o, v.accepted (o.seenFrom sc.loop_) = h.accepted o
  own : v.accepted (some (.loop sc.loop_)) = []
  wire : v.wire = h.wire

end ServerState

end Netfish
