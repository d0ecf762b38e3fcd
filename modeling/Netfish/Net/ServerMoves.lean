import Netfish.Net.ServerLife

/-!
# What a step of a server does

The inversion of `ServerState.step`: `LoopMoves` for the thread of a loop, `Moves` for all.
-/

set_option autoImplicit false

namespace Netfish

open Kit

universe u v

namespace ServerState

variable {T : Type u} {L : Type v} [DecidableEq L]

/-- What a step of the thread of the loop does. -/
inductive LoopMoves (s : ServerState T L) (l : L) : IoLoopStep → ServerState T L → Prop
  | poll {active : List (Nat × Events)} (hpc : s.pcs l = .idle) (hnodup : (active.map Prod.fst).Nodup)
      (hrep : active.all (s.MayReport l) = true) :
      LoopMoves s l (.poll active) (s.setPc l (.handlers active))
  | handleEvent {c : Nat} {revents : Events} {active : List (Nat × Events)}
      (hpc : s.pcs l = .handlers ((c, revents) :: active)) : LoopMoves s l .handleEvent
        (s.setPc l (.event c revents (Channel.handleEvent revents) false active))
  | callClose {c : Nat} {revents : Events} {todo : List ChannelCallback} {inMessage : Bool}
      {active : List (Nat × Events)} {sc : ServerConn L}
      (hpc : s.pcs l = .event c revents (.close :: todo) inMessage active)
      (hc : s.conns c = some sc) : LoopMoves s l .callClose
        (s.after c sc sc.conn.handleClose (·.setPc l (.event c revents todo false active)))
  | callError {c : Nat} {revents : Events} {todo : List ChannelCallback} {inMessage : Bool}
      {active : List (Nat × Events)} {sc : ServerConn L}
      (hpc : s.pcs l = .event c revents (.error :: todo) inMessage active)
      (hc : s.conns c = some sc) : LoopMoves s l .callError
        (s.after c sc sc.conn.handleError (·.setPc l (.event c revents todo false active)))
  | callRead {r : ReadResult} {c : Nat} {revents : Events} {todo : List ChannelCallback}
      {inMessage : Bool} {active : List (Nat × Events)} {sc : ServerConn L}
      (hpc : s.pcs l = .event c revents (.read :: todo) inMessage active)
      (hc : s.conns c = some sc) : LoopMoves s l (.callRead r)
        (s.after c sc (sc.conn.handleRead r) (·.setPc l
          (.event c revents todo (r = .data && sc.conn.messageCallback_) active)))
  | callWrite {w : WriteResult} {c : Nat} {revents : Events} {todo : List ChannelCallback}
      {inMessage : Bool} {active : List (Nat × Events)} {sc : ServerConn L}
      (hpc : s.pcs l = .event c revents (.write :: todo) inMessage active)
      (hc : s.conns c = some sc) (hw : w.Within sc.conn.outputBuffer_.length) :
      LoopMoves s l (.callWrite w)
        (s.after c sc (sc.conn.handleWrite w) (·.setPc l (.event c revents todo false active)))
  | eventDone {c : Nat} {revents : Events} {inMessage : Bool} {active : List (Nat × Events)}
      (hpc : s.pcs l = .event c revents [] inMessage active) :
      LoopMoves s l .eventDone (s.setPc l (.handlers active))
  | beginFunctors (hpc : s.pcs l = .handlers []) : LoopMoves s l .beginFunctors
      ((s.setFunctors l (s.functors l).swap).setPc l .batch)
  | establish {w : WriteResult} {c : Nat} {rest : BatchQueue ServerFunctor} {sc : ServerConn L}
      (hpc : s.pcs l = .batch) (hnext : (s.functors l).next = some (.connectEstablished c, rest))
      (hc : s.conns c = some sc) : LoopMoves s l (.runFunctor w)
        ((s.setFunctors l rest).after c sc sc.conn.connectEstablished id)
  | send {w : WriteResult} {c : Nat} {message : List UInt8} {rest : BatchQueue ServerFunctor}
      {sc : ServerConn L} (hpc : s.pcs l = .batch)
      (hnext : (s.functors l).next = some (.sendInLoop c message, rest))
      (hc : s.conns c = some sc) (hw : w.Within message.length) : LoopMoves s l (.runFunctor w)
        ((s.setFunctors l rest).after c sc (sc.conn.sendInLoop message w) id)
  | shutdown {w : WriteResult} {c : Nat} {rest : BatchQueue ServerFunctor} {sc : ServerConn L}
      (hpc : s.pcs l = .batch) (hnext : (s.functors l).next = some (.shutdownInLoop c, rest))
      (hc : s.conns c = some sc) : LoopMoves s l (.runFunctor w)
        ((s.setFunctors l rest).after c sc (.ok (sc.conn, sc.conn.shutdownInLoop)) id)
  | writeComplete {w : WriteResult} {c : Nat} {rest : BatchQueue ServerFunctor} {sc : ServerConn L}
      (hpc : s.pcs l = .batch) (hnext : (s.functors l).next = some (.writeComplete c, rest))
      (hc : s.conns c = some sc) : LoopMoves s l (.runFunctor w) (s.setFunctors l rest)
  | remove {w : WriteResult} {c : Nat} {rest : BatchQueue ServerFunctor} {sc : ServerConn L}
      (hpc : s.pcs l = .batch)
      (hnext : (s.functors l).next = some (.removeConnectionInLoop c, rest))
      (hc : s.conns c = some sc) : LoopMoves s l (.runFunctor w)
        ((s.setFunctors l rest).removeConnectionInLoop c sc)
  | destroy {w : WriteResult} {c : Nat} {rest : BatchQueue ServerFunctor} {sc : ServerConn L}
      (hpc : s.pcs l = .batch) (hnext : (s.functors l).next = some (.connectDestroyed c, rest))
      (hc : s.conns c = some sc) : LoopMoves s l (.runFunctor w)
        (((s.setFunctors l rest).countDestroy c).after c sc sc.conn.beginDestroyed
          (·.setPc l (.destroying c)))
  | endDestroyed {c : Nat} {sc : ServerConn L} (hpc : s.pcs l = .destroying c)
      (hc : s.conns c = some sc) : LoopMoves s l .endDestroyed
        (s.after c sc (sc.conn.endDestroyed.map (·, [])) (·.setPc l .batch))
  | endFunctors (hpc : s.pcs l = .batch) (hbatch : (s.functors l).batch = []) :
      LoopMoves s l .endFunctors (s.setPc l .idle)

theorem runFunctor_moves {s s' : ServerState T L} {l : L} {w : WriteResult} {f : ServerFunctor}
    {rest : BatchQueue ServerFunctor} {sc : ServerConn L} (hpc : s.pcs l = .batch)
    (hnext : (s.functors l).next = some (f, rest)) (hc : s.conns f.conn = some sc)
    (hs : (s.setFunctors l rest).runFunctor l w sc f = some s') : s.LoopMoves l (.runFunctor w) s' := by
  cases f with
  | connectEstablished c => cases hs; exact .establish hpc hnext hc
  | sendInLoop c message =>
    dsimp only [runFunctor] at hs
    split at hs
    · next hw => cases hs; exact .send hpc hnext hc hw
    · cases hs
  | shutdownInLoop c => cases hs; exact .shutdown hpc hnext hc
  | writeComplete c => cases hs; exact .writeComplete hpc hnext hc
  | removeConnectionInLoop c => cases hs; exact .remove hpc hnext hc
  | connectDestroyed c => cases hs; exact .destroy hpc hnext hc

theorem loopStep_moves {s s' : ServerState T L} {l : L} {a : IoLoopStep}
    (hs : s.loopStep l a = some s') : s.LoopMoves l a s' := by
  unfold loopStep at hs
  split at hs
  · next hpc =>
    split at hs
    · next hcond => cases hs; exact .poll hpc hcond.1 hcond.2
    · cases hs
  · next hpc => cases hs; exact .handleEvent hpc
  · next hpc =>
    obtain ⟨sc, hc, rfl⟩ := Option.map_eq_some_iff.mp hs
    exact .callClose hpc hc
  · next hpc =>
    obtain ⟨sc, hc, rfl⟩ := Option.map_eq_some_iff.mp hs
    exact .callError hpc hc
  · next hpc =>
    obtain ⟨sc, hc, rfl⟩ := Option.map_eq_some_iff.mp hs
    exact .callRead hpc hc
  · next hpc =>
    obtain ⟨sc, hc, hs⟩ := Option.bind_eq_some_iff.mp hs
    split at hs
    · next hw => cases hs; exact .callWrite hpc hc hw
    · cases hs
  · next hpc => cases hs; exact .eventDone hpc
  · next hpc => cases hs; exact .beginFunctors hpc
  · next hpc =>
    obtain ⟨⟨f, rest⟩, hnext, hs⟩ := Option.bind_eq_some_iff.mp hs
    obtain ⟨sc, hc, hs⟩ := Option.bind_eq_some_iff.mp hs
    exact runFunctor_moves hpc hnext hc hs
  · next hpc =>
    obtain ⟨sc, hc, rfl⟩ := Option.map_eq_some_iff.mp hs
    exact .endDestroyed hpc hc
  · next hpc =>
    split at hs
    · next hb => cases hs; exact .endFunctors hpc hb
    · cases hs
  · cases hs

variable [DecidableEq T]

/-- What a step does. -/
inductive Moves (s : ServerState T L) : ServerAct T L → ServerState T L → Prop
  | newConnection {active : List (Nat × Events)} (hpc : s.pcs s.server.loop_ = .handlers active)
      (hidle : s.calls (.loop s.server.loop_) = .idle) : Moves s .newConnection s.newConnection
  | sendTest {o : Caller T L} {c : Nat} {message : List UInt8} {sc : ServerConn L}
      (hmay : s.MayCall o = true) (hc : s.conns c = some sc)
      (hstate : sc.conn.state_ = .kConnected) :
      Moves s (.sendTest o c message) (s.setCall o (.sending c message))
  | sendNot {o : Caller T L} {c : Nat} {message : List UInt8} : Moves s (.sendTest o c message) s
  | sendHere {o : Caller T L} {w : WriteResult} {c : Nat} {message : List UInt8} {sc : ServerConn L}
      (hcall : s.calls o = .sending c message) (hc : s.conns c = some sc) (ho : o = .loop sc.loop_)
      (hw : w.Within message.length) : Moves s (.sendRun o w)
        (s.after c sc (sc.conn.sendInLoop message w) (·.setCall o .idle))
  | sendPush {o : Caller T L} {w : WriteResult} {c : Nat} {message : List UInt8} {sc : ServerConn L}
      (hcall : s.calls o = .sending c message) (hc : s.conns c = some sc) (ho : o ≠ .loop sc.loop_) :
      Moves s (.sendRun o w) ((s.queueInLoop sc.loop_ (.sendInLoop c message)).setCall o .idle)
  | shutTest {o : Caller T L} {c : Nat} {sc : ServerConn L} (hmay : s.MayCall o = true)
      (hc : s.conns c = some sc) (hstate : sc.conn.state_ = .kConnected) :
      Moves s (.shutTest o c) (s.setCall o (.shutting c))
  | shutNot {o : Caller T L} {c : Nat} : Moves s (.shutTest o c) s
  | shutSet {o : Caller T L} {c : Nat} {sc : ServerConn L} (hcall : s.calls o = .shutting c)
      (hc : s.conns c = some sc) : Moves s (.shutSet o)
        ((s.setConn c { sc with conn := { sc.conn with state_ := .kDisconnecting } }).setCall o
          (.shut c))
  | shutHere {o : Caller T L} {c : Nat} {sc : ServerConn L} (hcall : s.calls o = .shut c)
      (hc : s.conns c = some sc) (ho : o = .loop sc.loop_) : Moves s (.shutRun o)
        (s.after c sc (.ok (sc.conn, sc.conn.shutdownInLoop)) (·.setCall o .idle))
  | shutPush {o : Caller T L} {c : Nat} {sc : ServerConn L} (hcall : s.calls o = .shut c)
      (hc : s.conns c = some sc) (ho : o ≠ .loop sc.loop_) : Moves s (.shutRun o)
        ((s.queueInLoop sc.loop_ (.shutdownInLoop c)).setCall o .idle)
  | loop {l : L} {a : IoLoopStep} {s' : ServerState T L} (hidle : s.calls (.loop l) = .idle)
      (hmove : s.LoopMoves l a s') : Moves s (.loop l a) s'

/-- The inversion of a step. -/
theorem step_moves {s s' : ServerState T L} {a : ServerAct T L} (hs : s.step a = some s') :
    s.fault = none ∧ s.Moves a s' := by
  unfold step at hs
  split at hs
  · cases hs
  · next hfault =>
    refine ⟨by simpa using hfault, ?_⟩
    cases a with
    | newConnection =>
      dsimp only at hs
      split at hs
      · next hpc =>
        split at hs
        · next hidle => cases hs; exact .newConnection hpc hidle
        · cases hs
      · cases hs
    | sendTest o c message =>
      dsimp only at hs
      split at hs
      · next hmay =>
        obtain ⟨sc, hc, rfl⟩ := Option.map_eq_some_iff.mp hs
        split
        · next hstate => exact .sendTest hmay hc hstate
        · exact .sendNot
      · cases hs
    | sendRun o w =>
      dsimp only at hs
      split at hs
      · next hcall =>
        obtain ⟨sc, hc, hs⟩ := Option.bind_eq_some_iff.mp hs
        unfold sendRun at hs
        split at hs
        · next ho =>
          split at hs
          · next hw => cases hs; exact .sendHere hcall hc ho hw
          · cases hs
        · next ho => cases hs; exact .sendPush hcall hc ho
      · cases hs
    | shutTest o c =>
      dsimp only at hs
      split at hs
      · next hmay =>
        obtain ⟨sc, hc, rfl⟩ := Option.map_eq_some_iff.mp hs
        split
        · next hstate => exact .shutTest hmay hc hstate
        · exact .shutNot
      · cases hs
    | shutSet o =>
      dsimp only at hs
      split at hs
      · next hcall =>
        obtain ⟨sc, hc, rfl⟩ := Option.map_eq_some_iff.mp hs
        exact .shutSet hcall hc
      · cases hs
    | shutRun o =>
      dsimp only at hs
      split at hs
      · next hcall =>
        obtain ⟨sc, hc, rfl⟩ := Option.map_eq_some_iff.mp hs
        unfold shutRun
        split
        · next ho => exact .shutHere hcall hc ho
        · next ho => exact .shutPush hcall hc ho
      · cases hs
    | loop l a =>
      dsimp only at hs
      split at hs
      · next hidle => exact .loop hidle (loopStep_moves hs)
      · cases hs

end ServerState

end Netfish
