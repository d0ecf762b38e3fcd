import Mathlib.Data.List.Basic

/-!
# EventLoopThreadPool

The io loops of a server and the round robin over them. The index `next_` carries its bound: it is
inside `loops_` whenever there are loops.
-/

set_option autoImplicit false

namespace Netfish

universe u

inductive PoolFault where
  /-- `assert(!started_)` -/
  | started
deriving DecidableEq, Repr

structure EventLoopThreadPool (L : Type u) where
  baseLoop_ : L
  started_ : Bool
  numThreads_ : Nat
  next_ : Nat
  loops_ : List L
  next_lt : loops_ ≠ [] → next_ < loops_.length
  idle : started_ = false → loops_ = [] ∧ next_ = 0

namespace EventLoopThreadPool

variable {L : Type u}

def new (baseLoop : L) : EventLoopThreadPool L where
  baseLoop_ := baseLoop
  started_ := false
  numThreads_ := 0
  next_ := 0
  loops_ := []
  next_lt h := absurd rfl h
  idle _ := ⟨rfl, rfl⟩

def setThreadNum (pool : EventLoopThreadPool L) (numThreads : Nat) : EventLoopThreadPool L :=
  { pool with numThreads_ := numThreads }

/-- `start`; the argument gives the loop that each new thread's `startLoop` returns. -/
def start (pool : EventLoopThreadPool L) (startLoop : Nat → L) :
    Except PoolFault (EventLoopThreadPool L) :=
  if h : pool.started_ = false then
    .ok { pool with
      started_ := true
      loops_ := pool.loops_ ++ (List.range pool.numThreads_).map startLoop
      next_lt := fun hne => by
        rw [(pool.idle h).2]
        exact List.length_pos_iff.mpr hne
      idle := nofun }
  else .error .started

/-- `getNextLoop`: the loop for the next connection. -/
def getNextLoop (pool : EventLoopThreadPool L) : L × EventLoopThreadPool L :=
  if h : pool.loops_ = [] then (pool.baseLoop_, pool)
  else
    (pool.loops_.get ⟨pool.next_, pool.next_lt h⟩, { pool with
      next_ := if pool.next_ + 1 ≥ pool.loops_.length then 0 else pool.next_ + 1
      next_lt := fun hne => by
        have hpos := List.length_pos_iff.mpr hne
        split <;> omega
      idle := fun hstarted => absurd (pool.idle hstarted).1 h })

end EventLoopThreadPool

end Netfish
