import Netfish.Kit.Check
import Netfish.Kit.Machine
import Netfish.Kit.Turns
import Netfish.Net.EventLoopThreadPool

/-!
# Round robin over the loops of a pool

`eventLoopThreadPool` is a pool under its calls, in any order and number. Beside it stands what
`getNextLoop` has returned since the pool was started: the loops in turn, from the first one on
(`Turning`). That gives `round_robin_fair`.
-/

set_option autoImplicit false

namespace Netfish

open Kit

universe u

/-- A call of the pool. `start` comes with the loop that each new thread's `startLoop` returns. -/
inductive PoolAct (L : Type u) where
  | setThreadNum (numThreads : Nat)
  | start (startLoop : Nat → L)
  | getNextLoop

namespace EventLoopThreadPool

variable {L : Type u}

section

variable {pool pool' : EventLoopThreadPool L}

theorem start_spec {startLoop : Nat → L} (h : pool.start startLoop = .ok pool') :
    pool'.loops_ = (List.range pool.numThreads_).map startLoop ∧ pool'.next_ = 0 := by
  unfold start at h
  split at h
  · next hidle =>
    cases h
    obtain ⟨hloops, hnext⟩ := pool.idle hidle
    refine ⟨?_, hnext⟩
    show pool.loops_ ++ _ = _
    rw [hloops, List.nil_append]
  · cases h

theorem getNextLoop_nil (h : pool.loops_ = []) : pool.getNextLoop = (pool.baseLoop_, pool) :=
  dif_pos h

/-- With loops, the one at `next_` is returned, and `next_` moves on by one round the list. -/
theorem getNextLoop_spec (hne : pool.loops_ ≠ []) :
    pool.getNextLoop.1 = pool.loops_.get ⟨pool.next_, pool.next_lt hne⟩ ∧
      pool.getNextLoop.2.loops_ = pool.loops_ ∧
      pool.getNextLoop.2.next_ = (pool.next_ + 1) % pool.loops_.length := by
  have hlt := pool.next_lt hne
  rw [getNextLoop, dif_neg hne]
  refine ⟨rfl, rfl, ?_⟩
  dsimp only
  split
  · next hlast =>
    rw [show pool.next_ + 1 = pool.loops_.length by omega, Nat.mod_self]
  · next hin => rw [Nat.mod_eq_of_lt (by omega)]

/-- What `getNextLoop` returned since `start`, or since the constructor. -/
def seeReturned (returned : List L) (pool : EventLoopThreadPool L) :
    PoolAct L → EventLoopThreadPool L → Option (List L)
  | .setThreadNum _, _ => some returned
  | .start _, _ => some []
  | .getNextLoop, _ => some (returned ++ [pool.getNextLoop.1])

/-- The invariant: the loops are distinct and have been returned in turn, and `next_` is the place of the
next turn. -/
structure Turning (pool : EventLoopThreadPool L) (returned : List L) : Prop where
  distinct : pool.loops_.Nodup
  next : pool.loops_ ≠ [] → pool.next_ = returned.length % pool.loops_.length
  turn : pool.loops_ ≠ [] → returned = turns pool.loops_ returned.length
  base : pool.loops_ = [] → ∀ l ∈ returned, l = pool.baseLoop_

theorem new_turning (baseLoop : L) : (new baseLoop).Turning [] where
  distinct := List.nodup_nil
  next h := absurd rfl h
  turn h := absurd rfl h
  base _ _ hl := absurd hl List.not_mem_nil

end

variable [DecidableEq L]

/-- The threads of a pool are all alive, so their loops are objects of their own. -/
def step (pool : EventLoopThreadPool L) : PoolAct L → Option (EventLoopThreadPool L)
  | .setThreadNum numThreads => some (pool.setThreadNum numThreads)
  | .start startLoop =>
    if ((List.range pool.numThreads_).map startLoop).Nodup then (pool.start startLoop).toOption
    else none
  | .getNextLoop => some pool.getNextLoop.2

/-- Each call keeps it. -/
theorem Turning.step {pool pool' : EventLoopThreadPool L} {returned returned' : List L}
    {a : PoolAct L} (h : pool.Turning returned) (hs : pool.step a = some pool')
    (hsee : pool.seeReturned returned a pool' = some returned') : pool'.Turning returned' := by
  cases a with
  | setThreadNum numThreads =>
    cases hs
    cases hsee
    exact ⟨h.distinct, h.next, h.turn, h.base⟩
  | start startLoop =>
    obtain ⟨hnodup, hs⟩ := Option.ite_none_right_eq_some.mp hs
    obtain ⟨hloops, hnext⟩ := start_spec (toOption_eq_some.mp hs)
    cases hsee
    refine ⟨hloops ▸ hnodup, ?_, fun _ => rfl, fun _ _ hl => absurd hl List.not_mem_nil⟩
    intro _
    rw [hnext, List.length_nil, Nat.zero_mod]
  | getNextLoop =>
    cases hs
    cases hsee
    by_cases hne : pool.loops_ = []
    · rw [getNextLoop_nil hne]
      refine ⟨h.distinct, fun h' => absurd hne h', fun h' => absurd hne h', ?_⟩
      intro _ l hl
      rcases List.mem_append.mp hl with hl | hl
      · exact h.base hne l hl
      · exact List.mem_singleton.mp hl
    · obtain ⟨hloop, hloops, hnext⟩ := getNextLoop_spec hne
      have hat := h.next hne
      refine ⟨hloops ▸ h.distinct, ?_, ?_, fun h' => absurd (hloops ▸ h') hne⟩
      · intro _
        rw [hnext, hloops, hat, List.length_append, List.length_singleton, Nat.mod_add_mod]
      · intro _
        rw [hloops, List.length_append, List.length_singleton, hloop,
          turns_succ (pool.next_lt hne) hat.symm, ← h.turn hne]
        rfl

end EventLoopThreadPool

variable {L : Type u} [DecidableEq L]

/-- A pool under its calls, with the loops it has returned since it was started. -/
def eventLoopThreadPool (L : Type u) [DecidableEq L] :
    Machine (EventLoopThreadPool L × List L) (PoolAct L) :=
  Machine.observe
    { init := fun pool => ∃ baseLoop, pool = .new baseLoop
      step := EventLoopThreadPool.step }
    [] EventLoopThreadPool.seeReturned

/-- **Round robin is fair.** After any calls of a pool: with loops started, `next_` is an index of
`loops_`, the call number `k` since the start, from 0 on, returned the loop at `k` modulo their number,
and of any two loops neither was returned more than once more often than the other; with no loop
started, every call returned `baseLoop_`. -/
theorem round_robin_fair {p : EventLoopThreadPool L × List L}
    (h : (eventLoopThreadPool L).Reachable p) :
    (p.1.loops_ ≠ [] → p.1.next_ < p.1.loops_.length ∧
      (∀ k, k < p.2.length → p.2[k]? = p.1.loops_[k % p.1.loops_.length]?) ∧
      ∀ l ∈ p.1.loops_, ∀ l' ∈ p.1.loops_, p.2.count l ≤ p.2.count l' + 1) ∧
    (p.1.loops_ = [] → ∀ l ∈ p.2, l = p.1.baseLoop_) := by
  have hp : p.1.Turning p.2 := by
    apply h.invariant fun p => p.1.Turning p.2
    · rintro ⟨pool, returned⟩ ⟨⟨baseLoop, rfl⟩, rfl⟩
      exact EventLoopThreadPool.new_turning baseLoop
    · intro p a p' hp hs
      obtain ⟨hstep, hsee⟩ := Machine.observe_step.mp hs
      exact hp.step hstep hsee
  refine ⟨?_, hp.base⟩
  intro hne
  have hturn := hp.turn hne
  refine ⟨p.1.next_lt hne, ?_, ?_⟩
  · intro k hk
    rw [hturn]
    exact getElem?_turns hne hk
  · intro l hl l' hl'
    rw [hturn]
    exact count_turns_le hp.distinct hl hl' _

/-- Three loops and five calls. -/
theorem round_robin_fair_three : ∃ p : EventLoopThreadPool Nat × List Nat,
    (eventLoopThreadPool Nat).Reachable p ∧ p.2 = [10, 11, 12, 10, 11] ∧ p.1.next_ = 2 ∧
      p.2.count 10 ≤ p.2.count 12 + 1 := by
  have hreach : (eventLoopThreadPool Nat).Reachable _ := ⟨(.new 0, []),
    [.setThreadNum 3, .start (· + 10), .getNextLoop, .getNextLoop, .getNextLoop, .getNextLoop,
      .getNextLoop], ⟨⟨0, rfl⟩, rfl⟩, rfl⟩
  have hfair := ((round_robin_fair hreach).1 (by decide)).2.2
  exact ⟨_, hreach, rfl, rfl, hfair 10 (by decide) 12 (by decide)⟩

end Netfish
