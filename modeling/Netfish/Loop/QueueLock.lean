import Netfish.Kit.Sections
import Netfish.Loop.Functors
import Netfish.Loop.Wakeup

/-!
# The mutex of the queue

`queueInLoop` pushes and `doPendingFunctors` swaps under `mutex_`, each in a block with a `MutexLockGuard`. In
`eventLoop` either block is one step; here it is four, and the vector is read and written in two of them. What
holds of the loop holds at this grain too, and no thread stays at the mutex for ever.

`doPendingFunctors` sets `callingPendingFunctors_` before the lock. Only its own thread reads the flag, and
that not before it is out of the block, so the write of the block sets it here as there.
-/

set_option autoImplicit false

namespace Netfish

open Kit

universe u v

variable {T : Type v} {F : Type u}

/-- The thread that takes a step; `none` is the loop's. -/
def LoopAct.thread : LoopAct T F → Option T
  | .push t _ | .wakeup t | .setQuit t | .quitWakeup t => some t
  | _ => none

/-- The step has a block under `mutex_`. -/
def LoopAct.locks : LoopAct T F → Bool
  | .push _ _ | .pushHere _ | .beginFunctors => true
  | _ => false

namespace LoopState

/-- `pendingFunctors_` is overwritten. -/
def setPending (pending : List F) (s : LoopState T F) : LoopState T F :=
  { s with loop := { s.loop with functors := { s.loop.functors with pending } } }

variable [DecidableEq T] {s s' : LoopState T F} {a : LoopAct T F}

theorem pending_of_step (ha : a.locks = false) (hs : s.step a = some s') :
    s'.loop.functors.pending = s.loop.functors.pending := by
  cases step_move hs with
  | push _ | pushHere _ _ | beginFunctors _ => cases ha
  | wakeup _ | quitWakeup _ => rw [EventLoop.wakeup_functors]
  | wakeupHere _ => rw [EventLoop.wakeupFromLoop_functors]
  | runFunctor _ hnext => exact BatchQueue.pending_of_next hnext
  | _ => rfl

section

attribute [local simp] step threadStep callStep loopStep

theorem push_isSome {t : T} {f : F} : (s.step (.push t f)).isSome = true ↔ s.calls t = .idle := by
  simp

theorem pushHere_isSome {f : F} :
    (s.step (.pushHere f)).isSome = true ↔ s.pc.inUserCode = true ∧ s.queueing = false := by
  simp

theorem beginFunctors_isSome : (s.step .beginFunctors).isSome = true ↔ s.pc = .handlers [] := by
  constructor
  · intro h
    obtain ⟨s', hs⟩ := Option.isSome_iff_exists.mp h
    cases step_move hs with
    | beginFunctors hpc => exact hpc
  · intro h
    simp [h]

end

/-- Where a thread stands is its own affair. -/
theorem calls_of_step {t : T} (hne : a.thread ≠ some t) (hs : s.step a = some s') : s'.calls t = s.calls t := by
  cases step_move hs with
  | push _ | wakeup _ | setQuit _ | quitWakeup _ =>
    exact Function.update_of_ne (fun h => hne (congrArg some h.symm)) ..
  | _ => rfl

theorem pc_of_step (hne : a.thread ≠ none) (hs : s.step a = some s') :
    s'.pc = s.pc ∧ s'.queueing = s.queueing := by
  cases step_move hs with
  | push _ | wakeup _ | setQuit _ | quitWakeup _ => exact ⟨rfl, rfl⟩
  | _ => exact absurd rfl hne

end LoopState

variable [DecidableEq T]

/-- The blocks under `mutex_`. -/
def queueSections (T : Type v) (F : Type u) [DecidableEq T] :
    Sections (eventLoop T F) (Option T) (List F) where
  thread := LoopAct.thread
  critical := LoopAct.locks
  get s := s.loop.functors.pending
  put := LoopState.setPending
  put_get _ := rfl
  keeps := LoopState.pending_of_step
  waits := by
    intro s s' a b ha hne hs hsome
    cases a with
    | push t f =>
      refine LoopState.push_isSome.mpr ?_
      rw [LoopState.calls_of_step hne hs]
      exact LoopState.push_isSome.mp hsome
    | pushHere f =>
      obtain ⟨hpc, hqueueing⟩ := LoopState.pc_of_step hne hs
      refine LoopState.pushHere_isSome.mpr ?_
      rw [hpc, hqueueing]
      exact LoopState.pushHere_isSome.mp hsome
    | beginFunctors =>
      refine LoopState.beginFunctors_isSome.mpr ?_
      rw [(LoopState.pc_of_step hne hs).1]
      exact LoopState.beginFunctors_isSome.mp hsome
    | _ => cases ha

/-- A loop and its threads, interleaved between the statements of the blocks under `mutex_`. -/
def lockedLoop (T : Type v) (F : Type u) [DecidableEq T] :
    Machine (Locked (LoopState T F) (LoopAct T F) (Option T) (List F)) (LockedAct (LoopAct T F) (Option T)) :=
  (queueSections T F).locked

variable {s : Locked (LoopState T F) (LoopAct T F) (Option T) (List F)}

/-- **The queue at the grain of its mutex.** Whatever statements of other threads come between the lock, the
reading of the vector, its writing and the unlock, in any run of any number of threads: the loop is in a state
that whole pushes and swaps reach too; the functors pushed are those that ran, the rest of the batch and
`pendingFunctors_`, in this order and none lost; and a loop that is blocked in `poll` with functors pending is
about to be woken. -/
theorem locked_queue (h : (lockedLoop T F).Reachable s) :
    (eventLoop T F).Reachable s.state ∧
      s.state.pushed = s.state.executed ++ (s.state.loop.functors.batch ++ s.state.loop.functors.pending) ∧
      (s.state.pc = .polling → s.state.loop.functors.pending ≠ [] →
        s.state.loop.wakeupFd_ ≠ 0 ∨ ∃ t, s.state.calls t = .pushed) := by
  obtain ⟨hreach, -⟩ := Sections.reachable_of_locked h
  refine ⟨hreach, (LoopState.inOrder_of_reachable hreach).order, ?_⟩
  intro hpc hpending
  apply ((LoopState.awake_of_reachable hreach).served hpending).resolve_right
  simp [LoopState.WillServe, hpc]

/-- A thread has written the vector, and another one is at the mutex. -/
theorem locked_queue_two : ∃ s, (lockedLoop Bool Nat).Reachable s ∧ s.owner = some (some true) ∧
    s.places (some false) = .waiting (.push false 8) ∧ s.state.loop.functors.pending = [7] ∧
    (s.state.loop.wakeupFd_ ≠ 0 ∨ ∃ t, s.state.calls t = .pushed) := by
  have hreach : (lockedLoop Bool Nat).Reachable _ := ⟨⟨.start, none, fun _ => .away⟩, [.plain .enter, .plain .test,
    .call (.push true 7), .lock (some true), .call (.push false 8), .read (some true), .write (some true)],
    ⟨rfl, rfl, rfl⟩, rfl⟩
  exact ⟨_, hreach, rfl, rfl, rfl, (locked_queue hreach).2.2 rfl (List.cons_ne_nil 7 [])⟩

/-- **The mutex of the queue.** In every run: one thread at most is between the lock and the unlock, and none
waits for a mutex that it has. From every state a thread at one of the blocks can come to the end of it, when
whoever is inside goes on and then the thread itself does, in seven statements of these two at most. -/
theorem queue_mutex_passes (h : (lockedLoop T F).Reachable s) :
    (∀ t u, (s.places t).inside = true → (s.places u).inside = true → t = u) ∧
      (∀ t a, s.places t = .waiting a → s.owner ≠ some t) ∧
      ∀ t, s.places t ≠ .away → ∃ acts s', acts.length ≤ 7 ∧
        (∀ act ∈ acts, act.isStatement t ∨ ∃ u, s.owner = some u ∧ act.isStatement u) ∧
        (lockedLoop T F).run s acts = some s' ∧ s'.places t = .away := by
  obtain ⟨-, hexclusive⟩ := Sections.reachable_of_locked h
  refine ⟨fun t u => hexclusive.unique, ?_, fun t => hexclusive.gets_through⟩
  intro t a hplace howner
  have hinside := (hexclusive.owner t).mpr howner
  rw [hplace] at hinside
  cases hinside

/-- The loop's thread comes to its swap while another one pushes. -/
theorem queue_mutex_passes_swap : ∃ s, (lockedLoop Unit Nat).Reachable s ∧ s.owner = some (some ()) ∧
    s.places none = .waiting .beginFunctors ∧
    ∃ acts s', (lockedLoop Unit Nat).run s acts = some s' ∧ s'.places none = .away := by
  have hreach : (lockedLoop Unit Nat).Reachable _ := ⟨⟨.start, none, fun _ => .away⟩, [.plain .enter, .plain .test,
    .plain (.poll []), .call (.push () 7), .call .beginFunctors, .lock (some ()), .read (some ())],
    ⟨rfl, rfl, rfl⟩, rfl⟩
  obtain ⟨acts, s', -, -, hrun, haway⟩ := (queue_mutex_passes hreach).2.2 none (fun h => by cases h)
  exact ⟨_, hreach, rfl, rfl, acts, s', hrun, haway⟩

end Netfish
