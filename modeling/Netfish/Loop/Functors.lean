import Netfish.Loop.EventLoop

/-!
# Queued functors

Functors run exactly once and in the order of the mutex: what was pushed is what ran, then the rest
of the batch, then `pendingFunctors_`. A batch is closed when it is swapped out, so a functor pushed
during it waits for the next.
-/

set_option autoImplicit false

namespace Netfish

open Kit

universe u v

namespace LoopState

variable {T : Type v} {F : Type u} {s : LoopState T F}

/-- The functors that ran, and those the current batch is still going to run. -/
def closed (s : LoopState T F) : List F := s.executed ++ s.loop.functors.batch

/-- The invariant. A batch is swapped out only when the one before it is worked off. -/
structure InOrder (s : LoopState T F) : Prop where
  order : s.pushed = s.executed ++ s.loop.functors.toList
  worked : s.pc ≠ .batch → s.pc ≠ .functor → s.loop.functors.batch = []

theorem inOrder_start : (start : LoopState T F).InOrder := ⟨rfl, fun _ _ => rfl⟩

/-- A push adds the functor to both ends of the equation. -/
theorem InOrder.push (h : s.InOrder) (f : F) :
    s.pushed ++ [f] = s.executed ++ (s.loop.pushFunctor f).functors.toList := by
  rw [h.order, EventLoop.pushFunctor, BatchQueue.toList_push, List.append_assoc]

variable [DecidableEq T]

/-- Each step keeps the order. -/
theorem InOrder.step {s' : LoopState T F} {a : LoopAct T F} (h : s.InOrder)
    (hs : s.step a = some s') : s'.InOrder := by
  cases step_move hs with
  | @push t f hc => exact ⟨h.push f, h.worked⟩
  | @pushHere f hpc hq => exact ⟨h.push f, h.worked⟩
  | wakeup hc | quitWakeup hc | wakeupHere hc => exact ⟨by simp [h.order], by simpa using h.worked⟩
  | setQuit hc => exact ⟨h.order, h.worked⟩
  | quitHere hpc hq => exact ⟨h.order, h.worked⟩
  | enter hpc | leave hpc | again hpc | poll hpc | handleRead hpc | handleOther hpc
    | handlerReturns hpc =>
    refine ⟨h.order, fun _ _ => h.worked ?_ ?_⟩
    all_goals rw [hpc]; exact LoopPc.noConfusion
  | beginFunctors hpc =>
    have hb : s.loop.functors.batch = [] := h.worked (by simp [hpc]) (by simp [hpc])
    refine ⟨?_, fun hp => absurd rfl hp⟩
    rw [h.order, EventLoop.beginFunctors, BatchQueue.toList_swap hb]
  | @runFunctor f rest hpc hn =>
    refine ⟨?_, fun _ hp => absurd rfl hp⟩
    rw [h.order, BatchQueue.toList_of_next hn, List.append_assoc, List.singleton_append]
  | functorReturns hpc hq => exact ⟨h.order, fun hp => absurd rfl hp⟩
  | endFunctors hpc hb => exact ⟨h.order, fun _ _ => hb⟩

theorem inOrder_of_reachable (h : (eventLoop T F).Reachable s) : s.InOrder :=
  h.invariant InOrder (by rintro _ rfl; exact inOrder_start) fun _ _ _ => InOrder.step

/-- Only a swap adds to the functors that ran or are in the batch. -/
theorem closed_step {s' : LoopState T F} {a : LoopAct T F} (hs : s.step a = some s')
    (ha : a ≠ .beginFunctors) : s'.closed = s.closed := by
  cases step_move hs with
  | beginFunctors hpc => exact absurd rfl ha
  | runFunctor hpc hn => simp [closed, (BatchQueue.next_eq_some.mp hn).1]
  | wakeup hc | quitWakeup hc | wakeupHere hc => simp [closed]
  | _ => rfl

theorem closed_run {s' : LoopState T F} {as : List (LoopAct T F)}
    (hr : (eventLoop T F).run s as = some s') (ha : .beginFunctors ∉ as) :
    s'.closed = s.closed := by
  induction as generalizing s with
  | nil => cases hr; rfl
  | cons a as ih =>
    obtain ⟨t, ht, hr⟩ := Machine.run_cons_eq_some.mp hr
    obtain ⟨hne, hnot⟩ := not_or.mp (mt List.mem_cons.mpr ha)
    rw [ih hr hnot, closed_step ht (Ne.symm hne)]

end LoopState

variable {T : Type v} {F : Type u} [DecidableEq T] {s : LoopState T F}

/-- **Queued functors run exactly once, in order.** In every reachable state the functors pushed are
those that ran, then the rest of the batch, then `pendingFunctors_`. And whatever happens from there
up to the next swap, only functors pushed before run: one that is pushed inside a batch is not
reached by that batch. -/
theorem functors_run_once_in_order (h : (eventLoop T F).Reachable s) :
    s.pushed = s.executed ++ s.loop.functors.batch ++ s.loop.functors.pending ∧
      ∀ as s', (eventLoop T F).run s as = some s' → .beginFunctors ∉ as →
        s'.executed <+: s.pushed := by
  have hs : s.pushed = s.closed ++ s.loop.functors.pending := by
    rw [(LoopState.inOrder_of_reachable h).order, LoopState.closed, List.append_assoc]
    rfl
  refine ⟨hs, ?_⟩
  intro as s' hr ha
  have hc : s.closed <+: s.pushed := hs ▸ List.prefix_append ..
  rw [← LoopState.closed_run hr ha] at hc
  exact (List.prefix_append ..).trans hc

/-- A functor that pushes another one: the batch ends with only the first run. -/
theorem functors_run_once_in_order_nested :
    ∃ s s' : LoopState Unit Nat, (eventLoop Unit Nat).Reachable s ∧ s.pushed = [1] ∧
      (eventLoop Unit Nat).run s [.pushHere 2, .wakeupHere, .functorReturns, .endFunctors] =
        some s' ∧
      s'.pushed = [1, 2] ∧ s'.executed <+: s.pushed := by
  refine ⟨_, _, ⟨.start, [.enter, .test, .push () 1, .wakeup (), .poll [.wakeup], .handleEvent,
    .beginFunctors, .runFunctor], rfl, rfl⟩, rfl, rfl, rfl, ?_⟩
  exact (functors_run_once_in_order (T := Unit) (F := Nat) (s := _)
    ⟨.start, [.enter, .test, .push () 1, .wakeup (), .poll [.wakeup], .handleEvent,
      .beginFunctors, .runFunctor], rfl, rfl⟩).2
    [.pushHere 2, .wakeupHere, .functorReturns, .endFunctors] _ rfl (by simp)

end Netfish
