import Netfish.Loop.EventLoop

/-!
# No lost wakeup

A loop blocked in `poll` with functors pending is about to be woken: the eventfd is readable, or the
thread that pushed has its write still ahead. `Awake` is the invariant behind it. Off `poll` the loop
may owe a swap instead, since every handler comes before the next `doPendingFunctors`.
-/

set_option autoImplicit false

namespace Netfish

open Kit

universe u v

namespace LoopState

variable {T : Type v} {F : Type u} {s : LoopState T F}

/-- The next `poll` returns at once, or a thread is between its push and its wakeup. -/
def Signalled (s : LoopState T F) : Prop := s.loop.wakeupFd_ ≠ 0 ∨ ∃ t, s.calls t = .pushed

/-- The loop thread swaps `pendingFunctors_` or writes the eventfd before it polls again. -/
def WillServe (s : LoopState T F) : Prop :=
  (∃ active, s.pc = .handlers active ∨ s.pc = .handler active) ∨
    s.pc = .functor ∧ s.queueing = true

/-- The invariant. -/
structure Awake (s : LoopState T F) : Prop where
  calling : s.pc = .batch ∨ s.pc = .functor → s.loop.callingPendingFunctors_ = true
  queueing : s.queueing = true → s.pc.inUserCode = true
  served : s.loop.functors.pending ≠ [] → s.Signalled ∨ s.WillServe

theorem awake_start : (start : LoopState T F).Awake where
  calling h := by rcases h with h | h <;> cases h
  queueing h := by cases h
  served h := absurd rfl h

theorem inUserCode_cases {pc : LoopPc} (h : pc.inUserCode = true) :
    (∃ active, pc = .handler active) ∨ pc = .functor := by
  cases pc with
  | handler active => exact .inl ⟨active, rfl⟩
  | functor => exact .inr rfl
  | _ => cases h

/-- The loop thread pushes inside a handler or a functor, and either is served in time. -/
theorem willServe_of_queueing (hq : s.queueing = true) (hpc : s.pc.inUserCode = true) :
    s.WillServe := by
  rcases inUserCode_cases hpc with ⟨active, h⟩ | h
  · exact .inl ⟨active, .inr h⟩
  · exact .inr ⟨h, hq⟩

variable [DecidableEq T]

/-- The step of a thread that had not pushed leaves the other threads' wakeups due. -/
theorem signalled_update {t : T} {c : CallPc} (ht : s.calls t ≠ .pushed)
    {calls : T → CallPc} (hc : calls = Function.update s.calls t c)
    (h : ∃ t, s.calls t = .pushed) : ∃ t, calls t = .pushed := by
  obtain ⟨u, hu⟩ := h
  refine ⟨u, ?_⟩
  have hne : u ≠ t := fun e => ht (e ▸ hu)
  rw [hc, Function.update_of_ne hne, hu]

/-- Each step keeps the invariant. -/
theorem Awake.step {s' : LoopState T F} {a : LoopAct T F} (h : s.Awake)
    (hs : s.step a = some s') : s'.Awake := by
  cases step_move hs with
  | @push t f hc =>
    exact ⟨h.calling, h.queueing, fun _ => .inl (.inr ⟨t, Function.update_self ..⟩)⟩
  | wakeup hc =>
    exact ⟨fun hp => by simpa using h.calling hp, h.queueing,
      fun _ => .inl (.inl s.loop.wakeup_readable)⟩
  | setQuit hc =>
    refine ⟨h.calling, h.queueing, ?_⟩
    intro hp
    rcases h.served hp with (hw | ht) | hw
    · exact .inl (.inl hw)
    · exact .inl (.inr (signalled_update (by rw [hc]; decide) rfl ht))
    · exact .inr hw
  | quitWakeup hc =>
    exact ⟨fun hp => by simpa using h.calling hp, h.queueing,
      fun _ => .inl (.inl s.loop.wakeup_readable)⟩
  | enter hpc | leave hpc | again hpc =>
    -- outside the handlers and functors nothing is owed but a signal
    refine ⟨by simp, ?_, ?_⟩
    · intro hq
      simpa [hpc, LoopPc.inUserCode] using h.queueing hq
    · intro hp
      refine .inl ((h.served hp).resolve_right ?_)
      simp [WillServe, hpc]
  | poll hpc =>
    refine ⟨by simp, ?_, fun _ => .inr (.inl ⟨_, .inl rfl⟩)⟩
    intro hq
    simpa [hpc, LoopPc.inUserCode] using h.queueing hq
  | handleRead hpc =>
    refine ⟨by simp, ?_, fun _ => .inr (.inl ⟨_, .inl rfl⟩)⟩
    intro hq
    simpa [hpc, LoopPc.inUserCode] using h.queueing hq
  | handleOther hpc =>
    exact ⟨by simp, fun _ => rfl, fun _ => .inr (.inl ⟨_, .inr rfl⟩)⟩
  | handlerReturns hpc hq =>
    exact ⟨by simp, fun hq' => absurd (hq ▸ hq') (by decide),
      fun _ => .inr (.inl ⟨_, .inl rfl⟩)⟩
  | beginFunctors hpc =>
    refine ⟨fun _ => rfl, ?_, fun hp => absurd rfl hp⟩
    intro hq
    simpa [hpc, LoopPc.inUserCode] using h.queueing hq
  | runFunctor hpc hn =>
    refine ⟨fun _ => h.calling (.inl hpc), fun _ => rfl, ?_⟩
    intro hp
    rw [BatchQueue.pending_of_next hn] at hp
    exact .inl ((h.served hp).resolve_right (by simp [WillServe, hpc]))
  | functorReturns hpc hq =>
    refine ⟨fun _ => h.calling (.inr hpc), fun hq' => absurd (hq ▸ hq') (by decide), ?_⟩
    intro hp
    exact .inl ((h.served hp).resolve_right (by simp [WillServe, hpc, hq]))
  | endFunctors hpc =>
    refine ⟨by simp, ?_, ?_⟩
    · intro hq
      simpa [hpc, LoopPc.inUserCode] using h.queueing hq
    · intro hp
      exact .inl ((h.served hp).resolve_right (by simp [WillServe, hpc]))
  | pushHere hpc hq =>
    exact ⟨h.calling, fun _ => hpc, fun _ => .inr (willServe_of_queueing rfl hpc)⟩
  | wakeupHere hq =>
    refine ⟨fun hp => by simpa using h.calling hp, fun hq' => Bool.noConfusion hq', ?_⟩
    intro _
    rcases inUserCode_cases (h.queueing hq) with ⟨active, hpc⟩ | hpc
    · exact .inr (.inl ⟨active, .inr hpc⟩)
    · -- inside a functor the flag is set, so the push is signalled
      refine .inl (.inl ?_)
      simpa [EventLoop.wakeupFromLoop, h.calling (.inr hpc)] using s.loop.wakeup_readable
  | quitHere hpc hq => exact ⟨h.calling, h.queueing, h.served⟩

theorem awake_of_reachable (h : (eventLoop T F).Reachable s) : s.Awake :=
  h.invariant Awake (by rintro _ rfl; exact awake_start) fun _ _ _ => Awake.step

end LoopState

variable {T : Type v} {F : Type u} [DecidableEq T] {s : LoopState T F}

/-- **No lost wakeup.** Whenever the loop thread is blocked in `poll` and functors are pending, the
eventfd is readable or another thread is between its push and its wakeup. -/
theorem no_lost_wakeup (h : (eventLoop T F).Reachable s) (hpc : s.pc = .polling)
    (hp : s.loop.functors.pending ≠ []) :
    s.loop.wakeupFd_ ≠ 0 ∨ ∃ t, s.calls t = .pushed :=
  ((LoopState.awake_of_reachable h).served hp).resolve_right (by simp [LoopState.WillServe, hpc])

/-- A thread pushes while the loop is blocked in `poll`. -/
theorem no_lost_wakeup_push :
    ∃ s : LoopState Unit Nat, (eventLoop Unit Nat).Reachable s ∧ s.pc = .polling ∧
      s.loop.functors.pending = [7] ∧ s.loop.wakeupFd_ = 0 ∧
      (s.loop.wakeupFd_ ≠ 0 ∨ ∃ t, s.calls t = .pushed) := by
  refine ⟨_, ⟨.start, [.enter, .test, .push () 7], rfl, rfl⟩, rfl, rfl, rfl, ?_⟩
  exact no_lost_wakeup (s := _) ⟨.start, [.enter, .test, .push () 7], rfl, rfl⟩ rfl
    (List.cons_ne_nil 7 [])

end Netfish
