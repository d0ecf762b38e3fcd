import Netfish.Loop.EventLoopThread

/-!
# The quit request of an EventLoopThread

`~EventLoopThread` calls `quit` on a loop that another thread runs, in three steps: the assignment of
`quit_`, the test of `isInLoopThread()`, the write to the eventfd. `loop()` assigns `quit_` too, when it
is entered, and the loop lives on the stack of `threadFunc`, which ends once `quit_` is read as true. So
the request can be lost when it comes before the entry, and the loop can be gone before the write.
-/

set_option autoImplicit false

namespace Netfish

open Kit

universe u v

/-! ## `quit_` and the eventfd inside `loop()` -/

namespace EventLoop

variable {F : Type u}

@[simp] theorem wakeup_quit (l : EventLoop F) : l.wakeup.quit_ = l.quit_ := by
  unfold wakeup
  split <;> rfl

@[simp] theorem wakeupFromLoop_quit (l : EventLoop F) : l.wakeupFromLoop.quit_ = l.quit_ := by
  unfold wakeupFromLoop
  split <;> simp

end EventLoop

namespace LoopMove

variable {T : Type v} {F : Type u} [DecidableEq T] {s s' : LoopState T F} {a : LoopAct T F}

/-- Only the entry of `loop()` takes `quit_` back. -/
theorem quit_stays (h : LoopMove s a s') (ha : a.isEnter = false) (hquit : s.loop.quit_ = true) :
    s'.loop.quit_ = true := by
  cases h with
  | enter => cases ha
  | setQuit | quitHere => rfl
  | wakeup | quitWakeup | wakeupHere => simpa using hquit
  | _ => exact hquit

/-- `quit_` becomes true by a call of `quit` only. -/
theorem quit_of_quit (h : LoopMove s a s')
    (ha : (LoopThreadAct.inLoop a).quitsElsewhere = false) (hquit : s'.loop.quit_ = true) :
    s.loop.quit_ = true := by
  cases h with
  | enter => cases hquit
  | setQuit | quitHere => cases ha
  | wakeup | quitWakeup | wakeupHere => simpa using hquit
  | _ => exact hquit

/-- The loop thread comes out of `loop()` with `quit_` set. -/
theorem quit_of_outside (h : LoopMove s a s') (ha : a.isEnter = false)
    (hout : s.pc = .outside → s.loop.quit_ = true) (hpc : s'.pc = .outside) :
    s'.loop.quit_ = true := by
  by_cases hwas : s.pc = .outside
  · exact h.quit_stays ha (hout hwas)
  · cases h with
    | leave _ hquit => exact hquit
    | push | wakeup | setQuit | quitWakeup | pushHere | wakeupHere | quitHere =>
      exact absurd hpc hwas
    | _ => cases hpc

/-- With `quit_` set, `poll` isn't called again, and what waits in it stays woken. -/
theorem polling_of_quit (h : LoopMove s a s') (hquit : s.loop.quit_ = true)
    (hwoken : s.pc = .polling → s.loop.wakeupFd_ ≠ 0) (hpc : s'.pc = .polling) :
    s'.loop.wakeupFd_ ≠ 0 := by
  cases h with
  | push | setQuit => exact hwoken hpc
  | wakeup | quitWakeup => exact s.loop.wakeup_readable
  | again _ hfalse => cases hfalse.symm.trans hquit
  | pushHere huser | quitHere huser =>
    have hp : s.pc = .polling := hpc
    rw [hp] at huser
    cases huser
  | wakeupHere =>
    unfold EventLoop.wakeupFromLoop
    split
    · exact s.loop.wakeup_readable
    · exact hwoken hpc
  | _ => cases hpc

end LoopMove

namespace LoopThreadState

variable {T : Type v} {F : Type u}

/-! ## What is promised, and when it is kept -/

/-- From the assignment in `quit` on, `quit_` is true; once `quit` has returned, a `poll` that has not
returned is woken. -/
structure QuitKept (s : LoopThreadState T F) : Prop where
  stays : s.owner.hasQuit = true → s.inner.loop.quit_ = true
  woken : s.owner = .joining ∨ s.owner = .joined → s.inner.pc = .polling → s.inner.loop.wakeupFd_ ≠ 0

/-- `loop()` is entered before `~EventLoopThread` assigns `quit_`. -/
def EntersFirst (s : LoopThreadState T F) (a : LoopThreadAct T F) : Prop :=
  a = .enter → s.owner.hasQuit = false

/-- From the return of `startLoop` to the write of `quit`, the loop exists and its eventfd is open. -/
def QuitOnLive (s : LoopThreadState T F) : Prop :=
  s.owner.willUse = true → s.func.loopAlive = true ∧ s.func.wakeupFdOpen = true

/-- `~EventLoop` does not begin between the return of `startLoop` and the write of `quit`, and
`startLoop` does not return a loop that is gone. -/
def EndsOutsideQuit (s : LoopThreadState T F) (a : LoopThreadAct T F) : Prop :=
  (a = .close → s.owner.willUse = false) ∧
    (a = .testLoop → s.loop_ = true → s.func.wakeupFdOpen = true)

/-- `~EventLoop` does not begin between the assignment and the write of `quit`. -/
def EndsOutsideWindow (s : LoopThreadState T F) (a : LoopThreadAct T F) : Prop :=
  a = .close → s.owner.midQuit = false

/-- What holds while nobody but `~EventLoopThread` calls `quit`. -/
structure SoleQuit (s : LoopThreadState T F) : Prop where
  unborn : s.owner = .built → s.func = .unborn
  published : s.loop_ = true → s.func.serves = true ∨ s.func = .closed ∨ s.func = .finished
  asked : s.inner.loop.quit_ = true → s.owner.hasQuit = true
  outside : s.func = .looping → s.inner.pc = .outside → s.inner.loop.quit_ = true
  ended : s.func = .left ∨ s.func = .closed ∨ s.func = .finished → s.inner.loop.quit_ = true

theorem quitKept_start : (start : LoopThreadState T F).QuitKept where
  stays h := by cases h
  woken h := by rcases h with h | h <;> cases h

theorem soleQuit_start : (start : LoopThreadState T F).SoleQuit where
  unborn _ := rfl
  published h := by cases h
  asked h := by cases h
  outside h := by cases h
  ended h := by rcases h with h | h | h <;> cases h

variable {s s' : LoopThreadState T F} {a : LoopThreadAct T F}

/-- A destructor that begins in the window breaks the promise however `quit` was called. -/
theorem EndsOutsideQuit.window (h : s.EndsOutsideQuit a) : s.EndsOutsideWindow a := by
  intro ha
  have huse := h.1 ha
  cases ho : s.owner with
  | quitSet | waking =>
    rw [ho] at huse
    cases huse
  | _ => rfl

variable [DecidableEq T]

/-! ## The request stays -/

theorem QuitKept.step (h : s.QuitKept) (hok : s.EntersFirst a) (hs : LoopThreadMove s a s') :
    s'.QuitKept := by
  cases hs with
  | threadStart | startReturns | wait | waitReturns =>
    exact ⟨fun hq => (by cases hq), fun hq => (by rcases hq with hq | hq <;> cases hq)⟩
  | setQuit => exact ⟨fun _ => rfl, fun hq => (by rcases hq with hq | hq <;> cases hq)⟩
  | testThread hpc =>
    exact ⟨fun _ => h.stays (by rw [hpc]; rfl), fun hq => (by rcases hq with hq | hq <;> cases hq)⟩
  | writeWakeup hpc =>
    refine ⟨?_, fun _ _ => s.inner.loop.wakeup_readable⟩
    intro _
    simpa using h.stays (by rw [hpc]; rfl)
  | join hpc => exact ⟨fun _ => h.stays (by rw [hpc]; rfl), fun _ => h.woken (.inl hpc)⟩
  | enter _ hmove =>
    have hnot := hok rfl
    refine ⟨fun hq => absurd (hq.symm.trans hnot) (by decide), ?_⟩
    rintro (hq | hq) -
    all_goals
      rw [hq] at hnot
      cases hnot
  | inLoop _ ha hmove =>
    refine ⟨fun hq => hmove.quit_stays ha (h.stays hq), ?_⟩
    intro hq
    refine hmove.polling_of_quit (h.stays ?_) (h.woken hq)
    rcases hq with hq | hq <;> (rw [hq]; rfl)
  | construct | publish | loopReturns | close | destroy => exact ⟨h.stays, h.woken⟩

/-- Entering `loop()` after the assignment of `quit` undoes it. -/
theorem QuitKept.breaks (hok : ¬ s.EntersFirst a) (hs : LoopThreadMove s a s') : ¬ s'.QuitKept := by
  simp only [EntersFirst, Classical.not_imp, Bool.not_eq_false] at hok
  obtain ⟨rfl, hquit⟩ := hok
  cases hs with
  | enter _ hmove =>
    intro hgood
    have htrue := hgood.stays hquit
    cases hmove
    cases htrue

/-- The next test of `while (!quit_)` leaves the loop. -/
theorem QuitKept.leaves (h : s.QuitKept) (hquit : s.owner.hasQuit = true)
    (hs : LoopThreadMove s (.inLoop .test) s') : s'.inner.pc = .outside := by
  cases hs with
  | inLoop _ _ hmove =>
    cases hmove with
    | leave => rfl
    | again _ hfalse => cases hfalse.symm.trans (h.stays hquit)

/-! ## The loop is there -/

/-- Each step of `quit` that is taken finds the loop alive and its eventfd open. -/
theorem QuitOnLive.quit_step (h : s.QuitOnLive) (hs : LoopThreadMove s a s')
    (ha : a = .setQuit ∨ a = .testThread ∨ a = .writeWakeup) :
    s.func.loopAlive = true ∧ s.func.wakeupFdOpen = true := by
  apply h
  cases hs with
  | setQuit hpc | testThread hpc | writeWakeup hpc =>
    rw [hpc]
    rfl
  | _ => rcases ha with ha | ha | ha <;> cases ha

theorem SoleQuit.step (h : s.SoleQuit) (ha : a.quitsElsewhere = false) (hs : LoopThreadMove s a s') :
    s'.SoleQuit := by
  cases hs with
  | threadStart hpc =>
    have hunborn := h.unborn hpc
    refine ⟨fun ho => (by cases ho), ?_, ?_, fun hf => (by cases hf),
      fun hf => (by rcases hf with hf | hf | hf <;> cases hf)⟩
    · intro hl
      have hno := h.published hl
      rw [hunborn] at hno
      rcases hno with hno | hno | hno <;> cases hno
    · intro hquit
      have hno := h.asked hquit
      rw [hpc] at hno
      cases hno
  | startReturns hpc | wait hpc | waitReturns hpc =>
    refine ⟨fun ho => (by cases ho), h.published, ?_, h.outside, h.ended⟩
    intro hquit
    have hno := h.asked hquit
    rw [hpc] at hno
    cases hno
  | setQuit => exact ⟨fun ho => (by cases ho), h.published, fun _ => rfl, fun _ _ => rfl, fun _ => rfl⟩
  | testThread | join =>
    exact ⟨fun ho => (by cases ho), h.published, fun _ => rfl, h.outside, h.ended⟩
  | writeWakeup =>
    refine ⟨fun ho => (by cases ho), h.published, fun _ => rfl, ?_, ?_⟩
    · simpa using h.outside
    · simpa using h.ended
  | construct hpc =>
    refine ⟨?_, ?_, h.asked, fun hf => (by cases hf),
      fun hf => (by rcases hf with hf | hf | hf <;> cases hf)⟩
    · intro ho
      cases hpc.symm.trans (h.unborn ho)
    · intro hl
      have hno := h.published hl
      rw [hpc] at hno
      rcases hno with hno | hno | hno <;> cases hno
  | publish hpc =>
    refine ⟨?_, fun _ => .inl rfl, h.asked, fun hf => (by cases hf),
      fun hf => (by rcases hf with hf | hf | hf <;> cases hf)⟩
    intro ho
    cases hpc.symm.trans (h.unborn ho)
  | enter hpc hmove =>
    cases hmove with
    | enter =>
      refine ⟨?_, fun _ => .inl rfl, fun hquit => (by cases hquit), fun _ ho => (by cases ho),
        fun hf => (by rcases hf with hf | hf | hf <;> cases hf)⟩
      intro ho
      cases hpc.symm.trans (h.unborn ho)
  | inLoop _ henter hmove =>
    exact ⟨h.unborn, h.published, fun hquit => h.asked (hmove.quit_of_quit ha hquit),
      fun hf => hmove.quit_of_outside henter (h.outside hf),
      fun hf => hmove.quit_stays henter (h.ended hf)⟩
  | loopReturns hpc hout =>
    refine ⟨?_, fun _ => .inl rfl, h.asked, fun hf => (by cases hf), fun _ => h.outside hpc hout⟩
    intro ho
    cases hpc.symm.trans (h.unborn ho)
  | close hpc | destroy hpc =>
    refine ⟨?_, fun _ => by simp, h.asked, fun hf => (by cases hf), fun _ => h.ended (by simp [hpc])⟩
    intro ho
    cases hpc.symm.trans (h.unborn ho)

/-- The assignment in `quit` finds the loop: nobody has told it to end. -/
theorem SoleQuit.endsOutsideQuit (h : s.SoleQuit) (hok : s.EndsOutsideWindow a)
    (hs : LoopThreadMove s a s') : s.EndsOutsideQuit a := by
  constructor
  · rintro rfl
    cases hs with
    | close hpc =>
      have hasked := h.asked (h.ended (.inl hpc))
      have hmid := hok rfl
      cases ho : s.owner with
      | quitSet | waking =>
        rw [ho] at hmid
        cases hmid
      | joining | joined => rfl
      | _ =>
        rw [ho] at hasked
        cases hasked
  · rintro rfl hl
    have hclosed : s.func = .closed ∨ s.func = .finished → s.owner.hasQuit = true :=
      fun hf => h.asked (h.ended (.inr hf))
    rcases h.published hl with hserves | hgone
    · exact FuncPc.open_of_serves hserves
    · have hasked := hclosed hgone
      cases hs with
      | startReturns hpc | wait hpc =>
        rw [hpc] at hasked
        cases hasked

theorem QuitOnLive.step (h : s.QuitOnLive) (hok : s.EndsOutsideQuit a) (hs : LoopThreadMove s a s') :
    s'.QuitOnLive := by
  cases hs with
  | threadStart | wait | waitReturns | writeWakeup | join =>
    intro huse
    cases huse
  | startReturns hpc hl =>
    have hopen := hok.2 rfl hl
    exact fun _ => ⟨FuncPc.alive_of_open hopen, hopen⟩
  | setQuit hpc | testThread hpc => exact fun _ => h (by rw [hpc]; rfl)
  | construct | publish | enter | loopReturns => exact fun _ => ⟨rfl, rfl⟩
  | inLoop => exact h
  | close =>
    intro huse
    cases huse.symm.trans (hok.1 rfl)
  | destroy hpc =>
    intro huse
    have hopen := (h huse).2
    rw [hpc] at hopen
    cases hopen

theorem QuitOnLive.breaks (hok : ¬ s.EndsOutsideQuit a) (hs : LoopThreadMove s a s') :
    ¬ s'.QuitOnLive := by
  intro hgood
  refine hok ⟨?_, ?_⟩
  · rintro rfl
    cases hs with
    | close hpc =>
      rw [← Bool.not_eq_true]
      intro huse
      cases (hgood huse).2
  · rintro rfl hl
    cases hs with
    | startReturns => exact (hgood rfl).2
    | wait _ hno => cases hno.symm.trans hl

end LoopThreadState

variable {T : Type v} {F : Type u} [DecidableEq T] {s : LoopThreadState T F}

/-- **When the quit request is kept.** In a run of `startLoop`, `~EventLoopThread` and `threadFunc`, with any
calls of other threads on the loop: `quit_` stays true from the assignment of `quit` on, and once `quit`
has returned the loop thread does not stay in `poll`, if and only if `loop()` is not entered after that
assignment. -/
theorem quit_kept_iff (h : (eventLoopThread T F).init s) (as : List (LoopThreadAct T F)) :
    (eventLoopThread T F).Along LoopThreadState.QuitKept s as ↔
      (eventLoopThread T F).Guarded LoopThreadState.EntersFirst s as := by
  cases h
  exact Machine.along_iff_guarded LoopThreadState.QuitKept (fun _ h => h)
    (fun _ _ _ h hok hs => h.step hok (LoopThreadState.step_move hs))
    (fun _ _ _ _ hok hs => LoopThreadState.QuitKept.breaks hok (LoopThreadState.step_move hs))
    LoopThreadState.quitKept_start

/-- The request comes while the loop is blocked in `poll`: it is woken, leaves, and is joined. -/
theorem quit_kept_poll : ∃ s : LoopThreadState Unit Unit,
    (eventLoopThread Unit Unit).Reachable s ∧ s.owner = .joined ∧ s.QuitKept := by
  obtain ⟨s, hs, hpc⟩ : ∃ s, (eventLoopThread Unit Unit).run .start ([.threadStart, .construct, .publish,
    .testLoop] ++ .enter :: [.inLoop .test, .setQuit, .testThread, .writeWakeup, .inLoop (.poll [.wakeup]),
    .inLoop .handleEvent, .inLoop .beginFunctors, .inLoop .endFunctors, .inLoop .test, .loopReturns,
    .close, .destroy, .join]) = some s ∧ s.owner = .joined := ⟨_, rfl, rfl⟩
  refine ⟨s, ⟨.start, _, rfl, hs⟩, hpc, ((quit_kept_iff rfl _).mpr ?_).last hs⟩
  refine (Machine.Guarded.of_labels (by simp [LoopThreadState.EntersFirst]) _).append ?_
  rintro t ⟨⟩ u -
  exact ⟨fun _ => rfl, Machine.Guarded.of_labels (by simp [LoopThreadState.EntersFirst]) u⟩

/-- `~EventLoopThread` is through with `quit` before the new thread enters `loop()`, which takes the request
back: the loop polls with `quit_` false while its owner is in `join`. -/
theorem quit_kept_fails : ¬ ∀ s₀ : LoopThreadState Unit Unit, (eventLoopThread Unit Unit).init s₀ →
    ∀ as s, (eventLoopThread Unit Unit).run s₀ as = some s → s.owner = .joining →
      s.inner.pc = .polling → s.inner.loop.quit_ = true := by
  intro hall
  have hquit := hall .start rfl [.threadStart, .construct, .publish, .testLoop, .setQuit, .testThread,
    .writeWakeup, .enter, .inLoop .test] _ rfl rfl rfl
  cases hquit

/-- **When `quit` uses a loop that is there.** In a run of `startLoop`, `~EventLoopThread` and
`threadFunc`, with any calls on the loop: each step of `quit` still to come finds the loop alive and its
eventfd open if and only if `~EventLoop` begins neither before `startLoop` has returned the loop nor
between that and the write to the eventfd. When nobody else calls `quit`, it is enough, and needed, that
it does not begin between the assignment of `quit_` and the write. -/
theorem quit_on_live_iff (h : (eventLoopThread T F).init s) (as : List (LoopThreadAct T F)) :
    ((eventLoopThread T F).Along LoopThreadState.QuitOnLive s as ↔
      (eventLoopThread T F).Guarded LoopThreadState.EndsOutsideQuit s as) ∧
    ((∀ a ∈ as, a.quitsElsewhere = false) →
      ((eventLoopThread T F).Along LoopThreadState.QuitOnLive s as ↔
        (eventLoopThread T F).Guarded LoopThreadState.EndsOutsideWindow s as)) := by
  cases h
  have hstart : (LoopThreadState.start : LoopThreadState T F).QuitOnLive := fun huse => by cases huse
  constructor
  · exact Machine.along_iff_guarded LoopThreadState.QuitOnLive (fun _ h => h)
      (fun _ _ _ h hok hs => h.step hok (LoopThreadState.step_move hs))
      (fun _ _ _ _ hok hs => LoopThreadState.QuitOnLive.breaks hok (LoopThreadState.step_move hs))
      hstart
  · intro hsole
    have hallowed : (eventLoopThread T F).Guarded (fun _ a => a.quitsElsewhere = false) .start as :=
      Machine.Guarded.of_labels (fun a ha _ => hsole a ha) _
    refine Machine.along_iff_guarded_of_allowed (fun s : LoopThreadState T F => s.SoleQuit ∧ s.QuitOnLive)
      (fun _ h => h.2) ?_ ?_ ⟨LoopThreadState.soleQuit_start, hstart⟩ hallowed
    · rintro s a s' ⟨hs, hlive⟩ ha hok hstep
      have hmove := LoopThreadState.step_move hstep
      exact ⟨hs.step ha hmove, hlive.step (hs.endsOutsideQuit hok hmove) hmove⟩
    · rintro s a s' - - hok hstep
      exact LoopThreadState.QuitOnLive.breaks (fun hends => hok hends.window)
        (LoopThreadState.step_move hstep)

/-- The loop is woken out of `poll` by the write, and its destructor comes after it. -/
theorem quit_on_live_poll : ∃ s : LoopThreadState Unit Unit,
    (eventLoopThread Unit Unit).Reachable s ∧ s.func = .finished ∧ s.QuitOnLive := by
  obtain ⟨s, hs, hpc⟩ : ∃ s, (eventLoopThread Unit Unit).run .start ([.threadStart, .construct, .publish,
    .testLoop, .enter, .inLoop .test, .setQuit, .testThread, .writeWakeup, .inLoop (.poll [.wakeup]),
    .inLoop .handleEvent, .inLoop .beginFunctors, .inLoop .endFunctors, .inLoop .test,
    .loopReturns] ++ .close :: [.destroy, .join]) = some s ∧ s.func = .finished := ⟨_, rfl, rfl⟩
  refine ⟨s, ⟨.start, _, rfl, hs⟩, hpc, (((quit_on_live_iff rfl _).2 ?_).mpr ?_).last hs⟩
  · simp [LoopThreadAct.quitsElsewhere]
  refine (Machine.Guarded.of_labels (by simp [LoopThreadState.EndsOutsideWindow]) _).append ?_
  rintro t ⟨⟩ u -
  exact ⟨fun _ => rfl, Machine.Guarded.of_labels (by simp [LoopThreadState.EndsOutsideWindow]) u⟩

/-- The loop has its `poll` behind it when `quit_` is assigned: it leaves, is destroyed, and `quit` writes to
the eventfd after that. -/
theorem quit_on_live_fails : ¬ ∀ s₀ : LoopThreadState Unit Unit, (eventLoopThread Unit Unit).init s₀ →
    ∀ as s a s', (eventLoopThread Unit Unit).run s₀ as = some s →
      (eventLoopThread Unit Unit).step s a = some s' → a = .setQuit ∨ a = .testThread ∨ a = .writeWakeup →
      s.func.loopAlive = true ∧ s.func.wakeupFdOpen = true := by
  intro hall
  obtain ⟨-, hopen⟩ := hall .start rfl [.threadStart, .construct, .publish, .testLoop, .enter, .inLoop .test,
    .inLoop (.poll []), .setQuit, .testThread, .inLoop .beginFunctors, .inLoop .endFunctors,
    .inLoop .test, .loopReturns, .close, .destroy] _ .writeWakeup _ rfl rfl (by simp)
  cases hopen

end Netfish
