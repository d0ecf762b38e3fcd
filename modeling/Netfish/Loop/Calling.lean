import Netfish.Loop.EventLoop

/-!
# Wakeups and `callingPendingFunctors_`

`queueInLoop` in the loop's own thread writes the eventfd when `callingPendingFunctors_` is set, which is
meant to say that `doPendingFunctors` is executing. Its last statement sets the flag instead of taking it
back, so the flag says that `doPendingFunctors` is executing or has returned before (`Rounds`). Beside the
loop stands what that depends on: how often it has returned, and whether anything else has written the
eventfd. `wakeups_needed_iff` has the two exact conditions, for the flag and for the eventfd.
-/

set_option autoImplicit false

namespace Netfish

open Kit

universe u v

/-- The loop thread is in `doPendingFunctors`. -/
def LoopPc.calling : LoopPc → Bool
  | .batch => true
  | .functor => true
  | _ => false

/-- What has happened so far. -/
structure LoopHistory where
  /-- The calls of `doPendingFunctors` that have returned. -/
  rounds : Nat
  /-- Another thread has written the eventfd, or a functor has queued a functor. -/
  provoked : Bool

namespace LoopState

variable {T : Type v} {F : Type u}

def seeRounds (h : LoopHistory) (s : LoopState T F) : LoopAct T F → LoopState T F → Option LoopHistory
  | .endFunctors, _ => some { h with rounds := h.rounds + 1 }
  | .wakeup _, _ => some { h with provoked := true }
  | .quitWakeup _, _ => some { h with provoked := true }
  | .pushHere _, _ => some { h with provoked := h.provoked || s.pc.calling }
  | _, _ => some h

/-- What the flag really says, and who may be in `queueInLoop`. -/
structure Rounds (s : LoopState T F) (h : LoopHistory) : Prop where
  calling : s.loop.callingPendingFunctors_ = true ↔ s.pc.calling = true ∨ 0 < h.rounds
  queueing : s.queueing = true → s.pc.inUserCode = true
  unprovoked : h.provoked = false → s.queueing = true → s.pc.calling = false

theorem rounds_start : (start : LoopState T F).Rounds ⟨0, false⟩ where
  calling := by
    constructor
    · exact nofun
    · exact fun h => h.elim nofun (absurd · (Nat.lt_irrefl 0))
  queueing := nofun
  unprovoked _ := nofun

section

variable {s : LoopState T F} {h : LoopHistory}

/-- The loop thread goes on to code that is in `doPendingFunctors` as little or as much as before. -/
theorem Rounds.goto (hr : s.Rounds h) (pc : LoopPc) (hcalling : pc.calling = s.pc.calling)
    (huser : s.queueing = true → pc.inUserCode = true) : { s with pc := pc }.Rounds h where
  calling := by
    show _ ↔ pc.calling = true ∨ _
    rw [hcalling]
    exact hr.calling
  queueing := huser
  unprovoked hp hq := hcalling.trans (hr.unprovoked hp hq)

/-- Outside user code the loop thread is not in `queueInLoop`. -/
theorem Rounds.not_queueing (hr : s.Rounds h) (hpc : s.pc.inUserCode = false) :
    s.queueing ≠ true := by
  intro hq
  cases hpc.symm.trans (hr.queueing hq)

/-- Only the methods that set the flag change what it says. -/
theorem Rounds.withLoop (hr : s.Rounds h) (loop : EventLoop F)
    (hflag : loop.callingPendingFunctors_ = s.loop.callingPendingFunctors_) :
    { s with loop := loop }.Rounds h where
  calling := by
    show loop.callingPendingFunctors_ = true ↔ _
    rw [hflag]
    exact hr.calling
  queueing := hr.queueing
  unprovoked := hr.unprovoked

/-- A write by another thread. -/
theorem Rounds.provoke (hr : s.Rounds h) : s.Rounds { h with provoked := true } where
  calling := hr.calling
  queueing := hr.queueing
  unprovoked := nofun

/-- Before the first return of `doPendingFunctors`, `queueInLoop` outside of it writes nothing. -/
theorem Rounds.wakeupFromLoop_eq (hr : s.Rounds h) (hfirst : h.rounds = 0)
    (hpc : s.pc.calling = false) : s.loop.wakeupFromLoop = s.loop := by
  unfold EventLoop.wakeupFromLoop
  rw [if_neg]
  intro hflag
  rcases hr.calling.mp hflag with hcalling | hpos
  · cases hpc.symm.trans hcalling
  · omega

theorem rounds_of_see {s' : LoopState T F} {h' : LoopHistory} {a : LoopAct T F}
    (ha : a ≠ .endFunctors) (hsee : seeRounds h s a s' = some h') : h'.rounds = h.rounds := by
  cases a with
  | endFunctors => exact absurd rfl ha
  | _ => cases hsee; rfl

/-- The loop thread writes the eventfd without being provoked, after a return of `doPendingFunctors`. -/
def WritesUnprovoked (h : LoopHistory) (a : LoopAct T F) : Prop :=
  a = .wakeupHere ∧ h.provoked = false ∧ 0 < h.rounds

end

variable [DecidableEq T] {s s' : LoopState T F} {h h' : LoopHistory} {a : LoopAct T F}

/-- Each step keeps it. -/
theorem Rounds.step (hr : s.Rounds h) (hs : s.step a = some s')
    (hsee : seeRounds h s a s' = some h') : s'.Rounds h' := by
  cases step_move hs with
  | push | setQuit | quitHere =>
    cases hsee
    exact ⟨hr.calling, hr.queueing, hr.unprovoked⟩
  | wakeup | quitWakeup =>
    cases hsee
    have hw := (hr.withLoop s.loop.wakeup s.loop.wakeup_calling).provoke
    exact ⟨hw.calling, hw.queueing, hw.unprovoked⟩
  | enter hpc | leave hpc =>
    cases hsee
    have hnot := hr.not_queueing (by rw [hpc]; rfl)
    have hg := hr.goto _ (by rw [hpc]) (fun hq => absurd hq hnot)
    exact ⟨hg.calling, hg.queueing, hg.unprovoked⟩
  | again hpc | poll hpc =>
    cases hsee
    exact hr.goto _ (by rw [hpc]; rfl) (fun hq => absurd hq (hr.not_queueing (by rw [hpc]; rfl)))
  | handleRead hpc =>
    cases hsee
    exact (hr.withLoop s.loop.handleRead rfl).goto _ (by rw [hpc]; rfl)
      (fun hq => absurd hq (hr.not_queueing (by rw [hpc]; rfl)))
  | handleOther hpc =>
    cases hsee
    exact hr.goto _ (by rw [hpc]; rfl) (fun _ => rfl)
  | handlerReturns hpc hq | functorReturns hpc hq =>
    cases hsee
    exact hr.goto _ (by rw [hpc]; rfl) (fun hq' => nomatch hq.symm.trans hq')
  | beginFunctors hpc =>
    cases hsee
    have hnot := hr.not_queueing (by rw [hpc]; rfl)
    exact ⟨⟨fun _ => .inl rfl, fun _ => rfl⟩, fun hq => absurd hq hnot, fun _ hq => absurd hq hnot⟩
  | runFunctor hpc hn =>
    cases hsee
    have hnot := hr.not_queueing (by rw [hpc]; rfl)
    have hg := hr.goto .functor (by rw [hpc]; rfl) (fun hq => absurd hq hnot)
    exact ⟨hg.calling, hg.queueing, hg.unprovoked⟩
  | endFunctors hpc =>
    cases hsee
    have hnot := hr.not_queueing (by rw [hpc]; rfl)
    exact ⟨⟨fun _ => .inr (Nat.succ_pos _), fun _ => rfl⟩, fun hq => absurd hq hnot, fun _ _ => rfl⟩
  | pushHere huser =>
    cases hsee
    refine ⟨hr.calling, fun _ => huser, ?_⟩
    intro hp _
    exact (Bool.or_eq_false_iff.mp hp).2
  | wakeupHere =>
    cases hsee
    have hw := hr.withLoop s.loop.wakeupFromLoop s.loop.wakeupFromLoop_calling
    exact ⟨hw.calling, nofun, fun _ => nofun⟩

/-- What the flag is for: it is true exactly while `doPendingFunctors` is executing,
`queueInLoop` writes nothing in a handler, and unprovoked the eventfd is not readable. -/
structure WakeupsNeeded (s : LoopState T F) (h : LoopHistory) : Prop where
  calling : s.loop.callingPendingFunctors_ = true ↔ s.pc.calling = true
  silent : ∀ active s', s.pc = .handler active → s.step .wakeupHere = some s' →
    s'.loop.wakeupFd_ = s.loop.wakeupFd_
  unread : h.provoked = false → s.loop.wakeupFd_ = 0

theorem Rounds.wakeupsNeeded (hr : s.Rounds h) (hfirst : h.rounds = 0)
    (hfd : h.provoked = false → s.loop.wakeupFd_ = 0) : s.WakeupsNeeded h where
  calling := by
    rw [hr.calling, hfirst]
    exact or_iff_left (Nat.lt_irrefl 0)
  silent := by
    intro active s' hpc hs
    cases step_move hs with
    | wakeupHere =>
      show s.loop.wakeupFromLoop.wakeupFd_ = _
      rw [hr.wakeupFromLoop_eq hfirst (by rw [hpc]; rfl)]
  unread := hfd

/-- When `doPendingFunctors` returns it leaves the flag set. -/
theorem not_needed_of_end (hs : s.step .endFunctors = some s') : ¬ s'.WakeupsNeeded h := by
  intro hneeded
  cases step_move hs with
  | endFunctors => cases hneeded.calling.mp rfl

/-- Any other step leaves the eventfd unreadable. -/
theorem Rounds.unread_step (hr : s.Rounds h) (hfd : h.provoked = false → s.loop.wakeupFd_ = 0)
    (hok : ¬ WritesUnprovoked h a) (hs : s.step a = some s')
    (hsee : seeRounds h s a s' = some h') : h'.provoked = false → s'.loop.wakeupFd_ = 0 := by
  intro hp
  cases step_move hs with
  | wakeup | quitWakeup =>
    cases hsee
    cases hp
  | handleRead => rfl
  | pushHere =>
    cases hsee
    exact hfd (Bool.or_eq_false_iff.mp hp).1
  | wakeupHere hq =>
    cases hsee
    have hfirst : h.rounds = 0 := by
      apply Nat.eq_zero_of_not_pos
      exact fun hpos => hok ⟨rfl, hp, hpos⟩
    show s.loop.wakeupFromLoop.wakeupFd_ = 0
    rw [hr.wakeupFromLoop_eq hfirst (hr.unprovoked hp hq)]
    exact hfd hp
  | _ =>
    cases hsee
    exact hfd hp

/-- That step makes it readable. -/
theorem Rounds.unread_breaks (hr : s.Rounds h) (hw : WritesUnprovoked h a) (hs : s.step a = some s')
    (hsee : seeRounds h s a s' = some h') : h'.provoked = false ∧ s'.loop.wakeupFd_ ≠ 0 := by
  obtain ⟨rfl, hp, hpos⟩ := hw
  cases hsee
  cases step_move hs with
  | wakeupHere =>
    refine ⟨hp, ?_⟩
    show s.loop.wakeupFromLoop.wakeupFd_ ≠ 0
    rw [EventLoop.wakeupFromLoop, if_pos (hr.calling.mpr (.inr hpos))]
    exact s.loop.wakeup_readable

end LoopState

variable {T : Type v} {F : Type u} [DecidableEq T]

/-- The event loop among its threads, with what has happened. -/
def eventLoopRounds (T : Type v) (F : Type u) [DecidableEq T] :
    Machine (LoopState T F × LoopHistory) (LoopAct T F) :=
  (eventLoop T F).observe ⟨0, false⟩ LoopState.seeRounds

/-- **When wakeups are only those needed.** For every run of an event loop, with any iterations, handlers,
functors and other threads. The flag is true exactly while `doPendingFunctors` is executing, with what
follows from it, in every state if and only if `doPendingFunctors` does not return. And the eventfd is
unreadable as long as nothing else provokes it if and only if no handler calls `queueInLoop` after a
return of `doPendingFunctors`. -/
theorem wakeups_needed_iff (as : List (LoopAct T F)) :
    ((eventLoopRounds T F).Along (fun p => p.1.WakeupsNeeded p.2) (.start, ⟨0, false⟩) as ↔
      (eventLoopRounds T F).Guarded (fun _ a => a ≠ .endFunctors) (.start, ⟨0, false⟩) as) ∧
    ((eventLoopRounds T F).Along (fun p => p.2.provoked = false → p.1.loop.wakeupFd_ = 0)
        (.start, ⟨0, false⟩) as ↔
      (eventLoopRounds T F).Guarded (fun p a => ¬ LoopState.WritesUnprovoked p.2 a)
        (.start, ⟨0, false⟩) as) := by
  constructor
  · apply Machine.along_iff_guarded fun p =>
      p.1.Rounds p.2 ∧ p.2.rounds = 0 ∧ (p.2.provoked = false → p.1.loop.wakeupFd_ = 0)
    · exact fun _ hp => hp.1.wakeupsNeeded hp.2.1 hp.2.2
    · intro p a p' h ha hs
      obtain ⟨hr, hfirst, hfd⟩ := h
      obtain ⟨hstep, hsee⟩ := Machine.observe_step.mp hs
      refine ⟨hr.step hstep hsee, (LoopState.rounds_of_see ha hsee).trans hfirst, ?_⟩
      exact hr.unread_step hfd (fun hw => absurd hw.2.2 (by omega)) hstep hsee
    · intro p a p' _ ha hs hgood
      obtain ⟨hstep, -⟩ := Machine.observe_step.mp hs
      rw [not_not.mp ha] at hstep
      exact LoopState.not_needed_of_end hstep hgood
    · exact ⟨LoopState.rounds_start, rfl, fun _ => rfl⟩
  · apply Machine.along_iff_guarded fun p =>
      p.1.Rounds p.2 ∧ (p.2.provoked = false → p.1.loop.wakeupFd_ = 0)
    · exact fun _ hp => hp.2
    · intro p a p' h hok hs
      obtain ⟨hr, hfd⟩ := h
      obtain ⟨hstep, hsee⟩ := Machine.observe_step.mp hs
      exact ⟨hr.step hstep hsee, hr.unread_step hfd hok hstep hsee⟩
    · intro p a p' h hw hs hgood
      obtain ⟨hr, -⟩ := h
      obtain ⟨hstep, hsee⟩ := Machine.observe_step.mp hs
      obtain ⟨hp, hfd⟩ := hr.unread_breaks (not_not.mp hw) hstep hsee
      exact hfd (hgood hp)
    · exact ⟨LoopState.rounds_start, fun _ => rfl⟩

/-- In the second iteration a handler calls `queueInLoop`, and wakes its own loop. -/
theorem wakeups_needed_fails : ¬ ∀ (as : List (LoopAct Unit Nat)) p,
    (eventLoopRounds Unit Nat).run (.start, ⟨0, false⟩) as = some p → p.1.WakeupsNeeded p.2 := by
  intro hall
  have hneeded := hall [.enter, .test, .poll [], .beginFunctors, .endFunctors, .test, .poll [.other],
    .handleEvent, .pushHere 7, .wakeupHere] _ rfl
  exact absurd (hneeded.unread rfl) (by decide)

end Netfish
