import Netfish.Kit.Ledger
import Netfish.Timer.Cancel

/-!
# The lives of timers

A `Timer` is made by `addTimer` and deleted in `cancelInLoop` or in `reset`; in between a raw pointer to
it is in a queued functor, in `timers_`, or in the local vector of `handleRead`. The allocator may give
the address again, so a timer is known by its sequence number. `timerLives` runs the queue with a ledger
of the timers deleted.
-/

set_option autoImplicit false

namespace Netfish

open Kit TimerQueue

namespace TimerQueue

variable {q q' : TimerQueue} {b : Addr} {t u : Timer}

/-- `reset` makes no timer, and keeps the number of a restarted one. -/
theorem Reset.heap_kept {now : Timestamp} {expired : List Entry}
    (h : q.Reset now expired q') (hlive : ∀ b ∈ expired.map Pair.second, ∃ t, q.heap b = some t)
    (hu : q'.heap b = some u) : ∃ t, q.heap b = some t ∧ t.sequence_ = u.sequence_ := by
  by_cases hb : b ∈ expired.map Pair.second
  · obtain ⟨t, ht⟩ := hlive b hb
    have hs := h.settles b hb t ht
    split at hs
    · cases hs.1.symm.trans hu
      exact ⟨t, ht, (t.restart_sequence now).symm⟩
    · cases hs.symm.trans hu
  · exact ⟨u, (h.heap b hb).symm.trans hu, rfl⟩

end TimerQueue

namespace TimerState

/-- The addresses the queue keeps, in a queued functor, in the batch or in `timers_`. -/
def pointers (s : TimerState) : List Addr := s.onTheirWay ++ s.q.timers_.toList.map Pair.second

/-- The numbers of the timers that a step deletes. -/
def deletes (s s' : TimerState) : List Int :=
  departed Timer.sequence_ s.q.heap s'.q.heap s.pointers

variable {s s' : TimerState} {a : TimerAct} {b : Addr} {t u : Timer}

theorem Sound.mem_pointers (h : s.Sound) : b ∈ s.pointers ↔ b ∈ s.onTheirWay ∨ ∃ t, s.q.Holds b t := by
  rw [pointers, List.mem_append]
  refine or_congr_right ?_
  constructor
  · intro hb
    obtain ⟨⟨e, _⟩, he, rfl⟩ := List.mem_map.mp hb
    obtain ⟨t, ht, -⟩ := h.rep.mem_timers.mp he
    exact ⟨t, ht⟩
  · rintro ⟨t, ht⟩
    exact List.mem_map.mpr ⟨⟨t.expiration_, b⟩, ht.2, rfl⟩

/-- No pointer the queue keeps dangles. -/
theorem Sound.pointer_live (h : s.Sound) (hb : b ∈ s.pointers) : ∃ t, s.q.heap b = some t := by
  rcases h.mem_pointers.mp hb with hb | ⟨t, ht⟩
  · exact (h.apart b hb).1
  · exact ⟨t, ht.1⟩

/-- Each timer is kept in one place. -/
theorem Sound.pointers_nodup (h : s.Sound) : s.pointers.Nodup := by
  refine List.nodup_append'.mpr ⟨h.nodup, h.rep.nodup_addresses s.q.timers_.nodup fun _ he => he, ?_⟩
  intro b hway hheld
  obtain ⟨⟨e, _⟩, he, rfl⟩ := List.mem_map.mp hheld
  obtain ⟨t, ht, -⟩ := h.rep.mem_timers.mp he
  exact ht.not_apart (h.apart _ hway)

/-! ## What a step does to the heap -/

/-- A step makes one timer with the next number, or it keeps timers and deletes timers. -/
theorem Sound.heapStep (h : s.Sound) (hs : s.step a = some s') :
    HeapStep Timer.sequence_ s.q.heap s.q.s_numCreated_ s'.q.heap s'.q.s_numCreated_ := by
  cases h.move hs with
  | newTimer ha => exact .made ha.1 rfl rfl rfl
  | newElsewhere =>
    exact .kept (fun b t ht => ⟨t, ht, rfl⟩) (Int.le_add_of_nonneg_right (by decide))
  | addTimerInLoop | timerfdExpires | runNext => exact .kept (fun b t ht => ⟨t, ht, rfl⟩) le_rfl
  | addTimer hpc ha ht => exact .made ha.1 rfl rfl rfl
  | @cancelHeld id t hpc hk hseq =>
    refine .kept ?_ le_rfl
    intro b u hu
    have hne : b ≠ id.timer_ := by
      rintro rfl
      cases unlink_heap_self.symm.trans hu
    exact ⟨u, (unlink_heap_ne hne).symm.trans hu, rfl⟩
  | cancelAbsent =>
    dsimp only
    split <;> exact .kept (fun b t ht => ⟨t, ht, rfl⟩) le_rfl
  | handleRead hpc hcut =>
    refine .kept (fun b t ht => ⟨t, hcut.heap ▸ ht, rfl⟩) hcut.created.ge
  | @endRead now clock done q' hpc hr =>
    have hexp : s.pc.expired = done := by simp [hpc, TimerPc.expired]
    refine .kept (fun b u hu => hr.heap_kept ?_ hu) hr.created.ge
    intro b hb
    exact (h.expired.2 b (hexp ▸ hb)).1

/-- A timer goes in one of two places: `cancelInLoop` deletes the one it names from the queue, and `reset`
the ones of the batch that are not armed again. -/
theorem Sound.goes (h : s.Sound) (hs : s.step a = some s') (ht : s.q.heap b = some t)
    (hgone : s'.q.heap b = none) :
    (∃ id, a = .cancelInLoop id ∧ id.key = ⟨b, t.sequence_⟩ ∧ id.key ∈ s.q.activeTimers_) ∨
      ∃ clock, a = .endRead clock ∧ b ∈ s.pc.expired.map Pair.second ∧ ¬ s.q.Rearms b t := by
  cases h.move hs with
  | @newTimer timer when interval ha | @addTimer timer when interval now u fd hpc ha hu =>
    have hne : b ≠ timer := by
      rintro rfl
      cases ha.1.symm.trans ht
    cases ((newTimer_heap_ne hne).trans ht).symm.trans hgone
  | newElsewhere | timerfdExpires | addTimerInLoop | runNext => cases ht.symm.trans hgone
  | @cancelHeld id u hpc hk hseq =>
    have hb : b = id.timer_ := by
      by_contra hne
      cases ((unlink_heap_ne hne).trans ht).symm.trans hgone
    subst hb
    cases hk.inj ht
    exact .inl ⟨id, rfl, by rw [hseq]; rfl, h.rep.active_iff.mpr ⟨t, hk, hseq⟩⟩
  | cancelAbsent =>
    dsimp only at hgone
    split at hgone <;> cases ht.symm.trans hgone
  | handleRead hpc hcut => cases (hcut.heap ▸ ht).symm.trans hgone
  | @endRead now clock done q' hpc hr =>
    have hexp : s.pc.expired = done := by simp [hpc, TimerPc.expired]
    have hb : b ∈ done.map Pair.second := by
      by_contra hnot
      cases ((hr.heap b hnot).trans ht).symm.trans hgone
    refine .inr ⟨clock, rfl, hexp ▸ hb, ?_⟩
    intro hrearms
    have hsettles := hr.settles b hb t ht
    split at hsettles
    · cases hsettles.1.symm.trans hgone
    · next hnot => exact hnot hrearms

theorem Sound.cancel_deletes (h : s.Sound) {id : TimerId} (hs : s.step (.cancelInLoop id) = some s')
    (hactive : id.key ∈ s.q.activeTimers_) : s'.q.heap id.timer_ = none := by
  cases h.move hs with
  | cancelHeld => exact unlink_heap_self
  | cancelAbsent hpc hk => exact absurd hactive hk

theorem Sound.reset_deletes (h : s.Sound) {clock : Timestamp} (hs : s.step (.endRead clock) = some s')
    (ht : s.q.heap b = some t) (hexp : b ∈ s.pc.expired.map Pair.second) (hnot : ¬ s.q.Rearms b t) :
    s'.q.heap b = none := by
  cases h.move hs with
  | @endRead now _ done q' hpc hr =>
    have hdone : s.pc.expired = done := by simp [hpc, TimerPc.expired]
    have hsettles := hr.settles b (hdone ▸ hexp) t ht
    split at hsettles
    · next hrearms => exact absurd hrearms hnot
    · exact hsettles

/-! ## No timer is leaked -/

/-- Every live timer is kept somewhere. -/
def NoneLeaked (s : TimerState) : Prop := ∀ b t, s.q.heap b = some t → b ∈ s.pointers

theorem start_noneLeaked : start.NoneLeaked := fun _ _ h => by cases h

theorem NoneLeaked.step (h : s.NoneLeaked) (hsound : s.Sound) (hs : s.step a = some s') :
    s'.NoneLeaked := by
  intro b u hu
  refine (hsound.step hs).mem_pointers.mpr ?_
  have hwas : ∀ t, s.q.heap b = some t → b ∈ s.onTheirWay ∨ ∃ t, s.q.Holds b t :=
    fun t ht => hsound.mem_pointers.mp (h b t ht)
  cases hsound.move hs with
  | @newTimer timer when interval ha =>
    by_cases hb : b = timer
    · exact .inl (List.mem_append_left _ (hb ▸ List.mem_cons_self))
    · rcases hwas u ((newTimer_heap_ne hb).symm.trans hu) with hway | ⟨t, ht⟩
      · exact .inl (List.mem_cons_of_mem _ hway)
      · exact .inr ⟨t, (hsound.rep.holds_newTimer ha.1).mpr ht⟩
  | newElsewhere | timerfdExpires => exact hwas u hu
  | @addTimerInLoop timer now t fd hpc hin ht =>
    by_cases hb : b = timer
    · exact .inr ⟨t, (holds_link ht).mpr (.inr ⟨hb, rfl⟩)⟩
    · rcases hwas u hu with hway | ⟨v, hv⟩
      · refine .inl ?_
        rcases List.mem_append.mp hway with hway | hway
        · exact List.mem_append_left _ ((List.mem_erase_of_ne hb).mpr hway)
        · exact List.mem_append_right _ hway
      · exact .inr ⟨v, (holds_link ht).mpr (.inl hv)⟩
  | @addTimer timer when interval now t fd hpc ha ht =>
    have hself : (s.q.newTimer timer when interval).heap timer = some t := ht ▸ newTimer_heap_self
    by_cases hb : b = timer
    · exact .inr ⟨t, (holds_link hself).mpr (.inr ⟨hb, rfl⟩)⟩
    · rcases hwas u ((newTimer_heap_ne hb).symm.trans hu) with hway | ⟨v, hv⟩
      · exact .inl hway
      · exact .inr ⟨v, (holds_link hself).mpr (.inl ((hsound.rep.holds_newTimer ha.1).mpr hv))⟩
  | @cancelHeld id t hpc hk hseq =>
    have hne : b ≠ id.timer_ := by
      rintro rfl
      cases unlink_heap_self.symm.trans hu
    rcases hwas u ((unlink_heap_ne hne).symm.trans hu) with hway | ⟨v, hv⟩
    · exact .inl hway
    · exact .inr ⟨v, (holds_unlink hk).mpr ⟨hv, hne⟩⟩
  | cancelAbsent =>
    have hu : s.q.heap b = some u := by
      dsimp only at hu
      split at hu <;> exact hu
    rcases hwas u hu with hway | ⟨v, hv⟩
    · exact .inl hway
    · refine .inr ⟨v, ?_⟩
      dsimp only
      split <;> exact hv
  | @handleRead now q' hpc hcut =>
    rcases hwas u (hcut.heap ▸ hu) with hway | ⟨v, hv⟩
    · refine .inl (List.mem_append_left _ ?_)
      simpa [onTheirWay, hpc, TimerPc.expired] using hway
    · rcases lt_or_ge now v.expiration_ with hlt | hle
      · exact .inr ⟨v, (hcut.holds b v).mpr ⟨hv, hlt⟩⟩
      · refine .inl (List.mem_append_right _ (List.mem_map.mpr ⟨⟨v.expiration_, b⟩, ?_, rfl⟩))
        exact hsound.rep.mem_expiredAt.mpr ⟨v, hv, rfl, hle⟩
  | @runNext now done todo entry t hpc ht =>
    refine (hwas u hu).imp_left ?_
    intro hway
    simpa [onTheirWay, hpc, TimerPc.expired] using hway
  | @endRead now clock done q' hpc hr =>
    have hexp : s.pc.expired = done := by simp [hpc, TimerPc.expired]
    by_cases hb : b ∈ done.map Pair.second
    · obtain ⟨t, ht⟩ := (hsound.expired.2 b (hexp ▸ hb)).1
      have hsettles := hr.settles b hb t ht
      split at hsettles
      · exact .inr ⟨_, hsettles⟩
      · cases hsettles.symm.trans hu
    · rcases hwas u ((hr.heap b hb).symm.trans hu) with hway | ⟨v, hv⟩
      · refine .inl (List.mem_append_left _ ((List.mem_append.mp hway).resolve_right ?_))
        rwa [hexp]
      · exact .inr ⟨v, (hr.holds b hb v).mpr hv⟩

/-! ## A cancel is about one number -/

/-- Where the timer is, and whether `reset` would put it back, are as before. -/
structure Spared (s s' : TimerState) (b : Addr) (t : Timer) : Prop where
  heap : s'.q.heap b = some t
  held : s'.q.Holds b t ↔ s.q.Holds b t
  batch : s'.pc = s.pc
  rearms : s'.q.Rearms b t ↔ s.q.Rearms b t

/-- Whatever the id, a timer with another number is spared. -/
theorem Sound.cancel_spares (h : s.Sound) {id : TimerId} (hs : s.step (.cancelInLoop id) = some s')
    (ht : s.q.heap b = some t) (hne : t.sequence_ ≠ id.sequence_) : s.Spared s' b t := by
  cases h.move hs with
  | @cancelHeld _ u hpc hk hseq =>
    have hb : b ≠ id.timer_ := by
      rintro rfl
      exact hne (hk.inj ht ▸ hseq)
    exact ⟨(unlink_heap_ne hb).trans ht, (holds_unlink hk).trans (and_iff_left hb), rfl, Iff.rfl⟩
  | cancelAbsent hpc hk =>
    have hkey : (⟨b, t.sequence_⟩ : ActiveTimer) ≠ id.key := by
      intro heq
      exact hne (Pair.mk.inj heq).2
    dsimp only
    split
    · exact ⟨ht, Iff.rfl, rfl, by simp [Rearms, hkey]⟩
    · exact ⟨ht, Iff.rfl, rfl, Iff.rfl⟩

/-! ## The ledger of a run -/

/-- An event of `addTimerInLoop` finds its timer alive after the step. -/
theorem Sound.added_step (h : s.Sound) (hs : s.step a = some s') {timer : Addr}
    (hlog : .added timer t ∈ s'.log) : .added timer t ∈ s.log ∨ s'.q.heap timer = some t := by
  cases h.move hs with
  | @addTimerInLoop timer₁ now t₁ fd hpc hin ht =>
    rcases List.mem_append.mp hlog with hlog | hlog
    · exact .inl hlog
    · cases List.mem_singleton.mp hlog
      exact .inr ht
  | addTimer hpc ha ht =>
    rcases List.mem_append.mp hlog with hlog | hlog
    · exact .inl hlog
    · cases List.mem_singleton.mp hlog
      exact .inr (ht ▸ newTimer_heap_self)
  | cancelHeld | cancelAbsent | runNext =>
    rcases List.mem_append.mp hlog with hlog | hlog
    · exact .inl hlog
    · cases List.mem_singleton.mp hlog
  | newTimer | newElsewhere | timerfdExpires | handleRead | endRead => exact .inl hlog

/-- The state and the ledger of a run. -/
structure Recorded (s : TimerState) (gone : List Int) : Prop where
  sound : s.Sound
  fresh : s.Fresh
  noneLeaked : s.NoneLeaked
  ledger : Ledger Timer.sequence_ s.q.heap s.q.s_numCreated_ gone
  added : ∀ timer t, .added timer t ∈ s.log →
    t.sequence_ ∈ gone ∨ ∃ u, s.q.heap timer = some u ∧ u.sequence_ = t.sequence_

theorem start_recorded : start.Recorded [] where
  sound := start_sound
  fresh := start_fresh
  noneLeaked := start_noneLeaked
  ledger := ⟨.nil, fun _ h => absurd h List.not_mem_nil, fun _ _ h => (by cases h),
    fun _ _ _ _ h => (by cases h)⟩
  added _ _ h := absurd h List.not_mem_nil

variable {gone : List Int}

theorem Recorded.step (h : s.Recorded gone) (hs : s.step a = some s') :
    s'.Recorded (gone ++ s.deletes s') := by
  have hheap := h.sound.heapStep hs
  refine ⟨h.sound.step hs, h.fresh.step h.sound hs, h.noneLeaked.step h.sound hs,
    h.ledger.step hheap h.sound.pointers_nodup, ?_⟩
  intro timer t hlog
  rcases h.sound.added_step hs hlog with hlog | hnow
  · rcases h.added timer t hlog with hgone | ⟨u, hu, hseq⟩
    · exact .inl (List.mem_append_left _ hgone)
    · have hsame : ∀ v, s'.q.heap timer = some v → v.sequence_ = u.sequence_ :=
        fun v hv => Ledger.same hheap hu hv
      have hlive := live_or_departed hu (h.noneLeaked timer u hu) hsame
      rw [hseq] at hlive
      exact hlive.imp_left (List.mem_append_right _)
  · exact .inr ⟨t, hnow, rfl⟩

/-- Outside `handleRead` an added timer is in `timers_` or deleted. -/
theorem Recorded.added_idle (h : s.Recorded gone) (hpc : s.pc = .idle) {timer : Addr}
    (hlog : .added timer t ∈ s.log) :
    t.sequence_ ∈ gone ∨ ∃ u, s.q.Holds timer u ∧ u.sequence_ = t.sequence_ := by
  refine (h.added timer t hlog).imp_right ?_
  rintro ⟨u, hu, hseq⟩
  rcases h.sound.mem_pointers.mp (h.noneLeaked timer u hu) with hway | ⟨v, hv⟩
  · -- what is on its way outside `handleRead` was not added yet
    have hin : timer ∈ s.inFlight := by simpa [onTheirWay, hpc, TimerPc.expired] using hway
    exact absurd ⟨t, hseq.symm, hlog⟩ (h.fresh.inFlight timer hin u hu).2
  · exact ⟨v, hv, hv.inj hu ▸ hseq⟩

end TimerState

/-- The timer queue with a ledger of the timers it deleted. -/
def timerLives : Machine (TimerState × List Int) TimerAct :=
  timerQueue.observe [] fun gone s _ s' => some (gone ++ s.deletes s')

variable {p : TimerState × List Int}

theorem recorded_of_reachable (h : timerLives.Reachable p) : p.1.Recorded p.2 := by
  refine h.invariant (fun p => p.1.Recorded p.2) ?_ ?_
  · rintro ⟨s, gone⟩ ⟨hs, hgone⟩
    cases hs
    cases hgone
    exact TimerState.start_recorded
  · rintro p a p' hp hstep
    obtain ⟨hs, hgone⟩ := Machine.observe_step.mp hstep
    exact Option.some.inj hgone ▸ hp.step hs

/-- **The lives of timers.** In every reachable state, with any callbacks and any addresses given again:
no dead timer was used; the ledger lists each deleted timer once, no live one, and no number is given
twice; what the queue keeps is alive; outside `handleRead` every timer added is in `timers_` or deleted.
In every step from there, what is deleted is listed, a pointer the queue keeps goes on pointing to the
same timer, and a cancel with any id spares the timers with another number. -/
theorem timer_lifetimes (h : timerLives.Reachable p) :
    p.1.fault = none ∧ Ledger Timer.sequence_ p.1.q.heap p.1.q.s_numCreated_ p.2 ∧
    (∀ b ∈ p.1.pointers, ∃ t, p.1.q.heap b = some t) ∧
    (p.1.pc = .idle → ∀ timer t, .added timer t ∈ p.1.log →
      t.sequence_ ∈ p.2 ∨ ∃ u, p.1.q.Holds timer u ∧ u.sequence_ = t.sequence_) ∧
    ∀ a s', p.1.step a = some s' →
      (∀ b t, p.1.q.heap b = some t → s'.q.heap b = none → t.sequence_ ∈ p.1.deletes s') ∧
      (∀ b ∈ p.1.pointers, b ∈ s'.pointers → ∃ t u, p.1.q.heap b = some t ∧
        s'.q.heap b = some u ∧ u.sequence_ = t.sequence_) ∧
      ∀ id, a = .cancelInLoop id → ∀ b t, p.1.q.heap b = some t → t.sequence_ ≠ id.sequence_ →
        p.1.Spared s' b t := by
  have hp := recorded_of_reachable h
  refine ⟨hp.sound.fault, hp.ledger, fun b hb => hp.sound.pointer_live hb,
    fun hpc _ _ hlog => hp.added_idle hpc hlog, ?_⟩
  intro a s' hs
  refine ⟨fun b t ht hnone => mem_departed.mpr ⟨b, hp.noneLeaked b t ht, t, ht, hnone, rfl⟩, ?_, ?_⟩
  · intro b hb hb'
    obtain ⟨t, ht⟩ := hp.sound.pointer_live hb
    obtain ⟨u, hu⟩ := (hp.sound.step hs).pointer_live hb'
    exact ⟨t, u, ht, hu, Ledger.same (hp.sound.heapStep hs) ht hu⟩
  · rintro id rfl b t ht hne
    exact hp.sound.cancel_spares hs ht hne

/-- A one-shot timer runs and is deleted, its address is given to a repeating timer, and a cancel with the
stale id leaves that one in the queue. -/
theorem timer_lifetimes_reused : ∃ p, timerLives.Reachable p ∧ p.2 = [1] ∧
    p.1.q.timers_.toList = [⟨20, 1⟩] ∧ Ledger Timer.sequence_ p.1.q.heap p.1.q.s_numCreated_ p.2 := by
  obtain ⟨p, hp, hgone, htimers⟩ : ∃ p, timerLives.run (.start, []) [.addTimer 1 5 ⟨0, false, by simp⟩ 0,
    .timerfdExpires, .handleRead 10, .runNext, .endRead 10, .addTimer 1 20 ⟨3, true, by simp⟩ 10,
    .cancelInLoop ⟨1, 1⟩] = some p ∧ p.2 = [1] ∧ p.1.q.timers_.toList = [⟨20, 1⟩] :=
    ⟨_, rfl, rfl, rfl⟩
  have hreach : timerLives.Reachable p := ⟨(.start, []), _, ⟨rfl, rfl⟩, hp⟩
  exact ⟨p, hreach, hgone, htimers, (timer_lifetimes hreach).2.1⟩

end Netfish
