import Netfish.Timer.Sound

/-!
# The timerfd is set for a waiting timer

`addTimerInLoop` sets the timerfd when the new timer is the first one, `reset` when the first
expiration is valid, and nothing else sets it: a cancel leaves it, and a later call discards an
expiry that was not read. `Wakes` says that the timerfd fires for a time all the same. Outside
`handleRead` it does so for every timer in the queue, provided the clock reads positive times: then
only a timer with an invalid expiration is left to its own `addTimerInLoop`, inside a callback.

The clock may jump. No bound of `int64_t` is modelled.
-/

set_option autoImplicit false

namespace Netfish

open Kit TimerQueue

/-! ## What is passed to timerfd_settime -/

/-- `howMuchTimeFromNow` gives a normalized time: the difference, and 100 microseconds at least. -/
theorem howMuchTimeFromNow_spec (when now : Int) :
    0 ≤ (howMuchTimeFromNow when now).tv_sec ∧
    0 ≤ (howMuchTimeFromNow when now).tv_nsec ∧
    (howMuchTimeFromNow when now).tv_nsec < 1000000000 ∧
    (howMuchTimeFromNow when now).tv_sec * 1000000000 + (howMuchTimeFromNow when now).tv_nsec =
      max (when - now) 100 * 1000 := by
  have hmax : (if when - now < 100 then 100 else when - now) = max (when - now) 100 := by
    split <;> omega
  have hpos : 0 ≤ max (when - now) 100 := by omega
  simp only [howMuchTimeFromNow, hmax, kMicroSecondsPerSecond, Int.tdiv_eq_ediv_of_nonneg hpos,
    Int.tmod_eq_emod_of_nonneg hpos]
  omega

/-- It is never zero, so it arms the timerfd. -/
theorem resetTimerfd_armed (when now : Int) :
    (resetTimerfd when now).armed = some (when, howMuchTimeFromNow when now) := by
  obtain ⟨-, -, -, hsum⟩ := howMuchTimeFromNow_spec when now
  refine if_neg ?_
  intro hzero
  simp only [hzero] at hsum
  omega

/-- The timerfd wakes the loop no later than it would be set to for this expiration. -/
def TimerFd.Wakes (fd : TimerFd) (expiration : Timestamp) : Prop :=
  fd.readable = true ∨ ∃ e now, 0 < now ∧ fd = resetTimerfd e now ∧ e ≤ expiration

theorem TimerFd.Wakes.mono {fd : TimerFd} {e e' : Timestamp} (h : fd.Wakes e) (hle : e ≤ e') :
    fd.Wakes e' := by
  rcases h with h | ⟨e₀, now, hnow, hfd, he⟩
  · exact .inl h
  · exact .inr ⟨e₀, now, hnow, hfd, he.trans hle⟩

theorem resetTimerfd_wakes {e now : Timestamp} (hnow : 0 < now) : (resetTimerfd e now).Wakes e :=
  .inr ⟨e, now, hnow, rfl, le_rfl⟩

namespace TimerQueue

variable {q : TimerQueue} {a : Addr} {t : Timer}

/-- The timerfd after `addTimerInLoop` of a timer with this expiration. -/
def timerfdFor (q : TimerQueue) (expiration now : Timestamp) : TimerFd :=
  if q.earliestChanged expiration then resetTimerfd expiration now else q.timerfd_

/-- The timerfd after the end of `reset`. -/
def timerfdNext (q : TimerQueue) (clock : Timestamp) : TimerFd :=
  match q.timers_.begin with
  | none => q.timerfd_
  | some entry => if entry.first.valid then resetTimerfd entry.first clock else q.timerfd_

theorem Rep.addTimerInLoop_timerfd (h : q.Rep) (ha : q.Apart a) (ht : q.heap a = some t)
    (now : Timestamp) : q.addTimerInLoop a now =
      .ok { q.link a t with timerfd_ := q.timerfdFor t.expiration_ now } := by
  simp only [TimerQueue.addTimerInLoop, h.insert_eq ha ht, ok_bind, timerfdFor]
  split
  · rw [deref_of_heap (q := q.link a t) ht, ok_bind]
  · rfl

theorem Rep.resetNext_timerfd (h : q.Rep) (clock : Timestamp) :
    q.resetNext clock = .ok { q with timerfd_ := q.timerfdNext clock } := by
  unfold resetNext timerfdNext
  cases hb : q.timers_.begin with
  | none => rfl
  | some entry =>
    obtain ⟨t, ht, he, -⟩ := h.live entry.first entry.second (OrderedSet.mem_of_begin hb)
    refine bind_eq_ok.mpr ⟨t, deref_of_heap ht, ?_⟩
    rw [he]
    simp only [ok_bind]
    split <;> rfl

theorem settle_timerfd (q : TimerQueue) (now : Timestamp) (a : Addr) (t : Timer) :
    (q.settle now a t).timerfd_ = q.timerfd_ := by
  unfold settle
  split <;> rfl

/-- The loop of `reset` does not set the timerfd. -/
theorem Rep.resetEach_timerfd (now : Timestamp) (expired : List Entry) :
    ∀ {q q' : TimerQueue}, q.Rep → (∀ b ∈ expired.map Pair.second, q.Apart b) →
      (expired.map Pair.second).Nodup → q.resetEach now expired = .ok q' →
      q'.timerfd_ = q.timerfd_ := by
  induction expired with
  | nil =>
    intro q q' _ _ _ hrun
    cases hrun
    rfl
  | cons entry expired ih =>
    intro q q' h hout hnd hrun
    obtain ⟨e, a⟩ := entry
    obtain ⟨hnot, hnd⟩ := List.nodup_cons.mp hnd
    have ha : q.Apart a := hout a List.mem_cons_self
    obtain ⟨t, ht⟩ := ha.1
    rw [h.resetEach_cons ha ht] at hrun
    refine (ih (h.settle ha now) ?_ hnd hrun).trans (settle_timerfd ..)
    intro b hb
    refine (hout b (List.mem_cons_of_mem _ hb)).settle ?_
    rintro rfl
    exact hnot hb

theorem Rep.endExpired_timerfd (h : q.Rep) {expired : List Entry}
    (hout : ∀ b ∈ expired.map Pair.second, q.Apart b) (hnd : (expired.map Pair.second).Nodup)
    {now clock : Timestamp} {q' : TimerQueue} (hrun : q.endExpired expired now clock = .ok q') :
    q'.timerfd_ = timerfdNext { q' with timerfd_ := q.timerfd_ } clock := by
  have hoff : Rep { q with callingExpiredTimers_ := false } := ⟨h.live, h.filed, h.sizes, h.addr⟩
  obtain ⟨q₁, hrun₁, hr⟩ := hoff.resetEach_spec now expired hout hnd
  have hfd : q₁.timerfd_ = q.timerfd_ := hoff.resetEach_timerfd now expired hout hnd hrun₁
  have hend : q₁.resetNext clock = .ok q' := by
    obtain ⟨q₂, hrun₂, hend⟩ := bind_eq_ok.mp hrun
    cases hrun₁.symm.trans hrun₂
    exact hend
  rw [hr.rep.resetNext_timerfd clock] at hend
  cases hend
  rw [← hfd]

end TimerQueue

namespace TimerState

variable {s s' : TimerState} {a : TimerAct}

/-- The readings of the clock in a step are positive. -/
def clockPositive (_ : TimerState) : TimerAct → Bool
  | .addTimerInLoop _ now => 0 < now
  | .addTimer _ _ _ now => 0 < now
  | .handleRead now => 0 < now
  | .endRead clock => 0 < clock
  | _ => true

/-- The timerfd wakes the loop for every timer in the queue; in the middle of `handleRead` only for
those that `reset` will not set it for. -/
structure Armed (s : TimerState) : Prop where
  wakes : ∀ entry ∈ s.q.timers_, s.pc = .idle ∨ entry.first ≤ 0 → s.q.timerfd_.Wakes entry.first
  now : ∀ now done todo, s.pc = .calling now done todo → 0 < now

theorem start_armed : start.Armed where
  wakes _ h := absurd h OrderedSet.not_mem_empty
  now _ _ _ h := by cases h

/-- A timer goes into the queue, and the timerfd is set for it when it is the first. -/
theorem Armed.link (h : s.Armed) {timer : Addr} {t : Timer} {now : Timestamp} (hnow : 0 < now)
    {q : TimerQueue} (hq : q.timers_ = s.q.timers_ ∧ q.timerfd_ = s.q.timerfd_) :
    ∀ entry ∈ (q.link timer t).timers_, s.pc = .idle ∨ entry.first ≤ 0 →
      (q.timerfdFor t.expiration_ now).Wakes entry.first := by
  obtain ⟨htimers, hfd⟩ := hq
  intro entry hentry hfirst
  have hentry : entry = ⟨t.expiration_, timer⟩ ∨ entry ∈ s.q.timers_ := by
    have := OrderedSet.mem_insert.mp hentry
    rwa [htimers] at this
  unfold TimerQueue.timerfdFor TimerQueue.earliestChanged
  rw [htimers, hfd]
  cases hb : s.q.timers_.begin with
  | none =>
    rw [OrderedSet.begin_eq_none.mp hb] at hentry
    rw [hentry.resolve_right OrderedSet.not_mem_empty]
    exact resetTimerfd_wakes hnow
  | some first =>
    dsimp only
    have hmin : ∀ other ∈ s.q.timers_, first.first ≤ other.first := fun other ho =>
      Pair.first_le_of_le (OrderedSet.begin_le hb ho)
    split
    · next hlt =>
      have hlt : t.expiration_ < first.first := by simpa using hlt
      refine (resetTimerfd_wakes hnow).mono ?_
      rcases hentry with rfl | hentry
      · exact le_rfl
      · exact hlt.le.trans (hmin entry hentry)
    · next hge =>
      have hge : first.first ≤ t.expiration_ := by simpa using hge
      rcases hentry with rfl | hentry
      · -- an earlier timer is in the queue, and the timerfd is set for that one
        have hwakes := h.wakes first (OrderedSet.mem_of_begin hb) (hfirst.imp_right hge.trans)
        exact hwakes.mono hge
      · exact h.wakes entry hentry hfirst

theorem Sound.addTimerInLoop_timerfd (h : s.Sound) {timer : Addr} {t : Timer} {now : Timestamp}
    (hin : timer ∈ s.inFlight) (ht : s.q.heap timer = some t)
    (hs : s.step (.addTimerInLoop timer now) = some s') :
    s'.q.timerfd_ = s.q.timerfdFor t.expiration_ now := by
  have hrun := h.rep.addTimerInLoop_timerfd (h.apart timer (List.mem_append_left _ hin)) ht now
  have hlog : addLogged s.q timer now = _ :=
    bind_eq_ok.mpr ⟨t, deref_of_heap ht, bind_eq_ok.mpr ⟨_, hrun, rfl⟩⟩
  simp only [TimerState.step, h.fault, userStep, hlog, after_ok] at hs
  split at hs
  · cases hs
  · split at hs
    · cases hs
      rfl
    · cases hs

theorem Sound.addTimer_timerfd (h : s.Sound) {timer : Addr} {when now : Timestamp}
    {interval : Interval} (ha : s.q.Allocatable timer)
    (hs : s.step (.addTimer timer when interval now) = some s') :
    s'.q.timerfd_ = (s.q.newTimer timer when interval).timerfdFor when now := by
  obtain ⟨hfree, -, hlt⟩ := ha
  have hself : (s.q.newTimer timer when interval).heap timer =
      some (.new when interval (s.q.s_numCreated_ + 1)) := newTimer_heap_self
  have hrun := (h.rep.newTimer hfree hlt when interval).addTimerInLoop_timerfd
    (h.rep.apart_newTimer hfree when interval) hself now
  have hlog : addLogged (s.q.newTimer timer when interval) timer now = _ :=
    bind_eq_ok.mpr ⟨_, deref_of_heap hself, bind_eq_ok.mpr ⟨_, hrun, rfl⟩⟩
  simp only [TimerState.step, h.fault, userStep, hlog, after_ok] at hs
  split at hs
  · cases hs
  · split at hs
    · cases hs
      rfl
    · cases hs

theorem Sound.endRead_timerfd (h : s.Sound) {now clock : Timestamp} {done : List Entry}
    (hpc : s.pc = .calling now done []) (hs : s.step (.endRead clock) = some s') :
    s'.q.timerfd_ = TimerQueue.timerfdNext { s'.q with timerfd_ := s.q.timerfd_ } clock := by
  have hexp : s.pc.expired = done := by simp [hpc, TimerPc.expired]
  obtain ⟨hnd, hout⟩ := hexp ▸ h.expired
  obtain ⟨q', hrun, -⟩ := h.rep.endExpired_spec hout hnd now clock
  simp only [TimerState.step, h.fault, readStep, hpc, hrun, after_ok] at hs
  cases hs
  exact h.rep.endExpired_timerfd hout hnd hrun

/-- Each step keeps the invariant. -/
theorem Armed.step (h : s.Armed) (hsound : s.Sound) (hclock : s.clockPositive a = true)
    (hs : s.step a = some s') : s'.Armed := by
  cases hsound.move hs with
  | newTimer | newElsewhere => exact ⟨h.wakes, h.now⟩
  | @addTimerInLoop timer now t fd hpc hin ht =>
    have hfd : fd = _ := hsound.addTimerInLoop_timerfd hin ht hs
    subst hfd
    exact ⟨h.link (of_decide_eq_true hclock) ⟨rfl, rfl⟩, h.now⟩
  | @addTimer timer when interval now t fd hpc ha ht =>
    have hfd : fd = _ := hsound.addTimer_timerfd ha hs
    subst hfd ht
    exact ⟨h.link (of_decide_eq_true hclock) ⟨rfl, rfl⟩, h.now⟩
  | cancelHeld hpc hk hseq =>
    exact ⟨fun entry he => h.wakes entry (OrderedSet.mem_erase.mp he).2, h.now⟩
  | cancelAbsent hpc hk =>
    dsimp only
    split <;> exact ⟨h.wakes, h.now⟩
  | timerfdExpires => exact ⟨fun _ _ _ => .inl rfl, h.now⟩
  | @handleRead now q' hpc hcut hcalling hcanceling =>
    have hnow : 0 < now := of_decide_eq_true hclock
    refine ⟨?_, ?_⟩
    · -- what is left expires after `now`
      intro entry he hfirst
      obtain ⟨t, ht, hte⟩ := hcut.rep.mem_timers.mp he
      have hlt := ((hcut.holds _ t).mp ht).2
      rw [hte] at hlt
      exact absurd (hfirst.resolve_left nofun) (hnow.trans hlt).not_ge
    · intro now' done todo heq
      cases heq
      exact hnow
  | @runNext now done todo entry t hpc ht =>
    refine ⟨?_, ?_⟩
    · intro other ho hfirst
      exact h.wakes other ho (.inr (hfirst.resolve_left nofun))
    · intro now' done' todo' heq
      cases heq
      exact h.now _ _ _ hpc
  | @endRead now clock done q' hpc hr =>
    refine ⟨?_, by intro _ _ _ heq; cases heq⟩
    have hfd : q'.timerfd_ = _ := hsound.endRead_timerfd hpc hs
    -- a timer with an invalid expiration was there before `reset`
    have hold : ∀ entry ∈ q'.timers_, entry.first ≤ 0 → s.q.timerfd_.Wakes entry.first := by
      intro entry he hle
      obtain ⟨t, ht, hte⟩ := hr.rep.mem_timers.mp he
      by_cases hb : entry.second ∈ done.map Pair.second
      · obtain ⟨u, hu⟩ := (hsound.expired.2 _ (by simpa [hpc, TimerPc.expired] using hb)).1
        have hset := hr.settles _ hb u hu
        split at hset
        · next hre =>
          rw [ht.inj hset.1, Timer.restart, if_pos hre.1] at hte
          have hnow : 0 < addTime now u.interval_ :=
            Int.add_pos_of_pos_of_nonneg (h.now _ _ _ hpc) (Int.natCast_nonneg _)
          exact absurd (hte.le.trans hle) hnow.not_ge
        · cases hset.symm.trans ht.1
      · have ht := (hr.holds _ hb t).mp ht
        exact h.wakes entry (hsound.rep.mem_timers.mpr ⟨t, ht, hte⟩) (.inr hle)
    intro entry he _
    rw [hfd, TimerQueue.timerfdNext]
    cases hb : q'.timers_.begin with
    | none =>
      rw [OrderedSet.begin_eq_none.mp hb] at he
      exact absurd he OrderedSet.not_mem_empty
    | some first =>
      have hmin := Pair.first_le_of_le (OrderedSet.begin_le hb he)
      dsimp only
      split
      · exact (resetTimerfd_wakes (of_decide_eq_true hclock)).mono hmin
      · next hv =>
        have hle : first.first ≤ 0 := by simpa [Timestamp.valid] using hv
        exact (hold first (OrderedSet.mem_of_begin hb) hle).mono hmin

end TimerState

/-- The timer queue among its callers, with a clock that reads positive times. -/
def clockedTimerQueue : Machine TimerState TimerAct :=
  timerQueue.restrict TimerState.clockPositive

/-- **A waiting timer has the timerfd set for it.** In every reachable state outside `handleRead`
with a timer in `timers_`, the timerfd is readable, or armed by a `resetTimerfd` for a time no later
than any expiration in `timers_`. And every `itimerspec` that `resetTimerfd` passes on is normalized
and not zero, so that it arms the timerfd. -/
theorem waiting_timer_is_armed {s : TimerState} (h : clockedTimerQueue.Reachable s) :
    (s.pc = .idle → s.q.timers_ ≠ .empty → s.q.timerfd_.readable = true ∨
      ∃ e now, 0 < now ∧ s.q.timerfd_ = resetTimerfd e now ∧ ∀ entry ∈ s.q.timers_, e ≤ entry.first) ∧
    ∀ e now : Int, (resetTimerfd e now).armed = some (e, howMuchTimeFromNow e now) ∧
      0 ≤ (howMuchTimeFromNow e now).tv_sec ∧ 0 ≤ (howMuchTimeFromNow e now).tv_nsec ∧
      (howMuchTimeFromNow e now).tv_nsec < 1000000000 ∧
      (howMuchTimeFromNow e now).tv_sec * 1000000000 + (howMuchTimeFromNow e now).tv_nsec =
        max (e - now) 100 * 1000 := by
  refine ⟨?_, fun e now => ⟨resetTimerfd_armed e now, howMuchTimeFromNow_spec e now⟩⟩
  intro hpc hne
  obtain ⟨-, harmed⟩ := h.invariant (fun s => s.Sound ∧ s.Armed)
    (by rintro _ rfl; exact ⟨TimerState.start_sound, TimerState.start_armed⟩)
    fun _ _ _ ⟨hsound, harmed⟩ hs =>
      have ⟨hclock, hs⟩ := Machine.restrict_step.mp hs
      ⟨hsound.step hs, harmed.step hsound hclock hs⟩
  cases hb : s.q.timers_.begin with
  | none => exact absurd (OrderedSet.begin_eq_none.mp hb) hne
  | some first =>
    rcases harmed.wakes first (OrderedSet.mem_of_begin hb) (.inl hpc) with hr | ⟨e, now, hnow, hfd, he⟩
    · exact .inl hr
    · refine .inr ⟨e, now, hnow, hfd, ?_⟩
      intro entry hentry
      exact he.trans (Pair.first_le_of_le (OrderedSet.begin_le hb hentry))

/-- A timer that expired long ago, added in a callback: `reset` passes it over. -/
theorem waiting_timer_is_armed_invalid : ∃ s, clockedTimerQueue.Reachable s ∧
    s.q.timers_.toList = [⟨-5, 2⟩] ∧ (s.q.timerfd_.readable = true ∨
      ∃ e now, 0 < now ∧ s.q.timerfd_ = resetTimerfd e now ∧ ∀ entry ∈ s.q.timers_, e ≤ entry.first) := by
  have hreach : clockedTimerQueue.Reachable _ := ⟨.start, [.addTimer 1 5 ⟨0, false, by simp⟩ 1,
    .timerfdExpires, .handleRead 10, .runNext, .addTimer 2 (-5) ⟨0, false, by simp⟩ 10, .endRead 11],
    rfl, rfl⟩
  refine ⟨_, hreach, rfl, (waiting_timer_is_armed hreach).1 rfl ?_⟩
  intro hempty
  exact absurd (congrArg OrderedSet.toList hempty) (by decide)

end Netfish
