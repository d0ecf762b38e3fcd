import Netfish.Timer.Rep
import Netfish.Timer.Threads

/-!
# Every state of a timer queue is sound

`Sound` is the invariant of the machine: no fault, the two sets in step, and the timers on their way
(sent over by `addTimer`, or in the batch of `handleRead`) live, distinct and in neither set. From a
sound state every step succeeds, and `TimerMove` says with what result.
-/

set_option autoImplicit false

namespace Netfish

open Kit TimerQueue

namespace TimerState

/-- The timers that are in neither set but will still be used. -/
def onTheirWay (s : TimerState) : List Addr := s.inFlight ++ s.pc.expired.map Pair.second

structure Sound (s : TimerState) : Prop where
  fault : s.fault = none
  rep : s.q.Rep
  nodup : s.onTheirWay.Nodup
  apart : ∀ a ∈ s.onTheirWay, s.q.Apart a
  calling : s.q.callingExpiredTimers_ = s.pc.isCalling

theorem start_sound : start.Sound where
  fault := rfl
  rep := new_rep
  nodup := .nil
  apart _ h := absurd h List.not_mem_nil
  calling := rfl

end TimerState

/-- What each step does to a sound state. -/
inductive TimerMove (s : TimerState) : TimerAct → TimerState → Prop
  | newTimer {timer : Addr} {when : Timestamp} {interval : Interval}
      (h : s.q.Allocatable timer) :
      TimerMove s (.newTimer timer when interval)
        { s with q := s.q.newTimer timer when interval, inFlight := timer :: s.inFlight }
  | newElsewhere :
      TimerMove s .newElsewhere { s with q := { s.q with s_numCreated_ := s.q.s_numCreated_ + 1 } }
  | addTimerInLoop {timer : Addr} {now : Timestamp} {t : Timer} {fd : TimerFd}
      (hpc : s.pc = .idle) (h : timer ∈ s.inFlight) (ht : s.q.heap timer = some t) :
      TimerMove s (.addTimerInLoop timer now) { s with
        q := { s.q.link timer t with timerfd_ := fd }
        inFlight := s.inFlight.erase timer
        log := s.log ++ [.added timer t] }
  | addTimer {timer : Addr} {when : Timestamp} {interval : Interval} {now : Timestamp}
      {t : Timer} {fd : TimerFd} (hpc : s.pc.inUserCode = true) (h : s.q.Allocatable timer)
      (ht : t = .new when interval (s.q.s_numCreated_ + 1)) :
      TimerMove s (.addTimer timer when interval now) { s with
        q := { (s.q.newTimer timer when interval).link timer t with timerfd_ := fd }
        log := s.log ++ [.added timer t] }
  | cancelHeld {id : TimerId} {t : Timer} (hpc : s.pc.inUserCode = true)
      (h : s.q.Holds id.timer_ t) (hseq : t.sequence_ = id.sequence_) :
      TimerMove s (.cancelInLoop id) { s with
        q := s.q.unlink id.timer_ t
        log := s.log ++ [.cancelled id.key] }
  | cancelAbsent {id : TimerId} (hpc : s.pc.inUserCode = true)
      (h : id.key ∉ s.q.activeTimers_) :
      TimerMove s (.cancelInLoop id) { s with
        q := if s.q.callingExpiredTimers_ then
          { s.q with cancelingTimers_ := (s.q.cancelingTimers_.insert id.key).1 } else s.q
        log := s.log ++ [.cancelled id.key] }
  | timerfdExpires :
      TimerMove s .timerfdExpires { s with q := { s.q with timerfd_ := ⟨none, true⟩ } }
  | handleRead {now : Timestamp} {q' : TimerQueue} (hpc : s.pc = .idle) (h : s.q.Cut now q')
      (hcalling : q'.callingExpiredTimers_ = true) (hcanceling : q'.cancelingTimers_ = .empty) :
      TimerMove s (.handleRead now)
        { s with q := q', pc := .calling now [] (s.q.expiredAt now) }
  | runNext {now : Timestamp} {done todo : List Entry} {entry : Entry} {t : Timer}
      (hpc : s.pc = .calling now done (entry :: todo)) (ht : s.q.heap entry.second = some t) :
      TimerMove s .runNext { s with
        pc := .calling now (done ++ [entry]) todo
        log := s.log ++ [.started ⟨entry.second, t.sequence_⟩] }
  | endRead {now clock : Timestamp} {done : List Entry} {q' : TimerQueue}
      (hpc : s.pc = .calling now done [])
      (h : Reset { s.q with callingExpiredTimers_ := false } now done q') :
      TimerMove s (.endRead clock) { s with q := q', pc := .idle }

namespace TimerState

variable {s s' : TimerState} {a : TimerAct}

theorem addLogged_eq {q : TimerQueue} {timer : Addr} {t : Timer} (h : q.Rep) (ha : q.Apart timer)
    (ht : q.heap timer = some t) (now : Timestamp) :
    ∃ fd, addLogged q timer now = .ok ({ q.link timer t with timerfd_ := fd }, .added timer t) := by
  obtain ⟨fd, hfd⟩ := h.addTimerInLoop_eq ha ht now
  exact ⟨fd, bind_eq_ok.mpr ⟨t, deref_of_heap ht, bind_eq_ok.mpr ⟨_, hfd, rfl⟩⟩⟩

/-- The entries of the batch are live, distinct and in neither set. -/
theorem Sound.expired (h : s.Sound) :
    (s.pc.expired.map Pair.second).Nodup ∧
      ∀ b ∈ s.pc.expired.map Pair.second, s.q.Apart b :=
  ⟨h.nodup.of_append_right, fun b hb => h.apart b (List.mem_append_right _ hb)⟩

theorem Sound.userStep_move (h : s.Sound) (hs : s.userStep a = some s') : TimerMove s a s' := by
  unfold userStep at hs
  split at hs
  · split at hs
    · next hc => cases hs; exact .newTimer hc
    · cases hs
  · cases hs; exact .newElsewhere
  · split at hs
    · next timer now hc =>
      have ha := h.apart timer (List.mem_append_left _ hc.2)
      obtain ⟨t, ht⟩ := ha.1
      obtain ⟨fd, hrun⟩ := addLogged_eq h.rep ha ht now
      rw [hrun] at hs
      cases hs
      exact .addTimerInLoop hc.1 hc.2 ht
    · cases hs
  · split at hs
    · next timer when interval now hc =>
      obtain ⟨hfree, -, hlt⟩ := hc.2
      obtain ⟨fd, hrun⟩ := addLogged_eq (h.rep.newTimer hfree hlt when interval)
        (h.rep.apart_newTimer hfree when interval) newTimer_heap_self now
      rw [hrun] at hs
      cases hs
      exact .addTimer hc.1 hc.2 rfl
    · cases hs
  · split at hs
    · next id hc =>
      by_cases hk : id.key ∈ s.q.activeTimers_
      · obtain ⟨t, ht, hseq⟩ := h.rep.active_iff.mp hk
        rw [h.rep.cancel_held ht hseq] at hs
        cases hs
        exact .cancelHeld hc ht hseq
      · rw [h.rep.cancel_absent hk] at hs
        cases hs
        exact .cancelAbsent hc hk
    · cases hs
  · split at hs
    · cases hs; exact .timerfdExpires
    · cases hs
  · cases hs

theorem Sound.readStep_move (h : s.Sound) (hs : s.readStep a = some s') : TimerMove s a s' := by
  unfold readStep at hs
  split at hs
  · next now hpc =>
    obtain ⟨q', hrun, hcut, hcalling, hcanceling⟩ := h.rep.beginExpired_spec now
    rw [hrun] at hs
    cases hs
    exact .handleRead hpc hcut hcalling hcanceling
  · next now done entry todo hpc =>
    have hmem : entry.second ∈ s.pc.expired.map Pair.second := by
      simp [hpc, TimerPc.expired]
    obtain ⟨t, ht⟩ := (h.expired.2 _ hmem).1
    have hrun : runLogged s.q entry = .ok (.started ⟨entry.second, t.sequence_⟩) :=
      bind_eq_ok.mpr ⟨t, deref_of_heap ht, rfl⟩
    rw [hrun] at hs
    cases hs
    exact .runNext hpc ht
  · next clock now done hpc =>
    have hexp : s.pc.expired = done := by simp [hpc, TimerPc.expired]
    obtain ⟨hnd, hout⟩ := hexp ▸ h.expired
    obtain ⟨q', hrun, hr⟩ := h.rep.endExpired_spec hout hnd now clock
    rw [hrun] at hs
    cases hs
    exact .endRead hpc hr
  · cases hs

/-- From a sound state a step gets past every assertion and pointer. -/
theorem Sound.move (h : s.Sound) (hs : s.step a = some s') : TimerMove s a s' := by
  unfold step at hs
  split at hs
  · cases hs
  split at hs
  all_goals first
    | exact h.readStep_move hs
    | exact h.userStep_move hs

/-- Each step keeps the invariant. -/
theorem Sound.step (h : s.Sound) (hs : s.step a = some s') : s'.Sound := by
  cases h.move hs with
  | @newTimer timer when interval ha =>
    obtain ⟨hfree, -, hlt⟩ := ha
    have hnot : timer ∉ s.onTheirWay := fun hm => by
      obtain ⟨t, ht⟩ := (h.apart timer hm).1
      exact nomatch hfree.symm.trans ht
    refine ⟨h.fault, h.rep.newTimer hfree hlt when interval, h.nodup.cons hnot, ?_, h.calling⟩
    intro b hb
    rcases List.mem_cons.mp hb with rfl | hb
    · exact h.rep.apart_newTimer hfree when interval
    · exact (h.apart b hb).newTimer hfree when interval
  | newElsewhere | timerfdExpires =>
    exact ⟨h.fault, ⟨h.rep.live, h.rep.filed, h.rep.sizes, h.rep.addr⟩, h.nodup, h.apart,
      h.calling⟩
  | @addTimerInLoop timer now t fd hpc hin ht =>
    have hrep := h.rep.link (h.apart timer (List.mem_append_left _ hin)) ht
    have hexp : s.pc.expired = [] := by simp [hpc, TimerPc.expired]
    have hnd : s.inFlight.Nodup := h.nodup.of_append_left
    have hout : ∀ b ∈ (s.inFlight.erase timer) ++ s.pc.expired.map Pair.second,
        b ≠ timer ∧ b ∈ s.onTheirWay := by
      intro b hb
      simp only [hexp, List.map_nil, List.append_nil, hnd.mem_erase_iff] at hb
      exact ⟨hb.1, List.mem_append_left _ hb.2⟩
    refine ⟨h.fault, ⟨hrep.live, hrep.filed, hrep.sizes, hrep.addr⟩, ?_, ?_, h.calling⟩
    · exact h.nodup.sublist (List.erase_sublist.append (List.Sublist.refl _))
    · intro b hb
      exact (h.apart b (hout b hb).2).link (hout b hb).1
  | @addTimer timer when interval now t fd hpc ha ht =>
    obtain ⟨hfree, -, hlt⟩ := ha
    have hrep := (h.rep.newTimer hfree hlt when interval).link
      (h.rep.apart_newTimer hfree when interval) newTimer_heap_self
    cases ht
    refine ⟨h.fault, ⟨hrep.live, hrep.filed, hrep.sizes, hrep.addr⟩, h.nodup, ?_, h.calling⟩
    intro b hb
    have hba : b ≠ timer := by
      rintro rfl
      obtain ⟨t, ht⟩ := (h.apart b hb).1
      exact nomatch hfree.symm.trans ht
    exact ((h.apart b hb).newTimer hfree when interval).link hba
  | cancelHeld hpc hk hseq =>
    exact ⟨h.fault, h.rep.unlink hk, h.nodup, fun b hb => (h.apart b hb).unlink hk, h.calling⟩
  | cancelAbsent hpc hk =>
    refine ⟨h.fault, ?_, h.nodup, fun b hb => ?_, ?_⟩
    all_goals dsimp only; split
    · exact ⟨h.rep.live, h.rep.filed, h.rep.sizes, h.rep.addr⟩
    · exact h.rep
    · exact h.apart b hb
    · exact h.apart b hb
    · exact h.calling
    · exact h.calling
  | @handleRead now q' hpc hcut hcalling hcanceling =>
    have hexp : s.pc.expired = [] := by simp [hpc, TimerPc.expired]
    have hnd : s.inFlight.Nodup := h.nodup.of_append_left
    -- the timers in flight were in neither set, those that expired were in both
    have hin : ∀ b ∈ s.inFlight, s.q.Apart b := fun b hb => h.apart b (List.mem_append_left _ hb)
    have hheld : ∀ b ∈ (s.q.expiredAt now).map Pair.second,
        ∃ t, s.q.Holds b t ∧ t.expiration_ ≤ now := by
      intro b hb
      obtain ⟨⟨e, _⟩, he, rfl⟩ := List.mem_map.mp hb
      obtain ⟨t, ht, rfl, hle⟩ := h.rep.mem_expiredAt.mp he
      exact ⟨t, ht, hle⟩
    have hstay : ∀ b, (∃ t, s.q.heap b = some t) → (∀ t, s.q.Holds b t → t.expiration_ ≤ now) →
        q'.Apart b := by
      intro b hb hle
      refine ⟨by rw [hcut.heap]; exact hb, ?_⟩
      intro e hm
      obtain ⟨u, hu, -⟩ := hcut.rep.mem_timers.mp hm
      obtain ⟨hu, hlt⟩ := (hcut.holds b u).mp hu
      exact not_lt.mpr (hle u hu) hlt
    refine ⟨h.fault, hcut.rep, ?_, ?_, hcalling⟩
    · refine List.nodup_append'.mpr ⟨hnd, ?_, ?_⟩
      · exact h.rep.nodup_addresses (s.q.timers_.before_sorted _ |>.imp ne_of_lt)
          fun entry he => (OrderedSet.mem_before.mp he).1
      · intro b hb hb'
        obtain ⟨t, ht, -⟩ := hheld b hb'
        exact ht.not_apart (hin b hb)
    · intro b hb
      rcases List.mem_append.mp hb with hb | hb
      · exact hstay b (hin b hb).1 fun t ht => absurd (hin b hb) ht.not_apart
      · obtain ⟨t, ht, hle⟩ := hheld b hb
        exact hstay b ⟨t, ht.1⟩ fun u hu => ht.inj hu.1 ▸ hle
  | @runNext now done todo entry t hpc ht =>
    have hexp : done ++ [entry] ++ todo = s.pc.expired := by simp [hpc, TimerPc.expired]
    have hway : s.inFlight ++ (done ++ [entry] ++ todo).map Pair.second = s.onTheirWay := by
      rw [hexp, onTheirWay]
    refine ⟨h.fault, h.rep, ?_, ?_, ?_⟩
    · exact (congrArg List.Nodup hway).mpr h.nodup
    · intro b hb
      exact h.apart b ((congrArg (b ∈ ·) hway).mp hb)
    · rw [h.calling, hpc]
      rfl
  | @endRead now clock done q' hpc hr =>
    have hexp : s.pc.expired = done := by simp [hpc, TimerPc.expired]
    have hway : s.onTheirWay = s.inFlight ++ done.map Pair.second := by rw [onTheirWay, hexp]
    refine ⟨h.fault, hr.rep, ?_, ?_, hr.calling⟩
    · exact h.nodup.sublist (List.Sublist.append (List.Sublist.refl _) (List.nil_sublist _))
    · intro b hb
      have hb : b ∈ s.inFlight := by simpa [onTheirWay, TimerPc.expired] using hb
      have hnot : b ∉ done.map Pair.second := fun hd =>
        (List.nodup_append'.mp (hway ▸ h.nodup)).2.2 hb hd
      obtain ⟨hlive, hout⟩ := h.apart b (List.mem_append_left _ hb)
      refine ⟨by rw [hr.heap b hnot]; exact hlive, ?_⟩
      intro e hm
      obtain ⟨u, hu, -⟩ := hr.rep.mem_timers.mp hm
      exact hout _ ((hr.holds b hnot u).mp hu).2

theorem sound_of_reachable (h : timerQueue.Reachable s) : s.Sound :=
  h.invariant Sound (by rintro _ rfl; exact start_sound) fun _ _ _ => Sound.step

end TimerState

/-- **The representation of a timer queue.** In every reachable state, also inside a callback, no
assertion has failed and no dangling pointer was used; `timers_` holds `(e, t)` exactly when
`activeTimers_` holds `(t, t->sequence())` and `e` is the expiration of `t`; each timer is in either
set at most once; and the sets have the same size. -/
theorem timers_and_activeTimers_agree {s : TimerState} (h : timerQueue.Reachable s) :
    s.fault = none ∧
    (∀ e a, ⟨e, a⟩ ∈ s.q.timers_ ↔
      ∃ t, s.q.heap a = some t ∧ ⟨a, t.sequence_⟩ ∈ s.q.activeTimers_ ∧ e = t.expiration_) ∧
    (∀ a n, ⟨a, n⟩ ∈ s.q.activeTimers_ →
      ∃ t, s.q.heap a = some t ∧ t.sequence_ = n ∧ ⟨t.expiration_, a⟩ ∈ s.q.timers_) ∧
    (∀ e e' a, ⟨e, a⟩ ∈ s.q.timers_ → ⟨e', a⟩ ∈ s.q.timers_ → e = e') ∧
    (∀ n n' a, ⟨a, n⟩ ∈ s.q.activeTimers_ → ⟨a, n'⟩ ∈ s.q.activeTimers_ → n = n') ∧
    s.q.timers_.size = s.q.activeTimers_.size := by
  obtain ⟨hfault, hrep, -⟩ := TimerState.sound_of_reachable h
  refine ⟨hfault, fun e a => ⟨?_, ?_⟩, hrep.filed, ?_, ?_, hrep.sizes⟩
  · intro hm
    obtain ⟨t, ht, he, hact⟩ := hrep.live e a hm
    exact ⟨t, ht, hact, he.symm⟩
  · rintro ⟨t, ht, hact, rfl⟩
    exact ((hrep.mem_active ht).mp hact).2
  · intro e e' a hm hm'
    obtain ⟨t, ht, rfl, -⟩ := hrep.live e a hm
    obtain ⟨u, hu, rfl, -⟩ := hrep.live e' a hm'
    rw [Option.some.inj (ht.symm.trans hu)]
  · intro n n' a hm hm'
    obtain ⟨t, ht, rfl, -⟩ := hrep.filed a n hm
    obtain ⟨u, hu, rfl, -⟩ := hrep.filed a n' hm'
    rw [Option.some.inj (ht.symm.trans hu)]

/-- A callback that adds a timer, while its own timer is in neither set. -/
theorem timers_and_activeTimers_agree_callback :
    ∃ s, timerQueue.Reachable s ∧ s.pc = .calling 10 [⟨5, 1⟩] [] ∧ s.q.timers_.toList = [⟨20, 2⟩] ∧
      s.q.timers_.size = s.q.activeTimers_.size := by
  refine ⟨_, ⟨.start, [.addTimer 1 5 ⟨3, true, by simp⟩ 0, .timerfdExpires, .handleRead 10, .runNext,
    .addTimer 2 20 ⟨0, false, by simp⟩ 10], rfl, rfl⟩, rfl, rfl, ?_⟩
  exact (timers_and_activeTimers_agree (s := _) ⟨.start, [.addTimer 1 5 ⟨3, true, by simp⟩ 0,
    .timerfdExpires, .handleRead 10, .runNext, .addTimer 2 20 ⟨0, false, by simp⟩ 10],
    rfl, rfl⟩).2.2.2.2.2

end Netfish
