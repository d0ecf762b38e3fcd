import Netfish.Kit.History
import Netfish.Timer.Sound

/-!
# A whole batch

`BatchSpec` is what one call of `handleRead` does, as a relation between the queue at its entry, the
events of the call and the queue at its end. `handleRead_batch` proves it for every behaviour of the
callbacks, and that every call comes to its end.

`InBatch` carries the relation through the call: at every point between two steps the queue holds
the unexpired timers of the entry and those the callbacks added, less those they cancelled.
-/

set_option autoImplicit false

namespace Netfish

open Kit TimerQueue

/-- The callbacks a history starts, in order. -/
def startedKeys (l : List TimerEvent) : List ActiveTimer :=
  l.filterMap fun
    | .started key => some key
    | _ => none

@[simp] theorem startedKeys_append (l l' : List TimerEvent) :
    startedKeys (l ++ l') = startedKeys l ++ startedKeys l' := List.filterMap_append ..

@[simp] theorem startedKeys_started (key : ActiveTimer) :
    startedKeys [.started key] = [key] := rfl

@[simp] theorem startedKeys_added (a : Addr) (t : Timer) : startedKeys [.added a t] = [] := rfl

@[simp] theorem startedKeys_cancelled (key : ActiveTimer) :
    startedKeys [.cancelled key] = [] := rfl

namespace TimerQueue

/-- The key of the timer that is filed under this entry. -/
def keyAt (q : TimerQueue) (entry : Entry) : ActiveTimer :=
  ⟨entry.second, ((q.heap entry.second).map Timer.sequence_).getD 0⟩

/-- The timers that stay in the queue up to some point of a batch that is worked off at `now`: those
not expired when it began and those added since, unless cancelled. -/
def Present (q : TimerQueue) (now : Timestamp) (l : List TimerEvent) (a : Addr) (t : Timer) : Prop :=
  (q.Holds a t ∧ now < t.expiration_ ∧ .cancelled ⟨a, t.sequence_⟩ ∉ l) ∨
    Standing (.added a t) (.cancelled ⟨a, t.sequence_⟩) l

/-- One call of `handleRead` at `now`, from `q` to `q'`, with the events `l`. -/
structure BatchSpec (q : TimerQueue) (now : Timestamp) (l : List TimerEvent) (q' : TimerQueue) :
    Prop where
  /-- Exactly the timers with an expiration up to `now` are run ... -/
  ran : ∀ key, key ∈ startedKeys l ↔
    ∃ t, q.Holds key.first t ∧ t.sequence_ = key.second ∧ t.expiration_ ≤ now
  /-- ... each once ... -/
  once : (startedKeys l).Nodup
  /-- ... in the order of their expirations. -/
  order : (startedKeys l).Pairwise fun key key' =>
    ∀ t t', q.Holds key.first t → q.Holds key'.first t' → t.expiration_ ≤ t'.expiration_
  /-- The timers in the queue at the end: the ones that stayed, and each expired one that repeats
  and was not cancelled, at `now + interval`. -/
  holds : ∀ a t, q'.Holds a t ↔ q.Present now l a t ∨
    ∃ u, q.Holds a u ∧ u.expiration_ ≤ now ∧ u.repeat_ = true ∧
      .cancelled ⟨a, u.sequence_⟩ ∉ l ∧ t = { u with expiration_ := now + u.interval_ }
  /-- `timers_` holds nothing else. -/
  timers : ∀ e a, ⟨e, a⟩ ∈ q'.timers_ ↔ ∃ t, q'.Holds a t ∧ t.expiration_ = e

variable {q : TimerQueue} {now : Timestamp} {l : List TimerEvent} {a : Addr} {t : Timer}

theorem present_concat {x : TimerEvent} : q.Present now (l ++ [x]) a t ↔
    x = .added a t ∨ q.Present now l a t ∧ x ≠ .cancelled ⟨a, t.sequence_⟩ := by
  simp only [Present, standing_concat, List.mem_append, List.mem_singleton, not_or]
  constructor
  · rintro (⟨hu, hlt, hl, hx⟩ | rfl | ⟨hst, hx⟩)
    · exact .inr ⟨.inl ⟨hu, hlt, hl⟩, Ne.symm hx⟩
    · exact .inl rfl
    · exact .inr ⟨.inr hst, hx⟩
  · rintro (rfl | ⟨⟨hu, hlt, hl⟩ | hst, hx⟩)
    · exact .inr (.inl rfl)
    · exact .inl ⟨hu, hlt, hl, Ne.symm hx⟩
    · exact .inr (.inr ⟨hst, hx⟩)

theorem keyAt_of_heap {e : Entry} (h : q.heap e.second = some t) :
    q.keyAt e = ⟨e.second, t.sequence_⟩ := by
  rw [keyAt, h]
  rfl

/-- The keys of the expired entries: which they are. -/
theorem Rep.mem_expired_keys (h : q.Rep) {key : ActiveTimer} :
    key ∈ (q.expiredAt now).map q.keyAt ↔
      ∃ t, q.Holds key.first t ∧ t.sequence_ = key.second ∧ t.expiration_ ≤ now := by
  constructor
  · intro hk
    obtain ⟨⟨e, b⟩, he, rfl⟩ := List.mem_map.mp hk
    obtain ⟨t, ht, rfl, hle⟩ := h.mem_expiredAt.mp he
    rw [keyAt_of_heap (e := ⟨_, b⟩) ht.1]
    exact ⟨t, ht, rfl, hle⟩
  · rintro ⟨t, ht, hseq, hle⟩
    refine List.mem_map.mpr ⟨⟨t.expiration_, key.first⟩, h.mem_expiredAt.mpr ⟨t, ht, rfl, hle⟩, ?_⟩
    rw [keyAt_of_heap (e := ⟨_, key.first⟩) ht.1, hseq]

theorem Rep.nodup_expired (h : q.Rep) : ((q.expiredAt now).map Pair.second).Nodup :=
  h.nodup_addresses (q.timers_.before_sorted _ |>.imp ne_of_lt)
    fun _ he => (OrderedSet.mem_before.mp he).1

theorem Rep.expired_keys_nodup (h : q.Rep) : ((q.expiredAt now).map q.keyAt).Nodup := by
  refine List.Nodup.of_map Pair.first ?_
  rw [List.map_map]
  exact h.nodup_expired

/-- The entries are sorted, so their timers come in the order of expiration. -/
theorem Rep.expired_keys_order (h : q.Rep) :
    ((q.expiredAt now).map q.keyAt).Pairwise fun key key' =>
      ∀ t t', q.Holds key.first t → q.Holds key'.first t' → t.expiration_ ≤ t'.expiration_ := by
  refine List.pairwise_map.mpr ((q.timers_.before_sorted _).imp_of_mem ?_)
  intro x y hx hy hlt t t' ht ht'
  obtain ⟨u, hu, hue, -⟩ := h.mem_expiredAt.mp hx
  obtain ⟨u', hu', hue', -⟩ := h.mem_expiredAt.mp hy
  rw [ht.inj hu.1, ht'.inj hu'.1, hue, hue']
  exact Pair.first_le_of_lt hlt

end TimerQueue

namespace TimerState

/-- Inside a call of `handleRead` that began in `s₀`, after the events `l`. -/
structure InBatch (s₀ : TimerState) (now : Timestamp) (l : List TimerEvent) (s : TimerState) :
    Prop where
  pc : ∃ done todo, s.pc = .calling now done todo ∧ done ++ todo = s₀.q.expiredAt now ∧
    startedKeys l = done.map s₀.q.keyAt
  log : s.log = s₀.log ++ l
  heap : ∀ b ∈ (s₀.q.expiredAt now).map Pair.second, s.q.heap b = s₀.q.heap b
  holds : ∀ a t, s.q.Holds a t ↔ s₀.q.Present now l a t
  canceling : ∀ b ∈ (s₀.q.expiredAt now).map Pair.second, ∀ n,
    ⟨b, n⟩ ∈ s.q.cancelingTimers_ ↔ .cancelled ⟨b, n⟩ ∈ l

variable {s₀ s s' : TimerState} {now : Timestamp} {l : List TimerEvent} {a : TimerAct}

/-- The call begins with no event. -/
theorem inBatch_start (h₀ : s₀.Sound) (hs : s₀.step (.handleRead now) = some s) :
    s₀.InBatch now [] s := by
  cases h₀.move hs with
  | handleRead hpc hcut hcalling hcanceling =>
    refine ⟨⟨[], _, rfl, rfl, rfl⟩, (List.append_nil _).symm, fun _ _ => by rw [hcut.heap], ?_, ?_⟩
    · intro a t
      rw [hcut.holds, Present]
      refine ⟨fun ⟨hu, hlt⟩ => .inl ⟨hu, hlt, List.not_mem_nil⟩, ?_⟩
      rintro (⟨hu, hlt, -⟩ | hst)
      · exact ⟨hu, hlt⟩
      · exact absurd hst not_standing_nil
    · intro b _ n
      simp [hcanceling]

/-- The timers of the batch are in neither set. -/
theorem InBatch.apart (h : s₀.InBatch now l s) (hs : s.Sound) {b : Addr}
    (hb : b ∈ (s₀.q.expiredAt now).map Pair.second) : s.q.Apart b := by
  obtain ⟨done, todo, hpc, hsplit, -⟩ := h.pc
  refine hs.expired.2 b ?_
  rw [hpc, TimerPc.expired, hsplit]
  exact hb

/-- An event that changes neither the batch nor the queue. -/
theorem InBatch.started {l : List TimerEvent} {key : ActiveTimer} :
    s₀.q.Present now (l ++ [.started key]) = s₀.q.Present now l := by
  funext a t
  rw [present_concat]
  simp

/-- Each step before the end keeps the relation. -/
theorem InBatch.step (h : s₀.InBatch now l s) (hsound : s.Sound) (hs : s.step a = some s')
    (hend : ∀ clock, a ≠ .endRead clock) : ∃ l', s₀.InBatch now l' s' := by
  obtain ⟨done, todo, hpc, hsplit, hran⟩ := h.pc
  cases hsound.move hs with
  | @newTimer timer when interval ha =>
    refine ⟨l, ⟨done, todo, hpc, hsplit, hran⟩, h.log, ?_, ?_, h.canceling⟩
    · intro b hb
      have hne : b ≠ timer := by
        rintro rfl
        obtain ⟨t, ht⟩ := (h.apart hsound hb).1
        exact nomatch ha.1.symm.trans ht
      rw [newTimer_heap_ne hne, h.heap b hb]
    · intro b t
      rw [hsound.rep.holds_newTimer ha.1, h.holds]
  | newElsewhere => exact ⟨l, ⟨done, todo, hpc, hsplit, hran⟩, h.log, h.heap, h.holds, h.canceling⟩
  | timerfdExpires =>
    exact ⟨l, ⟨done, todo, hpc, hsplit, hran⟩, h.log, h.heap, h.holds, h.canceling⟩
  | addTimerInLoop hidle => rw [hpc] at hidle; cases hidle
  | handleRead hidle => rw [hpc] at hidle; cases hidle
  | endRead => exact absurd rfl (hend _)
  | @addTimer timer when interval clock t fd _ ha ht =>
    have hne : ∀ b ∈ (s₀.q.expiredAt now).map Pair.second, b ≠ timer := by
      rintro b hb rfl
      obtain ⟨t, ht⟩ := (h.apart hsound hb).1
      exact nomatch ha.1.symm.trans ht
    refine ⟨l ++ [.added timer t], ⟨done, todo, hpc, hsplit, by simpa using hran⟩, ?_, ?_, ?_, ?_⟩
    · simp [h.log]
    · intro b hb
      exact (newTimer_heap_ne (hne b hb)).trans (h.heap b hb)
    · intro b u
      have hheap : (s.q.newTimer timer when interval).heap timer = some t :=
        ht ▸ newTimer_heap_self
      refine (holds_link hheap).trans ?_
      rw [hsound.rep.holds_newTimer ha.1, h.holds, present_concat]
      simp [or_comm, eq_comm]
    · intro b hb n
      rw [List.mem_append, ← h.canceling b hb n]
      simp [link, newTimer]
  | @cancelHeld id t _ hk hseq =>
    have hne : ∀ b ∈ (s₀.q.expiredAt now).map Pair.second, b ≠ id.timer_ := by
      rintro b hb rfl
      exact hk.not_apart (h.apart hsound hb)
    refine ⟨l ++ [.cancelled id.key], ⟨done, todo, hpc, hsplit, by simpa using hran⟩, ?_, ?_, ?_,
      ?_⟩
    · simp [h.log]
    · intro b hb
      exact (unlink_heap_ne (hne b hb)).trans (h.heap b hb)
    · intro b u
      rw [present_concat, ← h.holds, holds_unlink hk]
      simp only [reduceCtorEq, false_or, ne_eq, TimerEvent.cancelled.injEq, TimerId.key,
        Pair.mk.injEq, not_and]
      refine and_congr_right fun hu => ⟨fun hb hid _ => hb hid.symm, ?_⟩
      intro hb hid
      subst hid
      exact hb rfl (by rw [← hk.inj hu.1, hseq])
    · intro b hb n
      rw [List.mem_append, ← h.canceling b hb n]
      simp [unlink, TimerId.key, hne b hb]
  | @cancelAbsent id _ hk =>
    have hcalling : s.q.callingExpiredTimers_ = true := by
      rw [hsound.calling, hpc]
      rfl
    refine ⟨l ++ [.cancelled id.key], ⟨done, todo, hpc, hsplit, by simpa using hran⟩, ?_, ?_, ?_,
      ?_⟩
    · simp [h.log]
    · intro b hb
      simpa only [hcalling, if_true] using h.heap b hb
    · intro b u
      rw [present_concat, ← h.holds]
      simp only [hcalling, if_true, reduceCtorEq, false_or, ne_eq, TimerEvent.cancelled.injEq]
      refine ⟨fun hu => ⟨hu, fun hid => hk ?_⟩, fun hu => hu.1⟩
      exact hid ▸ hsound.rep.active_iff.mpr ⟨u, hu, rfl⟩
    · intro b hb n
      rw [List.mem_append, ← h.canceling b hb n]
      simp only [hcalling, if_true, OrderedSet.mem_insert, List.mem_singleton,
        TimerEvent.cancelled.injEq]
      exact or_comm
  | @runNext now' done' todo' entry t hpc' ht =>
    rw [hpc] at hpc'
    cases hpc'
    have hb : entry.second ∈ (s₀.q.expiredAt now).map Pair.second := by
      rw [← hsplit]
      simp
    have hkey : s₀.q.keyAt entry = ⟨entry.second, t.sequence_⟩ :=
      keyAt_of_heap ((h.heap _ hb).symm.trans ht)
    refine ⟨l ++ [.started ⟨entry.second, t.sequence_⟩],
      ⟨done ++ [entry], todo', rfl, by simpa using hsplit, ?_⟩, by simp [h.log], h.heap, ?_, ?_⟩
    · simp [hran, hkey]
    · intro b u
      rw [InBatch.started]
      exact h.holds b u
    · intro b hb n
      rw [List.mem_append, ← h.canceling b hb n]
      simp

/-- The relation at every point of the call. -/
theorem InBatch.run {as : List TimerAct} (h : s₀.InBatch now l s) (hsound : s.Sound)
    (hr : timerQueue.run s as = some s') (hend : ∀ clock, .endRead clock ∉ as) :
    s'.Sound ∧ ∃ l', s₀.InBatch now l' s' := by
  induction as generalizing s l with
  | nil => cases hr; exact ⟨hsound, l, h⟩
  | cons a as ih =>
    obtain ⟨t, ht, hr⟩ := Machine.run_cons_eq_some.mp hr
    obtain ⟨l', h'⟩ := h.step hsound ht fun clock ha => hend clock (ha ▸ List.mem_cons_self)
    exact ih h' (hsound.step ht) hr fun clock hm => hend clock (List.mem_cons_of_mem _ hm)

/-- The end of the call: `reset` puts the repeating timers back. -/
theorem InBatch.end {clock : Timestamp} (h : s₀.InBatch now l s) (h₀ : s₀.Sound) (hsound : s.Sound)
    (hs : s.step (.endRead clock) = some s') :
    s'.log = s₀.log ++ l ∧ s₀.q.BatchSpec now l s'.q := by
  obtain ⟨done, todo, hpc, hsplit, hran⟩ := h.pc
  cases hsound.move hs with
  | @endRead now' clock done' q' hpc' hr =>
    rw [hpc] at hpc'
    cases hpc'
    rw [List.append_nil] at hsplit
    subst hsplit
    refine ⟨h.log, fun key => ?_, ?_, ?_, fun b t => ?_, fun e b => hr.rep.mem_timers⟩
    · rw [hran, h₀.rep.mem_expired_keys]
    · rw [hran]
      exact h₀.rep.expired_keys_nodup
    · rw [hran]
      exact h₀.rep.expired_keys_order
    by_cases hb : b ∈ (s₀.q.expiredAt now).map Pair.second
    · -- an expired timer: it is in neither set, and `reset` settles it
      have hapart : ¬ s₀.q.Present now l b t := fun hp =>
        ((h.holds b t).mpr hp).not_apart (h.apart hsound hb)
      obtain ⟨⟨e, _⟩, he, rfl⟩ := List.mem_map.mp hb
      obtain ⟨u, hu, rfl, hle⟩ := h₀.rep.mem_expiredAt.mp he
      have hs := hr.settles _ hb u ((h.heap _ hb).trans hu.1)
      have hcancel := h.canceling _ hb u.sequence_
      rw [or_iff_right hapart]
      split at hs
      · next hre =>
        have hrestart : u.restart now = { u with expiration_ := now + u.interval_ } :=
          if_pos hre.1
        constructor
        · exact fun ht => ⟨u, hu, hle, hre.1, fun hl => hre.2 (hcancel.mpr hl),
            (ht.inj hs.1).trans hrestart⟩
        · rintro ⟨u', hu', -, -, -, rfl⟩
          rw [← hu.inj hu'.1, ← hrestart]
          exact hs
      · next hre =>
        constructor
        · exact fun ht => nomatch hs.symm.trans ht.1
        · rintro ⟨u', hu', -, hrep, hl, -⟩
          cases hu.inj hu'.1
          exact absurd ⟨hrep, fun hc => hl (hcancel.mp hc)⟩ hre
    · refine (hr.holds b hb t).trans ((h.holds b t).trans (or_iff_left ?_).symm)
      rintro ⟨u, hu, hle, -⟩
      exact hb (List.mem_map.mpr ⟨_, h₀.rep.mem_expiredAt.mpr ⟨u, hu, rfl, hle⟩, rfl⟩)

/-- When the callbacks make no more calls, `handleRead` runs through and returns. -/
theorem Sound.finish (clock : Timestamp) (todo : List Entry) :
    ∀ {s : TimerState} {done : List Entry}, s.Sound → s.pc = .calling now done todo →
      ∃ s', timerQueue.run s (List.replicate todo.length .runNext ++ [.endRead clock]) = some s' := by
  induction todo with
  | nil =>
    intro s done h hpc
    have hs : (s.step (.endRead clock)).isSome := by
      simp [TimerState.step, h.fault, readStep, hpc]
    obtain ⟨s', hs⟩ := Option.isSome_iff_exists.mp hs
    exact ⟨s', Machine.run_cons_eq_some.mpr ⟨s', hs, rfl⟩⟩
  | cons entry todo ih =>
    intro s done h hpc
    have hs : (s.step .runNext).isSome := by
      simp [TimerState.step, h.fault, readStep, hpc]
    obtain ⟨t, ht⟩ := Option.isSome_iff_exists.mp hs
    have hpc' : t.pc = .calling now (done ++ [entry]) todo := by
      cases h.move ht with
      | runNext hpc' =>
        rw [hpc] at hpc'
        cases hpc'
        rfl
    obtain ⟨s', hr⟩ := ih (h.step ht) hpc'
    exact ⟨s', Machine.run_cons_eq_some.mpr ⟨t, ht, hr⟩⟩

end TimerState

/-- **A timer batch.** From every reachable state, for every `now`: the call of `handleRead` begins;
at every point of it, whatever the callbacks have done so far, it comes to its end as soon as they
make no more calls; and every complete call meets `BatchSpec`. -/
theorem handleRead_batch {s : TimerState} (h : timerQueue.Reachable s) (hpc : s.pc = .idle)
    (now : Timestamp) :
    (∃ s₁, timerQueue.step s (.handleRead now) = some s₁) ∧
    (∀ as s₁ clock, (∀ clock, .endRead clock ∉ as) →
      timerQueue.run s (.handleRead now :: as) = some s₁ →
      ∃ n s', timerQueue.run s₁ (List.replicate n .runNext ++ [.endRead clock]) = some s') ∧
    ∀ as s' clock, (∀ clock, .endRead clock ∉ as) →
      timerQueue.run s (.handleRead now :: (as ++ [.endRead clock])) = some s' →
      ∃ l, s'.log = s.log ++ l ∧ s.q.BatchSpec now l s'.q := by
  have hs := TimerState.sound_of_reachable h
  refine ⟨?_, ?_, ?_⟩
  · refine Option.isSome_iff_exists.mp ?_
    show (s.step (.handleRead now)).isSome
    simp [TimerState.step, hs.fault, TimerState.readStep, hpc]
  · intro as s₁ clock hend hr
    obtain ⟨s₂, h₂, hr⟩ := Machine.run_cons_eq_some.mp hr
    obtain ⟨hs₁, l, hb⟩ := (TimerState.inBatch_start hs h₂).run (hs.step (a := .handleRead now) h₂) hr hend
    obtain ⟨done, todo, hpc₁, -⟩ := hb.pc
    exact ⟨todo.length, hs₁.finish clock todo hpc₁⟩
  · intro as s' clock hend hr
    obtain ⟨s₂, h₂, hr⟩ := Machine.run_cons_eq_some.mp hr
    obtain ⟨s₁, hr, hlast⟩ := Machine.run_append.mp hr
    obtain ⟨s₃, hstep, hnil⟩ := Machine.run_cons_eq_some.mp hlast
    cases hnil
    obtain ⟨hs₁, l, hb⟩ := (TimerState.inBatch_start hs h₂).run (hs.step (a := .handleRead now) h₂) hr hend
    exact ⟨l, hb.end hs hs₁ hstep⟩

/-- A repeating timer goes off and its callback adds another one: afterwards the repeating timer is
back, at three microseconds after the batch. -/
theorem handleRead_batch_repeat :
    ∃ s s' l, timerQueue.Reachable s ∧ s.q.timers_.toList = [⟨5, 1⟩, ⟨100, 2⟩] ∧
      timerQueue.run s [.handleRead 10, .runNext, .addTimer 3 20 ⟨0, false, by simp⟩ 10, .endRead 11] =
        some s' ∧
      s'.q.timers_.toList = [⟨13, 1⟩, ⟨20, 3⟩, ⟨100, 2⟩] ∧ s.q.BatchSpec 10 l s'.q := by
  have hreach : timerQueue.Reachable _ := ⟨.start,
    [.addTimer 1 5 ⟨3, true, by simp⟩ 0, .addTimer 2 100 ⟨0, false, by simp⟩ 0], rfl, rfl⟩
  obtain ⟨l, -, hl⟩ := (handleRead_batch hreach rfl 10).2.2
    [.runNext, .addTimer 3 20 ⟨0, false, by simp⟩ 10] _ 11 (by simp) rfl
  exact ⟨_, _, l, hreach, rfl, rfl, rfl, hl⟩

end Netfish
