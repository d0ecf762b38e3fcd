import Netfish.Timer.Batch

/-!
# Cancelled timers

`cancelInLoop` takes a waiting timer out of the queue and keeps a running or finished one of the
batch from going back. A timer of the batch that still waits for its turn is out of its reach: the
callback loop of `handleRead` does not look at `cancelingTimers_`, so that timer runs once more.
`AwaitsTurn` is that case, and it is the only one: a run in which no `cancelInLoop` meets it never
starts a cancelled timer, and a run in which one does starts it before `handleRead` is over.
-/

set_option autoImplicit false

namespace Netfish

open Kit TimerQueue

/-! ## What a history says of a timer -/

/-- `addTimerInLoop` has run for the timer of this key. -/
def Known (l : List TimerEvent) (key : ActiveTimer) : Prop :=
  ∃ t, t.sequence_ = key.second ∧ .added key.first t ∈ l

/-- `cancelInLoop` has run for the timer of this key, after its `addTimerInLoop`. -/
def Dead (l : List TimerEvent) (key : ActiveTimer) : Prop :=
  ∃ t, t.sequence_ = key.second ∧ [.added key.first t, .cancelled key].Sublist l

/-- The timer of this key was started after it had been cancelled. -/
def StartedDead (l : List TimerEvent) (key : ActiveTimer) : Prop :=
  ∃ t, t.sequence_ = key.second ∧ [.added key.first t, .cancelled key, .started key].Sublist l

section History

variable {l l' : List TimerEvent} {key : ActiveTimer} {e : TimerEvent}

theorem known_concat :
    Known (l ++ [e]) key ↔ Known l key ∨ ∃ t, t.sequence_ = key.second ∧ e = .added key.first t := by
  simp only [Known, List.mem_append, List.mem_singleton, ← exists_or, and_or_left, eq_comm (a := e)]

theorem Known.concat (h : Known l key) : Known (l ++ [e]) key := known_concat.mpr (.inl h)

theorem known_concat_added {timer : Addr} {t : Timer} :
    Known (l ++ [.added timer t]) key ↔ Known l key ∨ key = ⟨timer, t.sequence_⟩ := by
  rw [known_concat]
  refine or_congr_right ⟨?_, ?_⟩
  · rintro ⟨u, hseq, hev⟩
    cases hev
    rw [hseq]
  · rintro rfl
    exact ⟨t, rfl, rfl⟩

theorem known_concat_cancelled {k : ActiveTimer} :
    Known (l ++ [.cancelled k]) key ↔ Known l key := known_concat.trans (by simp)

theorem known_concat_started {k : ActiveTimer} :
    Known (l ++ [.started k]) key ↔ Known l key := known_concat.trans (by simp)

theorem dead_concat : Dead (l ++ [e]) key ↔ Dead l key ∨ .cancelled key = e ∧ Known l key := by
  have hone : ∀ t, [TimerEvent.added key.first t, .cancelled key].Sublist (l ++ [e]) ↔
      [TimerEvent.added key.first t, .cancelled key].Sublist l ∨
        .cancelled key = e ∧ TimerEvent.added key.first t ∈ l := fun t => by
    rw [← List.singleton_sublist]
    exact sublist_concat (l := [TimerEvent.added key.first t])
  simp only [Dead, Known, hone, and_or_left, exists_or]
  exact or_congr_right ⟨fun ⟨t, hseq, he, ht⟩ => ⟨he, t, hseq, ht⟩,
    fun ⟨he, t, hseq, ht⟩ => ⟨t, hseq, he, ht⟩⟩

theorem startedDead_concat :
    StartedDead (l ++ [e]) key ↔ StartedDead l key ∨ .started key = e ∧ Dead l key := by
  have hone : ∀ t, [TimerEvent.added key.first t, .cancelled key, .started key].Sublist (l ++ [e]) ↔
      [TimerEvent.added key.first t, .cancelled key, .started key].Sublist l ∨
        .started key = e ∧ [TimerEvent.added key.first t, .cancelled key].Sublist l :=
    fun t => sublist_concat (l := [TimerEvent.added key.first t, .cancelled key])
  simp only [StartedDead, Dead, hone, and_or_left, exists_or]
  exact or_congr_right ⟨fun ⟨t, hseq, he, ht⟩ => ⟨he, t, hseq, ht⟩,
    fun ⟨he, t, hseq, ht⟩ => ⟨t, hseq, he, ht⟩⟩

theorem Dead.known (h : Dead l key) : Known l key := by
  obtain ⟨t, hseq, hs⟩ := h
  exact ⟨t, hseq, hs.subset List.mem_cons_self⟩

end History

namespace TimerState

/-- No timer was started after it had been cancelled. -/
def CancelIsFinal (s : TimerState) : Prop := ∀ key, ¬ StartedDead s.log key

/-- The entries of the batch whose callback has not begun. -/
def todo (s : TimerState) : List Entry :=
  match s.pc with
  | .idle => []
  | .calling _ _ todo => todo

/-- The timer is in the current batch and waits for its turn. -/
def AwaitsTurn (s : TimerState) (key : ActiveTimer) : Prop := ∃ entry ∈ s.todo, s.q.keyAt entry = key

/-- No cancel names a timer of the batch that waits for its turn. -/
def CancelsInTime (s : TimerState) (a : TimerAct) : Prop :=
  ∀ id, a = .cancelInLoop id → ¬ s.AwaitsTurn id.key

/-! ## Sequence numbers are new -/

/-- The keys given out so far. -/
structure Fresh (s : TimerState) : Prop where
  known : ∀ key, Known s.log key → key.second ≤ s.q.s_numCreated_
  /-- A timer in flight has its number, and was not added before. -/
  inFlight : ∀ timer ∈ s.inFlight, ∀ t, s.q.heap timer = some t →
    t.sequence_ ≤ s.q.s_numCreated_ ∧ ¬ Known s.log ⟨timer, t.sequence_⟩
  /-- What is in the queue or the batch was added. -/
  held : ∀ a t, s.q.Holds a t → Known s.log ⟨a, t.sequence_⟩
  expired : ∀ entry ∈ s.pc.expired, Known s.log (s.q.keyAt entry)

variable {s s' : TimerState} {a : TimerAct} {key : ActiveTimer}

theorem start_fresh : start.Fresh where
  known _ h := by obtain ⟨t, -, ht⟩ := h; cases ht
  inFlight _ h := absurd h List.not_mem_nil
  held _ _ h := absurd h.2 OrderedSet.not_mem_empty
  expired _ h := absurd h List.not_mem_nil

/-- The batch looks at its own timers only, so a change elsewhere leaves their keys. -/
theorem keyAt_congr {q q' : TimerQueue} {entry : Entry}
    (h : q'.heap entry.second = q.heap entry.second) : q.keyAt entry = q'.keyAt entry := by
  rw [keyAt, keyAt, h]

/-- A timer on its way is not at a free address. -/
theorem Sound.ne_free (h : s.Sound) {b timer : Addr} (hb : b ∈ s.onTheirWay)
    (hfree : s.q.heap timer = none) : b ≠ timer := by
  rintro rfl
  obtain ⟨t, ht⟩ := (h.apart b hb).1
  exact nomatch hfree.symm.trans ht

/-- A timer on its way is not one the queue holds. -/
theorem Sound.ne_held (h : s.Sound) {b timer : Addr} {t : Timer} (hb : b ∈ s.onTheirWay)
    (ht : s.q.Holds timer t) : b ≠ timer := by
  rintro rfl
  exact ht.not_apart (h.apart b hb)

theorem mem_onTheirWay_of_expired {entry : Entry} (h : entry ∈ s.pc.expired) :
    entry.second ∈ s.onTheirWay := List.mem_append_right _ (List.mem_map_of_mem h)

/-- A step that makes and adds no timer keeps the keys. -/
theorem Fresh.frame (h : s.Fresh) (hlog : ∀ key, Known s'.log key ↔ Known s.log key)
    (hcreated : s'.q.s_numCreated_ = s.q.s_numCreated_) (hinFlight : s'.inFlight = s.inFlight)
    (hheap : ∀ timer ∈ s.inFlight, s'.q.heap timer = s.q.heap timer)
    (hheld : ∀ timer t, s'.q.Holds timer t → Known s.log ⟨timer, t.sequence_⟩)
    (hexpired : ∀ entry ∈ s'.pc.expired, Known s.log (s'.q.keyAt entry)) : s'.Fresh where
  known key hk := hcreated ▸ h.known key ((hlog key).mp hk)
  inFlight timer hin t ht := by
    rw [hinFlight] at hin
    rw [hcreated, hlog]
    exact h.inFlight timer hin t ((hheap timer hin).symm.trans ht)
  held timer t ht := (hlog _).mpr (hheld timer t ht)
  expired entry he := (hlog _).mpr (hexpired entry he)

/-- A new timer goes in flight with a number above all others. -/
theorem Fresh.newTimer (h : s.Fresh) (hsound : s.Sound) {timer : Addr}
    (ha : s.q.Allocatable timer) (when : Timestamp) (interval : Interval) :
    Fresh { s with q := s.q.newTimer timer when interval, inFlight := timer :: s.inFlight } := by
  have hup : ∀ {n : Int}, n ≤ s.q.s_numCreated_ → n ≤ s.q.s_numCreated_ + 1 := fun hn =>
    hn.trans (Int.le_add_of_nonneg_right (by decide))
  refine ⟨fun key hk => hup
    (h.known key hk), ?_, fun b t ht => h.held b t ((hsound.rep.holds_newTimer ha.1).mp ht), ?_⟩
  · intro b hb t ht
    rcases List.mem_cons.mp hb with rfl | hb
    · cases newTimer_heap_self.symm.trans ht
      exact ⟨le_rfl, fun hk => absurd (h.known _ hk) (by simp [Timer.new])⟩
    · have hne := hsound.ne_free (List.mem_append_left _ hb) ha.1
      obtain ⟨hle, hk⟩ := h.inFlight b hb t ((newTimer_heap_ne hne).symm.trans ht)
      exact ⟨hup hle, hk⟩
  · intro entry he
    have hne := hsound.ne_free (mem_onTheirWay_of_expired he) ha.1
    exact keyAt_congr (newTimer_heap_ne (q := s.q) hne) ▸ h.expired entry he

/-- A timer in flight goes into the queue, and its key into the history. -/
theorem Fresh.link (h : s.Fresh) (hnodup : s.inFlight.Nodup) {timer : Addr} {t : Timer}
    (hin : timer ∈ s.inFlight) (ht : s.q.heap timer = some t) (fd : TimerFd) :
    Fresh { s with
      q := { s.q.link timer t with timerfd_ := fd }
      inFlight := s.inFlight.erase timer
      log := s.log ++ [.added timer t] } := by
  refine ⟨?_, ?_, ?_, fun entry he => (h.expired entry he).concat⟩
  · intro key hk
    rcases known_concat_added.mp hk with hk | rfl
    · exact h.known key hk
    · exact (h.inFlight timer hin t ht).1
  · intro b hb u hu
    obtain ⟨hne, hb⟩ := hnodup.mem_erase_iff.mp hb
    obtain ⟨hle, hnew⟩ := h.inFlight b hb u hu
    refine ⟨hle, ?_⟩
    intro hk
    rcases known_concat_added.mp hk with hk | heq
    · exact hnew hk
    · exact hne (congrArg Pair.first heq)
  · intro b u hu
    rcases (holds_link ht).mp hu with hu | ⟨rfl, rfl⟩
    · exact (h.held b u hu).concat
    · exact known_concat_added.mpr (.inr rfl)

theorem Fresh.step (h : s.Fresh) (hsound : s.Sound) (hs : s.step a = some s') : s'.Fresh := by
  cases hsound.move hs with
  | newTimer ha => exact h.newTimer hsound ha _ _
  | newElsewhere =>
    have hup : ∀ {n : Int}, n ≤ s.q.s_numCreated_ → n ≤ s.q.s_numCreated_ + 1 := fun hn =>
      hn.trans (Int.le_add_of_nonneg_right (by decide))
    refine ⟨fun key hk => hup (h.known key hk), ?_, h.held, h.expired⟩
    intro b hb t ht
    obtain ⟨hle, hnew⟩ := h.inFlight b hb t ht
    exact ⟨hup hle, hnew⟩
  | timerfdExpires =>
    exact h.frame (fun _ => Iff.rfl) rfl rfl (fun _ _ => rfl) h.held h.expired
  | addTimerInLoop hpc hin ht => exact h.link hsound.nodup.of_append_left hin ht _
  | @addTimer timer when interval now t fd hpc ha ht =>
    have hnodup : (timer :: s.inFlight).Nodup := by
      refine List.nodup_cons.mpr ⟨?_, hsound.nodup.of_append_left⟩
      intro hin
      exact hsound.ne_free (List.mem_append_left _ hin) ha.1 rfl
    have hnew := (h.newTimer hsound ha when interval).link hnodup List.mem_cons_self
      newTimer_heap_self fd
    rw [List.erase_cons_head] at hnew
    exact ht ▸ hnew
  | @cancelHeld id t hpc hk hseq =>
    refine h.frame (fun _ => known_concat_cancelled) rfl rfl ?_ ?_ ?_
    · intro b hb
      exact unlink_heap_ne (hsound.ne_held (List.mem_append_left _ hb) hk)
    · intro b u hu
      exact h.held b u ((holds_unlink hk).mp hu).1
    · intro entry he
      have hne := hsound.ne_held (mem_onTheirWay_of_expired he) hk
      exact keyAt_congr (unlink_heap_ne (q := s.q) hne) ▸ h.expired entry he
  | cancelAbsent =>
    dsimp only
    split <;> exact h.frame (fun _ => known_concat_cancelled) rfl rfl (fun _ _ => rfl) h.held
      h.expired
  | @handleRead now q' hpc hcut hcalling hcanceling =>
    refine h.frame (fun _ => Iff.rfl) hcut.created rfl (fun _ _ => by rw [hcut.heap])
      (fun b t ht => h.held b t ((hcut.holds b t).mp ht).1) ?_
    intro entry he
    obtain ⟨t, ht, -⟩ := hsound.rep.mem_expiredAt.mp he
    have hheap : q'.heap entry.second = some t := hcut.heap ▸ ht.1
    exact keyAt_of_heap hheap ▸ h.held _ _ ht
  | @runNext now done todo entry t hpc ht =>
    refine h.frame (fun _ => known_concat_started) rfl rfl (fun _ _ => rfl) h.held
      fun other ho => h.expired other ?_
    simpa [hpc, TimerPc.expired] using ho
  | @endRead now clock done q' hpc hr =>
    have hexp : s.pc.expired = done := by simp [hpc, TimerPc.expired]
    refine h.frame (fun _ => Iff.rfl) hr.created rfl ?_ ?_ fun entry he => absurd he
      List.not_mem_nil
    · intro b hb
      have hnot : b ∉ done.map Pair.second := fun hd =>
        (List.nodup_append'.mp (show (s.inFlight ++ done.map Pair.second).Nodup from
          hexp ▸ hsound.nodup)).2.2 hb hd
      exact hr.heap b hnot
    · intro b t ht
      by_cases hb : b ∈ done.map Pair.second
      · obtain ⟨entry, he, rfl⟩ := List.mem_map.mp hb
        obtain ⟨u, hu⟩ := (hsound.expired.2 _ (hexp ▸ hb)).1
        have hs := hr.settles _ hb u hu
        split at hs
        · rw [ht.inj hs.1, Timer.restart_sequence, ← keyAt_of_heap hu]
          exact h.expired entry (hexp ▸ he)
        · cases hs.symm.trans ht.1
      · exact h.held b t ((hr.holds b hb t).mp ht)

/-! ## Dead timers stay dead -/

/-- Nothing starts a dead timer: it is not in the queue, waits for no turn, and when it has had its
turn in the batch it will not go back. -/
structure Buried (s : TimerState) : Prop where
  final : s.CancelIsFinal
  active : ∀ key, Dead s.log key → key ∉ s.q.activeTimers_
  todo : ∀ key, Dead s.log key → ¬ s.AwaitsTurn key
  done : ∀ key, Dead s.log key → ∀ entry ∈ s.pc.expired, s.q.keyAt entry = key →
    key ∈ s.q.cancelingTimers_

theorem not_dead_start : ¬ Dead start.log key := by
  rintro ⟨t, -, hs⟩
  cases hs

theorem start_buried : start.Buried where
  final _ h := by obtain ⟨t, -, hs⟩ := h; cases hs
  active _ h := absurd h not_dead_start
  todo _ h := absurd h not_dead_start
  done _ h := absurd h not_dead_start

theorem mem_expired_of_todo {entry : Entry} (h : entry ∈ s.todo) : entry ∈ s.pc.expired := by
  unfold todo at h
  split at h
  · cases h
  · next hpc =>
    rw [hpc]
    exact List.mem_append_right _ h

/-- A step that leaves the batch and the heap under it gives no timer a new turn. -/
theorem AwaitsTurn.of_frame (hw : s'.AwaitsTurn key) (hpc : s'.pc = s.pc)
    (hheap : ∀ entry ∈ s.pc.expired, s'.q.heap entry.second = s.q.heap entry.second) :
    s.AwaitsTurn key := by
  obtain ⟨entry, he, hkey⟩ := hw
  have he : entry ∈ s.todo := by rwa [todo, ← hpc]
  exact ⟨entry, he, keyAt_congr (hheap entry (mem_expired_of_todo he)) ▸ hkey⟩

/-- A dead timer stays buried through a step that adds no dead one. -/
theorem Buried.frame (h : s.Buried) (hpc : s'.pc = s.pc)
    (hheap : ∀ entry ∈ s.pc.expired, s'.q.heap entry.second = s.q.heap entry.second)
    (hfinal : s'.CancelIsFinal) (hdead : ∀ key, Dead s'.log key → Dead s.log key)
    (hactive : ∀ key, Dead s.log key → key ∉ s'.q.activeTimers_)
    (hcanceling : s'.q.cancelingTimers_ = s.q.cancelingTimers_) : s'.Buried where
  final := hfinal
  active key hd := hactive key (hdead key hd)
  todo key hd hw := h.todo key (hdead key hd) (hw.of_frame hpc hheap)
  done key hd entry he hkey := by
    rw [hpc] at he
    rw [hcanceling]
    exact h.done key (hdead key hd) entry he (keyAt_congr (hheap entry he) ▸ hkey)

theorem dead_concat_added {l : List TimerEvent} {timer : Addr} {t : Timer} :
    Dead (l ++ [.added timer t]) key ↔ Dead l key :=
  dead_concat.trans (or_iff_left fun h => nomatch h.1)

theorem dead_concat_started {l : List TimerEvent} {k : ActiveTimer} :
    Dead (l ++ [.started k]) key ↔ Dead l key :=
  dead_concat.trans (or_iff_left fun h => nomatch h.1)

/-- Only the start of a dead timer breaks the property. -/
theorem CancelIsFinal.concat (h : s.CancelIsFinal) {e : TimerEvent} (hlog : s'.log = s.log ++ [e])
    (he : ∀ key, .started key = e → ¬ Dead s.log key) : s'.CancelIsFinal := by
  intro key hs
  rw [hlog] at hs
  rcases startedDead_concat.mp hs with hs | ⟨hk, hd⟩
  · exact h key hs
  · exact he key hk hd

/-- A newly added timer has a key that was never used. -/
theorem Buried.link (h : s.Buried) {timer : Addr} {t : Timer}
    (hnew : ¬ Known s.log ⟨timer, t.sequence_⟩) (hd : Dead s.log key) :
    key ∉ (s.q.link timer t).activeTimers_ := by
  intro hm
  rcases OrderedSet.mem_insert.mp hm with rfl | hm
  · exact hnew hd.known
  · exact h.active key hd hm

/-- The timer a cancel names is out of the queue, and will not go back. -/
theorem Buried.cancel (h : s.Buried) (hsound : s.Sound) {id : TimerId} (hok : ¬ s.AwaitsTurn id.key)
    (hs : s.step (.cancelInLoop id) = some s') : s'.Buried := by
  cases hsound.move hs with
  | @cancelHeld _ t hpc hk hseq =>
    have hheap : ∀ entry ∈ s.pc.expired,
        (s.q.unlink id.timer_ t).heap entry.second = s.q.heap entry.second := fun entry he =>
      unlink_heap_ne (hsound.ne_held (mem_onTheirWay_of_expired he) hk)
    refine ⟨h.final.concat rfl nofun, ?_, ?_, ?_⟩
    · intro key hd hm
      obtain ⟨hne, hm⟩ := OrderedSet.mem_erase.mp hm
      rcases dead_concat.mp hd with hd | ⟨hev, -⟩
      · exact h.active key hd hm
      · cases hev
        exact hne (by rw [TimerId.key, hseq])
    · intro key hd hw
      have hw : s.AwaitsTurn key := hw.of_frame rfl hheap
      rcases dead_concat.mp hd with hd | ⟨hev, -⟩
      · exact h.todo key hd hw
      · cases hev
        exact hok hw
    · intro key hd entry he hkey
      have hkey : s.q.keyAt entry = key := keyAt_congr (hheap entry he) ▸ hkey
      rcases dead_concat.mp hd with hd | ⟨hev, -⟩
      · exact h.done key hd entry he hkey
      · cases hev
        exact absurd (congrArg Pair.first hkey)
          (hsound.ne_held (mem_onTheirWay_of_expired he) hk)
  | @cancelAbsent _ hpc hk =>
    refine ⟨h.final.concat rfl nofun, ?_, ?_, ?_⟩
    · intro key hd hm
      have hm : key ∈ s.q.activeTimers_ := by
        dsimp only at hm
        split at hm <;> exact hm
      rcases dead_concat.mp hd with hd | ⟨hev, -⟩
      · exact h.active key hd hm
      · cases hev
        exact hk hm
    · intro key hd hw
      have hw : s.AwaitsTurn key := hw.of_frame rfl fun entry _ => by
        dsimp only
        split <;> rfl
      rcases dead_concat.mp hd with hd | ⟨hev, -⟩
      · exact h.todo key hd hw
      · cases hev
        exact hok hw
    · intro key hd entry he hkey
      have hcalling : s.q.callingExpiredTimers_ = true := by
        rw [hsound.calling]
        cases hpc' : s.pc with
        | idle => simp [hpc', TimerPc.expired] at he
        | calling => rfl
      simp only [hcalling, if_true] at hkey ⊢
      rw [OrderedSet.mem_insert]
      rcases dead_concat.mp hd with hd | ⟨hev, -⟩
      · exact .inr (h.done key hd entry he hkey)
      · cases hev
        exact .inl rfl

/-- Each step but a late cancel keeps the dead buried. -/
theorem Buried.step (h : s.Buried) (hsound : s.Sound) (hfresh : s.Fresh) (hok : s.CancelsInTime a)
    (hs : s.step a = some s') : s'.Buried := by
  cases hsound.move hs with
  | newTimer ha =>
    exact h.frame rfl (fun entry he => newTimer_heap_ne
      (hsound.ne_free (mem_onTheirWay_of_expired he) ha.1)) h.final (fun _ => id) h.active rfl
  | newElsewhere | timerfdExpires =>
    exact h.frame rfl (fun _ _ => rfl) h.final (fun _ => id) h.active rfl
  | addTimerInLoop hpc hin ht =>
    exact h.frame rfl (fun _ _ => rfl) (h.final.concat rfl (by simp)) (fun _ => dead_concat_added.mp)
      (fun _ => h.link (hfresh.inFlight _ hin _ ht).2) rfl
  | addTimer hpc ha ht =>
    refine h.frame rfl
      (fun entry he => newTimer_heap_ne (hsound.ne_free (mem_onTheirWay_of_expired he) ha.1))
      (h.final.concat rfl (by simp)) (fun _ => dead_concat_added.mp) (fun key hd => h.link ?_ hd)
      rfl
    intro hk
    have hle := hfresh.known _ hk
    rw [ht] at hle
    exact absurd hle (by simp [Timer.new])
  | cancelHeld => exact h.cancel hsound (hok _ rfl) hs
  | cancelAbsent => exact h.cancel hsound (hok _ rfl) hs
  | @handleRead now q' hpc hcut hcalling hcanceling =>
    have hheld : ∀ key, key ∈ (s.q.expiredAt now).map s.q.keyAt → key ∈ s.q.activeTimers_ := by
      intro key hk
      obtain ⟨t, ht, hseq, -⟩ := hsound.rep.mem_expired_keys.mp hk
      exact hsound.rep.active_iff.mpr ⟨t, ht, hseq⟩
    have hkeys : ∀ entry ∈ s.q.expiredAt now, q'.keyAt entry ∈ s.q.activeTimers_ := by
      intro entry he
      refine hheld _ (List.mem_map.mpr ⟨entry, he, keyAt_congr ?_⟩)
      rw [hcut.heap]
    refine ⟨h.final, ?_, ?_, ?_⟩
    · intro key hd hm
      obtain ⟨t, ht, hseq⟩ := hcut.rep.active_iff.mp hm
      exact h.active key hd (hsound.rep.active_iff.mpr ⟨t, ((hcut.holds _ t).mp ht).1, hseq⟩)
    · intro key hd hw
      obtain ⟨entry, he, rfl⟩ := hw
      exact h.active _ hd (hkeys entry he)
    · intro key hd entry he hkey
      subst hkey
      exact absurd (hkeys entry he) (h.active _ hd)
  | @runNext now done todo entry t hpc ht =>
    have hexp : ∀ other, other ∈ done ++ [entry] ++ todo ↔ other ∈ s.pc.expired := by
      simp [hpc, TimerPc.expired]
    have hturn : s.AwaitsTurn ⟨entry.second, t.sequence_⟩ :=
      ⟨entry, by simp [TimerState.todo, hpc], keyAt_of_heap ht⟩
    refine ⟨h.final.concat rfl ?_, fun key hd => h.active key (dead_concat_started.mp hd), ?_, ?_⟩
    · rintro key hev hd
      cases hev
      exact h.todo _ hd hturn
    · intro key hd hw
      obtain ⟨other, ho, hkey⟩ := hw
      exact h.todo key (dead_concat_started.mp hd)
        ⟨other, by simpa [TimerState.todo, hpc] using .inr ho, hkey⟩
    · intro key hd other ho hkey
      exact h.done key (dead_concat_started.mp hd) other ((hexp other).mp ho) hkey
  | @endRead now clock done q' hpc hr =>
    have hexp : s.pc.expired = done := by simp [hpc, TimerPc.expired]
    refine ⟨h.final, ?_, ?_, fun key hd entry he => absurd he List.not_mem_nil⟩
    · intro key hd hm
      obtain ⟨t, ht, hseq⟩ := hr.rep.active_iff.mp hm
      by_cases hb : key.first ∈ done.map Pair.second
      · obtain ⟨entry, he, hfirst⟩ := List.mem_map.mp hb
        obtain ⟨u, hu⟩ := (hsound.expired.2 _ (hexp ▸ hb)).1
        have hs := hr.settles _ hb u hu
        split at hs
        · next hre =>
          -- a timer that goes back was not cancelled
          have hseq : u.sequence_ = key.second := by
            rw [← hseq, ht.inj hs.1, Timer.restart_sequence]
          have hkey : s.q.keyAt entry = key := by
            rw [keyAt_of_heap (hfirst ▸ hu), hseq, hfirst]
          have hc := h.done key hd entry (hexp ▸ he) hkey
          exact hre.2 (by rw [hseq]; exact hc)
        · cases hs.symm.trans ht.1
      · exact h.active key hd (hsound.rep.active_iff.mpr ⟨t, (hr.holds _ hb t).mp ht, hseq⟩)
    · intro key hd hw
      obtain ⟨entry, he, -⟩ := hw
      cases he

/-! ## A late cancel -/

theorem log_step (hsound : s.Sound) (hs : s.step a = some s') : s.log <+: s'.log := by
  cases hsound.move hs with
  | addTimerInLoop | addTimer | cancelHeld | cancelAbsent | runNext => exact List.prefix_append ..
  | _ => exact List.prefix_rfl

/-- A history only grows. -/
theorem log_run {as : List TimerAct} (hsound : s.Sound) (hr : timerQueue.run s as = some s') :
    s.log <+: s'.log := by
  induction as generalizing s with
  | nil => cases hr; exact List.prefix_rfl
  | cons a as ih =>
    obtain ⟨t, ht, hr⟩ := Machine.run_cons_eq_some.mp hr
    exact (log_step hsound ht).trans (ih (hsound.step ht) hr)

/-- A cancel leaves a timer that waits for its turn where it is. -/
theorem AwaitsTurn.cancel (hw : s.AwaitsTurn key) (hsound : s.Sound) {id : TimerId}
    (hs : s.step (.cancelInLoop id) = some s') :
    s'.AwaitsTurn key ∧ s'.log = s.log ++ [.cancelled id.key] := by
  cases hsound.move hs with
  | cancelHeld _ hk =>
    exact ⟨hw.of_frame rfl fun entry he => (unlink_heap_ne
      (hsound.ne_held (mem_onTheirWay_of_expired he) hk)).symm, rfl⟩
  | cancelAbsent =>
    refine ⟨hw.of_frame rfl ?_, rfl⟩
    intro entry _
    dsimp only
    split <;> rfl

/-- A dead timer that waits for its turn waits on, or is started. -/
theorem dead_turn_step (hsound : s.Sound) (hd : Dead s.log key) (hw : s.AwaitsTurn key)
    (hs : s.step a = some s') : s'.AwaitsTurn key ∨ StartedDead s'.log key := by
  have hidle : s.pc ≠ .idle := by
    intro hpc
    obtain ⟨entry, he, -⟩ := hw
    simp [TimerState.todo, hpc] at he
  cases hsound.move hs with
  | newTimer ha | addTimer _ ha =>
    exact .inl (hw.of_frame rfl fun entry he => (newTimer_heap_ne
      (hsound.ne_free (mem_onTheirWay_of_expired he) ha.1)).symm)
  | newElsewhere | timerfdExpires => exact .inl (hw.of_frame rfl fun _ _ => rfl)
  | addTimerInLoop hpc => exact absurd hpc hidle
  | handleRead hpc => exact absurd hpc hidle
  | cancelHeld => exact .inl (hw.cancel hsound hs).1
  | cancelAbsent => exact .inl (hw.cancel hsound hs).1
  | @runNext now done todo entry t hpc ht =>
    obtain ⟨other, ho, hkey⟩ := hw
    have ho : other = entry ∨ other ∈ todo := by simpa [TimerState.todo, hpc] using ho
    rcases ho with rfl | ho
    · rw [keyAt_of_heap ht] at hkey
      cases hkey
      exact .inr (startedDead_concat.mpr (.inr ⟨rfl, hd⟩))
    · exact .inl ⟨other, ho, hkey⟩
  | endRead hpc =>
    obtain ⟨entry, he, -⟩ := hw
    simp [TimerState.todo, hpc] at he

/-- `handleRead` is not over before a dead timer that waits for its turn has been started. -/
theorem startedDead_of_turn {as : List TimerAct} (hsound : s.Sound) (hd : Dead s.log key)
    (hw : s.AwaitsTurn key) (hr : timerQueue.run s as = some s') (hpc : s'.pc = .idle) :
    StartedDead s'.log key := by
  induction as generalizing s with
  | nil =>
    cases hr
    obtain ⟨entry, he, -⟩ := hw
    simp [TimerState.todo, hpc] at he
  | cons a as ih =>
    obtain ⟨t, ht, hr⟩ := Machine.run_cons_eq_some.mp hr
    have hgrow := (log_step hsound ht).sublist
    rcases dead_turn_step hsound hd hw ht with hw | ⟨u, hseq, hsub⟩
    · obtain ⟨u, hseq, hsub⟩ := hd
      exact ih (hsound.step ht) ⟨u, hseq, hsub.trans hgrow⟩ hw hr
    · exact ⟨u, hseq, hsub.trans (log_run (hsound.step ht) hr).sublist⟩

/-- In a run that ends outside `handleRead` and started no cancelled timer, every cancel came in
time. -/
theorem cancelsInTime_of_final {as : List TimerAct} (hsound : s.Sound) (hfresh : s.Fresh)
    (hr : timerQueue.run s as = some s') (hpc : s'.pc = .idle) (hfinal : s'.CancelIsFinal) :
    timerQueue.Guarded CancelsInTime s as := by
  induction as generalizing s with
  | nil => trivial
  | cons a as ih =>
    obtain ⟨t, ht, hrest⟩ := Machine.run_cons_eq_some.mp hr
    intro t' ht'
    cases ht.symm.trans ht'
    refine ⟨?_, ih (hsound.step ht) (hfresh.step hsound ht) hrest⟩
    rintro id rfl hw
    have hknown : Known s.log id.key := by
      obtain ⟨entry, he, hkey⟩ := hw
      exact hkey ▸ hfresh.expired entry (mem_expired_of_todo he)
    have ht : s.step (.cancelInLoop id) = some t := ht
    obtain ⟨hwait, hlog⟩ := hw.cancel hsound ht
    have hdead : Dead t.log id.key := hlog ▸ dead_concat.mpr (.inr ⟨rfl, hknown⟩)
    exact hfinal _ (startedDead_of_turn (hsound.step ht) hdead hwait hrest hpc)

end TimerState

open TimerState in
/-- **When a cancelled timer stays cancelled.** In every run whose cancels name no timer of the
current batch that waits for its turn, no timer is ever started after it was cancelled. And in a run
that ends outside `handleRead` the condition is necessary too. -/
theorem cancel_is_final_iff (as : List TimerAct) :
    (timerQueue.Guarded CancelsInTime .start as → timerQueue.Along CancelIsFinal .start as) ∧
    ∀ s, timerQueue.run .start as = some s → s.pc = .idle →
      (s.CancelIsFinal ↔ timerQueue.Guarded CancelsInTime .start as) := by
  have hfinal : timerQueue.Guarded CancelsInTime .start as →
      timerQueue.Along CancelIsFinal .start as :=
    Machine.Guarded.along (fun s => s.Sound ∧ s.Fresh ∧ s.Buried) (fun _ h => h.2.2.final)
      (fun _ _ _ ⟨hsound, hfresh, h⟩ hok hs =>
        ⟨hsound.step hs, hfresh.step hsound hs, h.step hsound hfresh hok hs⟩)
      ⟨start_sound, start_fresh, start_buried⟩
  exact ⟨hfinal, fun s hr hpc => ⟨cancelsInTime_of_final start_sound start_fresh hr hpc,
    fun hg => (hfinal hg).last hr⟩⟩

open TimerState in
/-- A repeating timer cancelled from its own callback is not started again. The run ends outside
`handleRead` without a late start, so its cancel came in time. -/
theorem cancel_is_final_self : timerQueue.Along CancelIsFinal .start
    [.addTimer 1 5 ⟨3, true, fun _ => rfl⟩ 0, .timerfdExpires, .handleRead 10, .runNext,
      .cancelInLoop ⟨1, 1⟩, .endRead 11] := by
  have hrun : (timerQueue.run .start [.addTimer 1 5 ⟨3, true, fun _ => rfl⟩ 0, .timerfdExpires,
      .handleRead 10, .runNext, .cancelInLoop ⟨1, 1⟩, .endRead 11]).map (fun s => (s.pc, s.log)) =
        some (.idle, [.added 1 ⟨5, 3, true, 1⟩, .started ⟨1, 1⟩] ++ [.cancelled ⟨1, 1⟩]) := by
    decide +kernel
  obtain ⟨s, hr, hs⟩ := Option.map_eq_some_iff.mp hrun
  obtain ⟨hpc, hlog⟩ := Prod.mk.inj hs
  refine (cancel_is_final_iff _).1 (((cancel_is_final_iff _).2 s hr hpc).mp ?_)
  intro key hdead
  rw [hlog] at hdead
  rcases startedDead_concat.mp hdead with ⟨t, -, hsub⟩ | ⟨hev, -⟩
  · exact absurd hsub.length_le (by simp)
  · cases hev

/-- Two one-shot timers expire together, and the callback of the first cancels the second: it is run
all the same. -/
theorem cancel_is_final_fails :
    ¬ ∀ as s, timerQueue.run .start as = some s → s.CancelIsFinal := by
  have hrun : (timerQueue.run .start [.addTimer 1 5 ⟨0, false, by simp⟩ 0,
      .addTimer 2 6 ⟨0, false, by simp⟩ 0, .timerfdExpires, .handleRead 10, .runNext,
      .cancelInLoop ⟨2, 2⟩, .runNext, .endRead 11]).map TimerState.log =
        some [.added 1 ⟨5, 0, false, 1⟩, .added 2 ⟨6, 0, false, 2⟩, .started ⟨1, 1⟩,
          .cancelled ⟨2, 2⟩, .started ⟨2, 2⟩] := by decide +kernel
  obtain ⟨s, hr, hlog⟩ := Option.map_eq_some_iff.mp hrun
  intro h
  refine h _ s hr ⟨2, 2⟩ ⟨⟨6, 0, false, 2⟩, rfl, ?_⟩
  rw [hlog]
  decide

end Netfish
