import Netfish.Timer.TimerQueue

/-!
# The representation of a timer queue

`Rep` says that `timers_` and `activeTimers_` file the same live timers under their two keys. Each
function of the queue, started in a `Rep` state, gets past all its assertions and pointers: the laws
give its result as a change of both sets at once, `link` or `unlink`, and the change keeps `Rep`.
-/

set_option autoImplicit false

namespace Netfish

open Kit

namespace TimerQueue

/-- The timer at this address is in the queue, under its expiration. -/
def Holds (q : TimerQueue) (a : Addr) (t : Timer) : Prop :=
  q.heap a = some t ∧ ⟨t.expiration_, a⟩ ∈ q.timers_

/-- A live timer that is in neither set. -/
def Apart (q : TimerQueue) (a : Addr) : Prop :=
  (∃ t, q.heap a = some t) ∧ ∀ e, ⟨e, a⟩ ∉ q.timers_

/-- Both sets file exactly the timers the queue holds. -/
structure Rep (q : TimerQueue) : Prop where
  live : ∀ e a, ⟨e, a⟩ ∈ q.timers_ →
    ∃ t, q.heap a = some t ∧ t.expiration_ = e ∧ ⟨a, t.sequence_⟩ ∈ q.activeTimers_
  filed : ∀ a n, ⟨a, n⟩ ∈ q.activeTimers_ →
    ∃ t, q.heap a = some t ∧ t.sequence_ = n ∧ ⟨t.expiration_, a⟩ ∈ q.timers_
  sizes : q.timers_.size = q.activeTimers_.size
  addr : ∀ a t, q.heap a = some t → a < UINTPTR_MAX

variable {q : TimerQueue} {a b : Addr} {t u : Timer} {key : ActiveTimer}

theorem new_rep : new.Rep where
  live _ _ h := absurd h OrderedSet.not_mem_empty
  filed _ _ h := absurd h OrderedSet.not_mem_empty
  sizes := rfl
  addr _ _ h := by cases h

@[simp] theorem deref_eq_ok : q.deref a = .ok t ↔ q.heap a = some t := by
  unfold deref
  cases q.heap a <;> simp

theorem deref_of_heap (h : q.heap a = some t) : q.deref a = .ok t := deref_eq_ok.mpr h

theorem Rep.sameSizes (h : q.Rep) : q.sameSizes = .ok ⟨⟩ := check_pos h.sizes

theorem Rep.mem_active (h : q.Rep) (ht : q.heap a = some t) {n : Int} :
    ⟨a, n⟩ ∈ q.activeTimers_ ↔ t.sequence_ = n ∧ ⟨t.expiration_, a⟩ ∈ q.timers_ := by
  constructor
  · intro hn
    obtain ⟨u, hu, hseq, hmem⟩ := h.filed a n hn
    cases ht.symm.trans hu
    exact ⟨hseq, hmem⟩
  · rintro ⟨rfl, hmem⟩
    obtain ⟨u, hu, -, hact⟩ := h.live _ _ hmem
    cases ht.symm.trans hu
    exact hact

/-- A key of `activeTimers_` belongs to a timer the queue holds. -/
theorem Rep.active_iff (h : q.Rep) :
    key ∈ q.activeTimers_ ↔ ∃ t, q.Holds key.first t ∧ t.sequence_ = key.second := by
  constructor
  · intro hk
    obtain ⟨t, ht, hseq, hmem⟩ := h.filed _ _ hk
    exact ⟨t, ⟨ht, hmem⟩, hseq⟩
  · rintro ⟨t, ⟨ht, hmem⟩, hseq⟩
    exact (h.mem_active ht).mpr ⟨hseq, hmem⟩

theorem Rep.mem_timers (h : q.Rep) {e : Timestamp} :
    ⟨e, a⟩ ∈ q.timers_ ↔ ∃ t, q.Holds a t ∧ t.expiration_ = e := by
  constructor
  · intro hm
    obtain ⟨t, ht, rfl, -⟩ := h.live e a hm
    exact ⟨t, ⟨ht, hm⟩, rfl⟩
  · rintro ⟨t, ⟨-, hm⟩, rfl⟩
    exact hm

theorem Apart.not_active (hb : q.Apart b) (h : q.Rep) {n : Int} : ⟨b, n⟩ ∉ q.activeTimers_ := by
  intro hn
  obtain ⟨t, -, -, hmem⟩ := h.filed b n hn
  exact hb.2 _ hmem

theorem Holds.not_apart (h : q.Holds a t) : ¬ q.Apart a := fun ha => ha.2 _ h.2

/-! ## A timer enters and leaves both sets -/

/-- The timer `t` at `a` is filed in both sets. -/
def link (q : TimerQueue) (a : Addr) (t : Timer) : TimerQueue :=
  { q with
    timers_ := (q.timers_.insert ⟨t.expiration_, a⟩).1
    activeTimers_ := (q.activeTimers_.insert ⟨a, t.sequence_⟩).1 }

/-- The timer `t` at `a` is taken out of both sets and deleted. -/
def unlink (q : TimerQueue) (a : Addr) (t : Timer) : TimerQueue :=
  { q with
    timers_ := (q.timers_.erase ⟨t.expiration_, a⟩).1
    activeTimers_ := (q.activeTimers_.erase ⟨a, t.sequence_⟩).1
    heap := Function.update q.heap a none }

@[simp] theorem link_heap : (q.link a t).heap = q.heap := rfl

theorem unlink_heap_self : (q.unlink a t).heap a = none := Function.update_self ..

theorem unlink_heap_ne (h : b ≠ a) : (q.unlink a t).heap b = q.heap b := Function.update_of_ne h ..

theorem mem_link_timers {e : Timestamp} :
    ⟨e, b⟩ ∈ (q.link a t).timers_ ↔ (e = t.expiration_ ∧ b = a) ∨ ⟨e, b⟩ ∈ q.timers_ := by
  simp [link]

theorem mem_unlink_timers {e : Timestamp} :
    ⟨e, b⟩ ∈ (q.unlink a t).timers_ ↔
      (e = t.expiration_ → b ≠ a) ∧ ⟨e, b⟩ ∈ q.timers_ := by
  simp [unlink]

theorem Rep.link (h : q.Rep) (ha : q.Apart a) (ht : q.heap a = some t) : (q.link a t).Rep where
  live e b hm := by
    rcases mem_link_timers.mp hm with ⟨rfl, rfl⟩ | hm
    · exact ⟨t, ht, rfl, by simp [TimerQueue.link]⟩
    · obtain ⟨u, hu, he, hact⟩ := h.live e b hm
      exact ⟨u, hu, he, OrderedSet.mem_insert.mpr (.inr hact)⟩
  filed b n hm := by
    rcases OrderedSet.mem_insert.mp hm with hk | hm
    · obtain ⟨rfl, rfl⟩ := Pair.mk.inj hk
      exact ⟨t, ht, rfl, by simp [TimerQueue.link]⟩
    · obtain ⟨u, hu, hn, hmem⟩ := h.filed b n hm
      exact ⟨u, hu, hn, OrderedSet.mem_insert.mpr (.inr hmem)⟩
  sizes := by
    have htm := OrderedSet.size_insert (ha.2 t.expiration_)
    have hac := OrderedSet.size_insert (ha.not_active h (n := t.sequence_))
    simp only [TimerQueue.link, htm, hac, h.sizes]
  addr := h.addr

theorem Holds.inj (h : q.Holds a t) (hu : q.heap a = some u) : t = u :=
  Option.some.inj (h.1.symm.trans hu)

theorem Rep.unlink (h : q.Rep) (ha : q.Holds a t) : (q.unlink a t).Rep where
  live e b hm := by
    obtain ⟨hne, hm⟩ := mem_unlink_timers.mp hm
    obtain ⟨u, hu, he, hact⟩ := h.live e b hm
    have hba : b ≠ a := by
      rintro rfl
      exact hne (by rw [← he, ha.inj hu]) rfl
    refine ⟨u, (unlink_heap_ne hba).trans hu, he, ?_⟩
    exact OrderedSet.mem_erase.mpr ⟨fun hk => hba (Pair.mk.inj hk).1, hact⟩
  filed b n hm := by
    obtain ⟨hne, hm⟩ := OrderedSet.mem_erase.mp hm
    obtain ⟨u, hu, hn, hmem⟩ := h.filed b n hm
    have hba : b ≠ a := by
      rintro rfl
      exact hne (by rw [← hn, ha.inj hu])
    refine ⟨u, (unlink_heap_ne hba).trans hu, hn, ?_⟩
    exact OrderedSet.mem_erase.mpr ⟨fun hk => hba (Pair.mk.inj hk).2, hmem⟩
  sizes := by
    have htm := OrderedSet.size_erase ha.2
    have hac := OrderedSet.size_erase ((h.mem_active ha.1).mpr ⟨rfl, ha.2⟩)
    have hsz := h.sizes
    simp only [TimerQueue.unlink]
    omega
  addr b u hu := by
    by_cases hba : b = a
    · subst hba
      exact nomatch unlink_heap_self.symm.trans hu
    · exact h.addr b u ((unlink_heap_ne hba).symm.trans hu)

theorem Apart.link (hb : q.Apart b) (hba : b ≠ a) : (q.link a t).Apart b := by
  refine ⟨hb.1, ?_⟩
  intro e hm
  rcases mem_link_timers.mp hm with ⟨-, rfl⟩ | hm
  · exact hba rfl
  · exact hb.2 e hm

theorem Apart.unlink (hb : q.Apart b) (ha : q.Holds a t) : (q.unlink a t).Apart b := by
  have hba : b ≠ a := by
    rintro rfl
    exact ha.not_apart hb
  refine ⟨?_, fun e hm => hb.2 e (mem_unlink_timers.mp hm).2⟩
  rw [unlink_heap_ne hba]
  exact hb.1

/-- `link` adds exactly the one timer. -/
theorem holds_link (ht : q.heap a = some t) :
    (q.link a t).Holds b u ↔ q.Holds b u ∨ b = a ∧ u = t := by
  simp only [Holds, link_heap, mem_link_timers]
  constructor
  · rintro ⟨hu, ⟨-, rfl⟩ | hm⟩
    · exact .inr ⟨rfl, Option.some.inj (hu.symm.trans ht)⟩
    · exact .inl ⟨hu, hm⟩
  · rintro (⟨hu, hm⟩ | ⟨rfl, rfl⟩)
    · exact ⟨hu, .inr hm⟩
    · exact ⟨ht, .inl ⟨rfl, rfl⟩⟩

/-- `unlink` removes exactly the one timer. -/
theorem holds_unlink (ha : q.Holds a t) :
    (q.unlink a t).Holds b u ↔ q.Holds b u ∧ b ≠ a := by
  simp only [Holds, mem_unlink_timers]
  by_cases hba : b = a
  · subst hba
    simp [unlink_heap_self]
  · simp [unlink_heap_ne hba, hba]

/-! ## insert, addTimerInLoop -/

theorem Rep.insert_eq (h : q.Rep) (ha : q.Apart a) (ht : q.heap a = some t) :
    q.insert a = .ok (q.link a t, q.earliestChanged t.expiration_) := by
  have htm : (q.timers_.insert ⟨t.expiration_, a⟩).2 = true :=
    OrderedSet.insert_new.mpr (ha.2 _)
  have hac : (q.activeTimers_.insert ⟨a, t.sequence_⟩).2 = true :=
    OrderedSet.insert_new.mpr (ha.not_active h)
  have hsz : TimerQueue.sameSizes { q with
      timers_ := (q.timers_.insert ⟨t.expiration_, a⟩).1
      activeTimers_ := (q.activeTimers_.insert ⟨a, t.sequence_⟩).1 } = .ok ⟨⟩ :=
    (h.link ha ht).sameSizes
  simp only [TimerQueue.insert, h.sameSizes, deref_of_heap ht, ok_bind, check_pos htm,
    check_pos hac, hsz]
  rfl

/-- `addTimerInLoop` links the timer, and may set the timerfd. -/
theorem Rep.addTimerInLoop_eq (h : q.Rep) (ha : q.Apart a) (ht : q.heap a = some t)
    (now : Timestamp) : ∃ fd, q.addTimerInLoop a now = .ok { q.link a t with timerfd_ := fd } := by
  simp only [TimerQueue.addTimerInLoop, h.insert_eq ha ht, ok_bind]
  split
  · exact ⟨_, by rw [deref_of_heap (q := q.link a t) ht, ok_bind]⟩
  · exact ⟨_, rfl⟩

/-! ## cancelInLoop -/

/-- A timer in the queue is taken out and deleted. -/
theorem Rep.cancel_held (h : q.Rep) {id : TimerId} (ha : q.Holds id.timer_ t)
    (hseq : t.sequence_ = id.sequence_) : q.cancelInLoop id = .ok (q.unlink id.timer_ t) := by
  obtain ⟨a, n⟩ := id
  cases hseq
  have hk : (⟨a, t.sequence_⟩ : ActiveTimer) ∈ q.activeTimers_ :=
    h.active_iff.mpr ⟨t, ha, rfl⟩
  have hn : (q.timers_.erase ⟨t.expiration_, a⟩).2 = 1 := OrderedSet.erase_count ha.2
  refine check_bind_eq_ok.mpr ⟨h.sizes, ?_⟩
  refine bind_eq_ok.mpr ⟨q.unlink a t, ?_, check_bind_eq_ok.mpr ⟨(h.unlink ha).sizes, rfl⟩⟩
  refine (if_pos hk).trans (bind_eq_ok.mpr ⟨t, deref_of_heap ha.1, ?_⟩)
  refine check_bind_eq_ok.mpr ⟨hn, ?_⟩
  refine bind_eq_ok.mpr ⟨{ q with
    timers_ := (q.timers_.erase ⟨t.expiration_, a⟩).1
    heap := Function.update q.heap a none }, ?_, rfl⟩
  exact bind_eq_ok.mpr ⟨t, deref_of_heap ha.1, rfl⟩

/-- Any other id is remembered while a batch runs, and ignored otherwise. -/
theorem Rep.cancel_absent (h : q.Rep) {id : TimerId} (hk : id.key ∉ q.activeTimers_) :
    q.cancelInLoop id = .ok (if q.callingExpiredTimers_ then
      { q with cancelingTimers_ := (q.cancelingTimers_.insert id.key).1 } else q) := by
  refine check_bind_eq_ok.mpr ⟨h.sizes, ?_⟩
  have hsizes : ∀ keys, (do
      TimerQueue.sameSizes { q with cancelingTimers_ := keys }
      .ok { q with cancelingTimers_ := keys }) =
        Except.ok (ε := TimerFault) { q with cancelingTimers_ := keys } :=
    fun keys => check_bind_eq_ok.mpr ⟨h.sizes, rfl⟩
  rw [cancelKey, if_neg hk]
  split
  · exact hsizes _
  · exact hsizes q.cancelingTimers_

/-! ## getExpired -/

/-- The key `getExpired` cuts `timers_` at. -/
def nowEntry (now : Timestamp) : Entry := ⟨now, UINTPTR_MAX⟩

/-- No timer lives at the last address, so the cut is between `now` and later. -/
theorem lt_nowEntry {e now : Timestamp} (ha : a < UINTPTR_MAX) :
    (⟨e, a⟩ : Entry) < nowEntry now ↔ e ≤ now := by
  rw [Pair.lt_iff, le_iff_lt_or_eq]
  exact or_congr_right (and_iff_left ha)

/-- The loop over `expired` finds each of its timers, and erases no other. -/
theorem eraseActive_spec (expired : List Entry) :
    ∀ q : TimerQueue, (∀ entry ∈ expired, ∃ t, q.heap entry.second = some t ∧
        ⟨entry.second, t.sequence_⟩ ∈ q.activeTimers_) →
      (∀ b n t, ⟨b, n⟩ ∈ q.activeTimers_ → q.heap b = some t → t.sequence_ = n) →
      (expired.map Pair.second).Nodup →
      ∃ active, q.eraseActive expired = .ok { q with activeTimers_ := active } ∧
        active.size + expired.length = q.activeTimers_.size ∧
        ∀ b n, ⟨b, n⟩ ∈ active ↔ ⟨b, n⟩ ∈ q.activeTimers_ ∧ b ∉ expired.map Pair.second := by
  induction expired with
  | nil => exact fun q _ _ _ => ⟨q.activeTimers_, rfl, rfl, by simp⟩
  | cons entry expired ih =>
    intro q hin hseq hnd
    obtain ⟨t, ht, hact⟩ := hin entry List.mem_cons_self
    obtain ⟨hnot, hnd⟩ := List.nodup_cons.mp hnd
    obtain ⟨active, hrun, hsize, hmem⟩ := ih
      { q with activeTimers_ := (q.activeTimers_.erase ⟨entry.second, t.sequence_⟩).1 }
      (fun other ho => by
        obtain ⟨u, hu, huact⟩ := hin other (List.mem_cons_of_mem _ ho)
        refine ⟨u, hu, OrderedSet.mem_erase.mpr ⟨fun hk => hnot ?_, huact⟩⟩
        exact List.mem_map.mpr ⟨other, ho, (Pair.mk.inj hk).1⟩)
      (fun b n u hm hu => hseq b n u (OrderedSet.mem_erase.mp hm).2 hu) hnd
    have hcount := OrderedSet.erase_count hact
    have hsz := OrderedSet.size_erase hact
    refine ⟨active, ?_, ?_, ?_⟩
    · rw [eraseActive, deref_of_heap ht, ok_bind]
      dsimp only
      rw [check_pos hcount, ok_bind, hrun]
    · simp only [List.length_cons]
      dsimp only at hsize
      omega
    · intro b n
      rw [hmem, OrderedSet.mem_erase, List.map_cons, List.mem_cons, not_or]
      constructor
      · rintro ⟨⟨hne, hm⟩, hb⟩
        refine ⟨hm, fun hbe => hne ?_, hb⟩
        subst hbe
        rw [hseq _ n t hm ht]
      · rintro ⟨hm, hbe, hb⟩
        exact ⟨⟨fun hk => hbe (Pair.mk.inj hk).1, hm⟩, hb⟩

/-- The addresses in `timers_` are distinct. -/
theorem Rep.nodup_addresses (h : q.Rep) {l : List Entry} (hl : l.Nodup)
    (hsub : ∀ entry ∈ l, entry ∈ q.timers_) : (l.map Pair.second).Nodup := by
  refine hl.map_on ?_
  intro x hx y hy hxy
  obtain ⟨t, ht, hte⟩ := h.mem_timers.mp (hsub x hx)
  obtain ⟨u, hu, hue⟩ := h.mem_timers.mp (hsub y hy)
  rw [← hxy] at hu
  exact Pair.ext (by rw [← hte, ← hue, ht.inj hu.1]) hxy

/-- The expired entries, in the order of `timers_`. -/
def expiredAt (q : TimerQueue) (now : Timestamp) : List Entry := q.timers_.before (nowEntry now)

theorem Rep.mem_expiredAt (h : q.Rep) {now e : Timestamp} :
    ⟨e, a⟩ ∈ q.expiredAt now ↔ ∃ t, q.Holds a t ∧ t.expiration_ = e ∧ e ≤ now := by
  rw [expiredAt, OrderedSet.mem_before, h.mem_timers]
  constructor
  · rintro ⟨⟨t, ht, hte⟩, hlt⟩
    exact ⟨t, ht, hte, (lt_nowEntry (h.addr a t ht.1)).mp hlt⟩
  · rintro ⟨t, ht, hte, hle⟩
    exact ⟨⟨t, ht, hte⟩, (lt_nowEntry (h.addr a t ht.1)).mpr hle⟩

/-- What `getExpired` leaves: the timers that expire after `now`, in both sets. -/
structure Cut (q : TimerQueue) (now : Timestamp) (q' : TimerQueue) : Prop where
  rep : q'.Rep
  heap : q'.heap = q.heap
  holds : ∀ b u, q'.Holds b u ↔ q.Holds b u ∧ now < u.expiration_
  created : q'.s_numCreated_ = q.s_numCreated_

theorem Rep.getExpired_spec (h : q.Rep) (now : Timestamp) :
    ∃ q', q.getExpired now = .ok (q', q.expiredAt now) ∧ q.Cut now q' := by
  have hout : ∀ e b, ⟨e, b⟩ ∈ q.timers_.onward (nowEntry now) ↔
      ∃ u, q.Holds b u ∧ u.expiration_ = e ∧ now < e := by
    intro e b
    rw [OrderedSet.mem_onward, h.mem_timers]
    constructor
    · rintro ⟨⟨u, hu, hue⟩, hlt⟩
      exact ⟨u, hu, hue, not_le.mp (mt (lt_nowEntry (h.addr b u hu.1)).mpr hlt)⟩
    · rintro ⟨u, hu, hue, hlt⟩
      exact ⟨⟨u, hu, hue⟩, mt (lt_nowEntry (h.addr b u hu.1)).mp (not_le.mpr hlt)⟩
  have hbound : ∀ entry ∈ (q.timers_.onward (nowEntry now)).begin, now < entry.first := by
    intro entry he
    obtain ⟨u, -, -, hlt⟩ := (hout _ _).mp (OrderedSet.mem_of_begin he)
    exact hlt
  obtain ⟨active, hrun, hsize, hmem⟩ := eraseActive_spec (q.expiredAt now)
    { q with timers_ := q.timers_.onward (nowEntry now) }
    (fun entry he => by
      obtain ⟨t, ht, -⟩ := h.mem_expiredAt.mp he
      exact ⟨t, ht.1, (h.mem_active ht.1).mpr ⟨rfl, ht.2⟩⟩)
    (fun b n t hm ht => ((h.mem_active ht).mp hm).1)
    (h.nodup_addresses (q.timers_.before_sorted _ |>.imp ne_of_lt)
      fun entry he => (OrderedSet.mem_before.mp he).1)
  have hrep : Rep { q with
      timers_ := q.timers_.onward (nowEntry now), activeTimers_ := active } := by
    refine ⟨?_, ?_, ?_, h.addr⟩
    · intro e b hm
      obtain ⟨u, hu, hue, hlt⟩ := (hout e b).mp hm
      refine ⟨u, hu.1, hue, (hmem _ _).mpr ⟨(h.mem_active hu.1).mpr ⟨rfl, hu.2⟩, ?_⟩⟩
      intro hb
      obtain ⟨⟨e', _⟩, he', rfl⟩ := List.mem_map.mp hb
      obtain ⟨u', hu', rfl, hle⟩ := h.mem_expiredAt.mp he'
      rw [hu'.inj hu.1, hue] at hle
      exact not_lt.mpr hle hlt
    · intro b n hm
      obtain ⟨hact, hb⟩ := (hmem b n).mp hm
      obtain ⟨u, hu, hn, hut⟩ := h.filed b n hact
      refine ⟨u, hu, hn, (hout _ _).mpr ⟨u, ⟨hu, hut⟩, rfl, ?_⟩⟩
      by_contra hle
      exact hb (List.mem_map.mpr ⟨⟨u.expiration_, b⟩,
        h.mem_expiredAt.mpr ⟨u, ⟨hu, hut⟩, rfl, not_lt.mp hle⟩, rfl⟩)
    · have hcut : (q.expiredAt now).length + (q.timers_.onward (nowEntry now)).size =
          q.timers_.size := q.timers_.size_cut (nowEntry now)
      refine Nat.add_left_cancel (hcut.trans (h.sizes.trans ?_))
      exact hsize.symm.trans (Nat.add_comm ..)
  refine ⟨_, ?_, hrep, rfl, ?_, rfl⟩
  · refine check_bind_eq_ok.mpr ⟨h.sizes, check_bind_eq_ok.mpr ⟨hbound, ?_⟩⟩
    exact bind_eq_ok.mpr ⟨_, hrun, check_bind_eq_ok.mpr ⟨hrep.sizes, rfl⟩⟩
  · intro b u
    constructor
    · rintro ⟨hu, hm⟩
      obtain ⟨u', hu', -, hlt⟩ := (hout _ _).mp hm
      exact ⟨⟨hu, hu'.inj hu ▸ hu'.2⟩, hlt⟩
    · rintro ⟨hu, hlt⟩
      exact ⟨hu.1, (hout _ _).mpr ⟨u, hu, rfl, hlt⟩⟩

/-! ## reset -/

/-- The test of `reset`: the timer repeats and was not cancelled during the batch. -/
def Rearms (q : TimerQueue) (a : Addr) (t : Timer) : Prop :=
  t.repeat_ = true ∧ ⟨a, t.sequence_⟩ ∉ q.cancelingTimers_

instance : Decidable (q.Rearms a t) := inferInstanceAs (Decidable (_ ∧ _))

/-- What `reset` makes of the timer at `b`, if it is one of the expired. -/
def Settles (q : TimerQueue) (now : Timestamp) (q' : TimerQueue) (b : Addr) : Prop :=
  ∀ t, q.heap b = some t →
    if q.Rearms b t then q'.Holds b (t.restart now) else q'.heap b = none

/-- What the loop of `reset` leaves. -/
structure Reset (q : TimerQueue) (now : Timestamp) (expired : List Entry) (q' : TimerQueue) :
    Prop where
  rep : q'.Rep
  settles : ∀ b ∈ expired.map Pair.second, q.Settles now q' b
  /-- Every other timer is as it was. -/
  heap : ∀ b ∉ expired.map Pair.second, q'.heap b = q.heap b
  holds : ∀ b ∉ expired.map Pair.second, ∀ u, q'.Holds b u ↔ q.Holds b u
  canceling : q'.cancelingTimers_ = q.cancelingTimers_
  calling : q'.callingExpiredTimers_ = q.callingExpiredTimers_
  created : q'.s_numCreated_ = q.s_numCreated_

/-- The state of `q` after one turn of the loop, for the timer `t` at `a`. -/
def settle (q : TimerQueue) (now : Timestamp) (a : Addr) (t : Timer) : TimerQueue :=
  if q.Rearms a t then
    { q with heap := Function.update q.heap a (some (t.restart now)) }.link a (t.restart now)
  else { q with heap := Function.update q.heap a none }

theorem settle_heap_ne {now : Timestamp} (h : b ≠ a) :
    (q.settle now a t).heap b = q.heap b := by
  unfold settle
  split <;> exact Function.update_of_ne h ..

theorem mem_settle_timers {now e : Timestamp} (h : b ≠ a) :
    ⟨e, b⟩ ∈ (q.settle now a t).timers_ ↔ ⟨e, b⟩ ∈ q.timers_ := by
  unfold settle
  split
  · rw [mem_link_timers]
    exact or_iff_right fun hb => h hb.2
  · exact Iff.rfl

/-- A timer in neither set may change, or go, without breaking the representation. -/
theorem Rep.update (h : q.Rep) (ha : q.Apart a) {t? : Option Timer} :
    Rep { q with heap := Function.update q.heap a t? } := by
  have hlt : a < UINTPTR_MAX := ha.1.elim fun t ht => h.addr a t ht
  refine ⟨?_, ?_, h.sizes, ?_⟩
  · intro e b hm
    have hba : b ≠ a := by
      rintro rfl
      exact ha.2 e hm
    simpa only [Function.update_of_ne hba] using h.live e b hm
  · intro b n hm
    have hba : b ≠ a := by
      rintro rfl
      exact ha.not_active h hm
    simpa only [Function.update_of_ne hba] using h.filed b n hm
  · intro b u hu
    by_cases hba : b = a
    · exact hba ▸ hlt
    · exact h.addr b u ((Function.update_of_ne hba ..).symm.trans hu)

theorem Rep.settle (h : q.Rep) (ha : q.Apart a) (now : Timestamp) :
    (q.settle now a t).Rep := by
  unfold TimerQueue.settle
  split
  · exact (h.update ha).link ⟨⟨_, Function.update_self ..⟩, ha.2⟩ (Function.update_self ..)
  · exact h.update ha

theorem settle_settles (ht : q.heap a = some t) (now : Timestamp) :
    q.Settles now (q.settle now a t) a := by
  intro u hu
  cases ht.symm.trans hu
  unfold settle
  split
  · exact ⟨Function.update_self .., mem_link_timers.mpr (.inl ⟨rfl, rfl⟩)⟩
  · exact Function.update_self ..

/-- The loop does its turns one by one. -/
theorem Rep.resetEach_cons (h : q.Rep) {now e : Timestamp} {expired : List Entry} (ha : q.Apart a)
    (ht : q.heap a = some t) :
    q.resetEach now (⟨e, a⟩ :: expired) = (q.settle now a t).resetEach now expired := by
  simp only [resetEach, deref_of_heap ht, ok_bind]
  by_cases hre : t.repeat_ = true ∧ ⟨a, t.sequence_⟩ ∉ q.cancelingTimers_
  · rw [if_pos hre, TimerQueue.settle, if_pos (show q.Rearms a t from hre),
      (h.update ha).insert_eq ⟨⟨_, Function.update_self ..⟩, ha.2⟩ (Function.update_self ..),
      ok_bind]
  · rw [if_neg hre, TimerQueue.settle, if_neg (show ¬ q.Rearms a t from hre), TimerQueue.delete,
      deref_of_heap ht, ok_bind, ok_bind]

theorem Apart.settle {now : Timestamp} (hb : q.Apart b) (hba : b ≠ a) :
    (q.settle now a t).Apart b := by
  refine ⟨?_, fun e hm => hb.2 e ((mem_settle_timers hba).mp hm)⟩
  rw [settle_heap_ne hba]
  exact hb.1

theorem settle_canceling (q : TimerQueue) (now : Timestamp) (a : Addr) (t : Timer) :
    (q.settle now a t).cancelingTimers_ = q.cancelingTimers_ := by
  unfold settle
  split <;> rfl

theorem rearms_settle {now : Timestamp} : (q.settle now a t).Rearms b u ↔ q.Rearms b u := by
  rw [Rearms, settle_canceling]
  rfl

theorem settle_calling (q : TimerQueue) (now : Timestamp) (a : Addr) (t : Timer) :
    (q.settle now a t).callingExpiredTimers_ = q.callingExpiredTimers_ := by
  unfold settle
  split <;> rfl

theorem settle_created (q : TimerQueue) (now : Timestamp) (a : Addr) (t : Timer) :
    (q.settle now a t).s_numCreated_ = q.s_numCreated_ := by
  unfold settle
  split <;> rfl

/-- The loop of `reset` settles each expired timer and touches no other. -/
theorem Rep.resetEach_spec (now : Timestamp) (expired : List Entry) :
    ∀ {q : TimerQueue}, q.Rep → (∀ b ∈ expired.map Pair.second, q.Apart b) →
      (expired.map Pair.second).Nodup →
      ∃ q', q.resetEach now expired = .ok q' ∧ q.Reset now expired q' := by
  induction expired with
  | nil =>
    intro q h _ _
    exact ⟨q, rfl, h, by simp, fun _ _ => rfl, fun _ _ _ => Iff.rfl, rfl, rfl, rfl⟩
  | cons entry expired ih =>
    intro q h hout hnd
    obtain ⟨e, a⟩ := entry
    obtain ⟨hnot, hnd⟩ := List.nodup_cons.mp hnd
    have ha : q.Apart a := hout a List.mem_cons_self
    obtain ⟨t, ht⟩ := ha.1
    have hne : ∀ b ∈ expired.map Pair.second, b ≠ a := by
      rintro b hb rfl
      exact hnot hb
    obtain ⟨q', hrun, hr⟩ := ih (h.settle (t := t) ha now)
      (fun b hb => (hout b (List.mem_cons_of_mem _ hb)).settle (hne b hb)) hnd
    refine ⟨q', (h.resetEach_cons ha ht).trans hrun, hr.rep, ?_, ?_, ?_, ?_, ?_, ?_⟩
    · intro b hb
      rcases List.mem_cons.mp hb with rfl | hb
      · -- the timer of this turn is left alone by the turns after it
        intro u hu
        have hs := settle_settles ht now u hu
        split at hs
        · next hre => rw [if_pos hre]; exact (hr.holds _ hnot _).mpr hs
        · next hre => rw [if_neg hre]; exact (hr.heap _ hnot).trans hs
      · intro u hu
        have hs := hr.settles b hb u ((settle_heap_ne (hne b hb)).trans hu)
        simpa only [rearms_settle] using hs
    · intro b hb
      obtain ⟨hba, hb⟩ := not_or.mp (mt List.mem_cons.mpr hb)
      exact (hr.heap b hb).trans (settle_heap_ne hba)
    · intro b hb u
      obtain ⟨hba, hb⟩ := not_or.mp (mt List.mem_cons.mpr hb)
      rw [hr.holds b hb]
      simp only [Holds, settle_heap_ne hba, mem_settle_timers hba]
    · rw [hr.canceling, settle_canceling]
    · rw [hr.calling, settle_calling]
    · rw [hr.created, settle_created]

/-- Setting the timerfd reads a live timer at most. -/
theorem Rep.resetNext_eq (h : q.Rep) (clock : Timestamp) :
    ∃ fd, q.resetNext clock = .ok { q with timerfd_ := fd } := by
  have hset : ∀ e : Timestamp, ∃ fd, (if Timestamp.valid e then
      .ok { q with timerfd_ := resetTimerfd e clock } else .ok q) =
        Except.ok (ε := TimerFault) { q with timerfd_ := fd } := by
    intro e
    split
    · exact ⟨_, rfl⟩
    · exact ⟨_, rfl⟩
  unfold resetNext
  cases hb : q.timers_.begin with
  | none => exact hset 0
  | some entry =>
    obtain ⟨t, ht, -⟩ := h.live entry.first entry.second (OrderedSet.mem_of_begin hb)
    obtain ⟨fd, hfd⟩ := hset t.expiration_
    exact ⟨fd, bind_eq_ok.mpr ⟨t, deref_of_heap ht, hfd⟩⟩

/-! ## handleRead -/

theorem Rep.beginExpired_spec (h : q.Rep) (now : Timestamp) :
    ∃ q', q.beginExpired now = .ok (q', q.expiredAt now) ∧ q.Cut now q' ∧
      q'.callingExpiredTimers_ = true ∧ q'.cancelingTimers_ = .empty := by
  have hfd : Rep { q with timerfd_ := readTimerfd q.timerfd_ } :=
    ⟨h.live, h.filed, h.sizes, h.addr⟩
  obtain ⟨q', hrun, hcut⟩ := hfd.getExpired_spec now
  exact ⟨_, bind_eq_ok.mpr ⟨_, hrun, rfl⟩,
    ⟨⟨hcut.rep.live, hcut.rep.filed, hcut.rep.sizes, hcut.rep.addr⟩, hcut.heap, hcut.holds,
      hcut.created⟩, rfl, rfl⟩

theorem Rep.endExpired_spec (h : q.Rep) {expired : List Entry}
    (hout : ∀ b ∈ expired.map Pair.second, q.Apart b) (hnd : (expired.map Pair.second).Nodup)
    (now clock : Timestamp) :
    ∃ q', q.endExpired expired now clock = .ok q' ∧
      Reset { q with callingExpiredTimers_ := false } now expired q' := by
  have hoff : Rep { q with callingExpiredTimers_ := false } :=
    ⟨h.live, h.filed, h.sizes, h.addr⟩
  obtain ⟨q', hrun, hr⟩ := hoff.resetEach_spec now expired hout hnd
  obtain ⟨fd, hfd⟩ := hr.rep.resetNext_eq clock
  exact ⟨_, bind_eq_ok.mpr ⟨q', hrun, hfd⟩,
    ⟨hr.rep.live, hr.rep.filed, hr.rep.sizes, hr.rep.addr⟩, hr.settles, hr.heap, hr.holds,
    hr.canceling, hr.calling, hr.created⟩

/-! ## new Timer -/

theorem newTimer_heap_self {when : Timestamp} {interval : Interval} :
    (q.newTimer a when interval).heap a = some (.new when interval (q.s_numCreated_ + 1)) :=
  Function.update_self ..

theorem newTimer_heap_ne {when : Timestamp} {interval : Interval} (h : b ≠ a) :
    (q.newTimer a when interval).heap b = q.heap b := Function.update_of_ne h ..

/-- No entry is filed at an address that holds no timer. -/
theorem Rep.not_mem_of_free (h : q.Rep) (ha : q.heap a = none) (e : Timestamp) :
    ⟨e, a⟩ ∉ q.timers_ := by
  intro hm
  obtain ⟨t, ht, -⟩ := h.live e a hm
  exact nomatch ha.symm.trans ht

theorem Rep.newTimer (h : q.Rep) (ha : q.heap a = none) (hlt : a < UINTPTR_MAX)
    (when : Timestamp) (interval : Interval) : (q.newTimer a when interval).Rep := by
  refine ⟨?_, ?_, h.sizes, ?_⟩
  · intro e b hm
    have hba : b ≠ a := by
      rintro rfl
      exact h.not_mem_of_free ha e hm
    rw [newTimer_heap_ne hba]
    exact h.live e b hm
  · intro b n hm
    have hba : b ≠ a := by
      rintro rfl
      obtain ⟨u, hu, -⟩ := h.filed b n hm
      exact nomatch ha.symm.trans hu
    rw [newTimer_heap_ne hba]
    exact h.filed b n hm
  · intro b u hu
    by_cases hba : b = a
    · exact hba ▸ hlt
    · exact h.addr b u ((newTimer_heap_ne hba).symm.trans hu)

theorem Rep.apart_newTimer (h : q.Rep) (ha : q.heap a = none) (when : Timestamp)
    (interval : Interval) : (q.newTimer a when interval).Apart a :=
  ⟨⟨_, newTimer_heap_self⟩, h.not_mem_of_free ha⟩

theorem Apart.newTimer (hb : q.Apart b) (ha : q.heap a = none) (when : Timestamp)
    (interval : Interval) : (q.newTimer a when interval).Apart b := by
  have hba : b ≠ a := by
    rintro rfl
    obtain ⟨t, ht⟩ := hb.1
    exact nomatch ha.symm.trans ht
  exact ⟨by rw [newTimer_heap_ne hba]; exact hb.1, hb.2⟩

theorem Rep.holds_newTimer (h : q.Rep) (ha : q.heap a = none) {when : Timestamp}
    {interval : Interval} : (q.newTimer a when interval).Holds b u ↔ q.Holds b u := by
  by_cases hba : b = a
  · subst hba
    exact ⟨fun hu => absurd hu.2 (h.not_mem_of_free ha _), fun hu => nomatch ha.symm.trans hu.1⟩
  · simp only [Holds, newTimer_heap_ne hba]
    exact Iff.rfl

end TimerQueue

end Netfish
