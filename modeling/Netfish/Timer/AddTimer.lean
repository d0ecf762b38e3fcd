import Netfish.Timer.Lifetime

/-!
# addTimer in another thread

`addTimer` makes the timer, sends its pointer to the loop, and then reads `timer->sequence()`: once for
the trace line when tracing is on, and once for the `TimerId` it returns. The timer is the loop's from the
push on, so the loop may have run and deleted it by then.
-/

set_option autoImplicit false

namespace Netfish

open Kit TimerQueue

universe u

/-- Where a thread stands in `addTimer`. The key is the pointer it holds, with the number the timer was
made under. -/
inductive AddTimerPc where
  | idle
  /-- About to push the functor. -/
  | made (key : ActiveTimer)
  /-- At `LOG_TRACE`. -/
  | queued (key : ActiveTimer)
  /-- At the `return`. -/
  | traced (key : ActiveTimer)
deriving DecidableEq, Repr

/-- The timer the thread has still to read. -/
def AddTimerPc.unread : AddTimerPc → Option ActiveTimer
  | .idle => none
  | .made key => some key
  | .queued key => some key
  | .traced key => some key

structure AddTimerState (T : Type u) where
  timers : TimerState
  /-- `g_logLevel < 1`. -/
  tracing : Bool
  calls : T → AddTimerPc
  /-- The pointers bound to the functors pushed and not yet run. -/
  functors : List Addr
  /-- History: the timers made, with the ids returned for them. -/
  returned : List (ActiveTimer × TimerId)

inductive AddTimerAct (T : Type u) where
  | make (t : T) (timer : Addr) (when : Timestamp) (interval : Interval)
  | queueInLoop (t : T)
  | trace (t : T)
  | finish (t : T)
  /-- A step of the loop thread. -/
  | loop (a : TimerAct)

namespace AddTimerState

variable {T : Type u}

def start (tracing : Bool) : AddTimerState T where
  timers := .start
  tracing
  calls _ := .idle
  functors := []
  returned := []

variable [DecidableEq T]

/-- `timer->sequence()`. -/
def readSequence (s : AddTimerState T) (timer : Addr) (f : Int → AddTimerState T) : AddTimerState T :=
  match s.timers.q.deref timer with
  | .ok t => f t.sequence_
  | .error fault => { s with timers := { s.timers with fault := some fault } }

/-- `addTimer` in a thread that is not the loop's. -/
def callStep (s : AddTimerState T) : AddTimerAct T → Option (AddTimerState T)
  | .make t timer when interval =>
    if s.calls t = .idle then
      (s.timers.step (.newTimer timer when interval)).map fun timers =>
        { s with
          timers := timers
          calls := Function.update s.calls t (.made ⟨timer, s.timers.q.s_numCreated_ + 1⟩) }
    else none
  | .queueInLoop t =>
    match s.calls t with
    | .made key =>
      some { s with
        calls := Function.update s.calls t (.queued key), functors := s.functors ++ [key.first] }
    | _ => none
  | .trace t =>
    match s.calls t with
    | .queued key =>
      let s' := { s with calls := Function.update s.calls t (.traced key) }
      some (if s.tracing then s.readSequence key.first fun _ => s' else s')
    | _ => none
  | .finish t =>
    match s.calls t with
    | .traced key =>
      some (s.readSequence key.first fun sequence =>
        { s with
          calls := Function.update s.calls t .idle
          returned := s.returned ++ [(key, ⟨key.first, sequence⟩)] })
    | _ => none
  | .loop _ => none

/-- The loop thread runs the functors it was sent, and nothing else makes a timer for it elsewhere. -/
def loopStep (s : AddTimerState T) : TimerAct → Option (AddTimerState T)
  | .newTimer .. => none
  | .addTimerInLoop timer now =>
    if timer ∈ s.functors then
      (s.timers.step (.addTimerInLoop timer now)).map fun timers =>
        { s with timers := timers, functors := s.functors.erase timer }
    else none
  | a => (s.timers.step a).map fun timers => { s with timers := timers }

def step (s : AddTimerState T) (a : AddTimerAct T) : Option (AddTimerState T) :=
  if s.timers.fault.isSome then none
  else match a with
    | .loop a => s.loopStep a
    | a => s.callStep a

end AddTimerState

/-- The timer queue and the threads that call `addTimer`. -/
def addTimers (T : Type u) [DecidableEq T] : Machine (AddTimerState T) (AddTimerAct T) where
  init s := ∃ tracing, s = .start tracing
  step := AddTimerState.step

/-! ## What the caller finds -/

namespace AddTimerState

variable {T : Type u} {s s' : AddTimerState T} {t : T} {key : ActiveTimer}

/-- The timer that a thread has still to read is the one it made, and each id returned is that of the
timer made. -/
structure ReadsOwn (s : AddTimerState T) : Prop where
  fault : s.timers.fault = none
  unread : ∀ t key, (s.calls t).unread = some key →
    ∃ u, s.timers.q.heap key.first = some u ∧ u.sequence_ = key.second
  returned : ∀ p ∈ s.returned, p.2.key = p.1

/-- The loop deletes no timer that a thread in `addTimer` has still to read: `cancelInLoop` names none of
them, and those in the batch repeat and are not cancelled. -/
def SparesUnread (s : AddTimerState T) (a : AddTimerAct T) : Prop :=
  (∀ id, a = .loop (.cancelInLoop id) → id.key ∈ s.timers.q.activeTimers_ →
    ∀ t, (s.calls t).unread ≠ some id.key) ∧
  ∀ clock, a = .loop (.endRead clock) → ∀ t key u, (s.calls t).unread = some key →
    s.timers.q.heap key.first = some u → key.first ∈ s.timers.pc.expired.map Pair.second →
    s.timers.q.Rearms key.first u

theorem start_readsOwn (tracing : Bool) : (start tracing : AddTimerState T).ReadsOwn where
  fault := rfl
  unread _ _ h := by cases h
  returned _ h := absurd h List.not_mem_nil

theorem readSequence_of_heap {timer : Addr} {u : Timer} (hu : s.timers.q.heap timer = some u)
    (f : Int → AddTimerState T) : s.readSequence timer f = f u.sequence_ := by
  rw [readSequence, deref_of_heap hu]

/-- The loop thread's steps are those of the queue, and leave the callers where they are. -/
theorem loopStep_timers {a : TimerAct} (hs : s.loopStep a = some s') :
    s.timers.step a = some s'.timers ∧ s'.calls = s.calls ∧ s'.returned = s.returned := by
  unfold loopStep at hs
  split at hs
  · cases hs
  · split at hs
    · obtain ⟨timers, hstep, rfl⟩ := Option.map_eq_some_iff.mp hs
      exact ⟨hstep, rfl, rfl⟩
    · cases hs
  · obtain ⟨timers, hstep, rfl⟩ := Option.map_eq_some_iff.mp hs
    exact ⟨hstep, rfl, rfl⟩

theorem ReadsOwn.loopStep (h : s.ReadsOwn) (hsound : s.timers.Sound) {a : TimerAct}
    (hok : s.SparesUnread (.loop a)) (hs : s.loopStep a = some s') :
    s'.timers.Sound ∧ s'.ReadsOwn := by
  obtain ⟨hstep, hcalls, hreturned⟩ := loopStep_timers hs
  have hnext := hsound.step hstep
  refine ⟨hnext, hnext.fault, ?_, hreturned ▸ h.returned⟩
  intro t key hkey
  rw [hcalls] at hkey
  obtain ⟨u, hu, hseq⟩ := h.unread t key hkey
  cases hv : s'.timers.q.heap key.first with
  | some v => exact ⟨v, rfl, (Ledger.same (hsound.heapStep hstep) hu hv).trans hseq⟩
  | none =>
    rcases hsound.goes hstep hu hv with ⟨id, rfl, hid, hactive⟩ | ⟨clock, rfl, hexp, hnot⟩
    · rw [hseq] at hid
      exact absurd (hid ▸ hkey) (hok.1 id rfl hactive t)
    · exact absurd (hok.2 clock rfl t key u hkey hu hexp) hnot

variable [DecidableEq T]

theorem step_loop (hfault : s.timers.fault = none) (a : TimerAct) :
    s.step (.loop a) = s.loopStep a := by
  unfold step
  rw [hfault]
  rfl

/-- A thread moves on with the timer it made. -/
theorem ReadsOwn.advance (h : s.ReadsOwn) {pc : AddTimerPc} (hpc : pc.unread = some key)
    (hwas : (s.calls t).unread = some key) :
    ∀ t' key', (Function.update s.calls t pc t').unread = some key' →
      ∃ u, s.timers.q.heap key'.first = some u ∧ u.sequence_ = key'.second := by
  intro t' key' hkey
  by_cases ht : t' = t
  · rw [ht, Function.update_self, hpc] at hkey
    cases hkey
    exact h.unread t key hwas
  · rw [Function.update_of_ne ht] at hkey
    exact h.unread t' key' hkey

theorem ReadsOwn.callStep (h : s.ReadsOwn) (hsound : s.timers.Sound) {a : AddTimerAct T}
    (hs : s.callStep a = some s') : s'.timers.Sound ∧ s'.ReadsOwn := by
  unfold AddTimerState.callStep at hs
  split at hs
  · next t timer when interval =>
    split at hs
    · next hidle =>
      obtain ⟨timers, hstep, rfl⟩ := Option.map_eq_some_iff.mp hs
      have hnext := hsound.step hstep
      refine ⟨hnext, hnext.fault, ?_, h.returned⟩
      cases hsound.move hstep with
      | newTimer ha =>
        intro t' key hkey
        dsimp only at hkey
        by_cases ht : t' = t
        · rw [ht, Function.update_self] at hkey
          cases hkey
          exact ⟨_, newTimer_heap_self, rfl⟩
        · rw [Function.update_of_ne ht] at hkey
          obtain ⟨u, hu, hseq⟩ := h.unread t' key hkey
          have hne : key.first ≠ timer := by
            rintro rfl
            cases ha.1.symm.trans hu
          exact ⟨u, (newTimer_heap_ne hne).trans hu, hseq⟩
    · cases hs
  · next t =>
    split at hs
    · next key hpc =>
      cases hs
      exact ⟨hsound, h.fault, h.advance rfl (by rw [hpc]; rfl), h.returned⟩
    · cases hs
  · next t =>
    split at hs
    · next key hpc =>
      have hunread : (s.calls t).unread = some key := by rw [hpc]; rfl
      obtain ⟨u, hu, -⟩ := h.unread t key hunread
      dsimp only at hs
      rw [readSequence_of_heap hu, ite_self] at hs
      cases hs
      exact ⟨hsound, h.fault, h.advance rfl hunread, h.returned⟩
    · cases hs
  · next t =>
    split at hs
    · next key hpc =>
      obtain ⟨u, hu, hseq⟩ := h.unread t key (by rw [hpc]; rfl)
      rw [readSequence_of_heap hu] at hs
      cases hs
      refine ⟨hsound, h.fault, ?_, ?_⟩
      · intro t' key' hkey
        dsimp only at hkey
        by_cases ht : t' = t
        · rw [ht, Function.update_self] at hkey
          cases hkey
        · rw [Function.update_of_ne ht] at hkey
          exact h.unread t' key' hkey
      · intro p hp
        rcases List.mem_append.mp hp with hp | hp
        · exact h.returned p hp
        · rw [List.mem_singleton.mp hp, hseq]
          rfl
    · cases hs
  · cases hs

theorem ReadsOwn.step (h : s.ReadsOwn) (hsound : s.timers.Sound) {a : AddTimerAct T}
    (hok : s.SparesUnread a) (hs : s.step a = some s') : s'.timers.Sound ∧ s'.ReadsOwn := by
  cases a with
  | loop a =>
    rw [step_loop h.fault] at hs
    exact h.loopStep hsound hok hs
  | _ =>
    simp only [AddTimerState.step, h.fault, Option.isSome_none, Bool.false_eq_true, if_false] at hs
    exact h.callStep hsound hs

/-- A timer deleted before its caller has read it is not there for the read. -/
theorem ReadsOwn.breaks (h : s.ReadsOwn) (hsound : s.timers.Sound) {a : AddTimerAct T}
    (hok : ¬ s.SparesUnread a) (hs : s.step a = some s') : ¬ s'.ReadsOwn := by
  intro hgood
  refine hok ⟨?_, ?_⟩
  · rintro id rfl hactive t hkey
    rw [step_loop h.fault] at hs
    obtain ⟨hstep, hcalls, -⟩ := loopStep_timers hs
    obtain ⟨v, hv, -⟩ := hgood.unread t id.key (by rw [hcalls]; exact hkey)
    cases (hsound.cancel_deletes hstep hactive).symm.trans hv
  · rintro clock rfl t key u hkey hu hexp
    rw [step_loop h.fault] at hs
    obtain ⟨hstep, hcalls, -⟩ := loopStep_timers hs
    obtain ⟨v, hv, -⟩ := hgood.unread t key (by rw [hcalls]; exact hkey)
    by_contra hnot
    cases (hsound.reset_deletes hstep hu hexp hnot).symm.trans hv

end AddTimerState

variable {T : Type u} [DecidableEq T] {s : AddTimerState T}

/-- **When `addTimer` reads a timer that is there.** In a run of any threads in `addTimer` and of the loop,
with any expirations, clocks and callbacks: each read of a timer by its maker finds that timer, and each
id returned carries its number, if and only if the loop deletes no timer whose `addTimer` has not
returned. -/
theorem addTimer_reads_own_iff (h : (addTimers T).init s) (as : List (AddTimerAct T)) :
    (addTimers T).Along AddTimerState.ReadsOwn s as ↔
      (addTimers T).Guarded AddTimerState.SparesUnread s as := by
  obtain ⟨tracing, rfl⟩ := h
  exact Machine.along_iff_guarded (fun s : AddTimerState T => s.timers.Sound ∧ s.ReadsOwn) (fun _ h => h.2)
    (fun _ _ _ h hok hs => h.2.step h.1 hok hs) (fun _ _ _ h hok hs => h.2.breaks h.1 hok hs)
    ⟨TimerState.start_sound, AddTimerState.start_readsOwn tracing⟩

/-- The call returns before the timer expires. -/
theorem addTimer_reads_own_early : ∃ s : AddTimerState Unit, (addTimers Unit).Reachable s ∧
    s.returned = [(⟨1, 1⟩, ⟨1, 1⟩)] ∧ s.ReadsOwn := by
  obtain ⟨s, hs, hreturned⟩ : ∃ s, (addTimers Unit).run (.start true) [.make () 1 5 ⟨0, false, by simp⟩,
    .queueInLoop (), .loop (.addTimerInLoop 1 0), .trace (), .finish (), .loop .timerfdExpires] = some s ∧
    s.returned = [(⟨1, 1⟩, ⟨1, 1⟩)] := ⟨_, rfl, rfl⟩
  have hinit : (addTimers Unit).init (.start true) := ⟨true, rfl⟩
  refine ⟨s, ⟨_, _, hinit, hs⟩, hreturned, ((addTimer_reads_own_iff hinit _).mpr ?_).last hs⟩
  exact Machine.Guarded.of_labels (by simp [AddTimerState.SparesUnread]) _

/-- The timer has expired when it is made: the loop adds it, runs it and deletes it before its maker reads
the number for the id. -/
theorem addTimer_reads_own_fails : ¬ ∀ s₀ : AddTimerState Unit, (addTimers Unit).init s₀ →
    ∀ as s, (addTimers Unit).run s₀ as = some s → s.timers.fault = none := by
  intro hall
  obtain ⟨s, hs, hfault⟩ : ∃ s, (addTimers Unit).run (.start false) [.make () 1 5 ⟨0, false, by simp⟩,
    .queueInLoop (), .loop (.addTimerInLoop 1 10), .loop .timerfdExpires, .loop (.handleRead 10),
    .loop .runNext, .loop (.endRead 10), .trace (), .finish ()] = some s ∧
    s.timers.fault = some (.dangling 1) := ⟨_, rfl, rfl⟩
  cases (hall _ ⟨false, rfl⟩ _ s hs).symm.trans hfault

end Netfish
