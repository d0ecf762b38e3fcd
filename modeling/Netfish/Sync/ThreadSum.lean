import Netfish.Kit.Tickets
import Netfish.Sync.Thread

/-!
# Threads that share a counter

The program of `testThread.cc`: `main` starts `numT` threads, each of which logs `sum.getAndIncrement()` two
times, and then joins and deletes them one after the other. Each thread is one of `Thread`, so the program's
steps are theirs, those of `main` and those of `func`; `getAndIncrement` and the log line it is an argument of
are steps of their own, and the threads interleave in any way.

`sum` is an `AtomicInt32` and wraps around. A `pthread_create` that fails aborts the program and ends the run.
-/

set_option autoImplicit false

namespace Netfish

open Kit

/-- Where a thread stands in `func`. -/
structure SumFunc where
  i : Nat
  /-- What `getAndIncrement` has returned, until the line is logged. -/
  got : Option (BitVec 32)
deriving DecidableEq, Repr

/-- Where `main` stands. -/
inductive SumMain where
  /-- In the first loop. -/
  | starting (i : Nat)
  /-- In the second loop, before `queue[i]->join()`. -/
  | joining (i : Nat)
  /-- In `pthread_join`. -/
  | waiting (i : Nat)
  /-- Before `delete queue[i]`. -/
  | deleting (i : Nat)
  | returned
deriving DecidableEq, Repr

structure SumState where
  queue : Nat → ThreadState
  func : Nat → SumFunc
  main : SumMain
  sum : BitVec 32
  /-- The numbers in the log. -/
  logged : List (BitVec 32)
  /-- History: how often `getAndIncrement` was called. -/
  counted : Nat

inductive SumAct where
  /-- The next statement of `main`, with the id `pthread_create` gives if it is a `start`. -/
  | main (pthreadId : Nat)
  /-- A statement of `runInThread` in the thread of `queue[i]`. -/
  | run (i : Nat) (a : ThreadAct)
  /-- `sum.getAndIncrement()` -/
  | getAndIncrement (i : Nat)
  | log (i : Nat)

namespace SumState

def start : SumState where
  queue _ := .new
  func _ := ⟨0, none⟩
  main := .starting 0
  sum := 0
  logged := []
  counted := 0

/-- One step of one of the threads. -/
def onThread (s : SumState) (i : Nat) (a : ThreadAct) : Option SumState :=
  ((s.queue i).step a).map fun t => { s with queue := Function.update s.queue i t }

def mainStep (numT : Nat) (s : SumState) (pthreadId : Nat) : Option SumState :=
  match s.main with
  | .starting i =>
    if i < numT then (s.onThread i (.start (some pthreadId))).map ({ · with main := .starting (i + 1) })
    else some { s with main := .joining 0 }
  | .joining i =>
    if i < numT then (s.onThread i .join).map ({ · with main := .waiting i })
    else some { s with main := .returned }
  | .waiting i => (s.onThread i .joinReturns).map ({ · with main := .deleting i })
  | .deleting i => (s.onThread i .destroy).map ({ · with main := .joining (i + 1) })
  | .returned => none

/-- `int loop = 2` in `func`. -/
def loop : Nat := 2

def step (numT : Nat) (s : SumState) : SumAct → Option SumState
  | .main pthreadId => s.mainStep numT pthreadId
  | .run i a =>
    if a.ofThread = true ∧ (a = .funcReturns → s.func i = ⟨loop, none⟩) then s.onThread i a else none
  | .getAndIncrement i =>
    if (s.queue i).run = .running ∧ (s.func i).i < loop ∧ (s.func i).got = none then
      some { s with
        func := Function.update s.func i ⟨(s.func i).i, some s.sum⟩
        sum := s.sum + 1
        counted := s.counted + 1 }
    else none
  | .log i =>
    match s.func i with
    | ⟨k, some value⟩ => some { s with
        func := Function.update s.func i ⟨k + 1, none⟩, logged := s.logged ++ [value] }
    | _ => none

end SumState

/-- What `main` has done with a thread. -/
inductive SumPhase where
  | unstarted
  | started
  | joining
  | joined
  | deleted
deriving DecidableEq, Repr

/-- The thread is as `main` has left it. -/
def SumPhase.Fits : SumPhase → ThreadState → Prop
  | .unstarted, t => t = .new
  | .started, t => t.started_ = true ∧ t.joined_ = false ∧ t.owner = .outside
  | .joining, t => t.started_ = true ∧ t.joined_ = false ∧ t.owner = .joining
  | .joined, t => t.started_ = true ∧ t.joined_ = true ∧ t.owner = .outside
  | .deleted, t => t.started_ = true ∧ t.joined_ = true ∧ t.owner = .gone

/-- What `main` has done with `queue[j]`, from where it stands. -/
def SumMain.phase (numT : Nat) (main : SumMain) (j : Nat) : SumPhase :=
  if numT ≤ j then .unstarted
  else match main with
    | .starting i => if j < i then .started else .unstarted
    | .joining i => if j < i then .deleted else .started
    | .waiting i => if j < i then .deleted else if j = i then .joining else .started
    | .deleting i => if j < i then .deleted else if j = i then .joined else .started
    | .returned => .deleted

/-- The index of a loop of `main` is in range. -/
def SumMain.InRange (numT : Nat) : SumMain → Prop
  | .starting i => i ≤ numT
  | .joining i => i ≤ numT
  | .waiting i => i < numT
  | .deleting i => i < numT
  | .returned => True

/-- How often the thread has called `getAndIncrement`. -/
def SumFunc.count (f : SumFunc) : Nat := f.i + f.got.isSome.toNat

namespace SumState

variable {numT i : Nat} {s s' : SumState} {a : ThreadAct}

/-- The invariant. -/
structure Counts (numT : Nat) (s : SumState) : Prop where
  threads : ∀ i, thread.Reachable (s.queue i)
  noFault : ∀ i, (s.queue i).fault = none
  range : s.main.InRange numT
  phases : ∀ i, (s.main.phase numT i).Fits (s.queue i)
  before : ∀ i, (s.queue i).run.called = false → s.func i = ⟨0, none⟩
  after : ∀ i, (s.queue i).run.over = true → s.func i = ⟨loop, none⟩
  counted : s.counted = ∑ i ∈ Finset.range numT, (s.func i).count
  sum : s.sum = BitVec.ofNat 32 s.counted
  tickets : Tickets (BitVec.ofNat 32) s.counted numT (fun i => (s.func i).got) s.logged

theorem Counts.sound (h : s.Counts numT) (i : Nat) : (s.queue i).Sound := thread_sound (h.threads i)

/-- A thread that has come to `func` is one of the `numT`. -/
theorem Counts.lt (h : s.Counts numT) (hcalled : (s.queue i).run.called = true) : i < numT := by
  by_contra hi
  have hphase := h.phases i
  unfold SumMain.phase at hphase
  rw [if_pos (Nat.le_of_not_lt hi)] at hphase
  rw [show s.queue i = .new from hphase] at hcalled
  cases hcalled

/-- A thread takes a step of `Thread`, and `main` goes on with it or does not. -/
theorem Counts.onThread (h : s.Counts numT) {t : ThreadState} (ht : (s.queue i).step a = some t)
    (hfunc : a = .funcReturns → s.func i = ⟨loop, none⟩) (hfault : t.fault = none) {main : SumMain}
    (hrange : main.InRange numT) (hphase : (main.phase numT i).Fits t)
    (hothers : ∀ j, j ≠ i → main.phase numT j = s.main.phase numT j) :
    Counts numT { s with queue := Function.update s.queue i t, main } := by
  have hmove := (ThreadState.step_moves ht).2
  -- what holds of the thread that moves, and of the others already, holds of all
  have hall : ∀ p : Nat → ThreadState → Prop, p i t → (∀ j, j ≠ i → p j (s.queue j)) →
      ∀ j, p j (Function.update s.queue i t j) := by
    intro p hi hj j
    by_cases heq : j = i
    · rw [heq, Function.update_self]
      exact hi
    · rw [Function.update_of_ne heq]
      exact hj j heq
  refine ⟨?_, ?_, hrange, ?_, ?_, ?_, h.counted, h.sum, h.tickets⟩
  · exact hall (fun _ t => thread.Reachable t)
      ((h.threads i).run ((Machine.run_singleton ..).trans ht)) fun j _ => h.threads j
  · exact hall (fun _ t => t.fault = none) hfault fun j _ => h.noFault j
  · refine hall (fun j t => (main.phase numT j).Fits t) hphase ?_
    intro j hj
    show (main.phase numT j).Fits (s.queue j)
    rw [hothers j hj]
    exact h.phases j
  · refine hall (fun j t => t.run.called = false → s.func j = ⟨0, none⟩) ?_ fun j _ => h.before j
    intro hcalled
    apply h.before
    by_contra hno
    rw [(h.sound i).called hmove (by simpa using hno)] at hcalled
    cases hcalled
  · refine hall (fun j t => t.run.over = true → s.func j = ⟨loop, none⟩) ?_ fun j _ => h.after j
    intro hover
    by_cases ha : a = .funcReturns
    · exact hfunc ha
    · exact h.after i ((h.sound i).over hmove ha hover)

/-- `main` goes on, and no thread sees it. -/
theorem Counts.goto (h : s.Counts numT) {main : SumMain} (hrange : main.InRange numT)
    (hphases : ∀ j, main.phase numT j = s.main.phase numT j) : Counts numT { s with main } :=
  { h with
    range := hrange
    phases := fun j => by
      show (main.phase numT j).Fits (s.queue j)
      rw [hphases j]
      exact h.phases j }

/-- The statements of `runInThread`. -/
theorem Counts.run (h : s.Counts numT) (ha : a.ofThread = true)
    (hfunc : a = .funcReturns → s.func i = ⟨loop, none⟩) (hs : s.onThread i a = some s') :
    s'.Counts numT := by
  obtain ⟨t, ht, rfl⟩ := Option.map_eq_some_iff.mp hs
  have hmove := (ThreadState.step_moves ht).2
  obtain ⟨hstarted, hjoined, howner, hfault⟩ := (h.sound i).own ha hmove
  refine h.onThread ht hfunc (hfault.trans (h.noFault i)) h.range ?_ fun _ _ => rfl
  have hfits := h.phases i
  generalize s.main.phase numT i = phase at hfits
  cases phase with
  | unstarted =>
    -- a thread that is not started takes no step
    rw [show s.queue i = .new from hfits] at hmove
    cases hmove with
    | start | join | joinReturns | destroy => cases ha
    | lock hrun | store hrun | reset hrun | funcReturns hrun | delete hrun => cases hrun
  | _ =>
    obtain ⟨h₁, h₂, h₃⟩ := hfits
    exact ⟨hstarted.trans h₁, hjoined.trans h₂, howner.trans h₃⟩

theorem Counts.main (h : s.Counts numT) {pthreadId : Nat} (hs : s.mainStep numT pthreadId = some s') :
    s'.Counts numT := by
  have hrange := h.range
  have hfits := h.phases
  unfold mainStep at hs
  split at hs
  · next k hmain =>
    rw [hmain] at hrange hfits
    split at hs
    · next hk =>
      -- `start`
      obtain ⟨u, hu, rfl⟩ := Option.map_eq_some_iff.mp hs
      obtain ⟨t, ht, rfl⟩ := Option.map_eq_some_iff.mp hu
      have hnew : s.queue k = .new := by
        simpa [SumMain.phase, Nat.not_le.mpr hk, SumPhase.Fits] using hfits k
      have hmove := (ThreadState.step_moves ht).2
      rw [hnew] at hmove
      cases hmove with
      | start howner hid =>
        refine h.onThread ht (by simp) rfl hk ?_ ?_
        · simp only [SumMain.phase, Nat.not_le.mpr hk, if_false, Nat.lt_succ_self, if_true]
          exact ⟨rfl, rfl, rfl⟩
        · intro j hj
          rw [hmain]
          grind [SumMain.phase]
    · next hk =>
      cases hs
      refine h.goto (Nat.zero_le _) ?_
      intro j
      rw [hmain]
      grind [SumMain.phase]
  · next k hmain =>
    rw [hmain] at hrange hfits
    split at hs
    · next hk =>
      -- `join`
      obtain ⟨u, hu, rfl⟩ := Option.map_eq_some_iff.mp hs
      obtain ⟨t, ht, rfl⟩ := Option.map_eq_some_iff.mp hu
      obtain ⟨hstarted, hjoined, howner⟩ : (s.queue k).started_ = true ∧ (s.queue k).joined_ = false ∧
          (s.queue k).owner = .outside := by
        simpa [SumMain.phase, hk, Nat.not_le.mpr hk, SumPhase.Fits] using hfits k
      obtain ⟨hno, hmove⟩ := ThreadState.step_moves ht
      cases hmove with
      | join =>
        have hjoin := (h.sound k).join_eq howner hstarted hjoined
        refine h.onThread ht (by simp) (by rw [hjoin]; exact hno) hk ?_ ?_
        · rw [hjoin]
          simp only [SumMain.phase, Nat.not_le.mpr hk, if_false, Nat.lt_irrefl, if_true]
          exact ⟨hstarted, hjoined, rfl⟩
        · intro j hj
          rw [hmain]
          grind [SumMain.phase]
    · next hk =>
      cases hs
      refine h.goto trivial ?_
      intro j
      rw [hmain]
      grind [SumMain.phase]
  · next k hmain =>
    -- `pthread_join` returns
    rw [hmain] at hrange hfits
    have hk : k < numT := hrange
    obtain ⟨u, hu, rfl⟩ := Option.map_eq_some_iff.mp hs
    obtain ⟨t, ht, rfl⟩ := Option.map_eq_some_iff.mp hu
    obtain ⟨hstarted, -, -⟩ : (s.queue k).started_ = true ∧ (s.queue k).joined_ = false ∧
        (s.queue k).owner = .joining := by
      simpa [SumMain.phase, Nat.not_le.mpr hk, SumPhase.Fits] using hfits k
    obtain ⟨hno, hmove⟩ := ThreadState.step_moves ht
    cases hmove with
    | joinReturns =>
      refine h.onThread ht (by simp) hno hk ?_ ?_
      · simp only [SumMain.phase, Nat.not_le.mpr hk, if_false, Nat.lt_irrefl, if_true]
        exact ⟨hstarted, rfl, rfl⟩
      · intro j hj
        rw [hmain]
        grind [SumMain.phase]
  · next k hmain =>
    -- `~Thread`
    rw [hmain] at hrange hfits
    have hk : k < numT := hrange
    obtain ⟨u, hu, rfl⟩ := Option.map_eq_some_iff.mp hs
    obtain ⟨t, ht, rfl⟩ := Option.map_eq_some_iff.mp hu
    obtain ⟨hstarted, hjoined, -⟩ : (s.queue k).started_ = true ∧ (s.queue k).joined_ = true ∧
        (s.queue k).owner = .outside := by
      simpa [SumMain.phase, Nat.not_le.mpr hk, SumPhase.Fits] using hfits k
    obtain ⟨hno, hmove⟩ := ThreadState.step_moves ht
    cases hmove with
    | destroy =>
      have hdestroy : (s.queue k).destroy =
          { s.queue k with owner := .gone, tidUses := (s.queue k).tidUses - 1 } := by
        rw [ThreadState.destroy, if_neg (by simp [hjoined])]
      refine h.onThread ht (by simp) (by rw [hdestroy]; exact hno) hk ?_ ?_
      · rw [hdestroy]
        simp only [SumMain.phase, Nat.not_le.mpr hk, if_false, Nat.lt_succ_self, if_true]
        exact ⟨hstarted, hjoined, rfl⟩
      · intro j hj
        rw [hmain]
        grind [SumMain.phase]
  · cases hs

/-- The counts of all threads, when one changes. -/
theorem sum_count_update (hi : i < numT) (func : Nat → SumFunc) (f : SumFunc) :
    ∑ j ∈ Finset.range numT, (Function.update func i f j).count + (func i).count =
      ∑ j ∈ Finset.range numT, (func j).count + f.count := by
  have hmap : (fun j => (Function.update func i f j).count) =
      Function.update (fun j => (func j).count) i f.count := by
    ext j : 1
    by_cases hj : j = i
    · subst hj
      simp
    · simp [hj]
  have hmem := Finset.mem_range.mpr hi
  rw [hmap, Finset.sum_update_of_mem hmem, Finset.sum_eq_add_sum_sdiff_singleton_of_mem hmem fun j => (func j).count]
  omega

theorem got_update (func : Nat → SumFunc) (f : SumFunc) :
    (fun j => (Function.update func i f j).got) = Function.update (fun j => (func j).got) i f.got := by
  ext j : 1
  by_cases hj : j = i
  · subst hj
    simp
  · simp [hj]

/-- A thread goes on inside `func`. -/
theorem Counts.inFunc (h : s.Counts numT) (hrun : (s.queue i).run = .running) {f : SumFunc} {sum : BitVec 32}
    {logged : List (BitVec 32)} {counted : Nat}
    (hcounted : counted + (s.func i).count = s.counted + f.count) (hsum : sum = BitVec.ofNat 32 counted)
    (htickets : Tickets (BitVec.ofNat 32) counted numT
      (Function.update (fun j => (s.func j).got) i f.got) logged) :
    Counts numT { s with func := Function.update s.func i f, sum, logged, counted } := by
  have hi := h.lt (i := i) (by rw [hrun]; rfl)
  have hother : ∀ j, (s.queue j).run ≠ .running → Function.update s.func i f j = s.func j := by
    intro j hj
    refine Function.update_of_ne ?_ ..
    rintro rfl
    exact hj hrun
  refine ⟨h.threads, h.noFault, h.range, h.phases, ?_, ?_, ?_, hsum, ?_⟩
  · intro j hj
    have hcalled : (s.queue j).run.called = false := hj
    exact (hother j (by rintro heq; rw [heq] at hcalled; cases hcalled)).trans (h.before j hj)
  · intro j hj
    have hover : (s.queue j).run.over = true := hj
    exact (hother j (by rintro heq; rw [heq] at hover; cases hover)).trans (h.after j hj)
  · have hupdate := sum_count_update hi s.func f
    have hold := h.counted
    show counted = ∑ j ∈ Finset.range numT, (Function.update s.func i f j).count
    omega
  · rw [← got_update] at htickets
    exact htickets

/-- A thread that holds a number is in `func`. -/
theorem Counts.running (h : s.Counts numT) {k : Nat} {value : BitVec 32} (hf : s.func i = ⟨k, some value⟩) :
    (s.queue i).run = .running := by
  have hbefore := h.before i
  have hafter := h.after i
  rw [hf] at hbefore hafter
  generalize (s.queue i).run = run at hbefore hafter
  cases run with
  | running => rfl
  | ran | returned => cases hafter rfl
  | _ => cases hbefore rfl

theorem Counts.step (h : s.Counts numT) {a : SumAct} (hs : s.step numT a = some s') : s'.Counts numT := by
  cases a with
  | main pthreadId => exact h.main hs
  | run i a =>
    obtain ⟨⟨ha, hfunc⟩, hs⟩ := Option.ite_none_right_eq_some.mp hs
    exact h.run ha hfunc hs
  | getAndIncrement i =>
    obtain ⟨⟨hrun, -, hgot⟩, hs⟩ := Option.ite_none_right_eq_some.mp hs
    cases hs
    have hi := h.lt (i := i) (by rw [hrun]; rfl)
    refine h.inFunc hrun ?_ ?_ ?_
    · simp only [SumFunc.count, hgot, Option.isSome_none, Option.isSome_some, Bool.toNat_false,
        Bool.toNat_true]
      omega
    · rw [h.sum, BitVec.ofNat_add]
      rfl
    · rw [h.sum]
      exact h.tickets.take hi hgot
  | log i =>
    dsimp only [SumState.step] at hs
    split at hs
    · next k value hf =>
      cases hs
      have hrun := h.running hf
      refine h.inFunc hrun ?_ h.sum ?_
      · rw [hf]
        rfl
      · exact h.tickets.handIn (h.lt (by rw [hrun]; rfl)) (congrArg SumFunc.got hf)
    · cases hs

end SumState

end Netfish
