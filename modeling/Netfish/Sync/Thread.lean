import Netfish.Kit.Machine

/-!
# Thread

One `Thread` object: the calls of its owner, and `runInThread` in the new thread, interleaved between
any two statements. The two share the `pid_t` that `tid_` points to, which the new thread reaches through
the `weak_ptr` in its `ThreadData`, and the `ThreadData` itself, which the new thread deletes.

The owner calls in any order and may destroy the object at any time. Memory is explicit: a use of the
`pid_t` or of the `ThreadData` after it is gone, a second delete, and a call that pthread does not allow
any more are faults of their own.
-/

set_option autoImplicit false

namespace Netfish

open Kit

inductive ThreadFault where
  /-- `assert(!started_)` in `start` -/
  | started
  /-- `assert(started_)` in `join` -/
  | notStarted
  /-- `assert(!joined_)` in `join` -/
  | joined
  /-- `abort()` in `start`, when `pthread_create` fails. -/
  | abort
  /-- The `pid_t` is written after it is deleted. -/
  | tid
  /-- The `ThreadData` is read or deleted after it is deleted. -/
  | data
  /-- A pthread is joined or detached that is not joinable any more. -/
  | pthread
deriving DecidableEq, Repr

/-- The owner broke a precondition, or the system had no thread to give. -/
def ThreadFault.ofOwner : ThreadFault → Bool
  | .started | .notStarted | .joined | .abort => true
  | _ => false

/-- Where the new thread stands in `runInThread`. -/
inductive RunPc where
  | unborn
  /-- Before `wkTid_.lock()`. -/
  | entered
  /-- `shTid` is a reference. -/
  | locked
  /-- `*shTid` is written. -/
  | stored
  /-- In `data->func_()`. -/
  | running
  /-- `func_` has returned; `delete data` comes next. -/
  | ran
  | returned
deriving DecidableEq, Repr

/-- The local `shTid` holds a reference. -/
def RunPc.holds : RunPc → Bool
  | .locked | .stored => true
  | _ => false

/-- Before `delete data`. -/
def RunPc.needsData : RunPc → Bool
  | .unborn | .returned => false
  | _ => true

/-- `func_` has been called. -/
def RunPc.called : RunPc → Bool
  | .running | .ran | .returned => true
  | _ => false

/-- `func_` has returned. -/
def RunPc.over : RunPc → Bool
  | .ran | .returned => true
  | _ => false

/-- `*shTid` is still to be written, if it ever is. -/
def RunPc.beforeStore : RunPc → Bool
  | .unborn | .entered | .locked => true
  | _ => false

/-- What pthread knows of the new thread. -/
inductive PthreadState where
  | none
  | joinable
  | joined
  | detached
deriving DecidableEq, Repr

/-- Where the owner stands. -/
inductive ThreadOwner where
  | outside
  /-- In `pthread_join`. -/
  | joining
  /-- The object is destroyed. -/
  | gone
deriving DecidableEq, Repr

structure ThreadState where
  started_ : Bool
  joined_ : Bool
  /-- 0 before `start`. -/
  pthreadId_ : Nat
  /-- `*tid_`, and how many `shared_ptr`s there are to it. -/
  tid : Nat
  tidUses : Nat
  /-- The `ThreadData` is allocated. -/
  data : Bool
  owner : ThreadOwner
  run : RunPc
  pthread : PthreadState
  /-- History: how often `func_` was called. -/
  calls : Nat
  fault : Option ThreadFault
deriving DecidableEq, Repr

inductive ThreadAct where
  /-- `start`, with what `pthread_create` gives. -/
  | start (pthreadId : Option Nat)
  /-- `join`, up to `pthread_join`. -/
  | join
  /-- `pthread_join` returns. -/
  | joinReturns
  | destroy
  | lock
  | store (tid : Nat)
  | reset
  | funcReturns
  | delete
deriving DecidableEq, Repr

/-- A statement of `runInThread`. -/
def ThreadAct.ofThread : ThreadAct → Bool
  | .lock | .store _ | .reset | .funcReturns | .delete => true
  | _ => false

namespace ThreadState

/-- The constructor. -/
def new : ThreadState where
  started_ := false
  joined_ := false
  pthreadId_ := 0
  tid := 0
  tidUses := 1
  data := false
  owner := .outside
  run := .unborn
  pthread := .none
  calls := 0
  fault := none

def fail (s : ThreadState) (fault : ThreadFault) : ThreadState := { s with fault := some fault }

def start (s : ThreadState) (pthreadId : Option Nat) : ThreadState :=
  if s.started_ then s.fail .started
  else match pthreadId with
    | some pthreadId => { s with
        started_ := true, data := true, pthreadId_ := pthreadId, run := .entered, pthread := .joinable }
    | none => s.fail .abort

def join (s : ThreadState) : ThreadState :=
  if ¬ s.started_ then s.fail .notStarted
  else if s.joined_ then s.fail .joined
  else if s.pthreadId_ = 0 then s
  else if s.pthread = .joinable then { s with owner := .joining }
  else s.fail .pthread

def joinReturns (s : ThreadState) : ThreadState :=
  { s with owner := .outside, joined_ := true, pthread := .joined }

/-- `~Thread`, and then `~shared_ptr` of `tid_`. -/
def destroy (s : ThreadState) : ThreadState :=
  if s.started_ && !s.joined_ then
    if s.pthread = .joinable then
      { s with owner := .gone, pthread := .detached, tidUses := s.tidUses - 1 }
    else s.fail .pthread
  else { s with owner := .gone, tidUses := s.tidUses - 1 }

/-- `data->wkTid_.lock()`, and the test of `shTid`. -/
def lock (s : ThreadState) : ThreadState :=
  if s.data then
    if 0 < s.tidUses then { s with run := .locked, tidUses := s.tidUses + 1 }
    else { s with run := .running, calls := s.calls + 1 }
  else s.fail .data

def store (s : ThreadState) (tid : Nat) : ThreadState :=
  if 0 < s.tidUses then { s with run := .stored, tid } else s.fail .tid

/-- `shTid.reset()`, and the call of `data->func_`. -/
def reset (s : ThreadState) : ThreadState :=
  if s.data then { s with run := .running, tidUses := s.tidUses - 1, calls := s.calls + 1 }
  else s.fail .data

def delete (s : ThreadState) : ThreadState :=
  if s.data then { s with run := .returned, data := false } else s.fail .data

/-- One step of the owner or of the new thread. Thread ids are not 0; the owner of a destroyed object
makes no more calls. -/
def step (s : ThreadState) (a : ThreadAct) : Option ThreadState :=
  if s.fault.isSome then none
  else match a with
    | .start pthreadId =>
      if s.owner = .outside ∧ pthreadId ≠ some 0 then some (s.start pthreadId) else none
    | .join => if s.owner = .outside then some s.join else none
    | .joinReturns => if s.owner = .joining ∧ s.run = .returned then some s.joinReturns else none
    | .destroy => if s.owner = .outside then some s.destroy else none
    | .lock => if s.run = .entered then some s.lock else none
    | .store tid => if s.run = .locked ∧ tid ≠ 0 then some (s.store tid) else none
    | .reset => if s.run = .stored then some s.reset else none
    | .funcReturns => if s.run = .running then some { s with run := .ran } else none
    | .delete => if s.run = .ran then some s.delete else none

/-- What a step does. -/
inductive Moves (s : ThreadState) : ThreadAct → ThreadState → Prop
  | start {pthreadId : Option Nat} (howner : s.owner = .outside) (hid : pthreadId ≠ some 0) :
      Moves s (.start pthreadId) (s.start pthreadId)
  | join (howner : s.owner = .outside) : Moves s .join s.join
  | joinReturns (howner : s.owner = .joining) (hrun : s.run = .returned) :
      Moves s .joinReturns s.joinReturns
  | destroy (howner : s.owner = .outside) : Moves s .destroy s.destroy
  | lock (hrun : s.run = .entered) : Moves s .lock s.lock
  | store {tid : Nat} (hrun : s.run = .locked) (htid : tid ≠ 0) : Moves s (.store tid) (s.store tid)
  | reset (hrun : s.run = .stored) : Moves s .reset s.reset
  | funcReturns (hrun : s.run = .running) : Moves s .funcReturns { s with run := .ran }
  | delete (hrun : s.run = .ran) : Moves s .delete s.delete

variable {s s' : ThreadState} {a : ThreadAct}

/-- The inversion of a step. -/
theorem step_moves (hs : s.step a = some s') : s.fault = none ∧ s.Moves a s' := by
  unfold step at hs
  split at hs
  · cases hs
  · next hfault =>
    refine ⟨by simpa using hfault, ?_⟩
    cases a with
    | start pthreadId =>
      obtain ⟨⟨howner, hid⟩, hs⟩ := Option.ite_none_right_eq_some.mp hs
      cases hs
      exact .start howner hid
    | join =>
      obtain ⟨howner, hs⟩ := Option.ite_none_right_eq_some.mp hs
      cases hs
      exact .join howner
    | joinReturns =>
      obtain ⟨⟨howner, hrun⟩, hs⟩ := Option.ite_none_right_eq_some.mp hs
      cases hs
      exact .joinReturns howner hrun
    | destroy =>
      obtain ⟨howner, hs⟩ := Option.ite_none_right_eq_some.mp hs
      cases hs
      exact .destroy howner
    | lock =>
      obtain ⟨hrun, hs⟩ := Option.ite_none_right_eq_some.mp hs
      cases hs
      exact .lock hrun
    | store tid =>
      obtain ⟨⟨hrun, htid⟩, hs⟩ := Option.ite_none_right_eq_some.mp hs
      cases hs
      exact .store hrun htid
    | reset =>
      obtain ⟨hrun, hs⟩ := Option.ite_none_right_eq_some.mp hs
      cases hs
      exact .reset hrun
    | funcReturns =>
      obtain ⟨hrun, hs⟩ := Option.ite_none_right_eq_some.mp hs
      cases hs
      exact .funcReturns hrun
    | delete =>
      obtain ⟨hrun, hs⟩ := Option.ite_none_right_eq_some.mp hs
      cases hs
      exact .delete hrun

/-! ## The invariant -/

/-- What pthread knows, as the object has it. -/
def status (s : ThreadState) : PthreadState :=
  if s.joined_ then .joined
  else if s.started_ then if s.owner = .gone then .detached else .joinable
  else .none

/-- The references to the `pid_t`: `tid_` of the object, and `shTid`. -/
def uses (s : ThreadState) : Nat := (decide (s.owner ≠ .gone)).toNat + s.run.holds.toNat

structure Sound (s : ThreadState) : Prop where
  tidUses : s.tidUses = s.uses
  data : s.data = s.run.needsData
  started : s.started_ = true ↔ s.run ≠ .unborn
  pthreadId : s.started_ = true → s.pthreadId_ ≠ 0
  pthread : s.pthread = s.status
  joined : s.joined_ = true → s.run = .returned
  joining : s.owner = .joining → s.started_ = true ∧ s.joined_ = false
  calls : s.calls = s.run.called.toNat
  /-- The new thread has told the owner its id, and nobody else has written there. -/
  tid : s.owner ≠ .gone → (s.tid = 0 ↔ s.run.beforeStore = true)
  fault : ∀ fault, s.fault = some fault → fault.ofOwner = true

theorem new_sound : new.Sound where
  tidUses := rfl
  data := rfl
  started := by simp [new]
  pthreadId := by simp [new]
  pthread := rfl
  joined := by simp [new]
  joining := by simp [new]
  calls := rfl
  tid _ := by simp [new, RunPc.beforeStore]
  fault := by simp [new]

theorem Sound.fail (h : s.Sound) {fault : ThreadFault} (hf : fault.ofOwner = true) :
    (s.fail fault).Sound := by
  refine ⟨h.tidUses, h.data, h.started, h.pthreadId, h.pthread, h.joined, h.joining, h.calls, h.tid, ?_⟩
  intro fault' hfault
  cases hfault
  exact hf

theorem Sound.not_joined (h : s.Sound) (hrun : s.run ≠ .returned) : s.joined_ = false := by
  by_contra hj
  exact hrun (h.joined (by simpa using hj))

/-- `shTid` keeps the `pid_t`. -/
theorem Sound.tidUses_pos (h : s.Sound) (hrun : s.run.holds = true) : 0 < s.tidUses := by
  rw [h.tidUses, uses, hrun]
  exact Nat.succ_pos _

/-- Before `delete data` the `ThreadData` is there. -/
theorem Sound.data_there (h : s.Sound) (hrun : s.run.needsData = true) : s.data = true :=
  h.data.trans hrun

theorem Sound.start (h : s.Sound) (howner : s.owner = .outside) {pthreadId : Option Nat}
    (hid : pthreadId ≠ some 0) : (s.start pthreadId).Sound := by
  unfold ThreadState.start
  split
  · exact h.fail rfl
  · next hstarted =>
    have hunborn : s.run = .unborn := by
      by_contra hrun
      exact hstarted (h.started.mpr hrun)
    have hjoined := h.not_joined (by simp [hunborn])
    have huses := h.tidUses
    have hcalls := h.calls
    have htid := h.tid (by simp [howner])
    rw [uses, hunborn] at huses
    rw [hunborn] at hcalls htid
    split
    · next id =>
      exact {
        tidUses := huses
        data := rfl
        started := by simp
        pthreadId _ := by simpa using hid
        pthread := by simp [status, hjoined, howner]
        joined := by simp [hjoined]
        joining := by simp [howner]
        calls := hcalls
        tid _ := htid
        fault := h.fault }
    · exact h.fail rfl

/-- A thread that is started and not joined is joinable as long as its object is there. -/
theorem Sound.joinable (h : s.Sound) (howner : s.owner = .outside) (hstarted : s.started_ = true)
    (hjoined : s.joined_ = false) : s.pthread = .joinable := by
  rw [h.pthread, status]
  simp [hjoined, hstarted, howner]

/-- `join` as its assertions want it. -/
theorem Sound.join_eq (h : s.Sound) (howner : s.owner = .outside) (hstarted : s.started_ = true)
    (hjoined : s.joined_ = false) : s.join = { s with owner := .joining } := by
  rw [ThreadState.join, if_neg (by simp [hstarted]), if_neg (by simp [hjoined]),
    if_neg (h.pthreadId hstarted), if_pos (h.joinable howner hstarted hjoined)]

theorem Sound.join (h : s.Sound) (howner : s.owner = .outside) : s.join.Sound := by
  by_cases hstarted : s.started_ = true
  · by_cases hjoined : s.joined_ = true
    · rw [ThreadState.join, if_neg (by simp [hstarted]), if_pos hjoined]
      exact h.fail rfl
    · have hjoined : s.joined_ = false := by simpa using hjoined
      have huses := h.tidUses
      rw [uses, howner] at huses
      rw [h.join_eq howner hstarted hjoined]
      exact { h with
        tidUses := huses
        pthread := by simp [status, hjoined, hstarted, h.joinable howner hstarted hjoined]
        joining _ := ⟨hstarted, hjoined⟩
        tid _ := h.tid (by simp [howner]) }
  · rw [ThreadState.join, if_pos hstarted]
    exact h.fail rfl

theorem Sound.joinReturns (h : s.Sound) (howner : s.owner = .joining) (hrun : s.run = .returned) :
    s.joinReturns.Sound := by
  have huses := h.tidUses
  rw [uses, howner] at huses
  exact { h with
    tidUses := huses
    pthread := rfl
    joined _ := hrun
    joining := by simp [ThreadState.joinReturns]
    tid _ := h.tid (by simp [howner]) }

theorem Sound.destroy (h : s.Sound) (howner : s.owner = .outside) : s.destroy.Sound := by
  have huses : s.tidUses - 1 = s.run.holds.toNat := by
    rw [h.tidUses, uses, howner]
    exact Nat.add_sub_cancel_left 1 _
  have hgone : ∀ pthread, pthread = status { s with owner := .gone } →
      Sound { s with owner := .gone, pthread, tidUses := s.tidUses - 1 } := by
    intro pthread hpthread
    exact { h with
      tidUses := by simpa [uses] using huses
      pthread := hpthread
      joining := by simp
      tid := by simp }
  unfold ThreadState.destroy
  split
  · next hstarted =>
    obtain ⟨hstarted, hjoined⟩ : s.started_ = true ∧ s.joined_ = false := by simpa using hstarted
    rw [if_pos (h.joinable howner hstarted hjoined)]
    exact hgone .detached (by simp [status, hjoined, hstarted])
  · next hno =>
    refine hgone s.pthread ?_
    rw [h.pthread, status, status]
    grind

/-- The new thread goes on, with what it does to the `pid_t`, to its `ThreadData` and to the history. -/
theorem Sound.advance (h : s.Sound) (hborn : s.run ≠ .unborn) (hback : s.run ≠ .returned) {run : RunPc}
    (hrun : run ≠ .unborn) {tid tidUses calls : Nat} {data : Bool}
    (huses : tidUses + s.run.holds.toNat = s.tidUses + run.holds.toNat) (hdata : data = run.needsData)
    (hcalls : calls + s.run.called.toNat = s.calls + run.called.toNat)
    (htid : s.owner ≠ .gone → (tid = 0 ↔ run.beforeStore = true)) :
    Sound { s with run, tid, tidUses, data, calls } where
  tidUses := by
    have hold := h.tidUses
    rw [uses] at hold ⊢
    show tidUses = (decide (s.owner ≠ .gone)).toNat + run.holds.toNat
    omega
  data := hdata
  started := ⟨fun _ => hrun, fun _ => h.started.mpr hborn⟩
  pthreadId := h.pthreadId
  pthread := h.pthread
  joined hj := absurd (h.joined hj) hback
  joining := h.joining
  calls := by
    have hold := h.calls
    show calls = run.called.toNat
    omega
  tid := htid
  fault := h.fault

theorem Sound.lock (h : s.Sound) (hrun : s.run = .entered) : s.lock.Sound := by
  rw [ThreadState.lock, if_pos (h.data_there (by rw [hrun]; rfl))]
  have huses := h.tidUses
  rw [uses, hrun] at huses
  split
  · have htid := h.tid
    rw [hrun] at htid
    exact h.advance (by simp [hrun]) (by simp [hrun]) (by simp) (by rw [hrun]; rfl)
      (by rw [h.data, hrun]; rfl) (by rw [hrun]; rfl) htid
  · next hzero =>
    -- the object was destroyed before, and with it the last reference
    have hgone : s.owner = .gone := by
      by_contra hno
      simp [hno, RunPc.holds] at huses
      omega
    exact h.advance (by simp [hrun]) (by simp [hrun]) (by simp) (by rw [hrun]; rfl)
      (by rw [h.data, hrun]; rfl) (by rw [hrun]; rfl) fun hno => absurd hgone hno

theorem Sound.store (h : s.Sound) (hrun : s.run = .locked) {tid : Nat} (htid : tid ≠ 0) :
    (s.store tid).Sound := by
  rw [ThreadState.store, if_pos (h.tidUses_pos (by rw [hrun]; rfl))]
  exact h.advance (by simp [hrun]) (by simp [hrun]) (by simp) (by rw [hrun]; rfl)
    (by rw [h.data, hrun]; rfl) (by rw [hrun]; rfl) fun _ => by simp [htid, RunPc.beforeStore]

theorem Sound.reset (h : s.Sound) (hrun : s.run = .stored) : s.reset.Sound := by
  have hpos := h.tidUses_pos (by rw [hrun]; rfl)
  have htid := h.tid
  rw [hrun] at htid
  rw [ThreadState.reset, if_pos (h.data_there (by rw [hrun]; rfl))]
  exact h.advance (by simp [hrun]) (by simp [hrun]) (by simp)
    (by rw [hrun]; exact Nat.sub_add_cancel hpos) (by rw [h.data, hrun]; rfl) (by rw [hrun]; rfl) htid

theorem Sound.funcReturns (h : s.Sound) (hrun : s.run = .running) : Sound { s with run := .ran } := by
  have htid := h.tid
  rw [hrun] at htid
  exact h.advance (by simp [hrun]) (by simp [hrun]) (by simp) (by rw [hrun]; rfl)
    (by rw [h.data, hrun]; rfl) (by rw [hrun]; rfl) htid

theorem Sound.delete (h : s.Sound) (hrun : s.run = .ran) : s.delete.Sound := by
  have htid := h.tid
  rw [hrun] at htid
  rw [ThreadState.delete, if_pos (h.data_there (by rw [hrun]; rfl))]
  exact h.advance (by simp [hrun]) (by simp [hrun]) (by simp) (by rw [hrun]; rfl) rfl (by rw [hrun]; rfl) htid

theorem Sound.step (h : s.Sound) (hs : s.step a = some s') : s'.Sound := by
  obtain ⟨-, hmove⟩ := step_moves hs
  cases hmove with
  | start howner hid => exact h.start howner hid
  | join howner => exact h.join howner
  | joinReturns howner hrun => exact h.joinReturns howner hrun
  | destroy howner => exact h.destroy howner
  | lock hrun => exact h.lock hrun
  | store hrun htid => exact h.store hrun htid
  | reset hrun => exact h.reset hrun
  | funcReturns hrun => exact h.funcReturns hrun
  | delete hrun => exact h.delete hrun

/-! ## Who changes what -/

/-- The new thread leaves what the owner keeps of the object. -/
theorem Sound.own (h : s.Sound) (ha : a.ofThread = true) (hmove : s.Moves a s') :
    s'.started_ = s.started_ ∧ s'.joined_ = s.joined_ ∧ s'.owner = s.owner ∧ s'.fault = s.fault := by
  cases hmove with
  | start | join | joinReturns | destroy => cases ha
  | lock hrun =>
    rw [ThreadState.lock, if_pos (h.data_there (by rw [hrun]; rfl))]
    split <;> exact ⟨rfl, rfl, rfl, rfl⟩
  | store hrun =>
    rw [ThreadState.store, if_pos (h.tidUses_pos (by rw [hrun]; rfl))]
    exact ⟨rfl, rfl, rfl, rfl⟩
  | reset hrun =>
    rw [ThreadState.reset, if_pos (h.data_there (by rw [hrun]; rfl))]
    exact ⟨rfl, rfl, rfl, rfl⟩
  | funcReturns hrun => exact ⟨rfl, rfl, rfl, rfl⟩
  | delete hrun =>
    rw [ThreadState.delete, if_pos (h.data_there (by rw [hrun]; rfl))]
    exact ⟨rfl, rfl, rfl, rfl⟩

/-- The owner moves the new thread by creating it alone. -/
theorem Sound.owner_run (h : s.Sound) (ha : a.ofThread = false) (hmove : s.Moves a s') :
    s'.run = s.run ∨ s.run = .unborn ∧ s'.run = .entered := by
  cases hmove with
  | @start pthreadId howner hid =>
    unfold ThreadState.start
    split
    · exact .inl rfl
    · next hstarted =>
      split
      · refine .inr ⟨?_, rfl⟩
        by_contra hrun
        exact hstarted (h.started.mpr hrun)
      · exact .inl rfl
  | join =>
    left
    unfold ThreadState.join
    repeat' split
    all_goals rfl
  | joinReturns => exact .inl rfl
  | destroy =>
    left
    unfold ThreadState.destroy
    repeat' split
    all_goals rfl
  | lock | store | reset | funcReturns | delete => cases ha

/-- What has been called stays called. -/
theorem Sound.called (h : s.Sound) (hmove : s.Moves a s') (hcalled : s.run.called = true) :
    s'.run.called = true := by
  cases ha : a.ofThread with
  | false =>
    rcases h.owner_run ha hmove with hrun | ⟨hrun, -⟩
    · rw [hrun]
      exact hcalled
    · rw [hrun] at hcalled
      cases hcalled
  | true =>
    cases hmove with
    | start | join | joinReturns | destroy => cases ha
    | lock hrun | store hrun | reset hrun =>
      rw [hrun] at hcalled
      cases hcalled
    | funcReturns => rfl
    | delete hrun =>
      rw [ThreadState.delete, if_pos (h.data_there (by rw [hrun]; rfl))]
      rfl

/-- `func_` returns in a step of its own. -/
theorem Sound.over (h : s.Sound) (hmove : s.Moves a s') (ha : a ≠ .funcReturns)
    (hover : s'.run.over = true) : s.run.over = true := by
  cases hof : a.ofThread with
  | false =>
    rcases h.owner_run hof hmove with hrun | ⟨-, hrun⟩
    · rw [← hrun]
      exact hover
    · rw [hrun] at hover
      cases hover
  | true =>
    cases hmove with
    | start | join | joinReturns | destroy => cases hof
    | lock hrun =>
      rw [ThreadState.lock, if_pos (h.data_there (by rw [hrun]; rfl))] at hover
      split at hover <;> cases hover
    | store hrun =>
      rw [ThreadState.store, if_pos (h.tidUses_pos (by rw [hrun]; rfl))] at hover
      cases hover
    | reset hrun =>
      rw [ThreadState.reset, if_pos (h.data_there (by rw [hrun]; rfl))] at hover
      cases hover
    | funcReturns => exact absurd rfl ha
    | delete hrun =>
      rw [hrun]
      rfl

end ThreadState

/-- A thread object with its thread. -/
def thread : Machine ThreadState ThreadAct where
  init s := s = .new
  step := ThreadState.step

theorem thread_sound {s : ThreadState} (h : thread.Reachable s) : s.Sound := by
  refine h.invariant ThreadState.Sound ?_ fun _ _ _ hs => hs.step
  rintro s rfl
  exact ThreadState.new_sound

/-- **A thread and its object.** However the calls of the owner, `~Thread` among them, fall between the
statements of `runInThread`: no memory is used after it is gone or deleted twice, and pthread is not asked to
join or detach what it cannot; `func_` is called at most once. A `join` that has returned means that `func_` has
run to its end and the `ThreadData` is deleted. A destroyed object has had its thread joined or detached, not
both; and with the thread gone too, nothing is left of either. -/
theorem thread_lifecycle {s : ThreadState} (h : thread.Reachable s) :
    (∀ fault, s.fault = some fault → fault.ofOwner = true) ∧ s.calls ≤ 1 ∧
    (s.joined_ = true → s.run = .returned ∧ s.calls = 1 ∧ s.data = false) ∧
    (s.owner = .gone → s.pthread = if s.joined_ then .joined else if s.started_ then .detached else .none) ∧
    (s.owner = .gone → s.run = .unborn ∨ s.run = .returned → s.tidUses = 0 ∧ s.data = false) := by
  have hsound := thread_sound h
  refine ⟨hsound.fault, ?_, ?_, ?_, ?_⟩
  · rw [hsound.calls]
    exact Bool.toNat_le _
  · intro hjoined
    have hrun := hsound.joined hjoined
    refine ⟨hrun, ?_, ?_⟩
    · rw [hsound.calls, hrun]
      rfl
    · rw [hsound.data, hrun]
      rfl
  · intro hgone
    rw [hsound.pthread, ThreadState.status, if_pos hgone]
  · rintro hgone hrun
    rw [hsound.tidUses, hsound.data, ThreadState.uses, hgone]
    rcases hrun with hrun | hrun <;> rw [hrun] <;> exact ⟨rfl, rfl⟩

/-- The object is destroyed as the new thread is about to write its id; the thread goes on alone. -/
theorem thread_lifecycle_detached : ∃ s : ThreadState, s.owner = .gone ∧ s.pthread = .detached ∧ s.tidUses = 0 ∧
    s.data = false ∧ s.calls ≤ 1 := by
  have h : thread.Reachable _ := ⟨.new, [.start (some 7), .lock, .destroy, .store 42, .reset, .funcReturns,
    .delete], rfl, rfl⟩
  obtain ⟨-, hcalls, -, hpthread, hgone⟩ := thread_lifecycle h
  exact ⟨_, rfl, hpthread rfl, (hgone rfl (.inr rfl)).1, (hgone rfl (.inr rfl)).2, hcalls⟩

end Netfish
