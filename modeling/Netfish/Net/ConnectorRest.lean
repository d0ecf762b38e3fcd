import Netfish.Net.ConnectorSteady

/-!
# A connector at rest

What makes a connector move is a call of `start`, which is under way in a thread or queued as a functor,
or a retry timer. Without these it rests: `Resting` is kept by every other step.
-/

set_option autoImplicit false

namespace Netfish

open Kit

universe u

/-- No event of the connector's channel is left to be handled before the next poll. -/
def ConnectorPc.settled : ConnectorPc → Bool
  | .handlers active _ => active = none
  | .timers _ active => active = none
  | .batch => true
  | _ => false

namespace ConnectorState

variable {T : Type u} {s s' : ConnectorState T} {a : ConnectorAct T}

/-- The `startInLoop` functors in the queue. -/
def queuedStarts (s : ConnectorState T) : Nat := s.functors.toList.count .startInLoop

/-- The step is the beginning of a `start`, or the functor it queued. -/
def Begins (s : ConnectorState T) : ConnectorAct T → Prop
  | .startHere => True
  | .runFunctor _ => ∃ rest, s.functors.next = some (.startInLoop, rest)
  | _ => False

/-- A step of `start`. -/
def IsStart (s : ConnectorState T) : ConnectorAct T → Prop
  | .startSet _ => True
  | .startPush _ => True
  | a => s.Begins a

theorem Begins.isStart (h : s.Begins a) : s.IsStart a := by
  cases a with
  | startHere => trivial
  | runFunctor e => exact h
  | _ => exact absurd h id

/-- The same calls of `start` are under way, and in the queue. -/
structure SameStarts (s s' : ConnectorState T) : Prop where
  calls : ∀ t, s'.calls t = .starting ↔ s.calls t = .starting
  queue : s'.queuedStarts = s.queuedStarts

theorem queuedStarts_push (functors : BatchQueue ConnectorFunctor) (f : ConnectorFunctor) :
    (functors.push f).toList.count .startInLoop =
      functors.toList.count .startInLoop + [f].count .startInLoop := by
  rw [BatchQueue.toList_push, List.count_append]

/-- No method of the connector starts it. -/
theorem foldl_effect_starts (es : List ConnectorEffect) (s : ConnectorState T) :
    s.SameStarts (es.foldl effect s) := by
  induction es generalizing s with
  | nil => exact ⟨fun _ => Iff.rfl, rfl⟩
  | cons e es ih =>
    have hone : s.SameStarts (s.effect e) := by
      refine ⟨fun t => by cases e <;> rfl, ?_⟩
      cases e <;> first
        | rfl
        | exact queuedStarts_push s.functors _
    have hrest := ih (s.effect e)
    exact ⟨fun t => (hrest.calls t).trans (hone.calls t), hrest.queue.trans hone.queue⟩

theorem after_starts (s : ConnectorState T)
    (r : Except ConnectorFault (Connector × List ConnectorEffect)) : s.SameStarts (s.after r) := by
  cases r with
  | ok r =>
    have hfold := foldl_effect_starts r.2 { s with connector := r.1 }
    exact ⟨hfold.calls, hfold.queue⟩
  | error fault => exact ⟨fun _ => Iff.rfl, rfl⟩

theorem callback_starts (s : ConnectorState T) (err selfConnect : Bool) (callback : ChannelCallback) :
    s.SameStarts (s.callback err selfConnect callback) := by
  cases callback with
  | write => exact after_starts s _
  | error => exact after_starts s _
  | close => exact ⟨fun _ => Iff.rfl, rfl⟩
  | read => exact ⟨fun _ => Iff.rfl, rfl⟩

/-- Nothing makes the connector move. -/
structure Resting (s : ConnectorState T) : Prop where
  state : s.connector.state_ = .kDisconnected
  timers : s.timers = []
  expired : s.pc.expired = []
  starting : s.starting = false

@[simp] theorem startInLoop_made (s : ConnectorState T) (e : ConnectErrno) :
    (s.startInLoop e).made = s.made := by
  have hrun := s.startInLoop_starts e
  generalize s.startInLoop e = s' at hrun
  cases hrun with
  | fault => rfl
  | ran _ _ hstarted => exact (started_place hstarted).2.made

@[simp] theorem startInLoop_pc (s : ConnectorState T) (e : ConnectErrno) :
    (s.startInLoop e).pc = s.pc := by
  have hrun := s.startInLoop_starts e
  generalize s.startInLoop e = s' at hrun
  cases hrun with
  | fault => rfl
  | ran _ _ hstarted => exact (started_place hstarted).2.pc

@[simp] theorem runFunctor_pc (s : ConnectorState T) (e : ConnectErrno) (f : ConnectorFunctor) :
    (s.runFunctor e f).pc = s.pc := by
  cases f with
  | startInLoop => exact startInLoop_pc s e
  | resetChannel => rfl
  | cancelInLoop => rfl

@[simp] theorem closed_pc (s : ConnectorState T) (restart : Bool) : (s.closed restart).pc = s.pc := by
  cases restart <;> rfl

/-- In `kConnected` a `startInLoop` stops at its assertion. -/
theorem startInLoop_connected (hstate : s.connector.state_ = .kConnected) (e : ConnectErrno) :
    (s.startInLoop e).connector.state_ = .kConnected := by
  rw [startInLoop, Connector.startInLoop_fault (by simp [hstate])]
  exact hstate

variable [DecidableEq T]

theorem setCall_starting {t u : T} {call : ConnectorCall} (hcall : s.calls t ≠ .starting)
    (hne : call ≠ .starting) : (s.setCall t call).calls u = .starting ↔ s.calls u = .starting := by
  by_cases hu : u = t
  · subst hu
    simp [setCall, hcall, hne]
  · simp [setCall, hu]

theorem step_starts (h : s.Steady) (ha : ¬ s.IsStart a) (hs : s.step a = some s') :
    s.SameStarts s' := by
  obtain ⟨-, hmove⟩ := step_moves hs
  cases hmove with
  | startSet => exact absurd trivial ha
  | startPush => exact absurd trivial ha
  | startHere => exact absurd trivial ha
  | @stopSet t hcall =>
    have hne : (s.setConnect false).calls t ≠ .starting := by
      rw [show (s.setConnect false).calls = s.calls from rfl, hcall]
      simp
    exact ⟨fun u => setCall_starting hne (by simp), rfl⟩
  | stopPush hcall =>
    exact ⟨fun u => setCall_starting (by simp [hcall]) (by simp), queuedStarts_push s.functors _⟩
  | @startInLoop e =>
    have hsame := after_starts s (s.connector.startInLoop s.nextSocket e s.nextTimer)
    exact ⟨hsame.calls, hsame.queue⟩
  | @runTimer e =>
    have hsame := after_starts s (s.connector.startInLoop s.nextSocket e s.nextTimer)
    exact ⟨hsame.calls, hsame.queue⟩
  | @callback err selfConnect _ _ callback =>
    have hsame := callback_starts s err selfConnect callback
    exact ⟨hsame.calls, hsame.queue⟩
  | closed =>
    unfold ConnectorState.closed
    split <;> exact ⟨fun _ => Iff.rfl, rfl⟩
  | beginFunctors hstart hpc =>
    refine ⟨fun _ => Iff.rfl, ?_⟩
    simp only [queuedStarts, BatchQueue.toList_swap (h.worked (by simp [hpc]))]
  | @runFunctor e f rest hstart hpc hnext =>
    have hlist := BatchQueue.toList_of_next hnext
    cases f with
    | startInLoop => exact absurd ⟨rest, hnext⟩ ha
    | resetChannel sockfd => exact ⟨fun _ => Iff.rfl, by simp [queuedStarts, hlist, ConnectorState.runFunctor]⟩
    | cancelInLoop timerId =>
      exact ⟨fun _ => Iff.rfl, by simp [queuedStarts, hlist, ConnectorState.runFunctor, ConnectorState.cancelInLoop]⟩
  | _ => exact ⟨fun _ => Iff.rfl, rfl⟩

/-- A connector at rest stays so until `start`. -/
theorem Resting.step (h : s.Resting) (hst : s.Steady) (ha : ¬ s.Begins a)
    (hs : s.step a = some s') : s'.Resting ∧ s'.made = s.made ∧
      (s.connector.channel_ = none → s'.connector.channel_ = none) := by
  obtain ⟨-, hmove⟩ := step_moves hs
  cases hmove with
  | startInLoop hstart => cases h.starting.symm.trans hstart
  | startHere => exact absurd trivial ha
  | stopHere =>
    exact ⟨⟨h.state, by simp [cancelInLoop, setConnect, h.timers], h.expired, h.starting⟩, rfl, id⟩
  | @callback err selfConnect _ _ callback =>
    have hhandles := hst.handles err selfConnect callback
    generalize s.callback err selfConnect callback = t at hhandles
    cases hhandles with
    | quiet => exact ⟨⟨h.state, h.timers, rfl, h.starting⟩, rfl, id⟩
    | fault => exact ⟨⟨h.state, h.timers, rfl, h.starting⟩, rfl, id⟩
    | ended hstate => cases h.state.symm.trans hstate
  | closed hstart hpc hlink =>
    have hstate := hst.linked (by simp [hlink])
    cases h.state.symm.trans hstate
  | timerRead hstart hpc hsub =>
    rw [h.timers, List.sublist_nil] at hsub
    exact ⟨⟨h.state, by simp [h.timers], hsub, h.starting⟩, rfl, id⟩
  | runTimer hstart hpc =>
    have hexpired := h.expired
    simp [hpc, ConnectorPc.expired] at hexpired
  | @runFunctor e f rest hstart hpc hnext =>
    cases f with
    | startInLoop => exact absurd ⟨rest, hnext⟩ ha
    | resetChannel sockfd => exact ⟨⟨h.state, h.timers, h.expired, h.starting⟩, rfl, fun _ => rfl⟩
    | cancelInLoop timerId =>
      exact ⟨⟨h.state, by simp [ConnectorState.runFunctor, cancelInLoop, h.timers], h.expired,
        h.starting⟩, rfl, id⟩
  | startSet => exact ⟨⟨h.state, h.timers, h.expired, h.starting⟩, rfl, id⟩
  | startPush => exact ⟨⟨h.state, h.timers, h.expired, h.starting⟩, rfl, id⟩
  | stopSet => exact ⟨⟨h.state, h.timers, h.expired, h.starting⟩, rfl, id⟩
  | stopPush => exact ⟨⟨h.state, h.timers, h.expired, h.starting⟩, rfl, id⟩
  | _ => exact ⟨⟨h.state, h.timers, rfl, h.starting⟩, rfl, id⟩

/-- `doPendingFunctors` begins and ends with these steps alone. -/
theorem step_batch (hbegin : a ≠ .beginFunctors) (hend : a ≠ .endFunctors)
    (hs : s.step a = some s') : s'.pc = .batch ↔ s.pc = .batch := by
  obtain ⟨-, hmove⟩ := step_moves hs
  cases hmove with
  | beginFunctors => exact absurd rfl hbegin
  | endFunctors => exact absurd rfl hend
  | startInLoop => simp
  | closed => simp
  | runFunctor => simp
  | startSet => exact Iff.rfl
  | startPush => exact Iff.rfl
  | stopSet => exact Iff.rfl
  | stopPush => exact Iff.rfl
  | startHere => exact Iff.rfl
  | stopHere => exact Iff.rfl
  | _ => simp [*]

/-- No event of the connector's channel comes before the next poll. -/
theorem step_settled (h : s.pc.settled = true) (hend : a ≠ .endFunctors) (hs : s.step a = some s') :
    s'.pc.settled = true := by
  obtain ⟨-, hmove⟩ := step_moves hs
  cases hmove with
  | endFunctors => exact absurd rfl hend
  | startInLoop => simpa using h
  | closed => simpa using h
  | runFunctor => simpa using h
  | startSet => exact h
  | startPush => exact h
  | stopSet => exact h
  | stopPush => exact h
  | startHere => exact h
  | stopHere => exact h
  | beginFunctors => rfl
  | poll _ hpc => simp [hpc, ConnectorPc.settled] at h
  | handleEvent _ hpc => simp [hpc, ConnectorPc.settled] at h
  | callback _ hpc => simp [hpc, ConnectorPc.settled] at h
  | eventDone _ hpc => simp [hpc, ConnectorPc.settled] at h
  | timerRead _ hpc => simpa [hpc, ConnectorPc.settled] using h
  | runTimer _ hpc => simpa [hpc, ConnectorPc.settled] using h
  | timersDone _ hpc => simpa [hpc, ConnectorPc.settled] using h

/-- In `kConnected` only `restart` makes it move. -/
theorem Steady.connected_step (h : s.Steady) (hstate : s.connector.state_ = .kConnected)
    (ha : a ≠ .closed true) (hs : s.step a = some s') :
    s'.connector.state_ = .kConnected ∧ s'.made = s.made := by
  obtain ⟨-, hmove⟩ := step_moves hs
  cases hmove with
  | @startInLoop e => exact ⟨startInLoop_connected hstate e, startInLoop_made s e⟩
  | @runTimer e => exact ⟨startInLoop_connected hstate e, startInLoop_made s e⟩
  | @callback err selfConnect _ _ callback =>
    have hhandles := h.handles err selfConnect callback
    generalize s.callback err selfConnect callback = t at hhandles
    cases hhandles with
    | quiet => exact ⟨hstate, rfl⟩
    | fault => exact ⟨hstate, rfl⟩
    | ended hconn => cases hconn.symm.trans hstate
  | @closed restart =>
    cases restart with
    | true => exact absurd rfl ha
    | false => exact ⟨hstate, rfl⟩
  | @runFunctor e f rest =>
    cases f with
    | startInLoop =>
      exact ⟨startInLoop_connected (s := { s with functors := rest }) hstate e, startInLoop_made _ e⟩
    | resetChannel => exact ⟨hstate, rfl⟩
    | cancelInLoop => exact ⟨hstate, rfl⟩
  | _ => exact ⟨hstate, rfl⟩

/-- `newConnectionCallback_` is called at the end of an attempt, by the write callback. -/
theorem Steady.made_step (h : s.Steady) (hs : s.step a = some s') (hmade : s.made < s'.made) :
    s.connector.state_ = .kConnecting ∧ s'.connector.state_ = .kConnected ∧
      ∃ todo inCallback timerfd, s.pc = .event (.write :: todo) inCallback timerfd := by
  obtain ⟨-, hmove⟩ := step_moves hs
  cases hmove with
  | @startInLoop e => simp at hmade
  | @runTimer e => simp at hmade
  | @callback err selfConnect inCallback timerfd callback todo hstart hpc =>
    have hhandles := h.handles err selfConnect callback
    generalize s.callback err selfConnect callback = t at hhandles hmade
    cases hhandles with
    | quiet => exact absurd hmade (Nat.lt_irrefl _)
    | fault => exact absurd hmade (Nat.lt_irrefl _)
    | ended hstate hcb hended hstate' =>
      have hplace := ended_place hended
      rcases hplace.link with ⟨-, hsame⟩ | ⟨-, -, hconn⟩
      · rw [hsame] at hmade
        exact absurd hmade (Nat.lt_irrefl _)
      · obtain ⟨rfl, -⟩ := hstate'.mp hconn
        refine ⟨hstate, ?_, todo, inCallback, timerfd, hpc⟩
        simp only [hplace.connector, hconn]
  | @closed restart => cases restart <;> exact absurd hmade (Nat.lt_irrefl _)
  | @runFunctor e f rest =>
    cases f with
    | startInLoop => simp [ConnectorState.runFunctor] at hmade
    | resetChannel => exact absurd hmade (Nat.lt_irrefl _)
    | cancelInLoop => exact absurd hmade (Nat.lt_irrefl _)
  | _ => exact absurd hmade (Nat.lt_irrefl _)

end ConnectorState

end Netfish
