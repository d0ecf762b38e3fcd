import Netfish.Kit.Covered
import Netfish.Net.Destroyed

/-!
# The owners of a connection

A `TcpConnection` lives as long as a `TcpConnectionPtr` to it: in `connections_` of the server, in the
hands of a user, or bound into a functor, which its batch keeps until it ends. `connectDestroyed`,
`removeConnectionInLoop` and the write-complete callback bind such a pointer; `connectEstablished`,
`sendInLoop` and `shutdownInLoop` bind `this`. `ownedConnection` is the machine of a connection with its
owners, and `no_dangling_functor` says which releases keep the latter functors safe.
-/

set_option autoImplicit false

namespace Netfish

open Kit

universe u

/-- The functor is bound to the raw `this`. -/
def ConnFunctor.raw {T : Type u} : ConnFunctor T → Bool
  | .sendInLoop .. => true
  | .shutdownInLoop => true
  | .writeComplete => false
  | .connectDestroyed => false

/-- The step runs a function bound to the raw `this`. -/
def ConnState.runsRaw {T : Type u} (s : ConnState T) : ConnAct T → Bool
  | .connectEstablished => true
  | .sendHere _ => true
  | .shutHere => true
  | .runFunctor _ => s.functors.next.any fun p => p.1.raw
  | _ => false

/-- A connection of a server among its threads, with its owners. -/
structure OwnedState (T : Type u) extends ConnState T where
  /-- `connections_` of the server has the connection. -/
  entry : Bool
  /-- The users that hold a `TcpConnectionPtr`, once for each. -/
  held : List (Option T)
  /-- The functors of the current batch that have run. -/
  spent : List (ConnFunctor T)
  /-- The `removeConnectionInLoop`s that have run in the current batch of the server's loop. -/
  spentRemovals : Nat
  /-- History: a function bound to the raw `this` ran when there was no owner. -/
  dangled : Bool

inductive OwnedAct (T : Type u) where
  | conn (a : ConnAct T)
  /-- A user gets a pointer, as the argument of a callback or from another user. -/
  | acquire (o : Option T)
  | release (o : Option T)
  /-- A batch of the server's loop ends. -/
  | endRemovals

namespace OwnedState

variable {T : Type u}

def start (messageCallback writeCompleteCallback : Bool) : OwnedState T where
  toConnState := .start messageCallback writeCompleteCallback
  entry := true
  held := []
  spent := []
  spentRemovals := 0
  dangled := false

/-- There is a pointer to the connection; each of `removals` is bound into a
`removeConnectionInLoop`. -/
def Owned (s : OwnedState T) : Prop :=
  s.entry = true ∨ 0 < s.removals ∨ 0 < s.spentRemovals ∨ s.held ≠ [] ∨
    ∃ f ∈ s.spent ++ s.functors.toList, f.raw = false

variable [DecidableEq T]

instance (s : OwnedState T) : Decidable s.Owned := inferInstanceAs (Decidable (_ ∨ _))

/-- The batch keeps its functors until it ends. -/
def spentAfter (s : OwnedState T) : ConnAct T → List (ConnFunctor T)
  | .runFunctor _ => s.spent ++ (s.functors.next.map Prod.fst).toList
  | .endFunctors => []
  | _ => s.spent

/-- A step of the connection. -/
def connStep (s : OwnedState T) (a : ConnAct T) : Option (OwnedState T) :=
  (s.toConnState.step a).map fun t =>
    { s with
      toConnState := t
      spent := s.spentAfter a
      dangled := s.dangled || (s.runsRaw a && !decide s.Owned) }

def step (s : OwnedState T) : OwnedAct T → Option (OwnedState T)
  | .conn a => match a with
    | .sendTest o _ | .shutTest o => if o ∈ s.held then s.connStep a else none
    | .queueDestroyed =>
      -- `removeConnectionInLoop`, which stops at `assert(n == 1)` when there is nothing to erase
      if s.entry then
        (s.connStep a).map fun s => { s with entry := false, spentRemovals := s.spentRemovals + 1 }
      else none
    | _ => s.connStep a
  | .acquire o => if s.fault = none ∧ s.Owned then some { s with held := o :: s.held } else none
  | .release o =>
    if s.fault = none ∧ s.calls o = .idle ∧ o ∈ s.held then some { s with held := s.held.erase o }
    else none
  | .endRemovals => if s.fault = none then some { s with spentRemovals := 0 } else none

/-- The functors in the queue find an owner when they run, whatever the users do: the server has not
let go yet, so that `connectDestroyed` will come behind them, or functors with a pointer are about. -/
def Kept (s : OwnedState T) : Prop :=
  s.entry = true ∨ 0 < s.removals ∨
    s.functors.Covered (fun f => f.raw = true) (fun f => f.raw = false) s.spent

/-- A user lets go while another one holds a pointer, or the functors in the queue do without. -/
def ReleasesInTime (s : OwnedState T) (a : OwnedAct T) : Prop :=
  ∀ o, a = .release o → s.held.erase o ≠ [] ∨ s.Kept

end OwnedState

/-! ## Before connectEstablished -/

namespace ConnState

variable {T : Type u} {s s' : ConnState T} {a : ConnAct T}

theorem raw_of_completion {f : ConnFunctor T} {es : List ConnEffect} (h : f ∈ completionsOf es) :
    ¬ f.raw = true := by
  obtain ⟨e, -, he⟩ := List.mem_filterMap.mp h
  cases e <;> cases he
  exact Bool.false_ne_true

/-- What running a functor does to the queue. -/
theorem runFunctor_queue {w : WriteResult} {f : ConnFunctor T} {rest : BatchQueue (ConnFunctor T)}
    (hs : runFunctor { s with functors := rest } w f = some s') :
    s.removals ≤ s'.removals ∧ ∃ es, s'.functors = rest.pushAll (completionsOf es) := by
  have hnil : rest = rest.pushAll (completionsOf []) := by
    simp [completionsOf, BatchQueue.pushAll]
  cases f with
  | sendInLoop t message =>
    simp only [runFunctor] at hs
    split at hs
    · cases hs
      cases s.conn.sendInLoop message w with
      | error => exact ⟨Nat.le_refl _, [], hnil⟩
      | ok r =>
        simp only [after, perform_eq, record]
        exact ⟨Nat.le_add_right .., r.2, rfl⟩
    · cases hs
  | shutdownInLoop =>
    simp only [runFunctor, perform_eq] at hs
    cases hs
    exact ⟨Nat.le_add_right .., _, rfl⟩
  | writeComplete =>
    cases hs
    exact ⟨Nat.le_refl _, [], hnil⟩
  | connectDestroyed =>
    cases hs
    cases s.conn.beginDestroyed with
    | error => exact ⟨Nat.le_refl _, [], hnil⟩
    | ok r =>
      simp only [after, perform_eq]
      exact ⟨Nat.le_add_right .., r.2, rfl⟩

/-- Nothing has happened to the connection. -/
structure Unborn (s : ConnState T) : Prop where
  state : s.conn.state_ = .kConnecting
  channel : s.conn.channel_ = .new
  functors : s.functors.toList = []
  calls : ∀ o, s.calls o = .idle
  removals : s.removals = 0
  pc : s.pc = .idle ∨ s.pc = .batch

variable [DecidableEq T]

theorem Unborn.step (h : s.Unborn) (hs : s.step a = some s') (hfresh : s'.fresh = true) :
    s'.Unborn := by
  have hstate : s.conn.state_ ≠ .kConnected := by simp [h.state]
  cases (step_moves hs).2 with
  | sendTest _ hyes | shutTest _ hyes => exact absurd hyes hstate
  | sendNot | shutNot => exact h
  | sendPush hcall | sendHere hcall | shutSet hcall | shutPush hcall | shutHere hcall =>
    cases (h.calls _).symm.trans hcall
  | queueDestroyed hpos =>
    rw [h.removals] at hpos
    cases hpos
  | connectEstablished =>
    obtain ⟨channel, hrun, -⟩ := TcpConnection.connectEstablished_spec
      (h.channel ▸ Channel.new_wf) h.state
    rw [hrun] at hfresh
    cases hfresh
  | poll _ _ hwatched =>
    rw [h.channel] at hwatched
    cases hwatched
  | handleEvent _ hpc | callClose _ hpc | callError _ hpc | callRead _ hpc | callWrite _ hpc
  | eventDone _ hpc | endDestroyed _ hpc =>
    rcases h.pc with hpc' | hpc' <;> cases hpc.symm.trans hpc'
  | beginFunctors =>
    have hnil := List.append_eq_nil_iff.mp h.functors
    refine ⟨h.state, h.channel, ?_, h.calls, h.removals, .inr rfl⟩
    rw [BatchQueue.toList_swap hnil.1, h.functors]
  | runFunctor _ _ hnext => cases h.functors.symm.trans (BatchQueue.toList_of_next hnext)
  | endFunctors => exact ⟨h.state, h.channel, h.functors, h.calls, h.removals, .inl rfl⟩

/-- A step does not make a connection fresh. -/
theorem fresh_of_step (hwf : s.conn.channel_.Wf) (hs : s.step a = some s')
    (hfresh : s'.fresh = true) : s.fresh = true := by
  cases step_move hwf hs with
  | sendHere => simpa only [perform_eq, setCall, record] using hfresh
  | shutHere => simpa only [perform_eq, setCall] using hfresh
  | connectEstablished => cases hfresh
  | callWrite => simpa only [perform_eq] using hfresh
  | runSend => simpa only [perform_eq, record] using hfresh
  | runShutdown => simpa only [perform_eq] using hfresh
  | _ => exact hfresh

/-- What an `endFunctors` step does. -/
theorem endFunctors_of_step (hs : s.step .endFunctors = some s') :
    s.functors.batch = [] ∧ s' = { s with pc := .idle } := by
  cases (step_moves hs).2 with
  | endFunctors _ _ hbatch => exact ⟨hbatch, rfl⟩

theorem queueDestroyed_of_step (hs : s.step .queueDestroyed = some s') :
    0 < s.removals ∧ s' = { s with
      removals := s.removals - 1, functors := s.functors.push .connectDestroyed } := by
  cases (step_moves hs).2 with
  | queueDestroyed hpos => exact ⟨hpos, rfl⟩

/-! ## Steps and pointers -/

theorem fresh_of_connectEstablished (hs : s.step .connectEstablished = some s') :
    s.fresh = true := by
  cases (step_moves hs).2 with
  | connectEstablished _ hfresh => exact hfresh

/-- User code of the loop's thread that runs a function of the connection is in a call. -/
theorem calls_none_of_here (hs : (∃ w, s.step (.sendHere w) = some s') ∨ s.step .shutHere = some s') :
    s.calls none ≠ .idle := by
  intro hidle
  rcases hs with ⟨w, hs⟩ | hs <;> simp [ConnState.step, ConnState.callStep, hidle] at hs

/-- Only the tests of `send` and `shutdown` bring a caller into a call. -/
theorem calls_of_move (hm : ConnMove s a s') {o : Option T} (ho : s'.calls o ≠ .idle) :
    s.calls o ≠ .idle ∨ (∃ message, a = .sendTest o message) ∨ a = .shutTest o := by
  have hsame : ∀ {o' : Option T} {pc : CallerPc}, Function.update s.calls o' pc o ≠ .idle →
      o' = o ∨ s.calls o ≠ .idle := by
    intro o' pc hne
    by_cases heq : o' = o
    · exact .inl heq
    · rw [Function.update_of_ne (Ne.symm heq)] at hne
      exact .inr hne
  cases hm with
  | @accept o' message =>
    rcases hsame ho with rfl | hne
    · exact .inr (.inl ⟨message, rfl⟩)
    · exact .inl hne
  | @shutTest o' =>
    rcases hsame ho with rfl | hne
    · exact .inr (.inr rfl)
    · exact .inl hne
  | sendPush hc =>
    rcases hsame ho with rfl | hne
    · exact .inl (by simp [hc])
    · exact .inl hne
  | shutPush hc =>
    rcases hsame ho with rfl | hne
    · exact .inl (by simp [hc])
    · exact .inl hne
  | shutSet hc =>
    rcases hsame ho with rfl | hne
    · exact .inl (by simp [hc])
    · exact .inl hne
  | sendHere hc =>
    simp only [perform_eq, setCall, record] at ho
    rcases hsame ho with rfl | hne
    · exact .inl (by simp [hc])
    · exact .inl hne
  | shutHere hc =>
    simp only [perform_eq, setCall] at ho
    rcases hsame ho with rfl | hne
    · exact .inl (by simp [hc])
    · exact .inl hne
  | callWrite => simpa only [perform_eq] using Or.inl ho
  | runSend => exact .inl (by simpa only [perform_eq, record] using ho)
  | runShutdown => exact .inl (by simpa only [perform_eq] using ho)
  | _ => exact .inl ho

end ConnState

namespace OwnedState

variable {T : Type u} [DecidableEq T] {s s' : OwnedState T} {a : ConnAct T}

/-- The invariant. -/
structure Safe (s : OwnedState T) : Prop where
  streams : s.Streams
  /-- Whoever is in `send` or `shutdown` holds a pointer. -/
  callers : ∀ o, s.calls o ≠ .idle → o ∈ s.held
  unborn : s.fresh = true → s.Unborn ∧ s.entry = true
  cover : s.held ≠ [] ∨ s.Kept
  safe : s.dangled = false

theorem Safe.held_ne_nil (h : s.Safe) (o : Option T) (ho : s.calls o ≠ .idle) : s.held ≠ [] :=
  List.ne_nil_of_mem (h.callers o ho)

/-- A function bound to the raw `this` runs while there is an owner. -/
theorem Safe.owned (h : s.Safe) {t : ConnState T} (hs : s.toConnState.step a = some t)
    (hraw : s.runsRaw a = true) : s.Owned := by
  have hcaller : ∀ o, s.calls o ≠ .idle → s.Owned := fun o ho =>
    .inr (.inr (.inr (.inl (h.held_ne_nil o ho))))
  cases a with
  | connectEstablished => exact .inl (h.unborn (ConnState.fresh_of_connectEstablished hs)).2
  | sendHere w => exact hcaller none (ConnState.calls_none_of_here (.inl ⟨w, hs⟩))
  | shutHere => exact hcaller none (ConnState.calls_none_of_here (.inr hs))
  | runFunctor w =>
    obtain ⟨⟨f, rest⟩, hnext, hf⟩ := (Option.any_eq_true ..).mp hraw
    rcases h.cover with hheld | hentry | hremovals | hcover
    · exact .inr (.inr (.inr (.inl hheld)))
    · exact .inl hentry
    · exact .inr (.inl hremovals)
    · exact .inr (.inr (.inr (.inr (hcover.head hnext hf))))
  | _ => cases hraw

/-- What a step of the connection does to the queue is covered. -/
theorem Safe.cover_step (h : s.Safe) {t : ConnState T} (hs : s.toConnState.step a = some t)
    (ha : a ≠ .queueDestroyed) :
    s.held ≠ [] ∨ s.entry = true ∨ 0 < t.removals ∨
      t.functors.Covered (fun f => f.raw = true) (fun f => f.raw = false) (s.spentAfter a) := by
  by_cases hrun : ∃ w, a = .runFunctor w
  · obtain ⟨w, rfl⟩ := hrun
    obtain ⟨f, rest, hnext, hf⟩ := ConnState.runFunctor_of_step hs
    obtain ⟨hle, es, hqueue⟩ := ConnState.runFunctor_queue hf
    rcases h.cover with hheld | hentry | hremovals | hcover
    · exact .inl hheld
    · exact .inr (.inl hentry)
    · exact .inr (.inr (.inl (Nat.lt_of_lt_of_le hremovals hle)))
    · refine .inr (.inr (.inr ?_))
      rw [hqueue, spentAfter, hnext]
      exact (hcover.next hnext).pushAll fun _ hm => ConnState.raw_of_completion hm
  by_cases hfin : a = .endFunctors
  · subst hfin
    obtain ⟨hb, rfl⟩ := ConnState.endFunctors_of_step hs
    rcases h.cover with hheld | hentry | hremovals | hcover
    · exact .inl hheld
    · exact .inr (.inl hentry)
    · exact .inr (.inr (.inl hremovals))
    · exact .inr (.inr (.inr (hcover.finish hb)))
  have hspent : s.spentAfter a = s.spent := by
    cases a with
    | runFunctor w => exact absurd ⟨w, rfl⟩ hrun
    | endFunctors => exact absurd rfl hfin
    | _ => rfl
  rw [hspent]
  cases ConnState.step_move h.streams.wf hs with
  | @sendPush t _ hc => exact .inl (h.held_ne_nil (some t) (by simp [hc]))
  | @shutPush t hc => exact .inl (h.held_ne_nil (some t) (by simp [hc]))
  | sendHere hc => exact .inl (h.held_ne_nil none (by simp [hc]))
  | shutHere hc => exact .inl (h.held_ne_nil none (by simp [hc]))
  | close => exact .inr (.inr (.inl (Nat.succ_pos _)))
  | callWrite =>
    simp only [ConnState.perform_eq]
    rcases h.cover with hheld | hentry | hremovals | hcover
    · exact .inl hheld
    · exact .inr (.inl hentry)
    · exact .inr (.inr (.inl (Nat.lt_of_lt_of_le hremovals (Nat.le_add_right ..))))
    · exact .inr (.inr (.inr (hcover.pushAll fun _ hm => ConnState.raw_of_completion hm)))
  | queueDestroyed => exact absurd rfl ha
  | beginFunctors =>
    rcases h.cover with hheld | hentry | hremovals | hcover
    · exact .inl hheld
    · exact .inr (.inl hentry)
    · exact .inr (.inr (.inl hremovals))
    · exact .inr (.inr (.inr hcover.swap))
  | runSend => exact absurd ⟨_, rfl⟩ hrun
  | runShutdown => exact absurd ⟨_, rfl⟩ hrun
  | runWriteComplete => exact absurd ⟨_, rfl⟩ hrun
  | beginDestroyed => exact absurd ⟨_, rfl⟩ hrun
  | destroyFault => exact absurd ⟨_, rfl⟩ hrun
  | endFunctors => exact absurd rfl hfin
  | _ => exact h.cover

/-- A step of the connection, its callers holding pointers. -/
theorem Safe.connStep (h : s.Safe) (hs : s.connStep a = some s') (ha : a ≠ .queueDestroyed)
    (hcall : ∀ o, (∃ message, a = .sendTest o message) ∨ a = .shutTest o → o ∈ s.held) :
    s'.Safe := by
  obtain ⟨t, ht, rfl⟩ := Option.map_eq_some_iff.mp hs
  have hmove := ConnState.step_move h.streams.wf ht
  refine ⟨h.streams.step ht, ?_, ?_, h.cover_step ht ha, ?_⟩
  · intro o ho
    exact (ConnState.calls_of_move hmove ho).elim (h.callers o) (hcall o)
  · intro hfresh
    obtain ⟨hunborn, hentry⟩ := h.unborn (ConnState.fresh_of_step h.streams.wf ht hfresh)
    exact ⟨hunborn.step ht hfresh, hentry⟩
  · cases hraw : s.runsRaw a with
    | true => simp [h.safe, h.owned ht hraw]
    | false => simp [h.safe]

/-- The server lets go; its pointer is handed on to `connectDestroyed`. -/
theorem Safe.queueDestroyed (h : s.Safe) (hs : s.connStep .queueDestroyed = some s') {n : Nat} :
    ({ s' with entry := false, spentRemovals := n } : OwnedState T).Safe := by
  obtain ⟨t, ht, rfl⟩ := Option.map_eq_some_iff.mp hs
  have hst := h.streams.step ht
  obtain ⟨hpos, rfl⟩ := ConnState.queueDestroyed_of_step ht
  refine ⟨hst, h.callers, ?_, .inr (.inr (.inr (BatchQueue.Covered.of_push rfl))), ?_⟩
  · intro hfresh
    have hnone := (h.unborn hfresh).1.removals
    rw [hnone] at hpos
    cases hpos
  · simp [h.safe, ConnState.runsRaw]

/-- A step keeps the invariant when its release is in time. -/
theorem Safe.step {a : OwnedAct T} (h : s.Safe) (hok : s.ReleasesInTime a)
    (hs : s.step a = some s') : s'.Safe := by
  unfold OwnedState.step at hs
  cases a with
  | conn a =>
    dsimp only at hs
    split at hs
    · next o message =>
      split at hs
      · next ho =>
        refine h.connStep hs (by simp) ?_
        rintro o' (⟨_, heq⟩ | heq) <;> cases heq
        exact ho
      · cases hs
    · next o =>
      split at hs
      · next ho =>
        refine h.connStep hs (by simp) ?_
        rintro o' (⟨_, heq⟩ | heq) <;> cases heq
        exact ho
      · cases hs
    · split at hs
      · obtain ⟨t, ht, rfl⟩ := Option.map_eq_some_iff.mp hs
        exact h.queueDestroyed ht
      · cases hs
    · next hsend hshut hqueue =>
      refine h.connStep hs hqueue ?_
      rintro o' (⟨message, rfl⟩ | rfl)
      · exact absurd rfl (hsend o' message)
      · exact absurd rfl (hshut o')
  | acquire o =>
    dsimp only at hs
    split at hs
    · cases hs
      exact ⟨h.streams, fun o' ho => List.mem_cons_of_mem o (h.callers o' ho), h.unborn,
        .inl (by simp), h.safe⟩
    · cases hs
  | release o =>
    dsimp only at hs
    split at hs
    · next hcond =>
      cases hs
      refine ⟨h.streams, ?_, h.unborn, hok o rfl, h.safe⟩
      intro o' ho
      have hne : o' ≠ o := by
        rintro rfl
        exact ho hcond.2.1
      exact (List.mem_erase_of_ne hne).mpr (h.callers o' ho)
    · cases hs
  | endRemovals =>
    dsimp only at hs
    split at hs
    · cases hs
      exact ⟨h.streams, h.callers, h.unborn, h.cover, h.safe⟩
    · cases hs

end OwnedState

/-- A connection of a server with its owners, from `newConnection` on. -/
def ownedConnection (T : Type u) [DecidableEq T] : Machine (OwnedState T) (OwnedAct T) where
  init s := ∃ messageCallback writeCompleteCallback, s = .start messageCallback writeCompleteCallback
  step := OwnedState.step

variable {T : Type u} [DecidableEq T] {s : OwnedState T}

/-- **No functor on a freed connection.** In a run of a connection with its loop, the server's loop and
any users, whenever `connectEstablished`, `sendInLoop` or `shutdownInLoop` runs the connection has an
owner, as long as a user that lets go of a pointer leaves another one in a user's hands, or leaves the
queue of the loop such that each `sendInLoop` and `shutdownInLoop` in it will find an owner anyway. -/
theorem no_dangling_functor (h : (ownedConnection T).init s) {as : List (OwnedAct T)}
    (hok : (ownedConnection T).Guarded OwnedState.ReleasesInTime s as) :
    (ownedConnection T).Along (fun s => s.dangled = false) s as := by
  obtain ⟨m, w, rfl⟩ := h
  have hsafe : (OwnedState.start m w : OwnedState T).Safe :=
    ⟨ConnState.start_streams m w, fun _ ho => absurd rfl ho,
      fun _ => ⟨⟨rfl, rfl, rfl, fun _ => rfl, rfl, .inl rfl⟩, rfl⟩, .inr (.inl rfl), rfl⟩
  exact Machine.Guarded.along OwnedState.Safe (fun _ h => h.safe)
    (fun _ _ _ h hok hs => h.step hok hs) hsafe hok

/-- A thread sends and lets go of its pointer before the message runs. -/
theorem no_dangling_functor_send : ∃ s₀ s : OwnedState Unit, (ownedConnection Unit).init s₀ ∧
    s.held = [] ∧ s.ran = [(some (), [1])] ∧ s.dangled = false := by
  have hinit : (ownedConnection Unit).init (.start true false) := ⟨true, false, rfl⟩
  have hlabels : ∀ as : List (OwnedAct Unit), (∀ a ∈ as, ∀ o, a ≠ .release o) → ∀ s,
      (ownedConnection Unit).Guarded OwnedState.ReleasesInTime s as := by
    intro as has
    exact Machine.Guarded.of_labels fun a ha _ o heq => absurd heq (has a ha o)
  let as : List (OwnedAct Unit) := [.conn .connectEstablished, .acquire (some ()),
    .conn (.sendTest (some ()) [1]), .conn (.sendPush ())] ++ .release (some ()) ::
      [.conn .beginFunctors, .conn (.runFunctor (.wrote 1))]
  have hguarded : (ownedConnection Unit).Guarded OwnedState.ReleasesInTime (.start true false) as := by
    refine (hlabels _ (by simp) _).append ?_
    intro t ht u _
    cases ht
    exact ⟨fun _ _ => .inr (.inl rfl), hlabels _ (by simp) u⟩
  exact ⟨_, _, hinit, rfl, rfl, (no_dangling_functor hinit hguarded).last rfl⟩

/-- A thread passes the test of `send` while the connection is closing, queues its message when the
batch of `connectDestroyed` has begun, and lets go. The batch ends and with it the last pointer; the
next one runs `sendInLoop`. -/
theorem no_dangling_functor_fails : ¬ ∀ s₀ : OwnedState Unit, (ownedConnection Unit).init s₀ →
    ∀ as s, (ownedConnection Unit).run s₀ as = some s → s.dangled = false := by
  intro hall
  have hsafe := hall (.start true false) ⟨true, false, rfl⟩
    [.conn .connectEstablished, .acquire (some ()), .conn (.poll { pollin := true }),
      .conn .handleEvent, .conn (.callRead .eof), .conn .eventDone, .conn .queueDestroyed,
      .endRemovals, .conn (.sendTest (some ()) [1]), .conn .beginFunctors,
      .conn (.runFunctor .failed), .conn (.sendPush ()), .release (some ()), .conn .endDestroyed,
      .conn .endFunctors, .conn .beginFunctors, .conn (.runFunctor .failed)] _ rfl
  exact Bool.noConfusion hsafe

end Netfish
