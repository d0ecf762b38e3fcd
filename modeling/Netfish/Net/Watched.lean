import Netfish.Net.EPoller

/-!
# Channels without interest

`updateChannel` takes a channel without interest out of the epoll set when its index is `kAdded`, and
only then: in `kNew` and `kDeleted` it adds the channel before anything else, also with an empty mask,
and epoll reports errors and hang-ups for that. `handleClose` and then `connectDestroyed` disable
a channel twice. `watched_iff` says that there is no other way.
-/

set_option autoImplicit false

namespace Netfish

open Kit

universe u

namespace EPoller

variable {ι : Type u}

/-- The epoll set has the registered channels with some interest, and nothing else. -/
structure Watches (s : EPoller ι) : Prop where
  set : ∀ fd mask c, s.epollSet fd = some (mask, c) ↔ (s.chan c).index_ ≠ .kNew ∧
    (s.chan c).fd_ = fd ∧ (s.chan c).events_ ≠ .none ∧ mask = (s.chan c).events_
  /-- So `epoll_wait` reports no channel without interest. -/
  reported : ∀ events, s.MayReturn events → ∀ p ∈ events, (s.chan p.1).events_ ≠ .none

variable [DecidableEq ι] {s : EPoller ι} {c : ι}

/-- What is in the epoll set. -/
theorem Agrees.epollSet_iff (h : s.Agrees) {fd : Int} {mask : Events} :
    s.epollSet fd = some (mask, c) ↔
      (s.chan c).index_ = .kAdded ∧ (s.chan c).fd_ = fd ∧ mask = (s.chan c).events_ := by
  constructor
  · intro hset
    have hfd := h.mapped (h.watched hset)
    subst hfd
    cases hindex : (s.chan c).index_ with
    | kNew => exact absurd hset ((h.of_new hindex).2.1 _ _)
    | kDeleted => cases (h.of_deleted hindex).2.1.symm.trans hset
    | kAdded =>
      have hadded := (h.of_added hindex).2
      rw [hset] at hadded
      cases hadded
      exact ⟨rfl, rfl, rfl⟩
  · rintro ⟨hindex, rfl, rfl⟩
    exact (h.of_added hindex).2

/-- Every added channel has some interest. -/
def Interested (s : EPoller ι) : Prop :=
  ∀ c, (s.chan c).index_ = .kAdded → (s.chan c).events_ ≠ .none

theorem Agrees.watches_iff (h : s.Agrees) : s.Watches ↔ s.Interested := by
  constructor
  · intro hw c hindex
    exact ((hw.set _ _ c).mp (h.of_added hindex).2).2.2.1
  · intro hi
    refine ⟨?_, ?_⟩
    · intro fd mask c
      rw [h.epollSet_iff]
      constructor
      · rintro ⟨hindex, hfd, hmask⟩
        exact ⟨by simp [hindex], hfd, hi c hindex, hmask⟩
      · rintro ⟨hreg, hfd, hevents, hmask⟩
        refine ⟨?_, hfd, hmask⟩
        cases hindex : (s.chan c).index_ with
        | kNew => exact absurd hindex hreg
        | kAdded => rfl
        | kDeleted => exact absurd (h.of_deleted hindex).2.2 hevents
    · rintro events ⟨-, hmem⟩ p hp
      obtain ⟨fd, mask, hset, -⟩ := hmem p hp
      exact hi p.1 (h.epollSet_iff.mp hset).1

end EPoller

namespace PollerState

variable {ι : Type u} [DecidableEq ι] {s s' : PollerState ι} {a : PollerAct ι}

/-- No call leaves a channel without interest whose index is not `kAdded`. -/
def DisablesAdded (s : PollerState ι) (a : PollerAct ι) : Prop :=
  ∀ c i, a = .interest c i → i.apply (s.chan c).events_ = .none → (s.chan c).index_ = .kAdded

theorem interested_of_step (h : s.Agrees) (hi : s.Interested) (hallowed : s.Allowed a)
    (hok : s.DisablesAdded a) (hs : s.step a = some s') : s'.Interested := by
  obtain ⟨-, hmove⟩ := step_of_agrees h hallowed hs
  intro d hindex
  cases hmove with
  | create c fd heq =>
    rw [heq] at hindex ⊢
    by_cases hne : d = c
    · subst hne
      rw [EPoller.setChan_chan_self] at hindex
      cases hindex
    · rw [EPoller.setChan_chan_of_ne hne] at hindex ⊢
      exact hi d hindex
  | interest c i halone heq =>
    rw [heq] at hindex ⊢
    by_cases hne : d = c
    · subst hne
      rw [EPoller.put_chan_self] at hindex ⊢
      intro hnone
      rw [Channel.nextIndex, if_pos ⟨hok d i rfl hnone, hnone⟩] at hindex
      cases hindex
    · rw [EPoller.put_chan_of_ne hne] at hindex ⊢
      exact hi d hindex
  | removeChannel c halone heq =>
    rw [heq] at hindex ⊢
    by_cases hne : d = c
    · subst hne
      rw [EPoller.put_chan_self] at hindex
      cases hindex
    · rw [EPoller.put_chan_of_ne hne] at hindex ⊢
      exact hi d hindex
  | poll events hpolled =>
    obtain ⟨r, hr⟩ := hpolled.chan d
    rw [hr] at hindex ⊢
    exact hi d hindex

/-- A channel in `kNew` or `kDeleted` that is left without interest is added. -/
theorem not_interested_of_step (h : s.Agrees) (hallowed : s.Allowed a) (hok : ¬ s.DisablesAdded a)
    (hs : s.step a = some s') : ¬ s'.Interested := by
  simp only [DisablesAdded, not_forall] at hok
  obtain ⟨c, i, rfl, hnone, hindex⟩ := hok
  obtain ⟨-, hmove⟩ := step_of_agrees h hallowed hs
  cases hmove with | interest _ _ halone heq =>
  intro hi
  have hevents := hi c
  rw [heq, EPoller.put_chan_self, Channel.nextIndex, if_neg fun hcond => hindex hcond.1] at hevents
  exact hevents rfl hnone

end PollerState

variable {ι : Type u} [DecidableEq ι] {s : PollerState ι}

/-- **When channels without interest are not watched.** In a run of any changes of interest, removals
and polls on channels whose registered descriptors are distinct: after every step the epoll set has
exactly the registered channels with some interest, each with its interest as the mask, if and only
if no call leaves a channel without interest that was not in `kAdded`. -/
theorem watched_iff (h : (epoller ι).init s) {as : List (PollerAct ι)}
    (hallowed : (epoller ι).Guarded PollerState.Allowed s as) :
    (epoller ι).Along (fun s => s.Watches) s as ↔
      (epoller ι).Guarded PollerState.DisablesAdded s as := by
  obtain ⟨fds, rfl⟩ := h
  refine Machine.along_iff_guarded_of_allowed
    (fun s : PollerState ι => s.Agrees ∧ s.Interested)
    (fun _ h => h.1.watches_iff.mpr h.2) ?_ ?_ ⟨EPoller.new_agrees fds, ?_⟩ hallowed
  · intro _ _ _ h hallowed hok hs
    exact ⟨PollerState.agrees_of_step h.1 hallowed hs,
      PollerState.interested_of_step h.1 h.2 hallowed hok hs⟩
  · intro _ _ _ h hallowed hok hs hw
    exact PollerState.not_interested_of_step h.1 hallowed hok hs
      ((PollerState.agrees_of_step h.1 hallowed hs).watches_iff.mp hw)
  · intro c hindex
    cases hindex

/-- Reading, writing, and then neither. -/
theorem watched_disable : ∃ s₀ s : PollerState Unit, (epoller Unit).init s₀ ∧
    s.channels_ 3 = some () ∧ s.epollSet 3 = none ∧ s.Watches := by
  have hinit : (epoller Unit).init ⟨.new fun _ => 3, none⟩ := ⟨_, rfl⟩
  have hallowed : (epoller Unit).Guarded PollerState.Allowed ⟨.new fun _ => 3, none⟩
      [.interest () .enableReading, .interest () .enableWriting, .interest () .disableAll] :=
    Machine.Guarded.of_labels (by simp [PollerState.Allowed, EPoller.Alone]) _
  have hok : (epoller Unit).Guarded PollerState.DisablesAdded ⟨.new fun _ => 3, none⟩
      [.interest () .enableReading, .interest () .enableWriting, .interest () .disableAll] := by
    rintro _ ⟨⟩
    refine ⟨by rintro _ _ ⟨⟩ ⟨⟩, ?_⟩
    rintro _ ⟨⟩
    refine ⟨by rintro _ _ ⟨⟩ ⟨⟩, ?_⟩
    rintro _ ⟨⟩
    exact ⟨by rintro _ _ ⟨⟩ _; rfl, trivial⟩
  exact ⟨_, _, hinit, rfl, rfl, ((watched_iff hinit hallowed).mpr hok).last rfl⟩

/-- `enableReading`, and `disableAll` twice, as in `handleClose` and `connectDestroyed`: the channel is
in the epoll set again. -/
theorem watched_fails : ¬ ∀ s₀ : PollerState Unit, (epoller Unit).init s₀ → ∀ as,
    (epoller Unit).Guarded PollerState.Allowed s₀ as → ∀ s, (epoller Unit).run s₀ as = some s →
      s.Watches := by
  intro hall
  have hw := hall ⟨.new fun _ => 3, none⟩ ⟨_, rfl⟩
    [.interest () .enableReading, .interest () .disableAll, .interest () .disableAll]
    (Machine.Guarded.of_labels (by simp [PollerState.Allowed, EPoller.Alone]) _) _ rfl
  exact ((hw.set 3 .none ()).mp rfl).2.2.1 rfl

end Netfish
