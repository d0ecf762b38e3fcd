import Mathlib.Logic.Function.Basic
import Netfish.Kit.Machine
import Netfish.Net.Channel

/-!
# EPoller

The poller of a loop with all its channels. A channel is registered in three places: its own
`index_`, the map `channels_` by descriptor, and the epoll set of the kernel, which gives back a mask
and the pointer it was given. `epoller` is the machine of the operations; `registry_agrees` says
that the three agree after every one of them.

`view` is what a poller shows one channel of itself: the `Channel` of the connections.
-/

set_option autoImplicit false

namespace Netfish

open Kit

universe u

/-- A channel object of a poller. -/
structure PolledChannel where
  fd_ : Int
  events_ : Events
  revents_ : Events
  index_ : ChannelIndex
deriving DecidableEq, Repr

/-- The constructor. -/
def PolledChannel.new (fd : Int) : PolledChannel where
  fd_ := fd
  events_ := .none
  revents_ := .none
  index_ := .kNew

def PolledChannel.isNoneEvent (c : PolledChannel) : Bool := c.events_ = .none

/-- The methods of a channel that change `events_` and call `update`. -/
inductive Interest where
  | enableReading
  | enableWriting
  | disableReading
  | disableWriting
  | disableAll
deriving DecidableEq, Repr

def Interest.apply (events : Events) : Interest → Events
  | .enableReading => events.union kReadEvent
  | .enableWriting => events.union kWriteEvent
  | .disableReading => events.minus kReadEvent
  | .disableWriting => events.minus kWriteEvent
  | .disableAll => .none

inductive EpollOp where
  | add
  | mod
  | del
deriving DecidableEq, Repr

/-- The assertions of `fillActiveChannels`. -/
inductive FillFault where
  /-- `assert(static_cast<size_t>(numEvents) <= events_.size())` -/
  | numEvents
  /-- `assert(it != channels_.end())` -/
  | find
  /-- `assert(it->second == channel)` -/
  | channel
deriving DecidableEq, Repr

/-- A poller, the kernel's part of it, and the channel objects; `ι` are their addresses. -/
structure EPoller (ι : Type u) where
  channels_ : Int → Option ι
  /-- The epoll set: `events` and `data.ptr` for each descriptor in it. -/
  epollSet : Int → Option (Events × ι)
  /-- `events_.size()` -/
  eventListSize : Nat
  chan : ι → PolledChannel
  /-- History: an `epoll_ctl` failed. -/
  ctlFailed : Bool

def kInitEventListSize : Nat := 16

namespace EPoller

variable {ι : Type u}

/-- A new poller; the channels are new ones, with any descriptors. -/
def new (fds : ι → Int) : EPoller ι where
  channels_ _ := none
  epollSet _ := none
  eventListSize := kInitEventListSize
  chan c := .new (fds c)
  ctlFailed := false

/-- `epoll_ctl`: what the epoll set becomes; `none` when the call fails. -/
def epollCtl (s : EPoller ι) (op : EpollOp) (fd : Int) (event : Events × ι) :
    Option (Int → Option (Events × ι)) :=
  match op, s.epollSet fd with
  | .add, none => some (Function.update s.epollSet fd (some event))
  | .mod, some _ => some (Function.update s.epollSet fd (some event))
  | .del, some _ => some (Function.update s.epollSet fd none)
  | _, _ => none

/-- `update`, which only logs a failure. -/
def update (s : EPoller ι) (op : EpollOp) (c : ι) : EPoller ι :=
  match s.epollCtl op (s.chan c).fd_ ((s.chan c).events_, c) with
  | some epollSet => { s with epollSet }
  | none => { s with ctlFailed := true }

section

variable {s s' : EPoller ι} {c : ι}

/-- Only `revents_` differ, and the size of the event list. -/
structure Polled (s s' : EPoller ι) : Prop where
  channels : s'.channels_ = s.channels_
  epollSet : s'.epollSet = s.epollSet
  ctl : s'.ctlFailed = s.ctlFailed
  chan : ∀ c, ∃ revents, s'.chan c = { s.chan c with revents_ := revents }

theorem Polled.refl (s : EPoller ι) : s.Polled s := ⟨rfl, rfl, rfl, fun _ => ⟨_, rfl⟩⟩

theorem Polled.trans {t : EPoller ι} (h : s.Polled t) (h' : t.Polled s') : s.Polled s' := by
  refine ⟨h'.channels.trans h.channels, h'.epollSet.trans h.epollSet, h'.ctl.trans h.ctl, ?_⟩
  intro c
  obtain ⟨r, hr⟩ := h.chan c
  obtain ⟨r', hr'⟩ := h'.chan c
  exact ⟨r', by rw [hr', hr]⟩

theorem update_add (h : s.epollSet (s.chan c).fd_ = none) :
    s.update .add c = { s with
      epollSet := Function.update s.epollSet (s.chan c).fd_ (some ((s.chan c).events_, c)) } := by
  simp only [update, epollCtl, h]

theorem update_mod {event : Events × ι} (h : s.epollSet (s.chan c).fd_ = some event) :
    s.update .mod c = { s with
      epollSet := Function.update s.epollSet (s.chan c).fd_ (some ((s.chan c).events_, c)) } := by
  simp only [update, epollCtl, h]

theorem update_del {event : Events × ι} (h : s.epollSet (s.chan c).fd_ = some event) :
    s.update .del c =
      { s with epollSet := Function.update s.epollSet (s.chan c).fd_ none } := by
  simp only [update, epollCtl, h]

end

variable [DecidableEq ι]

def setChan (s : EPoller ι) (c : ι) (channel : PolledChannel) : EPoller ι :=
  { s with chan := Function.update s.chan c channel }

@[simp] theorem setChan_chan_self {s : EPoller ι} {c : ι} {channel : PolledChannel} :
    (s.setChan c channel).chan c = channel :=
  Function.update_self ..

theorem setChan_chan_of_ne {s : EPoller ι} {c d : ι} {channel : PolledChannel} (h : d ≠ c) :
    (s.setChan c channel).chan d = s.chan d :=
  Function.update_of_ne h ..

def set_index (s : EPoller ι) (c : ι) (index : ChannelIndex) : EPoller ι :=
  s.setChan c { s.chan c with index_ := index }

def set_revents (s : EPoller ι) (c : ι) (revents : Events) : EPoller ι :=
  s.setChan c { s.chan c with revents_ := revents }

def updateChannel (s : EPoller ι) (c : ι) : Except PollerFault (EPoller ι) :=
  let fd := (s.chan c).fd_
  match (s.chan c).index_ with
  | .kNew => do
    check .present (s.channels_ fd = none)
    let s := { s with channels_ := Function.update s.channels_ fd (some c) }
    .ok ((s.set_index c .kAdded).update .add c)
  | .kDeleted => do
    check .absent (s.channels_ fd = some c)
    .ok ((s.set_index c .kAdded).update .add c)
  | .kAdded => do
    check .absent (s.channels_ fd = some c)
    if (s.chan c).isNoneEvent then .ok ((s.update .del c).set_index c .kDeleted)
    else .ok (s.update .mod c)

def removeChannel (s : EPoller ι) (c : ι) : Except PollerFault (EPoller ι) := do
  let fd := (s.chan c).fd_
  check .absent (s.channels_ fd = some c)
  check .noneEvent ((s.chan c).isNoneEvent = true)
  let index := (s.chan c).index_
  check .index (index = .kAdded ∨ index = .kDeleted)
  let s := { s with channels_ := Function.update s.channels_ fd none }
  .ok ((if index = .kAdded then s.update .del c else s).set_index c .kNew)

/-- A method of the channel: it sets `events_` and calls `update`. -/
def setInterest (s : EPoller ι) (c : ι) (i : Interest) : Except PollerFault (EPoller ι) :=
  (s.setChan c { s.chan c with events_ := i.apply (s.chan c).events_ }).updateChannel c

/-- The loop of `fillActiveChannels`, over what `epoll_wait` has put into `events_`. -/
def fillLoop (active : List ι) : EPoller ι → List (ι × Events) →
    Except FillFault (EPoller ι × List ι)
  | s, [] => .ok (s, active)
  | s, (channel, revents) :: events => do
    let it := s.channels_ (s.chan channel).fd_
    check .find (it ≠ none)
    check .channel (it = some channel)
    fillLoop (active ++ [channel]) (s.set_revents channel revents) events

def fillActiveChannels (s : EPoller ι) (events : List (ι × Events)) :
    Except FillFault (EPoller ι × List ι) := do
  check .numEvents (events.length ≤ s.eventListSize)
  fillLoop [] s events

/-- `poll`, when `epoll_wait` returns these events. -/
def poll (s : EPoller ι) (events : List (ι × Events)) : Except FillFault (EPoller ι × List ι) :=
  if 0 < events.length then do
    let (s, active) ← s.fillActiveChannels events
    .ok (if events.length = s.eventListSize then { s with eventListSize := s.eventListSize * 2 }
      else s, active)
  else .ok (s, [])

/-- What `epoll_wait` may return: entries of the epoll set, as many as fit. -/
def MayReturn (s : EPoller ι) (events : List (ι × Events)) : Prop :=
  events.length ≤ s.eventListSize ∧
    ∀ p ∈ events, ∃ fd mask, s.epollSet fd = some (mask, p.1) ∧ mask.Reports p.2

/-! ## Agreement -/

/-- What the poller shows one channel of itself. -/
def view (s : EPoller ι) (c : ι) : Channel where
  events_ := (s.chan c).events_
  index_ := (s.chan c).index_
  mapped := s.channels_ (s.chan c).fd_ = some c
  watched := match s.epollSet (s.chan c).fd_ with
    | some (mask, d) => if d = c then some mask else none
    | none => none

/-- Each channel agrees with what it is shown, and nothing else is in the map or the epoll set. -/
structure Agrees (s : EPoller ι) : Prop where
  wf : ∀ c, (s.view c).Wf
  mapped : ∀ {fd c}, s.channels_ fd = some c → (s.chan c).fd_ = fd
  watched : ∀ {fd mask c}, s.epollSet fd = some (mask, c) → s.channels_ fd = some c
  ctl : s.ctlFailed = false

/-- No other registered channel has the descriptor of this one. -/
def Alone (s : EPoller ι) (c : ι) : Prop :=
  ∀ d, d ≠ c → (s.chan d).index_ ≠ .kNew → (s.chan d).fd_ ≠ (s.chan c).fd_

/-- The channel with this interest and index, and the map and the epoll set as they then should be. -/
def put (s : EPoller ι) (c : ι) (events : Events) (index : ChannelIndex) : EPoller ι :=
  { s.setChan c { s.chan c with events_ := events, index_ := index } with
    channels_ := Function.update s.channels_ (s.chan c).fd_ (if index = .kNew then none else some c)
    epollSet := Function.update s.epollSet (s.chan c).fd_
      (if index = .kAdded then some (events, c) else none) }

variable {s s' : EPoller ι} {c d : ι} {fd : Int}

/-- A channel that is neither in the map nor in the epoll set. -/
theorem view_of_absent (hmap : s.channels_ (s.chan c).fd_ ≠ some c)
    (hset : ∀ mask, s.epollSet (s.chan c).fd_ ≠ some (mask, c)) :
    s.view c = ⟨(s.chan c).events_, (s.chan c).index_, false, none⟩ := by
  have hwatched : (s.view c).watched = none := by
    simp only [view]
    split
    · next mask d heq =>
      rw [if_neg]
      rintro rfl
      exact hset mask heq
    · rfl
  rw [← hwatched]
  simp [view, hmap]

/-- What `Wf` says of a channel that is not registered. -/
theorem Agrees.of_new (h : s.Agrees) (hc : (s.chan c).index_ = .kNew) :
    (∀ fd, s.channels_ fd ≠ some c) ∧ (∀ fd mask, s.epollSet fd ≠ some (mask, c)) ∧
      (s.chan c).events_ = .none := by
  have hwf := h.wf c
  simp only [Channel.Wf, view, hc, decide_eq_false_iff_not] at hwf
  have hmap : ∀ fd, s.channels_ fd ≠ some c := by
    intro fd hfd
    apply hwf.1
    rw [h.mapped hfd]
    exact hfd
  exact ⟨hmap, fun fd mask hfd => hmap fd (h.watched hfd), hwf.2.2⟩

theorem Agrees.of_added (h : s.Agrees) (hc : (s.chan c).index_ = .kAdded) :
    s.channels_ (s.chan c).fd_ = some c ∧
      s.epollSet (s.chan c).fd_ = some ((s.chan c).events_, c) := by
  have hwf := h.wf c
  simp only [Channel.Wf, view, hc, decide_eq_true_eq] at hwf
  refine ⟨hwf.1, ?_⟩
  cases hset : s.epollSet (s.chan c).fd_ with
  | none => simp [hset] at hwf
  | some p =>
    obtain ⟨mask, d⟩ := p
    cases hwf.1.symm.trans (h.watched hset)
    simpa [hset] using hwf.2

theorem Agrees.of_deleted (h : s.Agrees) (hc : (s.chan c).index_ = .kDeleted) :
    s.channels_ (s.chan c).fd_ = some c ∧ s.epollSet (s.chan c).fd_ = none ∧
      (s.chan c).events_ = .none := by
  have hwf := h.wf c
  simp only [Channel.Wf, view, hc, decide_eq_true_eq] at hwf
  refine ⟨hwf.1, ?_, hwf.2.2⟩
  cases hset : s.epollSet (s.chan c).fd_ with
  | none => rfl
  | some p =>
    obtain ⟨mask, d⟩ := p
    cases hwf.1.symm.trans (h.watched hset)
    simp [hset] at hwf

/-- A registered channel is in the map. -/
theorem Agrees.of_registered (h : s.Agrees) (hc : (s.chan c).index_ ≠ .kNew) :
    s.channels_ (s.chan c).fd_ = some c := by
  cases hindex : (s.chan c).index_ with
  | kNew => exact absurd hindex hc
  | kAdded => exact (h.of_added hindex).1
  | kDeleted => exact (h.of_deleted hindex).1

/-- A registered channel is alone on its descriptor. -/
theorem Agrees.alone (h : s.Agrees) (hc : (s.chan c).index_ ≠ .kNew) : s.Alone c := by
  intro d hne hd hfd
  have hmap := h.of_registered hd
  rw [hfd, h.of_registered hc] at hmap
  exact hne (Option.some.inj hmap).symm

/-- So its descriptor is in the map for itself only. -/
theorem Agrees.eq_of_mapped (h : s.Agrees) (halone : s.Alone c)
    (hfd : s.channels_ (s.chan c).fd_ = some d) : d = c := by
  by_contra hne
  refine halone d hne ?_ (h.mapped hfd)
  intro hnew
  exact (h.of_new hnew).1 _ hfd

section Put

variable {events : Events} {index : ChannelIndex}

@[simp] theorem put_chan_self :
    (s.put c events index).chan c = { s.chan c with events_ := events, index_ := index } :=
  Function.update_self ..

theorem put_chan_of_ne (h : d ≠ c) : (s.put c events index).chan d = s.chan d :=
  Function.update_of_ne h ..

theorem put_fd : ((s.put c events index).chan d).fd_ = (s.chan d).fd_ := by
  by_cases h : d = c
  · subst h
    rw [put_chan_self]
  · rw [put_chan_of_ne h]

theorem put_view_self : (s.put c events index).view c =
    ⟨events, index, index ≠ .kNew, if index = .kAdded then some events else none⟩ := by
  cases index <;> simp [view] <;> simp [put]

theorem Agrees.put_view_of_ne (h : s.Agrees) (halone : s.Alone c) (hne : d ≠ c) :
    (s.put c events index).view d = s.view d := by
  by_cases hfd : (s.chan d).fd_ = (s.chan c).fd_
  · -- a channel that shares the descriptor is not registered, before or after
    have hnew : (s.chan d).index_ = .kNew := by
      by_contra hreg
      exact halone d hne hreg hfd
    obtain ⟨hmap, hset, -⟩ := h.of_new hnew
    rw [view_of_absent (hmap _) (hset _), view_of_absent, put_chan_of_ne hne]
    · rw [put_chan_of_ne hne, hfd]
      simp only [EPoller.put, Function.update_self]
      split <;> simp [Ne.symm hne]
    · intro mask
      rw [put_chan_of_ne hne, hfd]
      simp only [EPoller.put, Function.update_self]
      split <;> simp [Ne.symm hne]
  · simp only [view, put_chan_of_ne hne]
    simp only [EPoller.put, Function.update_of_ne hfd]

/-- The agreement is kept. -/
theorem Agrees.put (h : s.Agrees) (halone : s.Alone c)
    (hnone : index ≠ .kAdded → events = .none) : (s.put c events index).Agrees where
  wf d := by
    by_cases hne : d = c
    · subst hne
      rw [put_view_self]
      cases index with
      | kNew => exact ⟨rfl, rfl, hnone (by simp)⟩
      | kAdded => exact ⟨rfl, rfl⟩
      | kDeleted => exact ⟨rfl, rfl, hnone (by simp)⟩
    · rw [h.put_view_of_ne halone hne]
      exact h.wf d
  mapped {fd d} hfd := by
    rw [put_fd]
    by_cases hsame : fd = (s.chan c).fd_
    · subst hsame
      simp only [EPoller.put, Function.update_self] at hfd
      split at hfd <;> cases hfd
      rfl
    · simp only [EPoller.put, Function.update_of_ne hsame] at hfd
      exact h.mapped hfd
  watched {fd mask d} hfd := by
    by_cases hsame : fd = (s.chan c).fd_
    · subst hsame
      simp only [EPoller.put, Function.update_self] at hfd ⊢
      split at hfd <;> cases hfd
      next hadd => rw [hadd]; rfl
    · simp only [EPoller.put, Function.update_of_ne hsame] at hfd ⊢
      exact h.watched hfd
  ctl := h.ctl

end Put

/-! ## The operations -/

theorem updateChannel_of_new (hindex : (s.chan c).index_ = .kNew)
    (hmap : s.channels_ (s.chan c).fd_ = none) (hset : s.epollSet (s.chan c).fd_ = none) :
    s.updateChannel c = .ok (s.put c (s.chan c).events_ .kAdded) := by
  simp only [updateChannel, hindex, hmap, check_pos, ok_bind]
  rw [update_add (by simpa [set_index, setChan] using hset)]
  simp [put, setChan, set_index]

theorem updateChannel_of_deleted (hindex : (s.chan c).index_ = .kDeleted)
    (hmap : s.channels_ (s.chan c).fd_ = some c) (hset : s.epollSet (s.chan c).fd_ = none) :
    s.updateChannel c = .ok (s.put c (s.chan c).events_ .kAdded) := by
  have hmapped : Function.update s.channels_ (s.chan c).fd_ (some c) = s.channels_ :=
    hmap ▸ Function.update_eq_self ..
  simp only [updateChannel, hindex, hmap, check_pos, ok_bind]
  rw [update_add (by simpa [set_index, setChan] using hset)]
  simp [put, setChan, set_index, hmapped]

theorem updateChannel_of_added (hindex : (s.chan c).index_ = .kAdded)
    (hmap : s.channels_ (s.chan c).fd_ = some c) {e : Events × ι}
    (hset : s.epollSet (s.chan c).fd_ = some e) :
    s.updateChannel c = .ok (s.put c (s.chan c).events_
      (if (s.chan c).events_ = .none then .kDeleted else .kAdded)) := by
  have hmapped : Function.update s.channels_ (s.chan c).fd_ (some c) = s.channels_ :=
    hmap ▸ Function.update_eq_self ..
  have hchan : ({ s.chan c with index_ := .kAdded } : PolledChannel) = s.chan c := by
    rw [← hindex]
  simp only [updateChannel, hindex, hmap, check_pos, ok_bind, PolledChannel.isNoneEvent,
    decide_eq_true_eq]
  split
  · rw [update_del hset]
    simp [put, setChan, set_index, hmapped]
  · rw [update_mod hset]
    simp [put, setChan, hchan, hmapped]

/-- Every change of interest succeeds. -/
theorem Agrees.setInterest (h : s.Agrees) (halone : s.Alone c) (i : Interest) :
    s.setInterest c i = .ok (s.put c (i.apply (s.chan c).events_)
      (Channel.nextIndex (s.chan c).index_ (i.apply (s.chan c).events_))) := by
  unfold EPoller.setInterest
  generalize i.apply (s.chan c).events_ = events
  cases hindex : (s.chan c).index_ with
  | kNew =>
    have hmap : s.channels_ (s.chan c).fd_ = none := by
      apply Option.eq_none_iff_forall_ne_some.mpr
      intro d hd
      cases h.eq_of_mapped halone hd
      exact (h.of_new hindex).1 _ hd
    have hset : s.epollSet (s.chan c).fd_ = none := by
      apply Option.eq_none_iff_forall_ne_some.mpr
      intro p hp
      cases hmap.symm.trans (h.watched hp)
    rw [updateChannel_of_new (by simpa [setChan]) (by simpa [setChan]) (by simpa [setChan])]
    simp [EPoller.put, setChan, Channel.nextIndex]
  | kDeleted =>
    obtain ⟨hmap, hset, -⟩ := h.of_deleted hindex
    rw [updateChannel_of_deleted (by simpa [setChan]) (by simpa [setChan]) (by simpa [setChan])]
    simp [EPoller.put, setChan, Channel.nextIndex]
  | kAdded =>
    obtain ⟨hmap, hset⟩ := h.of_added hindex
    rw [updateChannel_of_added (e := ((s.chan c).events_, c)) (by simpa [setChan])
      (by simpa [setChan]) (by simpa [setChan])]
    simp [EPoller.put, setChan, Channel.nextIndex]

/-- A registered channel without interest can be removed. -/
theorem Agrees.removeChannel (h : s.Agrees) (hreg : (s.chan c).index_ ≠ .kNew)
    (hnone : (s.chan c).events_ = .none) : s.removeChannel c = .ok (s.put c .none .kNew) := by
  have hmap := h.of_registered hreg
  cases hindex : (s.chan c).index_ with
  | kNew => exact absurd hindex hreg
  | kAdded =>
    obtain ⟨-, hset⟩ := h.of_added hindex
    simp only [EPoller.removeChannel, hmap, PolledChannel.isNoneEvent, hnone, hindex, decide_true,
      check_pos, ok_bind, true_or, if_true]
    rw [update_del (by exact hset)]
    simp [EPoller.put, setChan, set_index, ← hnone]
  | kDeleted =>
    obtain ⟨-, hset, -⟩ := h.of_deleted hindex
    simp only [EPoller.removeChannel, hmap, PolledChannel.isNoneEvent, hnone, hindex, decide_true,
      check_pos, ok_bind, or_true, if_false, reduceCtorEq]
    have hunset : Function.update s.epollSet (s.chan c).fd_ none = s.epollSet :=
      hset ▸ Function.update_eq_self ..
    simp [EPoller.put, setChan, set_index, ← hnone, hunset]
/-- Each channel sees the operation of its own, and the others see nothing. -/
theorem Agrees.setInterest_view (h : s.Agrees) (halone : s.Alone c) {i : Interest}
    (hrun : s.setInterest c i = .ok s') :
    (s.view c).setEvents (i.apply (s.view c).events_) = .ok (s'.view c) ∧
      ∀ d, d ≠ c → s'.view d = s.view d := by
  cases hrun.symm.trans (h.setInterest halone i)
  refine ⟨?_, fun d hne => h.put_view_of_ne halone hne⟩
  rw [(h.wf c).setEvents_eq, put_view_self]
  congr
  unfold Channel.nextIndex
  split <;> rfl

theorem Agrees.removeChannel_view (h : s.Agrees) (hreg : (s.chan c).index_ ≠ .kNew)
    (hnone : (s.chan c).events_ = .none) (hrun : s.removeChannel c = .ok s') :
    (s.view c).removeChannel = .ok (s'.view c) ∧ ∀ d, d ≠ c → s'.view d = s.view d := by
  cases hrun.symm.trans (h.removeChannel hreg hnone)
  refine ⟨?_, fun d hne => h.put_view_of_ne (h.alone hreg) hne⟩
  rw [(h.wf c).removeChannel hnone hreg, put_view_self]
  rfl

/-- A channel that is not registered can be made anew. -/
theorem Agrees.create (h : s.Agrees) (hnew : (s.chan c).index_ = .kNew) (fd : Int) :
    (s.setChan c (.new fd)).Agrees := by
  obtain ⟨hmap, hset, -⟩ := h.of_new hnew
  refine ⟨?_, ?_, fun hfd => h.watched hfd, h.ctl⟩
  · intro d
    by_cases hne : d = c
    · subst hne
      rw [view_of_absent, setChan_chan_self]
      · exact ⟨rfl, rfl, rfl⟩
      · exact hmap _
      · exact hset _
    · have hview : (s.setChan c (.new fd)).view d = s.view d := by
        simp only [view, setChan_chan_of_ne hne]
        rfl
      rw [hview]
      exact h.wf d
  · intro fd' d hfd
    have hne : d ≠ c := by
      rintro rfl
      exact hmap _ hfd
    rw [setChan_chan_of_ne hne]
    exact h.mapped hfd

/-! ## Polling -/

theorem Polled.set_revents (s : EPoller ι) (c : ι) (revents : Events) :
    s.Polled (s.set_revents c revents) := by
  refine ⟨rfl, rfl, rfl, ?_⟩
  intro d
  by_cases hne : d = c
  · subst hne
    exact ⟨revents, setChan_chan_self⟩
  · exact ⟨_, setChan_chan_of_ne hne⟩

theorem Polled.view (h : s.Polled s') (c : ι) : s'.view c = s.view c := by
  obtain ⟨r, hr⟩ := h.chan c
  simp only [EPoller.view, hr, h.channels, h.epollSet]

theorem Agrees.polled (h : s.Agrees) (hp : s.Polled s') : s'.Agrees := by
  refine ⟨?_, ?_, ?_, hp.ctl.trans h.ctl⟩
  · intro c
    rw [hp.view]
    exact h.wf c
  · intro fd c hfd
    obtain ⟨r, hr⟩ := hp.chan c
    rw [hr]
    rw [hp.channels] at hfd
    exact h.mapped hfd
  · intro fd mask c hfd
    rw [hp.epollSet] at hfd
    rw [hp.channels]
    exact h.watched hfd

/-- The loop gets past its assertions for channels of the map, and collects them in order. -/
theorem fillLoop_spec (events : List (ι × Events)) (active : List ι)
    (h : ∀ p ∈ events, s.channels_ (s.chan p.1).fd_ = some p.1) :
    ∃ s', fillLoop active s events = .ok (s', active ++ events.map Prod.fst) ∧ s.Polled s' := by
  induction events generalizing s active with
  | nil => exact ⟨s, by simp [fillLoop], .refl s⟩
  | cons p events ih =>
    obtain ⟨channel, revents⟩ := p
    have hpolled := Polled.set_revents s channel revents
    have hrest : ∀ p ∈ events, (s.set_revents channel revents).channels_
        ((s.set_revents channel revents).chan p.1).fd_ = some p.1 := by
      intro p hp
      obtain ⟨r, hr⟩ := hpolled.chan p.1
      rw [hr]
      exact h p (List.mem_cons_of_mem _ hp)
    obtain ⟨s', hrun, hs'⟩ := ih (active ++ [channel]) hrest
    refine ⟨s', ?_, hpolled.trans hs'⟩
    have hmap := h _ List.mem_cons_self
    simp only [fillLoop, hmap]
    rw [check_pos (by simp), ok_bind, check_pos trivial, ok_bind, hrun]
    simp

/-- What `epoll_wait` may return gets past the assertions of `fillActiveChannels`. -/
theorem Agrees.fillActiveChannels (h : s.Agrees) {events : List (ι × Events)}
    (hret : s.MayReturn events) :
    ∃ s', s.fillActiveChannels events = .ok (s', events.map Prod.fst) ∧ s.Polled s' := by
  obtain ⟨hlen, hmem⟩ := hret
  have hmap : ∀ p ∈ events, s.channels_ (s.chan p.1).fd_ = some p.1 := by
    intro p hp
    obtain ⟨fd, mask, hset, -⟩ := hmem p hp
    have hfd := h.watched hset
    rwa [h.mapped hfd]
  obtain ⟨s', hrun, hs'⟩ := fillLoop_spec events [] hmap
  refine ⟨s', ?_, hs'⟩
  rw [EPoller.fillActiveChannels, check_pos hlen, ok_bind, hrun]
  rfl

theorem Agrees.poll (h : s.Agrees) {events : List (ι × Events)} (hret : s.MayReturn events) :
    ∃ s', s.poll events = .ok (s', events.map Prod.fst) ∧ s.Polled s' := by
  unfold EPoller.poll
  split
  · obtain ⟨s', hrun, hs'⟩ := h.fillActiveChannels hret
    refine ⟨_, bind_eq_ok.mpr ⟨_, hrun, rfl⟩, ?_⟩
    split
    · exact ⟨hs'.channels, hs'.epollSet, hs'.ctl, hs'.chan⟩
    · exact hs'
  · next hlen =>
    obtain rfl := List.eq_nil_of_length_eq_zero (Nat.eq_zero_of_not_pos hlen)
    exact ⟨s, rfl, .refl s⟩

end EPoller

/-! ## The machine -/

/-- A poller until an assertion fails. -/
structure PollerState (ι : Type u) extends EPoller ι where
  fault : Option (PollerFault ⊕ FillFault)

inductive PollerAct (ι : Type u) where
  /-- The channel object is made anew, for this descriptor. -/
  | create (c : ι) (fd : Int)
  | interest (c : ι) (i : Interest)
  | removeChannel (c : ι)
  | poll (events : List (ι × Events))

namespace PollerState

variable {ι : Type u} [DecidableEq ι]

def step (s : PollerState ι) (a : PollerAct ι) : Option (PollerState ι) :=
  if s.fault.isSome then none
  else match a with
    | .create c fd => some { s with toEPoller := s.setChan c (.new fd) }
    | .interest c i => some (match s.setInterest c i with
      | .ok p => { s with toEPoller := p }
      | .error fault => { s with fault := some (.inl fault) })
    | .removeChannel c => some (match s.toEPoller.removeChannel c with
      | .ok p => { s with toEPoller := p }
      | .error fault => { s with fault := some (.inl fault) })
    | .poll events => some (match s.toEPoller.poll events with
      | .ok (p, _) => { s with toEPoller := p }
      | .error fault => { s with fault := some (.inr fault) })

/-- What the callers of a poller see to: a channel object is only made anew when it is not registered,
no two registered channels have one descriptor, and a channel that is removed is registered and has
no interest. And `epoll_wait` returns entries of the epoll set. -/
def Allowed (s : PollerState ι) : PollerAct ι → Prop
  | .create c _ => (s.chan c).index_ = .kNew
  | .interest c _ => (s.chan c).index_ = .kNew → s.Alone c
  | .removeChannel c => (s.chan c).index_ ≠ .kNew ∧ (s.chan c).events_ = .none
  | .poll events => s.MayReturn events

/-- The three records of every channel agree, no `epoll_ctl` failed and no assertion, and whatever
`epoll_wait` may return next gets past the assertions of `fillActiveChannels`. -/
structure Registered (s : PollerState ι) : Prop where
  new : ∀ c, (s.chan c).index_ = .kNew ↔
    (∀ fd, s.channels_ fd ≠ some c) ∧ ∀ fd mask, s.epollSet fd ≠ some (mask, c)
  added : ∀ c, (s.chan c).index_ = .kAdded ↔ s.channels_ (s.chan c).fd_ = some c ∧
    s.epollSet (s.chan c).fd_ = some ((s.chan c).events_, c)
  deleted : ∀ c, (s.chan c).index_ = .kDeleted → s.channels_ (s.chan c).fd_ = some c ∧
    s.epollSet (s.chan c).fd_ = none ∧ (s.chan c).events_ = .none
  ctl : s.ctlFailed = false
  fault : s.fault = none
  fill : ∀ events, s.MayReturn events →
    ∃ p, s.fillActiveChannels events = .ok (p, events.map Prod.fst)

variable {s s' : PollerState ι} {a : PollerAct ι}

theorem registered_of_agrees (h : s.Agrees) (hfault : s.fault = none) : s.Registered where
  new c := by
    constructor
    · intro hnew
      exact ⟨(h.of_new hnew).1, (h.of_new hnew).2.1⟩
    · rintro ⟨hmap, -⟩
      by_contra hreg
      exact hmap _ (h.of_registered hreg)
  added c := by
    refine ⟨h.of_added, ?_⟩
    rintro ⟨hmap, hset⟩
    cases hindex : (s.chan c).index_ with
    | kNew => exact absurd hmap ((h.of_new hindex).1 _)
    | kAdded => rfl
    | kDeleted => cases (h.of_deleted hindex).2.1.symm.trans hset
  deleted c := h.of_deleted
  ctl := h.ctl
  fault := hfault
  fill events hret := by
    obtain ⟨p, hrun, -⟩ := h.fillActiveChannels hret
    exact ⟨p, hrun⟩

/-- What an allowed step can do. -/
inductive PollerMove (s : EPoller ι) (s' : EPoller ι) : PollerAct ι → Prop
  | create (c : ι) (fd : Int) (h : s' = s.setChan c (.new fd)) : PollerMove s s' (.create c fd)
  | interest (c : ι) (i : Interest) (halone : s.Alone c)
      (h : s' = s.put c (i.apply (s.chan c).events_)
        (Channel.nextIndex (s.chan c).index_ (i.apply (s.chan c).events_))) :
      PollerMove s s' (.interest c i)
  | removeChannel (c : ι) (halone : s.Alone c) (h : s' = s.put c .none .kNew) :
      PollerMove s s' (.removeChannel c)
  | poll (events : List (ι × Events)) (h : s.Polled s') : PollerMove s s' (.poll events)

theorem step_of_agrees (h : s.Agrees) (hok : s.Allowed a) (hs : s.step a = some s') :
    s'.fault = none ∧ PollerMove s.toEPoller s'.toEPoller a := by
  unfold PollerState.step at hs
  split at hs
  · cases hs
  next hfault =>
  have hnone : s.fault = none := by simpa using hfault
  cases a with
  | create c fd =>
    cases hs
    exact ⟨hnone, .create c fd rfl⟩
  | interest c i =>
    have halone : s.Alone c := by
      by_cases hreg : (s.chan c).index_ = .kNew
      · exact hok hreg
      · exact h.alone hreg
    simp only [h.setInterest halone i] at hs
    cases hs
    exact ⟨hnone, .interest c i halone rfl⟩
  | removeChannel c =>
    simp only [h.removeChannel hok.1 hok.2] at hs
    cases hs
    exact ⟨hnone, .removeChannel c (h.alone hok.1) rfl⟩
  | poll events =>
    obtain ⟨p, hrun, hp⟩ := h.poll hok
    simp only [hrun] at hs
    cases hs
    exact ⟨hnone, .poll events hp⟩

theorem agrees_of_step (h : s.Agrees) (hok : s.Allowed a) (hs : s.step a = some s') :
    s'.Agrees := by
  cases (step_of_agrees h hok hs).2 with
  | create c fd heq =>
    rw [heq]
    exact h.create hok fd
  | interest c i halone heq =>
    rw [heq]
    refine h.put halone ?_
    intro hindex
    unfold Channel.nextIndex at hindex
    split at hindex
    · next hcond => exact hcond.2
    · exact absurd rfl hindex
  | removeChannel c halone heq =>
    rw [heq]
    exact h.put halone fun _ => rfl
  | poll events hp => exact h.polled hp

end PollerState

/-- A poller among its callers; it starts empty, with new channels. -/
def epoller (ι : Type u) [DecidableEq ι] : Machine (PollerState ι) (PollerAct ι) where
  init s := ∃ fds, s = ⟨.new fds, none⟩
  step := PollerState.step

variable {ι : Type u} [DecidableEq ι] {s : PollerState ι}

theorem EPoller.new_agrees (fds : ι → Int) : (EPoller.new fds).Agrees where
  wf _ := ⟨rfl, rfl, rfl⟩
  mapped hfd := by cases hfd
  watched hfd := by cases hfd
  ctl := rfl

/-- **The registry agrees.** In a run of any changes of interest, removals and polls on any channels,
whose registered descriptors are distinct and whose removals meet the assertions of `removeChannel`:
after every step the index of each channel, the map and the epoll set agree, no `epoll_ctl` has failed,
no assertion either, and what `epoll_wait` returns gets past `fillActiveChannels`. -/
theorem registry_agrees (h : (epoller ι).init s) {as : List (PollerAct ι)}
    (hok : (epoller ι).Guarded PollerState.Allowed s as) :
    (epoller ι).Along PollerState.Registered s as := by
  obtain ⟨fds, rfl⟩ := h
  exact Machine.Guarded.along (fun s => s.Agrees ∧ s.fault = none)
    (fun _ h => PollerState.registered_of_agrees h.1 h.2)
    (fun _ _ _ h hok hs =>
      ⟨PollerState.agrees_of_step h.1 hok hs, (PollerState.step_of_agrees h.1 hok hs).1⟩)
    ⟨EPoller.new_agrees fds, rfl⟩ hok

/-- Two channels, one of them disabled and removed, the other one reported by a poll. -/
theorem registry_agrees_remove : ∃ s₀ s : PollerState Bool, (epoller Bool).init s₀ ∧
    s.channels_ 3 = none ∧ s.channels_ 4 = some true ∧ s.Registered := by
  have hinit : (epoller Bool).init ⟨.new fun c => if c then 4 else 3, none⟩ := ⟨_, rfl⟩
  have hok : (epoller Bool).Guarded PollerState.Allowed ⟨.new fun c => if c then 4 else 3, none⟩
      [.interest false .enableReading, .interest true .enableWriting, .interest false .disableAll,
        .removeChannel false, .poll [(true, { pollout := true })]] := by
    rintro _ ⟨⟩
    refine ⟨fun _ => by unfold EPoller.Alone; decide, ?_⟩
    rintro _ ⟨⟩
    refine ⟨fun _ => by unfold EPoller.Alone; decide, ?_⟩
    rintro _ ⟨⟩
    refine ⟨fun _ => by unfold EPoller.Alone; decide, ?_⟩
    rintro _ ⟨⟩
    refine ⟨by unfold PollerState.Allowed; decide, ?_⟩
    rintro _ ⟨⟩
    refine ⟨⟨by decide, ?_⟩, trivial⟩
    intro p hp
    cases List.mem_singleton.mp hp
    exact ⟨4, { pollout := true }, rfl, by decide⟩
  exact ⟨_, _, hinit, rfl, rfl, (registry_agrees hinit hok).last rfl⟩

end Netfish
