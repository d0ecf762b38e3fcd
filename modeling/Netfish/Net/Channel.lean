import Netfish.Kit.Check

/-!
# Channel

A channel with its entry in the poller of its loop: the interest `events_`, the poller's `index_`,
and of `EPoller` the part that concerns this one file descriptor, whether `channels_` maps it to this
channel and with which mask the kernel's epoll set watches it. `Wf` is the agreement of the four, and
with it every change of interest gets past the poller's assertions.
-/

set_option autoImplicit false

namespace Netfish

open Kit

/-- A set of poll events. -/
structure Events where
  pollin : Bool := false
  pollpri : Bool := false
  pollout : Bool := false
  pollerr : Bool := false
  pollhup : Bool := false
  pollnval : Bool := false
  pollrdhup : Bool := false
deriving DecidableEq, Repr

namespace Events

def none : Events := {}

/-- `a | b`. -/
def union (a b : Events) : Events where
  pollin := a.pollin || b.pollin
  pollpri := a.pollpri || b.pollpri
  pollout := a.pollout || b.pollout
  pollerr := a.pollerr || b.pollerr
  pollhup := a.pollhup || b.pollhup
  pollnval := a.pollnval || b.pollnval
  pollrdhup := a.pollrdhup || b.pollrdhup

/-- `a & ~b`. -/
def minus (a b : Events) : Events where
  pollin := a.pollin && !b.pollin
  pollpri := a.pollpri && !b.pollpri
  pollout := a.pollout && !b.pollout
  pollerr := a.pollerr && !b.pollerr
  pollhup := a.pollhup && !b.pollhup
  pollnval := a.pollnval && !b.pollnval
  pollrdhup := a.pollrdhup && !b.pollrdhup

/-- What epoll may report of a descriptor watched with this mask: any of the registered events, and
`POLLERR` and `POLLHUP`, which need not be asked for. -/
def Reports (mask revents : Events) : Prop :=
  (revents.pollin = true → mask.pollin = true) ∧ (revents.pollpri = true → mask.pollpri = true) ∧
    (revents.pollout = true → mask.pollout = true) ∧ revents.pollnval = false ∧
    (revents.pollrdhup = true → mask.pollrdhup = true)

instance (mask revents : Events) : Decidable (mask.Reports revents) :=
  inferInstanceAs (Decidable (_ ∧ _))

/-- `handleEvent` calls the close callback. -/
def hangup (revents : Events) : Bool := revents.pollhup && !revents.pollin

/-- `handleEvent` calls the read callback. -/
def readable (revents : Events) : Bool := revents.pollin || revents.pollpri || revents.pollrdhup

end Events

def kReadEvent : Events := { pollin := true, pollpri := true }

def kWriteEvent : Events := { pollout := true }

/-- `index_`: what the poller last did with the channel. -/
inductive ChannelIndex where
  | kNew
  | kAdded
  | kDeleted
deriving DecidableEq, Repr

/-- The assertions of `EPoller.cc`. -/
inductive PollerFault where
  /-- `assert(channels_.find(fd) == channels_.end())` -/
  | present
  /-- `assert(channels_.find(fd) != channels_.end())` and `assert(channels_[fd] == channel)` -/
  | absent
  /-- `assert(channel->isNoneEvent())` -/
  | noneEvent
  /-- `assert(index == kAdded || index == kDeleted)` -/
  | index
deriving DecidableEq, Repr

structure Channel where
  events_ : Events
  index_ : ChannelIndex
  /-- `channels_` of the poller maps the descriptor to this channel. -/
  mapped : Bool
  /-- The mask in the kernel's epoll set, when the descriptor is in it. -/
  watched : Option Events
deriving DecidableEq, Repr

/-- A callback of a channel. -/
inductive ChannelCallback where
  | close
  | error
  | read
  | write
deriving DecidableEq, Repr

namespace Channel

def new : Channel where
  events_ := .none
  index_ := .kNew
  mapped := false
  watched := none

def isNoneEvent (c : Channel) : Bool := c.events_ = .none

def isWriting (c : Channel) : Bool := c.events_.pollout

/-! ## The poller -/

/-- `EPOLL_CTL_ADD`, which fails for a descriptor already in the set. -/
def ctlAdd (c : Channel) : Channel :=
  { c with watched := c.watched.orElse fun _ => some c.events_ }

/-- `EPOLL_CTL_MOD`, which fails for a descriptor not in the set. -/
def ctlMod (c : Channel) : Channel := { c with watched := c.watched.map fun _ => c.events_ }

def ctlDel (c : Channel) : Channel := { c with watched := none }

def updateChannel (c : Channel) : Except PollerFault Channel :=
  match c.index_ with
  | .kNew => do
    check .present (c.mapped = false)
    .ok { c with mapped := true, index_ := .kAdded }.ctlAdd
  | .kDeleted => do
    check .absent (c.mapped = true)
    .ok { c with index_ := .kAdded }.ctlAdd
  | .kAdded => do
    check .absent (c.mapped = true)
    if c.isNoneEvent then .ok { c.ctlDel with index_ := .kDeleted }
    else .ok c.ctlMod

def removeChannel (c : Channel) : Except PollerFault Channel := do
  check .absent (c.mapped = true)
  check .noneEvent (c.isNoneEvent = true)
  check .index (c.index_ = .kAdded ∨ c.index_ = .kDeleted)
  let removed := { c with mapped := false }
  .ok { (if c.index_ = .kAdded then removed.ctlDel else removed) with index_ := .kNew }

/-! ## Interest -/

/-- Each of the methods below sets `events_` and calls `update`. -/
def setEvents (c : Channel) (events : Events) : Except PollerFault Channel :=
  { c with events_ := events }.updateChannel

def enableReading (c : Channel) : Except PollerFault Channel :=
  c.setEvents (c.events_.union kReadEvent)

def enableWriting (c : Channel) : Except PollerFault Channel :=
  c.setEvents (c.events_.union kWriteEvent)

def disableWriting (c : Channel) : Except PollerFault Channel :=
  c.setEvents (c.events_.minus kWriteEvent)

def disableAll (c : Channel) : Except PollerFault Channel := c.setEvents .none

/-- `handleEvent`: the callbacks it calls for `revents_`, in order, all four being set. -/
def handleEvent (revents : Events) : List ChannelCallback :=
  (if revents.hangup then [.close] else []) ++
  (if revents.pollerr || revents.pollnval then [.error] else []) ++
  (if revents.readable then [.read] else []) ++
  (if revents.pollout then [.write] else [])

theorem close_mem_handleEvent {revents : Events} :
    .close ∈ handleEvent revents ↔ revents.hangup = true := by
  simp [handleEvent]

theorem read_mem_handleEvent {revents : Events} :
    .read ∈ handleEvent revents ↔ revents.readable = true := by
  simp [handleEvent]

/-- `handleEvent` calls its callbacks in this order, each at most once. -/
theorem handleEvent_sublist (revents : Events) :
    (handleEvent revents).Sublist [.close, .error, .read, .write] := by
  unfold handleEvent
  split <;> split <;> split <;> split <;> decide

theorem handleEvent_nodup (revents : Events) : (handleEvent revents).Nodup :=
  (by decide : [ChannelCallback.close, .error, .read, .write].Nodup).sublist
    (handleEvent_sublist revents)

/-- The close callback does not come after the read callback. -/
theorem close_not_mem_of_read {revents : Events} {todo : List ChannelCallback}
    (h : .read :: todo <:+ handleEvent revents) : .close ∉ todo := by
  intro hmem
  have hsub : [ChannelCallback.read, .close].Sublist [.close, .error, .read, .write] :=
    ((List.singleton_sublist.mpr hmem).cons_cons .read).trans
      (h.sublist.trans (handleEvent_sublist revents))
  exact absurd hsub (by decide)

/-! ## Agreement -/

/-- Channel, poller and kernel agree. -/
def Wf (c : Channel) : Prop :=
  match c.index_ with
  | .kNew => c.mapped = false ∧ c.watched = none ∧ c.events_ = .none
  | .kAdded => c.mapped = true ∧ c.watched = some c.events_
  | .kDeleted => c.mapped = true ∧ c.watched = none ∧ c.events_ = .none

variable {c c' : Channel} {events : Events}

theorem new_wf : new.Wf := ⟨rfl, rfl, rfl⟩

/-- The poller has the channel unless it is `kNew` to it. -/
theorem Wf.mapped_iff (h : c.Wf) : c.mapped = true ↔ c.index_ ≠ .kNew := by
  unfold Wf at h
  split at h
  · next hindex => simp [h.1, hindex]
  · next hindex => simp [h.1, hindex]
  · next hindex => simp [h.1, hindex]

/-- What the kernel watches is what the channel asks for. -/
theorem Wf.watched (h : c.Wf) {mask : Events} (hw : c.watched = some mask) :
    c.mapped = true ∧ mask = c.events_ := by
  unfold Wf at h
  split at h
  · exact nomatch h.2.1.symm.trans hw
  · exact ⟨h.1, Option.some.inj (hw.symm.trans h.2)⟩
  · exact nomatch h.2.1.symm.trans hw

/-- `index_` after `updateChannel`, which looks for an empty interest in `kAdded` only. -/
def nextIndex (index : ChannelIndex) (events : Events) : ChannelIndex :=
  if index = .kAdded ∧ events = .none then .kDeleted else .kAdded

/-- What a change of interest does. -/
theorem Wf.setEvents_eq (h : c.Wf) (events : Events) :
    c.setEvents events = .ok ⟨events, nextIndex c.index_ events, true,
      if nextIndex c.index_ events = .kAdded then some events else none⟩ := by
  obtain ⟨old, index, mapped, watched⟩ := c
  cases index with
  | kNew =>
    obtain ⟨rfl, rfl, -⟩ := h
    rfl
  | kDeleted =>
    obtain ⟨rfl, rfl, -⟩ := h
    rfl
  | kAdded =>
    obtain ⟨rfl, hw : watched = some old⟩ := h
    subst hw
    by_cases hnone : events = .none
    · subst hnone
      rfl
    · simp [Channel.setEvents, updateChannel, isNoneEvent, nextIndex, hnone, ctlMod, check_pos]

/-- Every change of interest succeeds and registers the channel. -/
theorem Wf.setEvents (h : c.Wf) (events : Events) :
    ∃ c', c.setEvents events = .ok c' ∧ c'.Wf ∧ c'.events_ = events ∧ c'.index_ ≠ .kNew := by
  refine ⟨_, h.setEvents_eq events, ?_⟩
  unfold nextIndex
  split
  · next hcond => exact ⟨⟨rfl, rfl, hcond.2⟩, rfl, by simp⟩
  · exact ⟨⟨rfl, rfl⟩, rfl, by simp⟩

/-- A registered channel without interest can be removed. -/
theorem Wf.removeChannel (h : c.Wf) (hnone : c.events_ = .none) (hnew : c.index_ ≠ .kNew) :
    c.removeChannel = .ok .new := by
  obtain ⟨events, index, mapped, watched⟩ := c
  cases index with
  | kNew => exact absurd rfl hnew
  | kDeleted =>
    obtain ⟨rfl, rfl, rfl⟩ := h
    rfl
  | kAdded =>
    obtain ⟨rfl, hw : watched = some events⟩ := h
    subst hw
    cases hnone
    rfl

/-- A removed channel is a new one. -/
theorem Wf.removeChannel_eq (h : c.Wf) (hrun : c.removeChannel = .ok c') : c' = .new := by
  obtain ⟨hmap, h₁⟩ := check_bind_eq_ok.mp hrun
  obtain ⟨hnone, h₂⟩ := check_bind_eq_ok.mp h₁
  obtain ⟨hindex, -⟩ := check_bind_eq_ok.mp h₂
  have hnew : c.index_ ≠ .kNew := by rcases hindex with h | h <;> rw [h] <;> nofun
  cases hrun.symm.trans (h.removeChannel (of_decide_eq_true hnone) hnew)
  rfl

/-- A removed channel is out of the poller. -/
theorem Wf.of_removeChannel (h : c.Wf) (hrun : c.removeChannel = .ok c') : c'.Wf := by
  rw [h.removeChannel_eq hrun]
  exact new_wf

end Channel

namespace Events

@[simp] theorem union_write_pollout (e : Events) : (e.union kWriteEvent).pollout = true :=
  Bool.or_true _

@[simp] theorem minus_write_pollout (e : Events) : (e.minus kWriteEvent).pollout = false :=
  Bool.and_false _

@[simp] theorem minus_write_pollin (e : Events) : (e.minus kWriteEvent).pollin = e.pollin :=
  Bool.and_true _

@[simp] theorem minus_write_pollpri (e : Events) : (e.minus kWriteEvent).pollpri = e.pollpri :=
  Bool.and_true _

@[simp] theorem minus_write_pollrdhup (e : Events) :
    (e.minus kWriteEvent).pollrdhup = e.pollrdhup :=
  Bool.and_true _

/-- Interest in writing does not touch the rest. -/
@[simp] theorem union_write_minus (e : Events) :
    (e.union kWriteEvent).minus kWriteEvent = e.minus kWriteEvent := by
  simp [union, minus, kWriteEvent]

@[simp] theorem minus_write_minus (e : Events) :
    (e.minus kWriteEvent).minus kWriteEvent = e.minus kWriteEvent := by
  simp [minus, kWriteEvent]

theorem union_read_minus {e : Events} (h : e.minus kWriteEvent = none) :
    (e.union kReadEvent).minus kWriteEvent = kReadEvent := by
  simp only [minus, kWriteEvent, none, mk.injEq] at h
  simp only [union, minus, kWriteEvent, kReadEvent, mk.injEq]
  simp_all

end Events

end Netfish
