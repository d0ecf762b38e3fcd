import Netfish.Net.Output

/-!
# The deferred half-close

Up to the first `disableAll` the channel asks for `POLLOUT` exactly while there is output, so
`shutdownInLoop` shuts the write side down or leaves it to a `handleWrite` that is still to come: a
`shutdown` that finds bytes pending is not forgotten.
-/

set_option autoImplicit false

namespace Netfish

open Kit

universe u

namespace ConnState

section

variable {T : Type u} {s s' : ConnState T}

/-- Nothing is added to the history exactly when nothing is shut down. -/
theorem shutdowns_eq_self {es : List ConnEffect} :
    s.shutdowns ++ (shutdownsOf s.wire es).map (s.ran, ·) = s.shutdowns ↔ .shutdownWrite ∉ es := by
  rw [List.append_right_eq_self, List.map_eq_nil_iff, shutdownsOf_eq_nil]

/-- The interest follows the buffer, and a `shutdown` that has not been made good is on its way. -/
structure Followed (s : ConnState T) : Prop where
  synced : s.conn.Synced
  onItsWay : s.conn.state_ = .kDisconnecting → s.conn.outputBuffer_ = [] → s.shutdowns = [] →
    .shutdownInLoop ∈ s.functors.toList ∨ ∃ o, s.calls o = .shut

theorem start_followed (m w : Bool) : (start m w : ConnState T).Followed :=
  ⟨TcpConnection.new_synced m w, nofun⟩

/-- A step that does at most what a method of the output path does, and takes no `shutdown` off its way. -/
theorem Followed.follows (h : s.Followed) {es : List ConnEffect} (hf : s.conn.Follows s'.conn es)
    (hfunctors : .shutdownInLoop ∈ s.functors.toList → .shutdownInLoop ∈ s'.functors.toList)
    (hcalls : ∀ o, s.calls o = .shut → s'.calls o = .shut)
    (hshut : s'.shutdowns = s.shutdowns ++ (shutdownsOf s.wire es).map (s.ran, ·)) :
    s'.Followed where
  synced := hf.synced
  onItsWay hstate hout hnone := by
    rw [hf.state] at hstate
    obtain ⟨hnone', hes⟩ := List.append_eq_nil_iff.mp (hshut.symm.trans hnone)
    have hquiet : .shutdownWrite ∉ es := shutdownsOf_eq_nil.mp (List.map_eq_nil_iff.mp hes)
    by_cases hout' : s.conn.outputBuffer_ = []
    · rcases h.onItsWay hstate hout' hnone' with hqueued | ⟨o, ho⟩
      · exact .inl (hfunctors hqueued)
      · exact .inr ⟨o, hcalls o ho⟩
    · exact absurd (hf.deferred hstate hout' hout) hquiet

/-- A step that does nothing to the output. -/
theorem Followed.untouched (h : s.Followed) (hconn : s'.conn = s.conn)
    (hfunctors : .shutdownInLoop ∈ s.functors.toList → .shutdownInLoop ∈ s'.functors.toList)
    (hcalls : ∀ o, s.calls o = .shut → s'.calls o = .shut) (hshut : s'.shutdowns = s.shutdowns) :
    s'.Followed := by
  have hstays : s.conn.Follows s'.conn [] := hconn ▸ h.synced.stays
  apply h.follows hstays hfunctors hcalls
  rw [hshut]
  exact (List.append_nil _).symm

/-- `shutdownInLoop` with nothing to write shuts down. -/
theorem Followed.shutdownNow (h : s.Followed) (hconn : s'.conn = s.conn)
    (hshut : s'.shutdowns =
      s.shutdowns ++ (shutdownsOf s.wire s.conn.shutdownInLoop).map (s.ran, ·)) : s'.Followed where
  synced := hconn ▸ h.synced
  onItsWay _ hout hnone := by
    rw [hconn] at hout
    rw [hshut, h.synced.shutdownInLoop_eq, if_pos hout] at hnone
    cases (List.append_eq_nil_iff.mp hnone).2

end

variable {T : Type u} [DecidableEq T] {s s' : ConnState T} {a : ConnAct T}

/-- A caller moves that was not past `setState`. -/
theorem shut_of_update {o : Option T} {old pc : CallerPc} (ho : s.calls o = old) (hold : old ≠ .shut)
    (o' : Option T) (hshut : s.calls o' = .shut) : Function.update s.calls o pc o' = .shut := by
  rw [Function.update_of_ne]
  · exact hshut
  · rintro rfl
    exact hold (ho.symm.trans hshut)

/-- Each step keeps it. -/
theorem Followed.step (h : s.Followed) (hst : s.Streams) (hopen : s.beforeDisableAll a = true)
    (hs : s.step a = some s') : s'.Followed := by
  cases step_outputMove h.synced hopen hs with
  | refused => exact h
  | accept hmay | shutTest hmay => exact h.untouched rfl id (shut_of_update hmay.1 nofun) rfl
  | sendPush hc =>
    exact h.untouched rfl BatchQueue.mem_push_of_mem (shut_of_update hc nofun) rfl
  | sendHere hc hsend =>
    rw [perform_eq]
    exact h.follows hsend.toFollows BatchQueue.mem_pushAll_of_mem (shut_of_update hc nofun) rfl
  | @shutSet o =>
    exact ⟨⟨h.synced.wf, h.synced.writing⟩, fun _ _ _ => .inr ⟨o, Function.update_self ..⟩⟩
  | shutPush => exact ⟨h.synced, fun _ _ _ => .inl (by simp)⟩
  | shutHere =>
    rw [perform_eq]
    exact h.shutdownNow rfl rfl
  | aside => exact ⟨h.synced, h.onItsWay⟩
  | connectEstablished hsynced => exact ⟨hsynced, nofun⟩
  | callWrite hwrite =>
    rw [perform_eq]
    exact h.follows hwrite.toFollows BatchQueue.mem_pushAll_of_mem (fun _ => id) rfl
  | queueDestroyed => exact h.untouched rfl BatchQueue.mem_push_of_mem (fun _ => id) rfl
  | beginFunctors hpc =>
    refine h.untouched rfl ?_ (fun _ => id) rfl
    intro hq
    exact BatchQueue.toList_swap (hst.worked (by rw [hpc]; rfl)) ▸ hq
  | runSend hnext hsend =>
    rw [perform_eq]
    refine h.follows hsend.toFollows ?_ (fun _ => id) rfl
    intro hq
    exact BatchQueue.mem_pushAll_of_mem (BatchQueue.mem_rest_of_ne hnext hq nofun)
  | runShutdown =>
    rw [perform_eq]
    exact h.shutdownNow rfl rfl
  | runWriteComplete hnext =>
    refine h.untouched rfl ?_ (fun _ => id) rfl
    intro hq
    exact BatchQueue.mem_rest_of_ne hnext hq nofun

theorem followed_of_reachable (h : (openConnection T).Reachable s) : s.Streams ∧ s.Followed := by
  apply h.invariant fun s => s.Streams ∧ s.Followed
  · rintro _ ⟨m, w, rfl⟩
    exact ⟨start_streams m w, start_followed m w⟩
  · intro s a s' hinv hs
    obtain ⟨hopen, hs⟩ := Machine.restrict_step.mp hs
    exact ⟨hinv.1.step hs, hinv.2.step hinv.1 hopen hs⟩

/-- A step that shuts the write side down, which it does last, leaves the buffer empty. -/
theorem Followed.shuts_empty (h : s.Followed) (hopen : s.beforeDisableAll a = true)
    (hs : s.step a = some s') (hshut : s'.shutdowns ≠ s.shutdowns) :
    s'.conn.outputBuffer_ = [] := by
  cases step_outputMove h.synced hopen hs with
  | sendHere hc hsend =>
    rw [perform_eq] at hshut
    exact absurd (shutdowns_eq_self.mpr hsend.noShutdown) hshut
  | runSend hnext hsend =>
    rw [perform_eq] at hshut
    exact absurd (shutdowns_eq_self.mpr hsend.noShutdown) hshut
  | callWrite hwrite =>
    rw [perform_eq] at hshut ⊢
    exact hwrite.shutdown (not_not.mp (mt shutdowns_eq_self.mpr hshut))
  | shutHere | runShutdown =>
    rw [perform_eq] at hshut ⊢
    exact h.synced.shutdownInLoop_follows.shutdown (not_not.mp (mt shutdowns_eq_self.mpr hshut))
  | _ => exact absurd rfl hshut

end ConnState

variable {T : Type u} [DecidableEq T] {s : ConnState T}

/-- **Write interest and half-close.** In every reachable state of a connection up to its first `disableAll`,
for any number of callers and any results of `::write`: the channel is writing exactly while there is output;
a step that calls `shutdownWrite` has the buffer empty; and in `kDisconnecting` with the buffer empty,
`shutdownWrite` has been called, unless `shutdownInLoop` is still queued or a `shutdown` past its `setState`
is still to queue it. -/
theorem write_interest_follows (h : (openConnection T).Reachable s) :
    (s.conn.channel_.isWriting = true ↔ 0 < s.conn.outputBuffer_.length) ∧
    (∀ a s', (openConnection T).step s a = some s' → s'.shutdowns ≠ s.shutdowns →
      s'.conn.outputBuffer_ = []) ∧
    (s.conn.state_ = .kDisconnecting → .shutdownInLoop ∉ s.functors.toList →
      (∀ o, s.calls o ≠ .shut) → s.conn.outputBuffer_ = [] → s.shutdowns ≠ []) := by
  obtain ⟨-, hf⟩ := ConnState.followed_of_reachable h
  refine ⟨?_, ?_, ?_⟩
  · rw [hf.synced.writing]
    exact List.length_pos_iff.symm
  · intro a s' hs hshut
    obtain ⟨hopen, hs⟩ := Machine.restrict_step.mp hs
    exact hf.shuts_empty hopen hs hshut
  · intro hstate hqueued hcalls hout hnone
    rcases hf.onItsWay hstate hout hnone with hq | ⟨o, ho⟩
    · exact hqueued hq
    · exact hcalls o ho

/-- The kernel takes two of three bytes, another thread calls `shutdown`, and the functor finds the channel
writing: the `handleWrite` that writes the last byte shuts down. -/
theorem write_interest_follows_deferred : ∃ s : ConnState Unit, (openConnection Unit).Reachable s ∧
    s.conn.state_ = .kDisconnecting ∧ s.conn.channel_.isWriting = false ∧ s.shutdowns ≠ [] := by
  have hreach : (openConnection Unit).Reachable _ := ⟨.start true false,
    [.connectEstablished, .sendTest (some ()) [1, 2, 3], .sendPush (), .shutTest (some ()),
      .shutSet (some ()), .shutPush (), .beginFunctors, .runFunctor (.wrote 2), .runFunctor .failed,
      .endFunctors, .poll { pollout := true }, .handleEvent, .callWrite (.wrote 1)],
    ⟨true, false, rfl⟩, rfl⟩
  exact ⟨_, hreach, rfl, rfl, (write_interest_follows hreach).2.2 rfl (by decide)
    (fun o => by cases o <;> nofun) rfl⟩

end Netfish
