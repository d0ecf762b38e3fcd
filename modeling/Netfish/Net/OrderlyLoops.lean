import Netfish.Net.Anchored

/-!
# The loops of a server, whatever they serve

`Orderly` holds in every run: a loop handles no channel twice in a turn, and outside
`doPendingFunctors` it has no batch.
-/

set_option autoImplicit false

namespace Netfish

open Kit

universe u v

namespace ServerState

variable {T : Type u} {L : Type v} {s s' t : ServerState T L} {l : L}

/-- A loop handles no channel twice in a turn, and outside `doPendingFunctors` it has no batch. -/
structure Orderly (s : ServerState T L) : Prop where
  nodup : ∀ l, (s.pcs l).channels.Nodup
  worked : ∀ l, (s.pcs l).working = false → (s.functors l).batch = []

/-- No loop has moved, and no batch has changed. -/
structure Paused (s t : ServerState T L) : Prop where
  pcs : t.pcs = s.pcs
  batch : ∀ l, (t.functors l).batch = (s.functors l).batch

theorem Paused.refl (s : ServerState T L) : Paused s s := ⟨rfl, fun _ => rfl⟩

theorem Orderly.paused (ho : s.Orderly) (hp : Paused s t) : t.Orderly :=
  ⟨fun l => hp.pcs ▸ ho.nodup l, fun l hl => (hp.batch l).trans (ho.worked l (hp.pcs ▸ hl))⟩

variable [DecidableEq L]

theorem Paused.queueInLoop (hp : Paused s t) (l : L) (f : ServerFunctor) : Paused s (t.queueInLoop l f) :=
  ⟨hp.pcs, fun l' => (batch_queueInLoop f l').trans (hp.batch l')⟩

theorem Paused.removeConnectionInLoop (hp : Paused s t) (c : Nat) (sc : ServerConn L) :
    Paused s (t.removeConnectionInLoop c sc) := by
  have herase : ∀ fault, Paused s { t with server := (t.server.erase sc.name_).2, fault } :=
    fun _ => ⟨hp.pcs, hp.batch⟩
  unfold ServerState.removeConnectionInLoop
  dsimp only
  split
  · exact (herase t.fault).queueInLoop ..
  · exact herase _

theorem Paused.effect (hp : Paused s t) (c : Nat) (sc : ServerConn L) (e : ConnEffect) :
    Paused s (ServerState.effect c sc t e) := by
  have hcount : Paused s (t.countClose c) := ⟨hp.pcs, hp.batch⟩
  cases e with
  | queueWriteComplete => exact hp.queueInLoop ..
  | closeCallback =>
    dsimp only [ServerState.effect, ServerState.removeConnection]
    split
    · exact hcount.removeConnectionInLoop ..
    · exact hcount.queueInLoop ..
  | _ => exact hp

theorem Paused.after (hp : Paused s t) {c : Nat} {sc : ServerConn L}
    {r : Except ConnFault (TcpConnection × List ConnEffect)} {f : ServerState T L → ServerState T L}
    (hfault : (t.after c sc r f).fault = none) : ∃ u, Paused s u ∧ t.after c sc r f = f u := by
  cases r with
  | error fault => cases hfault
  | ok r =>
    obtain ⟨conn, es⟩ := r
    refine ⟨es.foldl (ServerState.effect c sc) (t.setConn c { sc with conn }), ?_, rfl⟩
    have hset : Paused s (t.setConn c { sc with conn }) := ⟨hp.pcs, hp.batch⟩
    clear hfault
    generalize t.setConn c { sc with conn } = u at hset
    induction es generalizing u with
    | nil => exact hset
    | cons e es ih => exact ih (ServerState.effect c sc u e) (hset.effect c sc e)

/-- A loop moves on. -/
theorem Orderly.setPc (ho : s.Orderly) {pc : IoLoopPc} (hnodup : pc.channels.Nodup)
    (hworked : pc.working = false → (s.functors l).batch = []) : (s.setPc l pc).Orderly where
  nodup l' := by
    by_cases hl : l' = l
    · subst hl
      simpa only [ServerState.setPc, Function.update_self] using hnodup
    · simpa only [ServerState.setPc, Function.update_of_ne hl] using ho.nodup l'
  worked l' hl' := by
    by_cases hl : l' = l
    · subst hl
      simp only [ServerState.setPc, Function.update_self] at hl'
      exact hworked hl'
    · simp only [ServerState.setPc, Function.update_of_ne hl] at hl'
      exact ho.worked l' hl'

/-- The queue of a loop that is working a batch off. -/
theorem Orderly.setFunctors (ho : s.Orderly) (hpc : (s.pcs l).working = true)
    (q : BatchQueue ServerFunctor) : (s.setFunctors l q).Orderly where
  nodup := ho.nodup
  worked l' hl' := by
    have hl : l' ≠ l := by
      rintro rfl
      cases hpc.symm.trans hl'
    simpa only [ServerState.setFunctors, Function.update_of_ne hl] using ho.worked l' hl'

/-- A method of a connection, and the loop moves on. -/
theorem Orderly.after (ho : s.Orderly) {c : Nat} {sc : ServerConn L}
    {r : Except ConnFault (TcpConnection × List ConnEffect)} {pc : IoLoopPc} (hnodup : pc.channels.Nodup)
    (hworked : pc.working = false → (s.functors l).batch = [])
    (hfault : (s.after c sc r (·.setPc l pc)).fault = none) : (s.after c sc r (·.setPc l pc)).Orderly := by
  obtain ⟨u, hu, heq⟩ := (Paused.refl s).after hfault
  rw [heq]
  exact (ho.paused hu).setPc hnodup fun hw => (hu.batch l).trans (hworked hw)

/-- A callback of a channel. -/
theorem Orderly.callback (ho : s.Orderly) {c : Nat} {sc : ServerConn L} {revents : Events}
    {todo todo' : List ChannelCallback} {inMessage inMessage' : Bool} {active : List (Nat × Events)}
    (hpc : s.pcs l = .event c revents todo inMessage active)
    {r : Except ConnFault (TcpConnection × List ConnEffect)}
    (hfault : (s.after c sc r (·.setPc l (.event c revents todo' inMessage' active))).fault = none) :
    (s.after c sc r (·.setPc l (.event c revents todo' inMessage' active))).Orderly := by
  have hnodup := ho.nodup l
  have hworked := ho.worked l
  rw [hpc] at hnodup hworked
  exact ho.after hnodup hworked hfault

/-- A method of a connection in `doPendingFunctors`. -/
theorem Orderly.functor (ho : s.Orderly) {c : Nat} {sc : ServerConn L} (hpc : s.pcs l = .batch)
    (rest : BatchQueue ServerFunctor) {r : Except ConnFault (TcpConnection × List ConnEffect)}
    (hfault : ((s.setFunctors l rest).after c sc r id).fault = none) :
    ((s.setFunctors l rest).after c sc r id).Orderly := by
  obtain ⟨u, hu, heq⟩ := (Paused.refl (s.setFunctors l rest)).after hfault
  rw [heq]
  exact (ho.setFunctors (by rw [hpc]; rfl) rest).paused hu

theorem LoopMoves.orderly {a : IoLoopStep} (hmove : s.LoopMoves l a s') (ho : s.Orderly)
    (hfault : s'.fault = none) : s'.Orderly := by
  have hnodup := ho.nodup l
  have hworked := ho.worked l
  cases hmove with
  | poll hpc hactive hrep =>
    rw [hpc] at hworked
    exact ho.setPc hactive hworked
  | handleEvent hpc =>
    rw [hpc] at hnodup hworked
    exact ho.setPc hnodup hworked
  | callClose hpc | callError hpc | callRead hpc | callWrite hpc => exact ho.callback hpc hfault
  | eventDone hpc =>
    rw [hpc] at hnodup hworked
    exact ho.setPc (List.nodup_cons.mp hnodup).2 hworked
  | beginFunctors hpc =>
    have hset : (s.setPc l .batch).Orderly := ho.setPc List.nodup_nil nofun
    exact hset.setFunctors (by simp [ServerState.setPc, IoLoopPc.working]) _
  | establish hpc | send hpc | shutdown hpc => exact ho.functor hpc _ hfault
  | writeComplete hpc => exact ho.setFunctors (by rw [hpc]; rfl) _
  | remove hpc => exact (ho.setFunctors (by rw [hpc]; rfl) _).paused ((Paused.refl _).removeConnectionInLoop ..)
  | @destroy w c rest sc hpc =>
    have hset := ho.setFunctors (l := l) (by rw [hpc]; rfl) rest
    have hcount : ((s.setFunctors l rest).countDestroy c).Orderly := ⟨hset.nodup, hset.worked⟩
    exact hcount.after List.nodup_nil (fun hw => by cases hw) hfault
  | endDestroyed hpc => exact ho.after List.nodup_nil nofun hfault
  | endFunctors hpc hbatch => exact ho.setPc List.nodup_nil fun _ => hbatch

theorem Moves.orderly [DecidableEq T] {a : ServerAct T L} (hmove : s.Moves a s') (ho : s.Orderly)
    (hfault : s'.fault = none) : s'.Orderly := by
  have hafter : ∀ {o c sc r}, (s.after c sc r (·.setCall o .idle)).fault = none →
      (s.after c sc r (·.setCall o .idle)).Orderly := by
    intro o c sc r hfault
    obtain ⟨u, hu, heq⟩ := (Paused.refl s).after hfault
    rw [heq]
    exact ho.paused ⟨hu.pcs, hu.batch⟩
  cases hmove with
  | newConnection =>
    unfold ServerState.newConnection at hfault ⊢
    dsimp only at hfault ⊢
    have hset : Paused s ((({ s with server := s.server.newConnection.2 } : ServerState T L)).setConn
        s.server.nextConnId_ s.server.newConnection.1) := ⟨rfl, fun _ => rfl⟩
    split
    · next hl =>
      rw [if_pos hl] at hfault
      obtain ⟨u, hu, heq⟩ := hset.after hfault
      rw [heq]
      exact ho.paused hu
    · exact ho.paused (hset.queueInLoop ..)
  | sendNot | shutNot => exact ho
  | sendTest | shutTest | shutSet => exact ⟨ho.nodup, ho.worked⟩
  | sendHere | shutHere => exact hafter hfault
  | @sendPush _ _ c message sc =>
    have hpush := ho.paused ((Paused.refl s).queueInLoop sc.loop_ (.sendInLoop c message))
    exact ⟨hpush.nodup, hpush.worked⟩
  | @shutPush _ c sc =>
    have hpush := ho.paused ((Paused.refl s).queueInLoop sc.loop_ (.shutdownInLoop c))
    exact ⟨hpush.nodup, hpush.worked⟩
  | loop _ hmove => exact hmove.orderly ho hfault

end ServerState

end Netfish
