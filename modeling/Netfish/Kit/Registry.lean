import Mathlib.Logic.Function.Basic

/-!
# Registries by key

Objects enter themselves in one of several tables, each under its own key. An entry stays when its object
goes, unless the object has left the table before. `Registered` is the agreement of the tables with the
objects there are. Its rules: an object that is not in a table finds its key free and may enter, one
that is may leave (`Registered.note`), and those that are not may go (`Registered.gone`).
-/

set_option autoImplicit false

namespace Netfish.Kit

universe u v w

/-- Where an object is, or would be, in the tables. -/
structure Place (L : Type u) (K : Type v) where
  table : L
  key : K
  /-- The key is its own: no other object owns it. -/
  owned : Bool
  entered : Bool

variable {L : Type u} {K : Type v} {O : Type w}

/-- Every entry is that of an object which is there. -/
structure Registered (entry : L → K → Option O) (place : O → Option (Place L K)) : Prop where
  live : ∀ {l k o}, entry l k = some o →
    ∃ p, place o = some p ∧ p.table = l ∧ p.key = k ∧ p.entered = true
  entered : ∀ {o p}, place o = some p → p.entered = true → entry p.table p.key = some o
  owned : ∀ {o p}, place o = some p → p.entered = true → p.owned = true
  alone : ∀ {o o' p q}, place o = some p → place o' = some q → p.owned = true → q.owned = true →
    p.key = q.key → o = o'

/-- Nobody else owns the key. -/
def KeyFree (place : O → Option (Place L K)) (o : O) (k : K) : Prop :=
  ∀ o' p, o' ≠ o → place o' = some p → p.owned = true → p.key ≠ k

section

variable {entry : L → K → Option O} {place place' : O → Option (Place L K)} {o : O} {p q : Place L K}

theorem registered_empty : Registered (fun _ _ => none : L → K → Option O) (fun _ => none) where
  live h := by cases h
  entered h := by cases h
  owned h := by cases h
  alone h := by cases h

theorem Registered.keyFree (h : Registered entry place) (hp : place o = some p)
    (howned : p.owned = true) : KeyFree place o p.key :=
  fun _ _ hne hp' howned' hkey => hne (h.alone hp' hp howned' howned hkey)

/-- An object outside the tables finds its key free. -/
theorem Registered.free (h : Registered entry place) {k : K} (hkey : KeyFree place o k)
    (hout : ∀ p, place o = some p → p.entered = false) (l : L) : entry l k = none := by
  cases hentry : entry l k with
  | none => rfl
  | some o' =>
    obtain ⟨q, hq, -, hk, hin⟩ := h.live hentry
    by_cases hne : o' = o
    · subst hne
      cases (hout q hq).symm.trans hin
    · exact absurd hk (hkey o' q hne hq (h.owned hq hin))

/-- Objects outside the tables may go. -/
theorem Registered.gone (h : Registered entry place)
    (hgone : ∀ o, place' o = place o ∨ (place' o = none ∧ ∀ p, place o = some p → p.entered = false)) :
    Registered entry place' := by
  have hold : ∀ {o p}, place' o = some p → place o = some p := by
    intro o p hp
    rcases hgone o with hsame | ⟨hnone, -⟩
    · rwa [← hsame]
    · cases hnone.symm.trans hp
  refine ⟨?_, fun hp => h.entered (hold hp), fun hp => h.owned (hold hp),
    fun hp hq => h.alone (hold hp) (hold hq)⟩
  intro l k o he
  obtain ⟨p, hp, hl, hk, hin⟩ := h.live he
  rcases hgone o with hsame | ⟨-, hout⟩
  · exact ⟨p, hsame.trans hp, hl, hk, hin⟩
  · cases (hout p hp).symm.trans hin

end

variable [DecidableEq L] [DecidableEq K]

/-- The tables with another entry in one place. -/
def setEntry (entry : L → K → Option O) (l : L) (k : K) (e : Option O) : L → K → Option O :=
  Function.update entry l (Function.update (entry l) k e)

variable {entry : L → K → Option O} {place : O → Option (Place L K)} {o : O} {p q : Place L K}

@[simp] theorem setEntry_self (l : L) (k : K) (e : Option O) : setEntry entry l k e l k = e := by
  simp [setEntry]

theorem setEntry_of_ne {l l' : L} {k k' : K} (h : ¬ (l' = l ∧ k' = k)) (e : Option O) :
    setEntry entry l k e l' k' = entry l' k' := by
  by_cases hl : l' = l
  · subst hl
    have hk : k' ≠ k := fun hk => h ⟨rfl, hk⟩
    simp [setEntry, hk]
  · simp [setEntry, hl]

/-- The tables after the object has entered or left there, or has done neither. -/
def noteEntry (entry : L → K → Option O) (o : O) (l : L) (k : K) (was now : Bool) :
    L → K → Option O :=
  if was = now then entry else setEntry entry l k (if now then some o else none)

variable [DecidableEq O]

/-- What an object does about its place keeps the agreement, and finds a free place, as long as it enters
under a key of its own and moves only outside the tables. -/
theorem Registered.note (h : Registered entry place) {was : Bool}
    (hwas : was = (place o).any Place.entered)
    (hstay : ∀ p, place o = some p → p.entered = true → q.table = p.table ∧ q.key = p.key)
    (howned : q.entered = true → q.owned = true) (hkey : q.owned = true → KeyFree place o q.key) :
    Registered (noteEntry entry o q.table q.key was q.entered) (Function.update place o (some q)) ∧
      (was = false → q.entered = true → entry q.table q.key = none) := by
  have hin : was = true → entry q.table q.key = some o := by
    intro ht
    obtain ⟨p, hp, hpin⟩ := (Option.any_eq_true _ _).mp (hwas.symm.trans ht)
    obtain ⟨htable, hpkey⟩ := hstay p hp hpin
    rw [htable, hpkey]
    exact h.entered hp hpin
  have hout : ∀ {l k}, entry l k = some o → was = true ∧ l = q.table ∧ k = q.key := by
    intro l k he
    obtain ⟨p, hp, rfl, rfl, hpin⟩ := h.live he
    obtain ⟨htable, hpkey⟩ := hstay p hp hpin
    exact ⟨by rw [hwas, hp]; exact hpin, htable.symm, hpkey.symm⟩
  have hfree : was = false → q.entered = true → entry q.table q.key = none := by
    intro hf hq
    refine h.free (hkey (howned hq)) ?_ q.table
    intro p hp
    rw [hf, hp] at hwas
    exact hwas.symm
  have hother : ∀ {o' p}, o' ≠ o → Function.update place o (some q) o' = some p →
      place o' = some p := by
    intro o' p hne hp
    rwa [Function.update_of_ne hne] at hp
  refine ⟨⟨?_, ?_, ?_, ?_⟩, hfree⟩
  · intro l k o' he
    by_cases hne : o' = o
    · subst hne
      unfold noteEntry at he
      split at he
      · next hsame =>
        obtain ⟨ht, rfl, rfl⟩ := hout he
        exact ⟨q, Function.update_self .., rfl, rfl, hsame.symm.trans ht⟩
      · by_cases hat : l = q.table ∧ k = q.key
        · obtain ⟨rfl, rfl⟩ := hat
          rw [setEntry_self] at he
          split at he
          · next hq => exact ⟨q, Function.update_self .., rfl, rfl, hq⟩
          · cases he
        · rw [setEntry_of_ne hat] at he
          exact absurd (hout he).2 hat
    · have hold : entry l k = some o' := by
        unfold noteEntry at he
        split at he
        · exact he
        · by_cases hat : l = q.table ∧ k = q.key
          · obtain ⟨rfl, rfl⟩ := hat
            rw [setEntry_self] at he
            split at he
            · exact absurd (Option.some.inj he).symm hne
            · cases he
          · rwa [setEntry_of_ne hat] at he
      obtain ⟨p, hp, hl, hk, hpin⟩ := h.live hold
      exact ⟨p, by rwa [Function.update_of_ne hne], hl, hk, hpin⟩
  · intro o' p hp hpin
    by_cases hne : o' = o
    · subst hne
      rw [Function.update_self] at hp
      cases hp
      unfold noteEntry
      split
      · next hsame => exact hin (hsame.trans hpin)
      · exact setEntry_self ..
    · have hold := h.entered (hother hne hp) hpin
      unfold noteEntry
      split
      · exact hold
      · next hdiff =>
        rw [setEntry_of_ne, hold]
        rintro ⟨htable, hpkey⟩
        rw [htable, hpkey] at hold
        cases hw : was with
        | true => exact hne (Option.some.inj (hold.symm.trans (hin hw)))
        | false =>
          have hq : q.entered = true := by simpa [hw] using hdiff
          cases hold.symm.trans (hfree hw hq)
  · intro o' p hp hpin
    by_cases hne : o' = o
    · subst hne
      rw [Function.update_self] at hp
      cases hp
      exact howned hpin
    · exact h.owned (hother hne hp) hpin
  · intro a b x y hx hy hxo hyo hxy
    by_cases ha : a = o <;> by_cases hb : b = o
    · rw [ha, hb]
    · subst ha
      rw [Function.update_self] at hx
      cases hx
      exact absurd hxy.symm (hkey hxo b y hb (hother hb hy) hyo)
    · subst hb
      rw [Function.update_self] at hy
      cases hy
      exact absurd hxy (hkey hyo a x ha (hother ha hx) hxo)
    · exact h.alone (hother ha hx) (hother hb hy) hxo hyo hxy

/-- An object outside the tables is replaced by one that is, too. -/
theorem Registered.put (h : Registered entry place) (hout : ∀ p, place o = some p → p.entered = false)
    (hq : q.entered = false) (hkey : q.owned = true → KeyFree place o q.key) :
    Registered entry (Function.update place o (some q)) := by
  have hwas : false = (place o).any Place.entered := by
    cases hp : place o with
    | none => rfl
    | some p => exact (hout p hp).symm
  have hstay : ∀ p, place o = some p → p.entered = true → q.table = p.table ∧ q.key = p.key := by
    intro p hp hin
    cases (hout p hp).symm.trans hin
  have hnote := (h.note hwas hstay (fun hin => by cases hq.symm.trans hin) hkey).1
  rwa [hq, noteEntry, if_pos rfl] at hnote

end Netfish.Kit
