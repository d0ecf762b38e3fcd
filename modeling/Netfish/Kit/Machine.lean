import Mathlib.Data.List.Basic

/-!
# Machines, runs and invariants

A `Machine` is a start condition and a partial step on labels. A label settles every choice of a
step (which thread moves, what the kernel answered), so a run is a list of labels and a schedule of
any number of parties is one more list.

The rules: `Reachable.invariant` (what holds at the start and is kept by a step holds of every
reachable state), `Machine.run_invariant` (the same from any state, and
under a condition on the labels), `Machine.run_simulates` (a
functional forward simulation carries over to runs), and `Machine.along_iff_guarded`, the rule for a
property a step breaks under an exact condition: it holds all along a run if and only if no step of
the run meets that condition. `Machine.run_isSome_iff` is for a machine that does what another one does
but refuses more steps: its runs are those of the other in which every step meets a condition.
-/

set_option autoImplicit false

namespace Netfish.Kit

universe u v w

/-- A labelled transition system with a partial step. -/
structure Machine (σ : Type u) (α : Type v) where
  init : σ → Prop
  step : σ → α → Option σ

namespace Machine

variable {σ : Type u} {α : Type v} (M : Machine σ α)

/-- A whole run: every label of the list in turn; `none` when one of them is not enabled. -/
def run (s : σ) : List α → Option σ
  | [] => some s
  | a :: as => (M.step s a).bind fun s' => run s' as

/-- A state some run reaches from a start state. -/
def Reachable (s : σ) : Prop :=
  ∃ s₀ as, M.init s₀ ∧ M.run s₀ as = some s

/-- The property holds of every state the run visits, the first one included. -/
def Along (good : σ → Prop) (s : σ) : List α → Prop
  | [] => good s
  | a :: as => good s ∧ ∀ s', M.step s a = some s' → Along good s' as

/-- Every step the run takes meets the condition on its label and the state before it. -/
def Guarded (ok : σ → α → Prop) (s : σ) : List α → Prop
  | [] => True
  | a :: as => ∀ s', M.step s a = some s' → ok s a ∧ Guarded ok s' as

/-- Every step the run comes to, taken or not, meets the condition on its label and the state before it. -/
def Meets (ok : σ → α → Prop) (s : σ) : List α → Prop
  | [] => True
  | a :: as => ok s a ∧ ∀ s', M.step s a = some s' → Meets ok s' as

/-- The machine with only the steps a test lets through. -/
def restrict (p : σ → α → Bool) : Machine σ α where
  init := M.init
  step s a := if p s a then M.step s a else none

/-- The machine with a history beside its state; a step that the history refuses is not taken. -/
def observe {τ : Type w} (t₀ : τ) (see : τ → σ → α → σ → Option τ) : Machine (σ × τ) α where
  init p := M.init p.1 ∧ p.2 = t₀
  step p a := (M.step p.1 a).bind fun s' => (see p.2 p.1 a s').map (s', ·)

variable {M}

theorem observe_step {τ : Type w} {t₀ : τ} {see : τ → σ → α → σ → Option τ} {p p' : σ × τ} {a : α} :
    (M.observe t₀ see).step p a = some p' ↔
      M.step p.1 a = some p'.1 ∧ see p.2 p.1 a p'.1 = some p'.2 := by
  obtain ⟨s', t'⟩ := p'
  simp only [observe, Option.bind_eq_some_iff, Option.map_eq_some_iff, Prod.mk.injEq]
  constructor
  · rintro ⟨u, hu, t, ht, rfl, rfl⟩
    exact ⟨hu, ht⟩
  · rintro ⟨hs, ht⟩
    exact ⟨s', hs, t', ht, rfl, rfl⟩

theorem restrict_step {p : σ → α → Bool} {s s' : σ} {a : α} :
    (M.restrict p).step s a = some s' ↔ p s a = true ∧ M.step s a = some s' := by
  simp [restrict]

@[simp] theorem run_nil (s : σ) : M.run s [] = some s := rfl

theorem run_cons_eq_some {s s' : σ} {a : α} {as : List α} :
    M.run s (a :: as) = some s' ↔ ∃ t, M.step s a = some t ∧ M.run t as = some s' :=
  Option.bind_eq_some_iff

theorem run_singleton (s : σ) (a : α) : M.run s [a] = M.step s a :=
  Option.bind_fun_some _

/-- A run splits anywhere. -/
theorem run_append {s s' : σ} {as bs : List α} :
    M.run s (as ++ bs) = some s' ↔ ∃ t, M.run s as = some t ∧ M.run t bs = some s' := by
  induction as generalizing s with
  | nil => simp
  | cons a as ih =>
    simp only [List.cons_append, run_cons_eq_some, ih]
    constructor
    · rintro ⟨t, ht, u, hu, hb⟩
      exact ⟨u, ⟨t, ht, hu⟩, hb⟩
    · rintro ⟨u, ⟨t, ht, hu⟩, hb⟩
      exact ⟨t, ht, u, hu, hb⟩

theorem Reachable.start {s : σ} (h : M.init s) : M.Reachable s :=
  ⟨s, [], h, rfl⟩

/-- What a run reaches from a reachable state is reachable. -/
theorem Reachable.run {s s' : σ} {as : List α} (h : M.Reachable s) (hr : M.run s as = some s') :
    M.Reachable s' := by
  obtain ⟨s₀, bs, h₀, hb⟩ := h
  exact ⟨s₀, bs ++ as, h₀, run_append.mpr ⟨s, hb, hr⟩⟩

/-- The run rule for the runs whose labels pass a test. -/
theorem run_invariant_of_labels (inv : σ → Prop) {p : α → Prop}
    (keep : ∀ s a s', inv s → p a → M.step s a = some s' → inv s') {s s' : σ} {as : List α}
    (h : inv s) (ha : ∀ a ∈ as, p a) (hr : M.run s as = some s') : inv s' := by
  induction as generalizing s with
  | nil => cases hr; exact h
  | cons a as ih =>
    obtain ⟨t, ht, hr⟩ := run_cons_eq_some.mp hr
    obtain ⟨hp, ha⟩ := List.forall_mem_cons.mp ha
    exact ih (keep s a t h hp ht) ha hr

/-- The run rule: a property every step keeps is kept by every run. -/
theorem run_invariant (inv : σ → Prop)
    (keep : ∀ s a s', inv s → M.step s a = some s' → inv s') {s s' : σ} {as : List α}
    (h : inv s) (hr : M.run s as = some s') : inv s' :=
  run_invariant_of_labels inv (p := fun _ => True) (fun s a s' h _ => keep s a s' h) h
    (fun _ _ => trivial) hr

/-- The invariant rule. -/
theorem Reachable.invariant {s : σ} (h : M.Reachable s) (inv : σ → Prop)
    (start : ∀ s, M.init s → inv s)
    (keep : ∀ s a s', inv s → M.step s a = some s' → inv s') : inv s := by
  obtain ⟨s₀, as, h₀, hr⟩ := h
  exact run_invariant inv keep (start s₀ h₀) hr

/-- A functional simulation: when every step of `M` from an invariant state is the step of `N` on
the abstraction, so is every run. -/
theorem run_simulates {τ : Type w} {N : Machine τ α} (inv : σ → Prop) (abs : σ → τ)
    (sim : ∀ s a s', inv s → M.step s a = some s' → inv s' ∧ N.step (abs s) a = some (abs s'))
    {s s' : σ} {as : List α} (h : inv s) (hr : M.run s as = some s') :
    inv s' ∧ N.run (abs s) as = some (abs s') := by
  induction as generalizing s with
  | nil => cases hr; exact ⟨h, rfl⟩
  | cons a as ih =>
    obtain ⟨t, ht, hr⟩ := run_cons_eq_some.mp hr
    obtain ⟨hi, hs⟩ := sim s a t h ht
    obtain ⟨hj, hn⟩ := ih hi hr
    exact ⟨hj, run_cons_eq_some.mpr ⟨abs t, hs, hn⟩⟩

/-- A simulation whose steps are refused exactly outside a condition. -/
theorem run_isSome_iff {τ : Type w} {N : Machine τ α} (inv : σ → Prop) (abs : σ → τ)
    (ok : σ → α → Prop)
    (sim : ∀ s a s', inv s → M.step s a = some s' → inv s' ∧ N.step (abs s) a = some (abs s'))
    (fits : ∀ s a, inv s → ((M.step s a).isSome ↔ (N.step (abs s) a).isSome ∧ ok s a)) {s : σ}
    {as : List α} (h : inv s) :
    (M.run s as).isSome ↔ (N.run (abs s) as).isSome ∧ M.Meets ok s as := by
  induction as generalizing s with
  | nil => exact ⟨fun _ => ⟨rfl, trivial⟩, fun _ => rfl⟩
  | cons a as ih =>
    have hfits := fits s a h
    cases hs : M.step s a with
    | none =>
      rw [hs] at hfits
      simp only [run, Meets, hs, Option.bind_none, Option.isSome_none, Bool.false_eq_true, false_iff]
      rintro ⟨hn, hok, -⟩
      obtain ⟨t, ht⟩ := Option.isSome_iff_exists.mp hn
      obtain ⟨u, hu, -⟩ := Option.bind_eq_some_iff.mp ht
      exact absurd (hfits.mpr ⟨hu ▸ rfl, hok⟩) (by simp)
    | some s' =>
      rw [hs] at hfits
      obtain ⟨hinv, hn⟩ := sim s a s' h hs
      have hok := (hfits.mp rfl).2
      simp only [run, Meets, hs, hn, Option.bind_some, ih hinv, hok, Option.some.injEq, forall_eq',
        true_and]

theorem Along.head {good : σ → Prop} {s : σ} {as : List α} (h : M.Along good s as) : good s := by
  cases as with
  | nil => exact h
  | cons a as => exact h.1

/-- A property that holds along a run holds where the run ends. -/
theorem Along.last {good : σ → Prop} {s s' : σ} {as : List α} (h : M.Along good s as)
    (hr : M.run s as = some s') : good s' := by
  induction as generalizing s with
  | nil => cases hr; exact h
  | cons a as ih =>
    obtain ⟨t, ht, hr⟩ := run_cons_eq_some.mp hr
    exact ih (h.2 t ht) hr

theorem Guarded.append {ok : σ → α → Prop} {s : σ} {as bs : List α} (h : M.Guarded ok s as)
    (hrest : ∀ t, M.run s as = some t → M.Guarded ok t bs) : M.Guarded ok s (as ++ bs) := by
  induction as generalizing s with
  | nil => exact hrest s rfl
  | cons a as ih =>
    intro s' hs
    obtain ⟨hok, hg⟩ := h s' hs
    exact ⟨hok, ih hg fun t ht => hrest t (run_cons_eq_some.mpr ⟨s', hs, ht⟩)⟩

/-- A condition that the labels of a run meet in every state. -/
theorem Guarded.of_labels {ok : σ → α → Prop} {as : List α} (h : ∀ a ∈ as, ∀ s, ok s a) (s : σ) :
    M.Guarded ok s as := by
  induction as generalizing s with
  | nil => trivial
  | cons a as ih =>
    exact fun s' _ => ⟨h a List.mem_cons_self s,
      ih (fun b hb => h b (List.mem_cons_of_mem a hb)) s'⟩

/-- The run rule under a condition on the steps. -/
theorem Guarded.along (inv : σ → Prop) {good : σ → Prop} {ok : σ → α → Prop}
    (sound : ∀ s, inv s → good s)
    (keep : ∀ s a s', inv s → ok s a → M.step s a = some s' → inv s') {s : σ} {as : List α}
    (h : inv s) (hg : M.Guarded ok s as) : M.Along good s as := by
  induction as generalizing s with
  | nil => exact sound s h
  | cons a as ih =>
    refine ⟨sound s h, ?_⟩
    intro s' hs
    obtain ⟨hok, hrest⟩ := hg s' hs
    exact ih (keep s a s' h hok hs) hrest

/-- The exact-condition rule, for the runs whose steps are allowed. An invariant that every such step
meeting `ok` keeps and that gives `good`, together with a step outside `ok` always landing outside
`good`, makes `ok` exactly the condition under which a run stays good. -/
theorem along_iff_guarded_of_allowed (inv : σ → Prop) {good : σ → Prop} {ok allowed : σ → α → Prop}
    (sound : ∀ s, inv s → good s)
    (keep : ∀ s a s', inv s → allowed s a → ok s a → M.step s a = some s' → inv s')
    (breaks : ∀ s a s', inv s → allowed s a → ¬ ok s a → M.step s a = some s' → ¬ good s') {s : σ}
    {as : List α} (h : inv s) (ha : M.Guarded allowed s as) :
    M.Along good s as ↔ M.Guarded ok s as := by
  induction as generalizing s with
  | nil => exact ⟨fun _ => trivial, fun _ => sound s h⟩
  | cons a as ih =>
    constructor
    · intro hg s' hs
      have hallowed := (ha s' hs).1
      have hok : ok s a := by
        by_contra hno
        exact breaks s a s' h hallowed hno hs (hg.2 s' hs).head
      exact ⟨hok, (ih (keep s a s' h hallowed hok hs) (ha s' hs).2).mp (hg.2 s' hs)⟩
    · intro hg
      refine ⟨sound s h, ?_⟩
      intro s' hs
      obtain ⟨hok, hrest⟩ := hg s' hs
      exact (ih (keep s a s' h (ha s' hs).1 hok hs) (ha s' hs).2).mpr hrest

/-- The exact-condition rule. -/
theorem along_iff_guarded (inv : σ → Prop) {good : σ → Prop} {ok : σ → α → Prop}
    (sound : ∀ s, inv s → good s)
    (keep : ∀ s a s', inv s → ok s a → M.step s a = some s' → inv s')
    (breaks : ∀ s a s', inv s → ¬ ok s a → M.step s a = some s' → ¬ good s') {s : σ} {as : List α}
    (h : inv s) : M.Along good s as ↔ M.Guarded ok s as :=
  along_iff_guarded_of_allowed inv sound (fun s a s' h _ => keep s a s' h)
    (fun s a s' h _ => breaks s a s' h) h (Guarded.of_labels (fun _ _ _ => trivial) s)

end Machine

end Netfish.Kit
