import Mathlib.Data.List.Basic

/-! # Executable labelled transition systems

A system is a partial step function `step : σ → ℓ → Option σ`; the label names the party
that moves together with everything the environment decides, so that a run is determined
by its list of labels and can be evaluated (`run`).

Conditions on a run are conditions on its steps: `ok s l` speaks of the state *before* the
step and of the label.  `Reach step ok s₀ s` says that `s` is reached from `s₀` by steps
that all meet `ok`; `Along step ok s₀ ls` says that the run `ls` meets `ok` at every step.
`Reach.invariant` is the induction rule every safety result is derived from. -/

namespace Transition

variable {σ ℓ : Type} (step : σ → ℓ → Option σ)

/-- Execute a list of labels; `none` when some label is not enabled. -/
def run : σ → List ℓ → Option σ
  | s, [] => some s
  | s, l :: ls => (step s l).bind (fun s' => run s' ls)

/-- States reached from `s₀` by steps that all meet `ok`. -/
inductive Reach (ok : σ → ℓ → Prop) (s₀ : σ) : σ → Prop
  | refl : Reach ok s₀ s₀
  | tail {s s' : σ} {l : ℓ} : Reach ok s₀ s → ok s l → step s l = some s' → Reach ok s₀ s'

/-- Every step of the run `ls` from `s` meets `ok`. -/
def Along (ok : σ → ℓ → Prop) : σ → List ℓ → Prop
  | _, [] => True
  | s, l :: ls => ok s l ∧ ∀ s', step s l = some s' → Along ok s' ls

instance decidableAlong (ok : σ → ℓ → Prop) [∀ s l, Decidable (ok s l)] :
    ∀ (s : σ) (ls : List ℓ), Decidable (Along step ok s ls)
  | _, [] => isTrue trivial
  | s, l :: ls =>
      match hs : step s l with
      | none => decidable_of_iff (ok s l) ⟨fun h => ⟨h, fun _ h' => by rw [hs] at h'; cases h'⟩, And.left⟩
      | some s' =>
          have := decidableAlong ok s' ls
          decidable_of_iff (ok s l ∧ Along step ok s' ls)
            ⟨fun h => ⟨h.1, fun s₁ h₁ => by rw [hs] at h₁; cases h₁; exact h.2⟩,
              fun h => ⟨h.1, h.2 s' hs⟩⟩

/-- The condition met by every step. -/
def always : σ → ℓ → Prop := fun _ _ => True

variable {step}

@[simp] theorem run_nil (s : σ) : run step s [] = some s := rfl

theorem run_cons (s : σ) (l : ℓ) (ls : List ℓ) :
    run step s (l :: ls) = (step s l).bind (fun s' => run step s' ls) := rfl

theorem run_cons_some {s s' : σ} {l : ℓ} {ls : List ℓ} :
    run step s (l :: ls) = some s' ↔ ∃ s₁, step s l = some s₁ ∧ run step s₁ ls = some s' := by
  rw [run_cons, Option.bind_eq_some_iff]

theorem run_append_some {s s' : σ} {ls ls' : List ℓ} :
    run step s (ls ++ ls') = some s' ↔ ∃ s₁, run step s ls = some s₁ ∧ run step s₁ ls' = some s' := by
  induction ls generalizing s with
  | nil => simp
  | cons l ls ih =>
      rw [List.cons_append, run_cons_some]
      constructor
      · rintro ⟨s₂, hs, hr⟩
        obtain ⟨s₁, hr₁, hr₂⟩ := ih.mp hr
        exact ⟨s₁, run_cons_some.mpr ⟨s₂, hs, hr₁⟩, hr₂⟩
      · rintro ⟨s₁, hr₁, hr₂⟩
        obtain ⟨s₂, hs, hr⟩ := run_cons_some.mp hr₁
        exact ⟨s₂, hs, ih.mpr ⟨s₁, hr, hr₂⟩⟩

/-- **The invariant rule**: what holds initially and survives every step meeting `ok` holds
in every state reached. -/
theorem Reach.invariant {ok : σ → ℓ → Prop} {s₀ s : σ} (I : σ → Prop) (h0 : I s₀)
    (hstep : ∀ s l s', I s → ok s l → step s l = some s' → I s')
    (h : Reach step ok s₀ s) : I s := by
  induction h with
  | refl => exact h0
  | tail _ hok hs ih => exact hstep _ _ _ ih hok hs

theorem Reach.mono {ok ok' : σ → ℓ → Prop} {s₀ s : σ} (himp : ∀ s l, ok s l → ok' s l)
    (h : Reach step ok s₀ s) : Reach step ok' s₀ s := by
  induction h with
  | refl => exact Reach.refl
  | tail _ hok hs ih => exact Reach.tail ih (himp _ _ hok) hs

theorem Reach.head {ok : σ → ℓ → Prop} {s s₁ s' : σ} {l : ℓ} (hok : ok s l)
    (hs : step s l = some s₁) (h : Reach step ok s₁ s') : Reach step ok s s' := by
  induction h with
  | refl => exact Reach.tail Reach.refl hok hs
  | tail _ hok' hs' ih => exact Reach.tail ih hok' hs'

theorem Reach.trans {ok : σ → ℓ → Prop} {s s₁ s' : σ} (h : Reach step ok s s₁) (h' : Reach step ok s₁ s') :
    Reach step ok s s' := by
  induction h' with
  | refl => exact h
  | tail _ hok hs ih => exact Reach.tail ih hok hs

theorem Reach.single {ok : σ → ℓ → Prop} {s s' : σ} {l : ℓ} (hok : ok s l) (hs : step s l = some s') :
    Reach step ok s s' :=
  Reach.tail Reach.refl hok hs

/-- A run whose steps all meet `ok` ends in a state reached by such steps. -/
theorem Along.reach {ok : σ → ℓ → Prop} {s s' : σ} {ls : List ℓ} (ha : Along step ok s ls)
    (hr : run step s ls = some s') : Reach step ok s s' := by
  induction ls generalizing s with
  | nil =>
      rw [run_nil] at hr
      cases hr
      exact Reach.refl
  | cons l ls ih =>
      obtain ⟨s₁, hs, hr'⟩ := run_cons_some.mp hr
      exact Reach.head ha.1 hs (ih (ha.2 s₁ hs) hr')

theorem along_always (s : σ) (ls : List ℓ) : Along step always s ls := by
  induction ls generalizing s with
  | nil => exact trivial
  | cons l ls ih => exact ⟨trivial, fun s' _ => ih s'⟩

/-- Every run ends in a reachable state. -/
theorem reach_of_run {s s' : σ} {ls : List ℓ} (hr : run step s ls = some s') :
    Reach step always s s' :=
  (along_always s ls).reach hr

/-- A run that does not meet `ok` throughout has a step that does not. -/
theorem exists_of_not_along {ok : σ → ℓ → Prop} {s s' : σ} {ls : List ℓ} (hr : run step s ls = some s')
    (hn : ¬ Along step ok s ls) :
    ∃ s₁ l s₂, Reach step always s s₁ ∧ ¬ ok s₁ l ∧ step s₁ l = some s₂ ∧ Reach step always s₂ s' := by
  induction ls generalizing s with
  | nil => exact absurd trivial hn
  | cons l ls ih =>
      obtain ⟨s₂, hs, hr'⟩ := run_cons_some.mp hr
      by_cases hok : ok s l
      · have hn' : ¬ Along step ok s₂ ls := by
          intro ha
          apply hn
          refine ⟨hok, fun s₃ hs₃ => ?_⟩
          rw [hs] at hs₃
          cases hs₃
          exact ha
        obtain ⟨s₁, l₁, s₃, h1, h2, h3, h4⟩ := ih hr' hn'
        exact ⟨s₁, l₁, s₃, Reach.head trivial hs h1, h2, h3, h4⟩
      · exact ⟨s, l, s₂, Reach.refl, hok, hs, reach_of_run hr'⟩

/-- When `ok` is exactly what keeps `P` - a step keeps `P` if it meets `ok` and breaks it if it
does not, both in states with the invariant `I` - then a run stays in `P` if and only if all
its steps meet `ok`. -/
theorem always_iff_along {ok : σ → ℓ → Prop} {I P : σ → Prop}
    (hI : ∀ s l s', I s → step s l = some s' → I s')
    (hkeep : ∀ s l s', I s → P s → ok s l → step s l = some s' → P s')
    (hbreak : ∀ s l s', I s → ¬ ok s l → step s l = some s' → ¬ P s')
    {s s' : σ} {ls : List ℓ} (h0 : I s) (hP : P s) (hr : run step s ls = some s') :
    (∀ ls₁ s₁, ls₁ <+: ls → run step s ls₁ = some s₁ → P s₁) ↔ Along step ok s ls := by
  induction ls generalizing s with
  | nil =>
      refine ⟨fun _ => trivial, ?_⟩
      intro _ ls₁ s₁ hp h₁
      rw [List.prefix_nil.mp hp, run_nil] at h₁
      cases h₁
      exact hP
  | cons l ls ih =>
      obtain ⟨s₂, hs, hr'⟩ := run_cons_some.mp hr
      constructor
      · intro h
        have hP₂ : P s₂ := by
          apply h [l] s₂ (List.prefix_append [l] ls)
          rw [run_cons, hs]
          rfl
        refine ⟨by_contra fun hn => hbreak s l s₂ h0 hn hs hP₂, ?_⟩
        intro s₃ hs₃
        rw [hs] at hs₃
        cases hs₃
        apply (ih (hI s l s₂ h0 hs) hP₂ hr').mp
        intro ls₁ s₁ hp h₁
        apply h (l :: ls₁) s₁ (List.prefix_cons_inj l |>.mpr hp)
        rw [run_cons, hs]
        exact h₁
      · rintro ⟨hok, ha⟩ ls₁ s₁ hp h₁
        have hP₂ := hkeep s l s₂ h0 hP hok hs
        cases ls₁ with
        | nil =>
            rw [run_nil] at h₁
            cases h₁
            exact hP
        | cons l₁ ls₁ =>
            obtain ⟨rfl, hp'⟩ := List.cons_prefix_cons.mp hp
            obtain ⟨s₃, hs₃, h₃⟩ := run_cons_some.mp h₁
            rw [hs] at hs₃
            cases hs₃
            exact (ih (hI s l₁ s₂ h0 hs) hP₂ hr').mpr (ha s₂ hs) ls₁ s₁ hp' h₃

/-- A computed state together with a fact about it that can be evaluated. -/
theorem exists_of_any {o : Option σ} (P : σ → Prop) [DecidablePred P] (h : o.any (fun s => decide (P s)) = true) :
    ∃ s, o = some s ∧ P s := by
  cases o with
  | none => cases h
  | some s => exact ⟨s, rfl, of_decide_eq_true h⟩

end Transition
