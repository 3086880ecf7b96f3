import TcpServer.Transition
import Mathlib.Algebra.Order.BigOperators.Group.Finset
import Mathlib.Algebra.Order.Ring.Nat

/-! # Runs that come to an end

A *potential* is a number that every step of a kind brings down, except for what the step is
charged for by `cost`.  A run of such steps is no longer than the potential it starts with and the
charges of its labels together (`length_le_of_potential`); when moreover some step that costs nothing
is enabled wherever the work is not done, it can be done from every state (`exists_run_to`). -/

namespace Transition

variable {σ ℓ : Type} {step : σ → ℓ → Option σ} {ok : ℓ → Prop} {I : σ → Prop} {μ : σ → ℕ} {cost : ℓ → ℕ}

/-- **The potential rule.** -/
theorem length_le_of_potential (hI : ∀ s l s', I s → ok l → step s l = some s' → I s')
    (hstep : ∀ s l s', I s → ok l → step s l = some s' → μ s' + 1 ≤ μ s + cost l) {s s' : σ} {ls : List ℓ}
    (hs : I s) (hok : ∀ l ∈ ls, ok l) (hr : run step s ls = some s') :
    μ s' + ls.length ≤ μ s + (ls.map cost).sum := by
  induction ls generalizing s with
  | nil =>
      rw [run_nil] at hr
      cases hr
      exact Nat.le_refl _
  | cons l ls ih =>
      obtain ⟨s₁, h₁, hr'⟩ := run_cons_some.mp hr
      have hl := hok l List.mem_cons_self
      have hone := hstep s l s₁ hs hl h₁
      have hrest := ih (hI s l s₁ hs hl h₁) (fun k hk => hok k (List.mem_cons_of_mem l hk)) hr'
      rw [List.length_cons, List.map_cons, List.sum_cons]
      omega

/-- What can always go on without being charged for it gets done. -/
theorem exists_run_to {P : σ → Prop} (hI : ∀ s l s', I s → ok l → step s l = some s' → I s')
    (hstep : ∀ s l s', I s → ok l → step s l = some s' → μ s' + 1 ≤ μ s + cost l)
    (hgo : ∀ s, I s → ¬ P s → ∃ l s', ok l ∧ cost l = 0 ∧ step s l = some s') {s : σ} (hs : I s) :
    ∃ ls s', (∀ l ∈ ls, ok l ∧ cost l = 0) ∧ run step s ls = some s' ∧ ls.length ≤ μ s ∧ P s' ∧ I s' := by
  induction hm : μ s using Nat.strong_induction_on generalizing s with
  | _ k ih =>
      by_cases hP : P s
      · exact ⟨[], s, by simp, rfl, Nat.zero_le _, hP, hs⟩
      · obtain ⟨l, s₁, hl, hcost, h₁⟩ := hgo s hs hP
        have hdrop := hstep s l s₁ hs hl h₁
        obtain ⟨ls, s', hok, hr, hlen, hdone⟩ := ih (μ s₁) (by omega) (hI s l s₁ hs hl h₁) rfl
        refine ⟨l :: ls, s', ?_, run_cons_some.mpr ⟨s₁, h₁, hr⟩, ?_, hdone⟩
        · intro k hk
          rcases List.mem_cons.mp hk with rfl | hk
          · exact ⟨hl, hcost⟩
          · exact hok k hk
        · rw [List.length_cons]
          omega

/-- One of several parties moves. -/
theorem sum_exchange {n i : ℕ} {f g : ℕ → ℕ} (hi : i < n) (hne : ∀ j, j ≠ i → g j = f j) :
    ∑ j ∈ Finset.range n, g j + f i = ∑ j ∈ Finset.range n, f j + g i := by
  have hmem : i ∈ Finset.range n := Finset.mem_range.mpr hi
  have hrest : ∑ j ∈ (Finset.range n).erase i, g j = ∑ j ∈ (Finset.range n).erase i, f j :=
    Finset.sum_congr rfl fun j hj => hne j (Finset.ne_of_mem_erase hj)
  rw [← Finset.add_sum_erase _ f hmem, ← Finset.add_sum_erase _ g hmem, hrest]
  omega

/-- One of several parties does some of its work. -/
theorem sum_step_le {n i c : ℕ} {f g : ℕ → ℕ} (hi : i < n) (hne : ∀ j, j ≠ i → g j = f j)
    (hdrop : g i + 1 ≤ f i + c) :
    ∑ j ∈ Finset.range n, g j + 1 ≤ ∑ j ∈ Finset.range n, f j + c := by
  have hsum := sum_exchange hi hne
  omega

end Transition
