import TcpServer.Transition
import Mathlib.Data.Set.Lattice
import Mathlib.Order.CompletePartialOrder
import Mathlib.Data.List.Perm.Basic

/-! # Actions with a footprint

A state is looked at through *places*: `same q s t` says that `s` and `t` agree at the place
`q`.  An action `k` has a footprint, the set `foot k` of places it may change, and what it does
there depends on its footprint only (`Local`).  Nothing is asked of what no place shows.

`Local.run_perm`: a list of actions with pairwise disjoint footprints can be run in any order;
every order succeeds when one does, and all of them end alike at every place. -/

namespace Transition

variable {σ ℓ π : Type} {step : σ → ℓ → Option σ} {same : π → σ → σ → Prop} {foot : ℓ → Set π}
  {ok : ℓ → σ → Prop}

/-- The actions are local: started where `ok` holds they change nothing outside their footprint,
and two states that agree on it lead to states that agree on it. -/
structure Local (step : σ → ℓ → Option σ) (same : π → σ → σ → Prop) (foot : ℓ → Set π) (ok : ℓ → σ → Prop) :
    Prop where
  equivalence : ∀ q, Equivalence (same q)
  frame : ∀ {k s t q}, ok k s → step s k = some t → q ∉ foot k → same q s t
  depends : ∀ {k s s' t}, ok k s → ok k s' → (∀ q ∈ foot k, same q s s') → step s k = some t →
    ∃ t', step s' k = some t' ∧ ∀ q ∈ foot k, same q t t'
  keeps : ∀ {j k s t}, Disjoint (foot k) (foot j) → ok j s → ok k s → step s k = some t → ok j t

namespace Local

variable {s t : σ} {l l' : List ℓ}

/-- An action leaves the footprints that are disjoint from its own as they are. -/
theorem frame_foot (h : Local step same foot ok) {j k : ℓ} (hd : Disjoint (foot k) (foot j)) (hk : ok k s)
    (hs : step s k = some t) : ∀ q ∈ foot j, same q s t := by
  intro q hq
  exact h.frame hk hs (Set.disjoint_right.mp hd hq)

/-- After a run every action of it has had, on its footprint, the effect it has on the start
state, and nothing else has changed. -/
theorem run_spec (h : Local step same foot ok) (hd : l.Pairwise fun j k => Disjoint (foot j) (foot k))
    (hok : ∀ k ∈ l, ok k s) (hr : run step s l = some t) :
    (∀ k ∈ l, ∃ t', step s k = some t' ∧ ∀ q ∈ foot k, same q t' t) ∧
      ∀ q, (∀ k ∈ l, q ∉ foot k) → same q s t := by
  induction l generalizing s with
  | nil =>
      rw [run_nil] at hr
      cases hr
      exact ⟨by simp, fun q _ => (h.equivalence q).refl _⟩
  | cons k l ih =>
      obtain ⟨s₁, hs, hr'⟩ := run_cons_some.mp hr
      obtain ⟨hk, hd'⟩ := List.pairwise_cons.mp hd
      have hokk := hok k List.mem_cons_self
      have hok₁ : ∀ j ∈ l, ok j s₁ := fun j hj =>
        h.keeps (hk j hj) (hok j (List.mem_cons_of_mem k hj)) hokk hs
      obtain ⟨hin, hout⟩ := ih hd' hok₁ hr'
      constructor
      · intro j hj
        rcases List.mem_cons.mp hj with rfl | hj
        · -- the rest of the run does not come back to the footprint of its head
          exact ⟨s₁, hs, fun q hq => hout q fun i hi => Set.disjoint_left.mp (hk i hi) hq⟩
        · obtain ⟨t₁, ht₁, hsame⟩ := hin j hj
          have hback : ∀ q ∈ foot j, same q s₁ s := fun q hq =>
            (h.equivalence q).symm (h.frame_foot (hk j hj) hokk hs q hq)
          obtain ⟨t', ht', hsame'⟩ :=
            h.depends (hok₁ j hj) (hok j (List.mem_cons_of_mem k hj)) hback ht₁
          refine ⟨t', ht', fun q hq => ?_⟩
          exact (h.equivalence q).trans ((h.equivalence q).symm (hsame' q hq)) (hsame q hq)
      · intro q hq
        have h₁ := h.frame hokk hs (hq k List.mem_cons_self)
        exact (h.equivalence q).trans h₁ (hout q fun j hj => hq j (List.mem_cons_of_mem k hj))

/-- A run succeeds when each of its actions succeeds at the start. -/
theorem run_some (h : Local step same foot ok) (hd : l.Pairwise fun j k => Disjoint (foot j) (foot k))
    (hok : ∀ k ∈ l, ok k s) (hs : ∀ k ∈ l, ∃ t, step s k = some t) : ∃ t, run step s l = some t := by
  induction l generalizing s with
  | nil => exact ⟨s, rfl⟩
  | cons k l ih =>
      obtain ⟨hk, hd'⟩ := List.pairwise_cons.mp hd
      obtain ⟨s₁, hs₁⟩ := hs k List.mem_cons_self
      have hokk := hok k List.mem_cons_self
      have hok₁ : ∀ j ∈ l, ok j s₁ := fun j hj =>
        h.keeps (hk j hj) (hok j (List.mem_cons_of_mem k hj)) hokk hs₁
      obtain ⟨t, ht⟩ := ih hd' hok₁ (by
        intro j hj
        have hj' := List.mem_cons_of_mem k hj
        obtain ⟨t, ht⟩ := hs j hj'
        obtain ⟨t', ht', -⟩ := h.depends (hok j hj') (hok₁ j hj) (h.frame_foot (hk j hj) hokk hs₁) ht
        exact ⟨t', ht'⟩)
      exact ⟨t, run_cons_some.mpr ⟨s₁, hs₁, ht⟩⟩

/-- **Order independence.**  The two runs may even start differently, as long as no place shows
it. -/
theorem run_perm {s' : σ} (h : Local step same foot ok)
    (hd : l.Pairwise fun j k => Disjoint (foot j) (foot k)) (hok : ∀ k ∈ l, ok k s) (hok' : ∀ k ∈ l, ok k s')
    (hstart : ∀ q, same q s s') (hp : l'.Perm l) (hr : run step s l = some t) :
    ∃ t', run step s' l' = some t' ∧ ∀ q, same q t t' := by
  have hd' : l'.Pairwise fun j k => Disjoint (foot j) (foot k) :=
    (hp.pairwise_iff fun {_ _} hdis => hdis.symm).mpr hd
  have hmem : ∀ {k}, k ∈ l' ↔ k ∈ l := hp.mem_iff
  obtain ⟨hin, hout⟩ := h.run_spec hd hok hr
  -- what each action does from either start
  have hboth : ∀ k ∈ l, ∃ t₁ t₂, step s' k = some t₂ ∧ (∀ q ∈ foot k, same q t₁ t) ∧
      ∀ q ∈ foot k, same q t₁ t₂ := by
    intro k hk
    obtain ⟨t₁, ht₁, hs₁⟩ := hin k hk
    obtain ⟨t₂, ht₂, hs₂⟩ := h.depends (hok k hk) (hok' k hk) (fun q _ => hstart q) ht₁
    exact ⟨t₁, t₂, ht₂, hs₁, hs₂⟩
  have hok'' : ∀ k ∈ l', ok k s' := fun k hk => hok' k (hmem.mp hk)
  obtain ⟨t', hr'⟩ := h.run_some hd' hok'' fun k hk => by
    obtain ⟨-, t₂, ht₂, -, -⟩ := hboth k (hmem.mp hk)
    exact ⟨t₂, ht₂⟩
  obtain ⟨hin', hout'⟩ := h.run_spec hd' hok'' hr'
  refine ⟨t', hr', fun q => ?_⟩
  have heq := h.equivalence q
  by_cases hq : ∃ k ∈ l, q ∈ foot k
  · obtain ⟨k, hk, hqk⟩ := hq
    obtain ⟨t₁, t₂, ht₂, hs₁, hs₂⟩ := hboth k hk
    obtain ⟨t₃, ht₃, hs₃⟩ := hin' k (hmem.mpr hk)
    rw [ht₂] at ht₃
    cases ht₃
    exact heq.trans (heq.symm (hs₁ q hqk)) (heq.trans (hs₂ q hqk) (hs₃ q hqk))
  · have hno : ∀ k ∈ l, q ∉ foot k := fun k hk hqk => hq ⟨k, hk, hqk⟩
    have hno' := hout' q fun k hk => hno k (hmem.mp hk)
    exact heq.trans (heq.symm (hout q hno)) (heq.trans (hstart q) hno')

end Local

end Transition
