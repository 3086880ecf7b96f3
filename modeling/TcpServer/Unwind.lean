import Mathlib.Data.List.Basic

/-! # Programs that throw

An action of `EStateM ε σ` changes the state and returns or throws; what it has done before it throws
stays done.  `Triple P m Q E`: from a state with `P`, `m` returns a value with `Q` or throws in a state
with `E`.  Code that owns something while it calls another action releases it when the call throws:
`onThrow m c` runs `c` before the exception goes on. -/

namespace Unwind

variable {ε σ α β : Type}

/-- From `P`, either `m` returns with `Q` or it throws with `E`. -/
def Triple (P : σ → Prop) (m : EStateM ε σ α) (Q : α → σ → Prop) (E : σ → Prop) : Prop :=
  ∀ s, P s → match m s with
    | .ok a s' => Q a s'
    | .error _ s' => E s'

/-- `m`, and `c` when `m` throws. -/
def onThrow (m : EStateM ε σ α) (c : EStateM ε σ Unit) : EStateM ε σ α := fun s =>
  match m s with
  | .ok a s' => .ok a s'
  | .error e s' =>
      match c s' with
      | .ok _ s'' => .error e s''
      | .error e' s'' => .error e' s''

namespace Triple

variable {P P' : σ → Prop} {m : EStateM ε σ α} {Q : α → σ → Prop} {E : σ → Prop}

/-- The two ways an action ends. -/
theorem outcome {s : σ} (h : Triple P m Q E) (hs : P s) :
    (∃ a s', m s = .ok a s' ∧ Q a s') ∨ ∃ e s', m s = .error e s' ∧ E s' := by
  have h := h s hs
  cases hr : m s with
  | ok a s' =>
      rw [hr] at h
      exact Or.inl ⟨a, s', rfl, h⟩
  | error e s' =>
      rw [hr] at h
      exact Or.inr ⟨e, s', rfl, h⟩

theorem ret {a : α} (h : ∀ s, P s → Q a s) : Triple P (pure a : EStateM ε σ α) Q E := h

theorem fail {e : ε} (h : ∀ s, P s → E s) : Triple P (throw e : EStateM ε σ α) Q E := h

theorem bind {R : α → σ → Prop} {f : α → EStateM ε σ β} {Q : β → σ → Prop} (hm : Triple P m R E)
    (hf : ∀ a, Triple (R a) (f a) Q E) : Triple P (m >>= f) Q E := by
  intro s hs
  show match EStateM.bind m f s with
    | .ok a s' => Q a s'
    | .error _ s' => E s'
  unfold EStateM.bind
  obtain ⟨a, s', hr, h⟩ | ⟨e, s', hr, h⟩ := hm.outcome hs
  · rw [hr]
    exact hf a s' h
  · rw [hr]
    exact h

/-- Sequence, when the first action returns nothing. -/
theorem seq {m : EStateM ε σ Unit} {R : σ → Prop} {k : EStateM ε σ β} {Q : β → σ → Prop}
    (hm : Triple P m (fun _ => R) E) (hk : Triple R k Q E) : Triple P (m >>= fun _ => k) Q E :=
  hm.bind fun _ => hk

theorem pre (h : Triple P' m Q E) (hp : ∀ s, P s → P' s) : Triple P m Q E := fun s hs => h s (hp s hs)

theorem post {Q' : α → σ → Prop} (h : Triple P m Q E) (hq : ∀ a s, Q a s → Q' a s) : Triple P m Q' E := by
  intro s hs
  obtain ⟨a, s', hr, h⟩ | ⟨e, s', hr, h⟩ := h.outcome hs
  · rw [hr]
    exact hq a s' h
  · rw [hr]
    exact h

theorem and {Q' : α → σ → Prop} (h : Triple P m Q E) (h' : Triple P' m Q' E) :
    Triple (fun s => P s ∧ P' s) m (fun a s => Q a s ∧ Q' a s) E := by
  rintro s ⟨hs, hs'⟩
  have h' := h' s hs'
  obtain ⟨a, s', hr, h⟩ | ⟨e, s', hr, h⟩ := h.outcome hs
  · rw [hr] at h' ⊢
    exact ⟨h, h'⟩
  · rw [hr]
    exact h

/-- A fact that does not speak of the state is a hypothesis. -/
theorem given {p : Prop} (h : p → Triple P m Q E) : Triple (fun s => P s ∧ p) m Q E := fun s hs => h hs.2 s hs.1

theorem ite {c : Prop} [Decidable c] {k : EStateM ε σ α} (hm : c → Triple P m Q E) (hk : ¬ c → Triple P k Q E) :
    Triple P (if c then m else k) Q E := by
  split_ifs with hc
  · exact hm hc
  · exact hk hc

theorem onThrow {c : EStateM ε σ Unit} {E' : σ → Prop} (hm : Triple P m Q E') (hc : Triple E' c (fun _ => E) E) :
    Triple P (onThrow m c) Q E := by
  intro s hs
  unfold Unwind.onThrow
  obtain ⟨a, s', hr, h⟩ | ⟨e, s', hr, h⟩ := hm.outcome hs
  · rw [hr]
    exact h
  · rw [hr]
    obtain ⟨_, s'', hr', h'⟩ | ⟨e', s'', hr', h'⟩ := hc.outcome h
    · simpa only [hr'] using h'
    · simpa only [hr'] using h'

end Triple

end Unwind
