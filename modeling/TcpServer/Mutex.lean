import Mathlib.Logic.Function.Basic

/-! # Mutual exclusion

A lock records who holds it, and every party knows whether it is inside a section the lock protects.
`Excl` says that the two agree; it is kept when a party stays where it is (`Excl.stay`), enters with the
lock free (`Excl.acquire`) or leaves and frees the lock (`Excl.release`). -/

namespace Mutex

variable {ι : Type} [DecidableEq ι]

/-- The party that holds the lock is the one inside. -/
def Excl (lock : Option ι) (inside : ι → Bool) : Prop := ∀ a, inside a = true ↔ lock = some a

section

variable {lock : Option ι} {inside : ι → Bool} {a b : ι}

omit [DecidableEq ι] in
theorem Excl.unique (h : Excl lock inside) (ha : inside a = true) (hb : inside b = true) : a = b := by
  have hlock := (h a).mp ha
  rw [(h b).mp hb] at hlock
  exact (Option.some.inj hlock).symm

theorem Excl.stay (h : Excl lock inside) {v : Bool} (hv : v = inside a) :
    Excl lock (Function.update inside a v) := by
  rw [hv, Function.update_eq_self]
  exact h

theorem Excl.acquire (h : Excl none inside) : Excl (some a) (Function.update inside a true) := by
  intro b
  by_cases hb : b = a
  · rw [hb, Function.update_self]
    exact ⟨fun _ => rfl, fun _ => rfl⟩
  · rw [Function.update_of_ne hb]
    constructor
    · intro hin
      cases (h b).mp hin
    · intro hab
      exact absurd (Option.some.inj hab).symm hb

theorem Excl.release (h : Excl lock inside) (ha : inside a = true) :
    Excl none (Function.update inside a false) := by
  intro b
  constructor
  · intro hin
    by_cases hb : b = a
    · rw [hb, Function.update_self] at hin
      cases hin
    · rw [Function.update_of_ne hb] at hin
      exact absurd (h.unique hin ha) hb
  · intro hnone
    cases hnone

end

end Mutex
