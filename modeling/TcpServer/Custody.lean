import Mathlib.Data.List.Basic

/-! # Custody of resources that have one owner at a time

A *history* lists, newest event first, how resources of type `δ` come to owners of type `ο`, go
from one owner to another, are handed out again and are disposed of.  `holder h d` is the owner a
history leaves `d` with.  In a *legal* history only a resource that nobody holds and that has not
been disposed of is acquired, and only the holder of a resource parts with it: ownership is
linear.  Then a resource is disposed of at most once, by its holder (`Legal.dispose_held`,
`Legal.disposals_le_one`), and one that nobody holds any more was disposed of or handed out
(`Legal.accounted`). -/

namespace Custody

/-- What happens to a resource. -/
inductive Event (ο δ : Type)
  | acquire (o : ο) (d : δ)
  | transfer (o o' : ο) (d : δ)
  | release (o : ο) (d : δ)
  | dispose (o : ο) (d : δ)
deriving DecidableEq, Repr

variable {ο δ : Type} [DecidableEq δ]

/-- The resource of an event. -/
def Event.subject : Event ο δ → δ
  | .acquire _ d => d
  | .transfer _ _ d => d
  | .release _ d => d
  | .dispose _ d => d

/-- Who has the resource after the event. -/
def Event.receiver : Event ο δ → Option ο
  | .acquire o _ => some o
  | .transfer _ o' _ => some o'
  | .release _ _ => none
  | .dispose _ _ => none

/-- The owner of a resource after a history. -/
def holder : List (Event ο δ) → δ → Option ο
  | [], _ => none
  | e :: h, d => if d = e.subject then e.receiver else holder h d

/-- How often a resource has been disposed of. -/
def disposals : List (Event ο δ) → δ → ℕ
  | [], _ => 0
  | .dispose _ d' :: h, d => disposals h d + if d = d' then 1 else 0
  | _ :: h, d => disposals h d

/-- What linear ownership asks of an event after the history `h`. -/
def Allowed (h : List (Event ο δ)) : Event ο δ → Prop
  | .acquire _ d => holder h d = none ∧ disposals h d = 0
  | .transfer o _ d => holder h d = some o
  | .release o d => holder h d = some o
  | .dispose o d => holder h d = some o

/-- Histories of linear ownership. -/
def Legal : List (Event ο δ) → Prop
  | [] => True
  | e :: h => Allowed h e ∧ Legal h

/-! ### Reading a history -/

section reading
variable {h l : List (Event ο δ)} {e : Event ο δ} {o : ο} {d : δ}

@[simp] theorem holder_cons_self : holder (e :: h) e.subject = e.receiver := if_pos rfl

theorem holder_cons_ne (hd : d ≠ e.subject) : holder (e :: h) d = holder h d := if_neg hd

/-- An event other than a disposal of `d` leaves the count of `d` alone. -/
theorem disposals_cons_eq (hd : ∀ o, e ≠ .dispose o d) : disposals (e :: h) d = disposals h d := by
  cases e with
  | dispose o d' =>
      have hne : d ≠ d' := fun heq => hd o (by rw [heq])
      simp only [disposals, if_neg hne, Nat.add_zero]
  | acquire o d' => rfl
  | transfer o o' d' => rfl
  | release o d' => rfl

theorem disposals_cons_ne (hd : d ≠ e.subject) : disposals (e :: h) d = disposals h d := by
  apply disposals_cons_eq
  rintro o rfl
  exact hd rfl

theorem disposals_dispose : disposals (.dispose o d :: h) d = disposals h d + 1 := by
  simp only [disposals, if_pos]

/-! ### Legal histories -/

theorem Legal.of_append (hl : Legal (l ++ h)) : Legal h := by
  induction l with
  | nil => exact hl
  | cons e l ih => exact ih hl.2

/-- Only the holder disposes of a resource. -/
theorem Legal.dispose_held (hl : Legal (l ++ .dispose o d :: h)) : holder h d = some o :=
  hl.of_append.1

/-- What somebody holds has not been disposed of. -/
theorem Legal.disposals_of_held (hl : Legal h) (hh : holder h d = some o) : disposals h d = 0 := by
  induction h generalizing o with
  | nil => rfl
  | cons e h ih =>
      by_cases hd : d = e.subject
      · subst hd
        rw [holder_cons_self] at hh
        cases e with
        | acquire o' d' => exact hl.1.2
        | transfer o₁ o' d' => exact ih hl.2 hl.1
        | release o' d' => cases hh
        | dispose o' d' => cases hh
      · rw [holder_cons_ne hd] at hh
        rw [disposals_cons_ne hd]
        exact ih hl.2 hh

/-- Nothing is disposed of twice. -/
theorem Legal.disposals_le_one (hl : Legal h) (d : δ) : disposals h d ≤ 1 := by
  induction h with
  | nil => exact Nat.zero_le 1
  | cons e h ih =>
      by_cases hd : ∃ o, e = .dispose o d
      · obtain ⟨o, rfl⟩ := hd
        have hzero : disposals h d = 0 := hl.2.disposals_of_held hl.1
        rw [disposals_dispose]
        omega
      · rw [disposals_cons_eq (fun o he => hd ⟨o, he⟩)]
        exact ih hl.2

/-- An acquired resource is held, has been disposed of, or has been handed out. -/
theorem Legal.accounted (hl : Legal h) (ha : .acquire o d ∈ h) (hn : holder h d = none) :
    disposals h d = 1 ∨ ∃ o', .release o' d ∈ h := by
  induction h with
  | nil => cases ha
  | cons e h ih =>
      by_cases hd : d = e.subject
      · subst hd
        rw [holder_cons_self] at hn
        -- the last event about the resource is the one that left it without an owner
        cases e with
        | acquire o' d' => cases hn
        | transfer o₁ o' d' => cases hn
        | release o' d' => exact Or.inr ⟨o', List.mem_cons_self⟩
        | dispose o' d' =>
            left
            show disposals (.dispose o' d' :: h) d' = 1
            rw [disposals_dispose, hl.2.disposals_of_held hl.1]
      · rw [holder_cons_ne hd] at hn
        rw [disposals_cons_ne hd]
        have ha' : .acquire o d ∈ h := by
          rcases List.mem_cons.mp ha with rfl | ha'
          · exact absurd rfl hd
          · exact ha'
        rcases ih hl.2 ha' hn with h1 | ⟨o', hr⟩
        · exact Or.inl h1
        · exact Or.inr ⟨o', List.mem_cons_of_mem _ hr⟩

end reading

end Custody
