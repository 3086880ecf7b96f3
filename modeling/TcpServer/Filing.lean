import Mathlib.Data.List.Basic
import Mathlib.Data.List.Flatten
import Mathlib.Data.List.Range

/-! # Filing in numerical order

Pieces of text come one after the other; each is put at the end of a numbered folder, or is not
filed at all.  `Folders` is the record of this: one entry for a piece, with the number of its
folder.  When the numbers never go back, the folders read in numerical order give the filed pieces
in the order they came (`range_flatMap_under`), so that a piece that is missing is one that was not
filed. -/

namespace Filing

variable {α : Type}

/-- The pieces in the order they came, each with the number of its folder. -/
abbrev Folders (α : Type) := List (Option ℕ × List α)

/-- Every piece. -/
def text (l : Folders α) : List α := l.flatMap Prod.snd

/-- The numbers of the folders used, in order. -/
def numbers (l : Folders α) : List ℕ := l.filterMap Prod.fst

/-- What the folder `k` holds. -/
def under (k : ℕ) (l : Folders α) : List α := (l.filter (fun p => p.1 = some k)).flatMap Prod.snd

/-- The pieces with a folder below `n`. -/
def below (n : ℕ) (l : Folders α) : List α := (l.filter (fun p => p.1.any (· < n))).flatMap Prod.snd

/-- The pieces that were not filed. -/
def unfiled (l : Folders α) : List α := (l.filter (fun p => p.1 = none)).flatMap Prod.snd

/-- The numbers never go back. -/
def Ordered (l : Folders α) : Prop := (numbers l).Pairwise (· ≤ ·)

/-! ### One more piece -/

section append

variable (l l' : Folders α)

@[simp] theorem text_append : text (l ++ l') = text l ++ text l' := by simp [text]

@[simp] theorem under_append (k : ℕ) : under k (l ++ l') = under k l ++ under k l' := by simp [under]

@[simp] theorem unfiled_append : unfiled (l ++ l') = unfiled l ++ unfiled l' := by simp [unfiled]

@[simp] theorem numbers_append : numbers (l ++ l') = numbers l ++ numbers l' := by simp [numbers]

@[simp] theorem text_singleton (o : Option ℕ) (x : List α) : text [(o, x)] = x := by simp [text]

@[simp] theorem under_singleton_some (j k : ℕ) (x : List α) :
    under k [(some j, x)] = if j = k then x else [] := by
  by_cases h : j = k <;> simp [under, h]

@[simp] theorem under_singleton_none (k : ℕ) (x : List α) : under k [(none, x)] = [] := by simp [under]

@[simp] theorem unfiled_singleton_some (j : ℕ) (x : List α) : unfiled [(some j, x)] = [] := by simp [unfiled]

@[simp] theorem unfiled_singleton_none (x : List α) : unfiled [(none, x)] = x := by simp [unfiled]

@[simp] theorem numbers_singleton (o : Option ℕ) (x : List α) : numbers [(o, x)] = o.toList := by
  cases o <;> rfl

end append

/-- A piece whose folder is not before any used so far. -/
theorem Ordered.append_singleton {l : Folders α} (h : Ordered l) {o : Option ℕ} {x : List α}
    (hlast : ∀ j, o = some j → ∀ k ∈ numbers l, k ≤ j) : Ordered (l ++ [(o, x)]) := by
  unfold Ordered
  rw [numbers_append, numbers_singleton, List.pairwise_append]
  refine ⟨h, ?_, ?_⟩
  · cases o <;> simp
  · intro k hk j hj
    exact hlast j (by simpa using hj) k hk

/-! ### Reading the folders in order -/

theorem Ordered.tail {p : Option ℕ × List α} {l : Folders α} (h : Ordered (p :: l)) : Ordered l := by
  obtain ⟨o, x⟩ := p
  cases o with
  | none => exact h
  | some k => exact (List.pairwise_cons.mp h).2

/-- Behind a piece in the folder `k` nothing is filed before `k`. -/
theorem Ordered.below_eq_nil {k n : ℕ} {x : List α} {l : Folders α} (h : Ordered ((some k, x) :: l))
    (hn : n ≤ k) : below n l = [] := by
  have hle : ∀ j ∈ numbers l, k ≤ j := (List.pairwise_cons.mp h).1
  simp only [below, List.flatMap_eq_nil_iff, List.mem_filter]
  rintro ⟨o, y⟩ ⟨hmem, hlt⟩
  cases o with
  | none => cases hlt
  | some j =>
      have hj : j ∈ numbers l := List.mem_filterMap.mpr ⟨_, hmem, rfl⟩
      have hkj := hle j hj
      simp only [Option.any_some, decide_eq_true_eq] at hlt
      omega

@[simp] theorem below_cons_none (n : ℕ) (x : List α) (l : Folders α) : below n ((none, x) :: l) = below n l := by
  simp [below]

theorem below_cons_some (n k : ℕ) (x : List α) (l : Folders α) :
    below n ((some k, x) :: l) = if k < n then x ++ below n l else below n l := by
  by_cases h : k < n <;> simp [below, h]

theorem under_cons_some (n k : ℕ) (x : List α) (l : Folders α) :
    under n ((some k, x) :: l) = if k = n then x ++ under n l else under n l := by
  by_cases h : k = n <;> simp [under, h]

/-- The folder `n` comes behind all the folders below `n`. -/
theorem below_succ {l : Folders α} (h : Ordered l) (n : ℕ) : below (n + 1) l = below n l ++ under n l := by
  induction l with
  | nil => rfl
  | cons p l ih =>
      have hl := ih h.tail
      obtain ⟨o, x⟩ := p
      cases o with
      | none => simpa [under] using hl
      | some k =>
          rw [below_cons_some, below_cons_some, under_cons_some, hl]
          rcases Nat.lt_trichotomy k n with hlt | rfl | hgt
          · rw [if_pos (by omega), if_pos hlt, if_neg (by omega), List.append_assoc]
          · rw [if_pos (by omega), if_neg (by omega), if_pos rfl, h.below_eq_nil (le_refl k)]
            rfl
          · rw [if_neg (by omega), if_neg (by omega), if_neg (by omega)]

/-- **The folders in order.**  Read in numerical order up to `n`, the folders give the pieces filed
below `n` in the order they came. -/
theorem range_flatMap_under {l : Folders α} (h : Ordered l) (n : ℕ) :
    (List.range n).flatMap (fun k => under k l) = below n l := by
  induction n with
  | zero => simp [below]
  | succ n ih =>
      rw [List.range_succ, List.flatMap_append, ih, below_succ h]
      simp

/-- What is not filed is missing. -/
theorem length_below {l : Folders α} {n : ℕ} (h : ∀ k ∈ numbers l, k < n) :
    (below n l).length + (unfiled l).length = (text l).length := by
  induction l with
  | nil => rfl
  | cons p l ih =>
      obtain ⟨o, x⟩ := p
      cases o with
      | none =>
          have hl := ih h
          simp only [below_cons_none, unfiled, text, List.filter_cons, List.flatMap_cons, List.length_append,
            decide_true, if_true] at hl ⊢
          omega
      | some k =>
          have hk : k < n := h k List.mem_cons_self
          have hl := ih (fun j hj => h j (List.mem_cons_of_mem _ hj))
          rw [below_cons_some, if_pos hk]
          simp only [unfiled, text, List.filter_cons, List.flatMap_cons, List.length_append, reduceCtorEq,
            decide_false, Bool.false_eq_true, if_false] at hl ⊢
          omega

/-- With nothing unfiled, the folders hold the whole text. -/
theorem below_eq_text {l : Folders α} {n : ℕ} (h : ∀ k ∈ numbers l, k < n) (hnone : unfiled l = []) :
    below n l = text l := by
  apply List.Sublist.eq_of_length
  · exact List.filter_sublist.flatMap _
  · have := length_below h
    rw [hnone] at this
    simpa using this

end Filing
