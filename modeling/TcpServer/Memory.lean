import Mathlib.Data.Nat.Basic
import Mathlib.Tactic.Ring

/-! # Byte-addressed memory and lists threaded through it

Memory is a function from addresses to bytes.  `load m a k` reads the `k` bytes at `a` as a
little-endian number and `store m a k v` writes one; the rules say what a load sees after a
store to the same place, to another place, and after any change of other bytes.

`Chain next p l` says that following `next` from `p` visits exactly the addresses `l`, in this
order, and ends in the null pointer `0`.  It speaks of `next` only at the members of `l`, which
is what makes changes elsewhere harmless (`Chain.congr`). -/

namespace ByteMemory

/-- Memory: one byte for each address. -/
abbrev Memory := ℕ → UInt8

namespace Memory

/-- Write one byte. -/
def set (m : Memory) (a : ℕ) (b : UInt8) : Memory := fun x => if x = a then b else m x

/-- The `k` bytes at `a` as a little-endian number. -/
def load (m : Memory) (a : ℕ) : ℕ → ℕ
  | 0 => 0
  | k + 1 => (m a).toNat + 256 * load m (a + 1) k

/-- Write `v`, modulo `256 ^ k`, to the `k` bytes at `a`. -/
def store (m : Memory) (a : ℕ) : ℕ → ℕ → Memory
  | 0, _ => m
  | k + 1, v => store (m.set a (UInt8.ofNat v)) (a + 1) k (v / 256)

/-- `memset(a, b, k)`. -/
def fill (m : Memory) (a k : ℕ) (b : UInt8) : Memory := fun x => if a ≤ x ∧ x < a + k then b else m x

/-! ### What a load sees -/

theorem set_of_ne (m : Memory) {a x : ℕ} (b : UInt8) (h : x ≠ a) : m.set a b x = m x := if_neg h

theorem load_congr {m m' : Memory} {a k : ℕ} (h : ∀ x, a ≤ x → x < a + k → m x = m' x) :
    load m a k = load m' a k := by
  induction k generalizing a with
  | zero => rfl
  | succ k ih =>
      have hhead : m a = m' a := h a (Nat.le_refl a) (by omega)
      have htail : load m (a + 1) k = load m' (a + 1) k := by
        apply ih
        intro x h1 h2
        exact h x (by omega) (by omega)
      rw [load, load, hhead, htail]

/-- A store changes only the bytes it writes. -/
theorem store_frame (m : Memory) {a k v x : ℕ} (h : x < a ∨ a + k ≤ x) : store m a k v x = m x := by
  induction k generalizing m a v with
  | zero => rfl
  | succ k ih =>
      rw [store, ih _ (by omega), set_of_ne]
      omega

theorem load_store_disjoint (m : Memory) {a b k l v : ℕ} (h : a + k ≤ b ∨ b + l ≤ a) :
    load (store m b l v) a k = load m a k := by
  apply load_congr
  intro x h1 h2
  apply store_frame
  omega

theorem load_store_same (m : Memory) (a k v : ℕ) : load (store m a k v) a k = v % 256 ^ k := by
  induction k generalizing m a v with
  | zero => simp [load, Nat.mod_one]
  | succ k ih =>
      have hbyte : (store m a (k + 1) v a).toNat = v % 256 := by
        rw [store, store_frame _ (by omega)]
        simp [set]
      rw [load, hbyte, store, ih, pow_succ', Nat.mod_mul]

theorem set_same (m : Memory) (a : ℕ) : m.set a (m a) = m := by
  funext x
  unfold set
  split
  · next hx => rw [hx]
  · rfl

/-- Writing what is there changes nothing. -/
theorem store_load (m : Memory) (a k : ℕ) : store m a k (load m a k) = m := by
  induction k generalizing m a with
  | zero => rfl
  | succ k ih =>
      have hlt := (m a).toNat_lt
      have hbyte : UInt8.ofNat (load m a (k + 1)) = m a := by
        apply UInt8.toNat.inj
        rw [load, UInt8.toNat_ofNat']
        omega
      have hrest : load m a (k + 1) / 256 = load m (a + 1) k := by
        rw [load]
        omega
      rw [store, hbyte, hrest, set_same]
      exact ih m (a + 1)

end Memory

/-! ### Null-terminated lists -/

/-- Following `next` from `p` visits exactly `l` and ends in null. -/
def Chain (next : ℕ → ℕ) : ℕ → List ℕ → Prop
  | p, [] => p = 0
  | p, x :: l => p = x ∧ x ≠ 0 ∧ Chain next (next x) l

namespace Chain

variable {next next' : ℕ → ℕ}

theorem congr {p : ℕ} {l : List ℕ} (h : Chain next p l) (hn : ∀ x ∈ l, next' x = next x) :
    Chain next' p l := by
  induction l generalizing p with
  | nil => exact h
  | cons x l ih =>
      obtain ⟨rfl, hx, hl⟩ := h
      refine ⟨rfl, hx, ?_⟩
      rw [hn p List.mem_cons_self]
      exact ih hl (fun y hy => hn y (List.mem_cons_of_mem _ hy))

theorem eq_zero_iff {p : ℕ} {l : List ℕ} (h : Chain next p l) : p = 0 ↔ l = [] := by
  cases l with
  | nil => simpa [Chain] using h
  | cons x l =>
      obtain ⟨rfl, hx, _⟩ := h
      simp [hx]

/-- The first pointer is null or a member. -/
theorem head {p : ℕ} {l : List ℕ} (h : Chain next p l) : p = 0 ∨ p ∈ l := by
  cases l with
  | nil => exact Or.inl h
  | cons x l =>
      obtain ⟨rfl, _, _⟩ := h
      exact Or.inr List.mem_cons_self

/-- Addresses `b i, …, b (i + k)`, each linked to the following one and the last one to null. -/
theorem of_sequence {b : ℕ → ℕ} (hb : ∀ j, b j ≠ 0) (i k : ℕ)
    (hnext : ∀ j, i ≤ j → j < i + k → next (b j) = b (j + 1)) (hlast : next (b (i + k)) = 0) :
    Chain next (b i) ((List.range' i (k + 1)).map b) := by
  induction k generalizing i with
  | zero => exact ⟨rfl, hb i, hlast⟩
  | succ k ih =>
      refine ⟨rfl, hb i, ?_⟩
      rw [hnext i (Nat.le_refl i) (by omega)]
      apply ih (i + 1)
      · intro j h1 h2
        exact hnext j (by omega) (by omega)
      · rw [← hlast]
        congr 2
        omega

end Chain

end ByteMemory
