import Mathlib.Data.List.Basic

/-! # Byte ranges of a vector

A `std::vector<T>` is a list; the C library's copies into and inside it are list functions.
`overwrite buf i xs` is `memcpy(buf + i, xs, |xs|)`, `shift buf k n` is
`memmove(buf, buf + k, n)` and `resize fill n buf` is `buf.resize(n)`, which fills the new
places with the value-initialised element.  A vector used as a growable buffer holds its
contents in a prefix `buf.take i`; the lemmas say what each copy does to that prefix, to the
length and to the elements present. -/

namespace Buffer

variable {α : Type}

/-- Copy `xs` over the places from `i` on. -/
def overwrite (buf : List α) (i : ℕ) (xs : List α) : List α :=
  buf.take i ++ xs ++ buf.drop (i + xs.length)

/-- Move `n` elements from position `k` to the front. -/
def shift (buf : List α) (k n : ℕ) : List α := overwrite buf 0 ((buf.drop k).take n)

/-- Change the length to `n`, filling new places with `fill`. -/
def resize (fill : α) (n : ℕ) (buf : List α) : List α :=
  buf.take n ++ List.replicate (n - buf.length) fill

theorem length_overwrite {buf xs : List α} {i : ℕ} (h : i + xs.length ≤ buf.length) :
    (overwrite buf i xs).length = buf.length := by
  unfold overwrite
  simp only [List.length_append, List.length_take, List.length_drop]
  omega

theorem take_overwrite {buf : List α} (xs : List α) {i : ℕ} (h : i ≤ buf.length) :
    (overwrite buf i xs).take (i + xs.length) = buf.take i ++ xs := by
  unfold overwrite
  apply List.take_left'
  simp only [List.length_append, List.length_take]
  omega

theorem mem_overwrite {buf xs : List α} {i : ℕ} {a : α} (h : a ∈ overwrite buf i xs) :
    a ∈ buf ∨ a ∈ xs := by
  simp only [overwrite, List.mem_append] at h
  rcases h with (h | h) | h
  · exact Or.inl (List.mem_of_mem_take h)
  · exact Or.inr h
  · exact Or.inl (List.mem_of_mem_drop h)

theorem length_shift {buf : List α} {k n : ℕ} (h : k + n ≤ buf.length) :
    (shift buf k n).length = buf.length := by
  apply length_overwrite
  simp only [List.length_take, List.length_drop]
  omega

theorem take_shift {buf : List α} {k n : ℕ} (h : k + n ≤ buf.length) :
    (shift buf k n).take n = (buf.take (k + n)).drop k := by
  have hlen : ((buf.drop k).take n).length = n := by
    simp only [List.length_take, List.length_drop]
    omega
  have := take_overwrite ((buf.drop k).take n) (Nat.zero_le buf.length)
  rw [hlen, Nat.zero_add] at this
  unfold shift
  rw [this, List.drop_take]
  simp

theorem mem_shift {buf : List α} {k n : ℕ} {a : α} (h : a ∈ shift buf k n) : a ∈ buf := by
  rcases mem_overwrite h with h | h
  · exact h
  · exact List.mem_of_mem_drop (List.mem_of_mem_take h)

theorem length_resize (fill : α) (n : ℕ) (buf : List α) : (resize fill n buf).length = n := by
  simp only [resize, List.length_append, List.length_take, List.length_replicate]
  omega

theorem take_resize {fill : α} {n i : ℕ} {buf : List α} (hi : i ≤ buf.length) (hn : i ≤ n) :
    (resize fill n buf).take i = buf.take i := by
  unfold resize
  rw [List.take_append_of_le_length (by rw [List.length_take]; omega), List.take_take,
    Nat.min_eq_left hn]

theorem mem_resize {fill : α} {n : ℕ} {buf : List α} {a : α} (h : a ∈ resize fill n buf) :
    a ∈ buf ∨ a = fill := by
  simp only [resize, List.mem_append, List.mem_replicate] at h
  rcases h with h | h
  · exact Or.inl (List.mem_of_mem_take h)
  · exact Or.inr h.2

end Buffer
