import TcpServer.MemoryPool
import Mathlib.Algebra.Order.BigOperators.Group.Finset
import Mathlib.Order.Interval.Finset.Nat

/-! # The limits of the block pool

`Deallocate` checks its argument by address alone: null, pointers outside the region and pointers
that are no block starts are refused in every state (`deallocate_foreign`), but a block that is
already free looks like any other block.  `deallocate_refuses` says what the check is good for:
as long as no block on the free list is deallocated, the counter counts the outstanding blocks
and no block is handed out twice.  `freed_twice` shows what two calls with one block do.

The constructor computes `block_size_ * num_blocks_` modulo `2 ^ 64` and links `num_blocks_`
blocks.  `new char[n]` is a parameter that throws or returns `n` bytes.  `construction_iff`: the
constructor throws or stays inside what it allocated *iff* the product is a `size_t`. -/

namespace ByteMemory

/-- A list threaded through memory is determined by its first pointer. -/
theorem Chain.unique {next : ℕ → ℕ} {p : ℕ} {l l' : List ℕ} (h : Chain next p l) (h' : Chain next p l') :
    l = l' := by
  induction l generalizing p l' with
  | nil =>
      cases l' with
      | nil => rfl
      | cons y l' => exact absurd (h'.1.symm.trans h) h'.2.1
  | cons x l ih =>
      cases l' with
      | nil => exact absurd (h.1.symm.trans h') h.2.1
      | cons y l' =>
          obtain ⟨rfl, -, hl⟩ := h
          obtain ⟨rfl, -, hl'⟩ := h'
          rw [ih hl hl']

/-- Intervals of `size` addresses that do not overlap and lie in a region fit into it. -/
theorem length_mul_le {l : List ℕ} {size start total : ℕ} (hnd : l.Nodup)
    (hin : ∀ b ∈ l, start ≤ b ∧ b + size ≤ start + total)
    (hapart : ∀ a ∈ l, ∀ b ∈ l, a ≠ b → a + size ≤ b ∨ b + size ≤ a) : l.length * size ≤ total := by
  have hdisj : ∀ a ∈ l.toFinset, ∀ b ∈ l.toFinset, a ≠ b →
      Disjoint (Finset.Ico a (a + size)) (Finset.Ico b (b + size)) := by
    intro a ha b hb hne
    rw [Finset.disjoint_left]
    intro x hx hx'
    rw [Finset.mem_Ico] at hx hx'
    have := hapart a (List.mem_toFinset.mp ha) b (List.mem_toFinset.mp hb) hne
    omega
  have hsub : l.toFinset.biUnion (fun b => Finset.Ico b (b + size)) ⊆ Finset.Ico start (start + total) := by
    intro x hx
    obtain ⟨b, hb, hx⟩ := Finset.mem_biUnion.mp hx
    have := hin b (List.mem_toFinset.mp hb)
    rw [Finset.mem_Ico] at hx ⊢
    omega
  calc l.length * size = ∑ b ∈ l.toFinset, (Finset.Ico b (b + size)).card := by
        simp [List.toFinset_card_of_nodup hnd]
    _ = (l.toFinset.biUnion fun b => Finset.Ico b (b + size)).card := (Finset.card_biUnion hdisj).symm
    _ ≤ (Finset.Ico start (start + total)).card := Finset.card_le_card hsub
    _ = total := by simp

end ByteMemory

namespace MemoryPool

open Transition ByteMemory

namespace Pool

/-! ### Pointers `Deallocate` refuses -/

/-- Null, outside the `total_size` bytes of the region, or not at a block start. -/
def Foreign (p : Pool) (ptr : ℕ) : Prop :=
  ptr = 0 ∨ ptr < p.memory ∨ p.memory + wrap (p.blockSize * p.numBlocks) ≤ ptr ∨
    (ptr - p.memory) % p.blockSize ≠ 0

/-- A block on the free list: following the links from `free_list_` comes by it. -/
def OnFreeList (p : Pool) (ptr : ℕ) : Prop := ∃ l, Chain (next p.mem) p.freeList l ∧ ptr ∈ l

/-- No block on the free list is deallocated, and clients write into blocks they hold. -/
def noDoubleFree (p : Pool) : Label → Prop
  | .allocate => True
  | .deallocate ptr => ¬ p.OnFreeList ptr
  | .write a _ => ∃ b ∈ p.outstanding, b ≤ a ∧ a < b + p.blockSize

/-- The end of the region as `IsValidPointer` computes it. -/
theorem region_end {p : Pool} (hfits : p.memory + wrap (p.blockSize * p.numBlocks) < 2 ^ 64) :
    wrap (p.memory + wrap (p.numBlocks * p.blockSize)) = p.memory + wrap (p.blockSize * p.numBlocks) := by
  rw [Nat.mul_comm]
  exact Nat.mod_eq_of_lt hfits

theorem deallocate_foreign {p : Pool} {ptr : ℕ} (hfits : p.memory + wrap (p.blockSize * p.numBlocks) < 2 ^ 64)
    (h : p.Foreign ptr) : (p.deallocate ptr).2 = p := by
  have hinvalid : ptr ≠ 0 → p.isValidPointer ptr = false := by
    intro h0
    unfold isValidPointer
    rw [region_end hfits]
    rcases h.resolve_left h0 with h | h | h
    · rw [if_pos (Or.inl h)]
    · rw [if_pos (Or.inr h)]
    · simp [h]
  unfold deallocate
  split_ifs with h0 hv
  · rfl
  · rw [hinvalid h0] at hv
    cases hv
  · rfl

/-- Whatever is at a block start is pushed on the free list, be it outstanding or free. -/
theorem deallocate_own {p : Pool} {ptr : ℕ} (hfits : p.memory + wrap (p.blockSize * p.numBlocks) < 2 ^ 64)
    (h : ¬ p.Foreign ptr) :
    (p.deallocate ptr).1 = none ∧ (p.deallocate ptr).2.freeList = ptr ∧
      (p.deallocate ptr).2.mem = setNext p.mem ptr p.freeList ∧
      (p.deallocate ptr).2.allocatedCount = wrapSub p.allocatedCount 1 := by
  simp only [Foreign, not_or, not_lt, not_le, not_not] at h
  obtain ⟨h0, hlow, hhigh, hstart⟩ := h
  have hvalid : p.isValidPointer ptr = true := by
    unfold isValidPointer
    rw [region_end hfits, if_neg (by omega)]
    exact decide_eq_true hstart
  unfold deallocate
  rw [if_neg h0, if_pos hvalid]
  exact ⟨rfl, rfl, rfl, rfl⟩

/-- Steps leave the fixed part of the pool alone. -/
theorem fixed_reach {ok : Pool → Label → Prop} {p p' : Pool} (h : Reach step ok p p') :
    p'.memory = p.memory ∧ p'.blockSize = p.blockSize ∧ p'.numBlocks = p.numBlocks := by
  apply h.invariant fun q => q.memory = p.memory ∧ q.blockSize = p.blockSize ∧ q.numBlocks = p.numBlocks
  · exact ⟨rfl, rfl, rfl⟩
  · intro q l q' hq _ hs
    cases l with
    | allocate =>
        cases hs
        unfold allocate
        split <;> exact hq
    | deallocate ptr =>
        cases hs
        unfold deallocate
        split_ifs <;> exact hq
    | write a b =>
        cases hs
        exact hq

namespace Inv

variable {p : Pool} {free : List ℕ}

theorem onFreeList_iff (hi : p.Inv free) (ptr : ℕ) : p.OnFreeList ptr ↔ ptr ∈ free := by
  constructor
  · rintro ⟨l, hl, hm⟩
    rwa [hi.chain.unique hl]
  · intro hm
    exact ⟨free, hi.chain, hm⟩

/-- While the blocks are divided into free and outstanding ones, the clients keep their contract
exactly when they deallocate no free block. -/
theorem noDoubleFree_iff (hi : p.Inv free) (l : Label) : p.noDoubleFree l ↔ p.clientOk l := by
  cases l with
  | allocate => exact Iff.rfl
  | deallocate ptr =>
      show ¬ p.OnFreeList ptr ↔ ptr ∈ p.outstanding ∨ ptr = 0 ∨ ptr ∉ p.blocks
      rw [hi.onFreeList_iff]
      constructor
      · intro hno
        by_cases hb : ptr ∈ p.blocks
        · have hm := hi.partition.mem_iff.mpr hb
          exact Or.inl ((List.mem_append.mp hm).resolve_left hno)
        · exact Or.inr (Or.inr hb)
      · rintro (hout | rfl | hb) hf
        · exact hi.ne_of_mem hf hout rfl
        · have := (hi.geometry.block_bounds (hi.free_mem hf)).1
          have := hi.geometry.notNull
          omega
        · exact hb (hi.free_mem hf)
  | write a b => exact Iff.rfl

theorem reach_noDoubleFree {p' : Pool} (hi : p.Inv free) (h : Reach step noDoubleFree p p') :
    ∃ free', p'.Inv free' := by
  apply Reach.invariant (fun p => ∃ free, p.Inv free) ⟨free, hi⟩ _ h
  rintro q l q' ⟨free, hi⟩ hok hs
  exact inv_step hi ((hi.noDoubleFree_iff l).mp hok) hs

theorem noDoubleFree_of_clientOk {p' : Pool} (hi : p.Inv free) (h : Reach step clientOk p p') :
    Reach step noDoubleFree p p' := by
  induction h with
  | refl => exact Reach.refl
  | tail hr hok hs ih =>
      obtain ⟨free', hi'⟩ := inv_reach hi hr
      exact Reach.tail ih ((hi'.noDoubleFree_iff _).mpr hok) hs

end Inv

theorem construct_fixed {block_size num_blocks memory : ℕ} {mem : Memory} {p₀ : Pool}
    (h₀ : construct block_size num_blocks memory mem = .ok p₀) :
    p₀.memory = memory ∧ p₀.blockSize = effectiveSize block_size ∧ p₀.numBlocks = num_blocks := by
  unfold construct at h₀
  simp only [] at h₀
  split_ifs at h₀
  cases h₀
  exact ⟨rfl, rfl, rfl⟩

theorem inv_construct {block_size num_blocks memory : ℕ} {mem : Memory} {p₀ : Pool}
    (hprod : effectiveSize block_size * num_blocks < 2 ^ 64)
    (hplaced : Placed memory (wrap (effectiveSize block_size * num_blocks)))
    (h₀ : construct block_size num_blocks memory mem = .ok p₀) : p₀.Inv p₀.blocks := by
  have hnum : 1 ≤ num_blocks := by
    by_contra hz
    have hz' : num_blocks = 0 := by omega
    unfold construct at h₀
    rw [if_pos (Or.inr hz')] at h₀
    cases h₀
  rw [construct_ok hnum] at h₀
  cases h₀
  unfold wrap at hplaced
  rw [Nat.mod_eq_of_lt hprod] at hplaced
  exact inv_initializePool mem (sizeofBlock_le_effectiveSize block_size) hnum hplaced

/-- **What `Deallocate` refuses.**  For every constructor call that succeeds: after any steps, the
clients writing anywhere, `Deallocate` of a foreign pointer changes nothing, and every other pointer is
pushed on the free list and counted down, whether or not the block is free already.  And if the blocks fit,
then as long as no block on the free list is deallocated, `Deallocate` of a pointer that is not
outstanding changes nothing, `allocated_count_` is the number of outstanding blocks, and no block
is handed out while it is outstanding. -/
theorem deallocate_refuses (block_size num_blocks memory : ℕ) (mem : Memory) {p₀ : Pool}
    (hplaced : Placed memory (wrap (effectiveSize block_size * num_blocks)))
    (h₀ : construct block_size num_blocks memory mem = .ok p₀) :
    (∀ p, Reach step always p₀ p → ∀ ptr, p.Foreign ptr → (p.deallocate ptr).2 = p) ∧
      (∀ p, Reach step always p₀ p → ∀ ptr, ¬ p.Foreign ptr →
        (p.deallocate ptr).1 = none ∧ (p.deallocate ptr).2.freeList = ptr ∧
          (p.deallocate ptr).2.mem = setNext p.mem ptr p.freeList ∧
          (p.deallocate ptr).2.allocatedCount = wrapSub p.allocatedCount 1) ∧
      (effectiveSize block_size * num_blocks < 2 ^ 64 → ∀ p, Reach step noDoubleFree p₀ p →
        (∀ ptr, ptr ∉ p.outstanding → ¬ p.OnFreeList ptr → (p.deallocate ptr).2 = p) ∧
        p.allocatedCount = p.outstanding.length ∧ p.outstanding.length ≤ p.numBlocks ∧
        p.outstanding.Nodup ∧ (p.allocate.1 ≠ 0 → p.allocate.1 ∉ p.outstanding)) := by
  have hfits : ∀ p, Reach step always p₀ p → p.memory + wrap (p.blockSize * p.numBlocks) < 2 ^ 64 := by
    intro p hr
    obtain ⟨hmem, hsize, hnum⟩ := fixed_reach hr
    obtain ⟨hmem₀, hsize₀, hnum₀⟩ := construct_fixed h₀
    rw [hmem, hsize, hnum, hmem₀, hsize₀, hnum₀]
    exact hplaced.fits
  refine ⟨fun p hr ptr hf => deallocate_foreign (hfits p hr) hf, fun p hr ptr hf => deallocate_own (hfits p hr) hf, ?_⟩
  intro hprod p hr
  obtain ⟨free, hi⟩ := (inv_construct hprod hplaced h₀).reach_noDoubleFree hr
  have hlen := hi.length_add
  refine ⟨?_, hi.count, by omega, (List.nodup_append.mp hi.nodup).2.1, fun hne => (hi.refines.1 hne).2⟩
  intro ptr hout hfree
  have hok := (hi.noDoubleFree_iff (.deallocate ptr)).mp hfree
  exact hi.deallocate_ignored (hok.resolve_left hout)

/-- Two blocks: one is allocated and given back, and foreign pointers are refused. -/
theorem deallocate_refuses_two :
    ∃ p₀ p, construct 8 2 4096 (fun _ => 1) = .ok p₀ ∧
      run step p₀ [.allocate, .deallocate 4100, .deallocate 4096, .allocate] = some p ∧
      (p.deallocate 4100).2 = p ∧ p.allocatedCount = p.outstanding.length ∧ p.outstanding.Nodup := by
  have h₀ : construct 8 2 4096 (fun _ => 1) = .ok (initializePool 8 2 4096 fun _ => 1) := construct_ok (by decide) _ _
  have hplaced : Placed 4096 (wrap (effectiveSize 8 * 2)) := ⟨by decide, by decide +kernel⟩
  have hprod : effectiveSize 8 * 2 < 2 ^ 64 := by decide +kernel
  have hok : Along step clientOk (initializePool 8 2 4096 fun _ => 1)
      [.allocate, .deallocate 4100, .deallocate 4096, .allocate] := by
    decide +kernel
  obtain ⟨p, hrun, hmem, hsize⟩ := exists_of_any
    (o := run step (initializePool 8 2 4096 fun _ => 1) [.allocate, .deallocate 4100, .deallocate 4096, .allocate])
    (fun p => p.memory = 4096 ∧ p.blockSize = 8) (by decide +kernel)
  obtain ⟨hforeign, -, hrest⟩ := deallocate_refuses 8 2 4096 (fun _ => 1) hplaced h₀
  have hreach := (inv_construct hprod hplaced h₀).noDoubleFree_of_clientOk (hok.reach hrun)
  obtain ⟨-, hcount, -, hnd, -⟩ := hrest hprod p hreach
  refine ⟨_, p, h₀, hrun, hforeign p (reach_of_run hrun) 4100 ?_, hcount, hnd⟩
  refine Or.inr (Or.inr (Or.inr ?_))
  rw [hmem, hsize]
  decide

/-- The second `Deallocate` of one block is not refused: the counter wraps below zero, the block
is linked to itself, and the next two calls of `Allocate` both return it. -/
theorem freed_twice :
    ∃ p₀ p p', construct 8 2 4096 (fun _ => 1) = .ok p₀ ∧ run step p₀ [.allocate, .deallocate 4096] = some p ∧
      4096 ∉ p.outstanding ∧ p.allocatedCount = 0 ∧ (p.deallocate 4096).1 = none ∧
      (p.deallocate 4096).2.allocatedCount = 2 ^ 64 - 1 ∧ next (p.deallocate 4096).2.mem 4096 = 4096 ∧
      run step (p.deallocate 4096).2 [.allocate, .allocate] = some p' ∧ p'.outstanding = [4096, 4096] := by
  have h₀ : construct 8 2 4096 (fun _ => 1) = .ok (initializePool 8 2 4096 fun _ => 1) := construct_ok (by decide) _ _
  obtain ⟨p, hrun, ⟨hout, hcount, hnone, hwrap, hself⟩, hsome⟩ := exists_of_any
    (o := run step (initializePool 8 2 4096 fun _ => 1) [.allocate, .deallocate 4096])
    (fun p => (4096 ∉ p.outstanding ∧ p.allocatedCount = 0 ∧ (p.deallocate 4096).1 = none ∧
      (p.deallocate 4096).2.allocatedCount = 2 ^ 64 - 1 ∧ next (p.deallocate 4096).2.mem 4096 = 4096) ∧
      (run step (p.deallocate 4096).2 [.allocate, .allocate]).any
        (fun p' => decide (p'.outstanding = [4096, 4096])) = true) (by decide +kernel)
  obtain ⟨p', hrun', htwice⟩ := exists_of_any (fun p' : Pool => p'.outstanding = [4096, 4096]) hsome
  exact ⟨_, p, p', h₀, hrun, hout, hcount, hnone, hwrap, hself, hrun', htwice⟩

/-! ### Construction -/

/-- The addresses of the link stores of `Initialize`: those of the loop, with `k` rounds to go at
index `i` and pointer `current`, and the last one, of null. -/
def linkStores (memory blockSize : ℕ) : ℕ → ℕ → Memory × ℕ → List ℕ
  | 0, _, (_, current) => [current]
  | k + 1, i, (mem, current) =>
      let mem' := setNext mem current (wrap (memory + wrap ((i + 1) * blockSize)))
      current :: linkStores memory blockSize k (i + 1) (mem', next mem' current)

inductive Thrown where
  | invalidArgument (what : String)
  | badAlloc
deriving DecidableEq, Repr

/-- A constructed pool, the bytes allocated for it and the addresses its links were stored to. -/
structure Built where
  pool : Pool
  totalSize : ℕ
  stores : List ℕ

/-- The constructor with `new char[n]`, which throws (`none`) or returns an address. -/
def build (newChar : ℕ → Option ℕ) (block_size num_blocks : ℕ) (mem : Memory) : Except Thrown Built :=
  let blockSize := effectiveSize block_size
  if blockSize = 0 ∨ num_blocks = 0 then
    .error (.invalidArgument "block_size and num_blocks must be greater than 0")
  else
    let totalSize := wrap (blockSize * num_blocks)
    match newChar totalSize with
    | none => .error .badAlloc
    | some memory =>
        .ok ⟨initializePool blockSize num_blocks memory mem, totalSize,
          linkStores memory blockSize (num_blocks - 1) 0 (mem.fill memory totalSize 0, memory)⟩

/-- Every link store lies inside the allocation, and the free list has exactly `num_blocks_`
blocks, which lie inside it and do not overlap. -/
structure Sound (b : Built) : Prop where
  stores : ∀ a ∈ b.stores, b.pool.memory ≤ a ∧ a + sizeofBlock ≤ b.pool.memory + b.totalSize
  list : ∃ free, Chain (next b.pool.mem) b.pool.freeList free ∧ free.length = b.pool.numBlocks ∧ free.Nodup ∧
    (∀ c ∈ free, b.pool.memory ≤ c ∧ c + b.pool.blockSize ≤ b.pool.memory + b.totalSize) ∧
    ∀ a ∈ free, ∀ c ∈ free, a ≠ c → a + b.pool.blockSize ≤ c ∨ c + b.pool.blockSize ≤ a

section build

variable {newChar : ℕ → Option ℕ} {block_size num_blocks memory : ℕ} {mem : Memory} {b : Built}

/-- What a successful construction leaves; `construct` is the part after `new`. -/
theorem build_ok (hb : build newChar block_size num_blocks mem = .ok b) :
    ∃ memory, newChar (wrap (effectiveSize block_size * num_blocks)) = some memory ∧
      construct block_size num_blocks memory mem = .ok b.pool ∧
      b.totalSize = wrap (effectiveSize block_size * num_blocks) ∧
      b.stores = linkStores memory (effectiveSize block_size) (num_blocks - 1) 0
        (mem.fill memory b.totalSize 0, memory) := by
  unfold build at hb
  simp only [] at hb
  split_ifs at hb with hz
  split at hb
  · cases hb
  · rename_i memory hnew
    cases hb
    refine ⟨memory, hnew, ?_, rfl, rfl⟩
    unfold construct
    rw [if_neg hz]

theorem exists_build (hnum : num_blocks ≠ 0)
    (hnew : newChar (wrap (effectiveSize block_size * num_blocks)) = some memory) :
    ∃ b, build newChar block_size num_blocks mem = .ok b := by
  have hsize := sizeofBlock_le_effectiveSize block_size
  have h8 : sizeofBlock = 8 := rfl
  have hz : ¬ (effectiveSize block_size = 0 ∨ num_blocks = 0) := by omega
  simp only [build, if_neg hz, hnew]
  exact ⟨_, rfl⟩

theorem mem_linkStores (size k i : ℕ) (mem : Memory) (current : ℕ) :
    current ∈ linkStores memory size k i (mem, current) := by
  cases k with
  | zero => exact List.mem_singleton_self current
  | succ k => exact List.mem_cons_self

/-- When the blocks have addresses, the links go to the block starts. -/
theorem linkStores_spec {size : ℕ} (k i : ℕ) (mem : Memory) (hfits : memory + (i + k) * size < 2 ^ 64) :
    linkStores memory size k i (mem, memory + i * size) =
      (List.range' i (k + 1)).map fun j => memory + j * size := by
  induction k generalizing i mem with
  | zero => rfl
  | succ k ih =>
      have hassoc : i + (k + 1) = i + 1 + k := by omega
      rw [hassoc] at hfits
      have hstep : (i + 1) * size ≤ (i + 1 + k) * size := Nat.mul_le_mul_right _ (by omega)
      obtain ⟨hwrap, hread⟩ := link_step i mem (show memory + (i + 1) * size < 2 ^ 64 by omega)
      rw [linkStores, hwrap, hread, ih (i + 1) _ hfits]
      rfl

/-- The constructor is sound when the blocks fit. -/
theorem sound_of_fits (hnew : ∀ n m, newChar n = some m → Placed m n)
    (hprod : effectiveSize block_size * num_blocks < 2 ^ 64)
    (hb : build newChar block_size num_blocks mem = .ok b) : Sound b := by
  obtain ⟨memory, hm, hc, htotal, hstores⟩ := build_ok hb
  have hplaced := hnew _ _ hm
  have hi := inv_construct hprod hplaced hc
  obtain ⟨hmem, hsize, hnum⟩ := construct_fixed hc
  have hT : b.totalSize = b.pool.numBlocks * b.pool.blockSize := by
    rw [htotal, hsize, hnum, Nat.mul_comm num_blocks]
    exact Nat.mod_eq_of_lt hprod
  have hroom := hi.geometry.room
  -- a block of the pool lies inside the allocation
  have hinside : ∀ c ∈ b.pool.blocks, b.pool.memory ≤ c ∧ c + b.pool.blockSize ≤ b.pool.memory + b.totalSize := by
    intro c hc
    obtain ⟨i, hi, rfl⟩ := mem_blocks.mp hc
    have := block_le hi b.pool.blockSize
    rw [hT]
    omega
  refine ⟨?_, b.pool.blocks, hi.chain, by simp [blocks], hi.geometry.blocks_nodup, hinside, ?_⟩
  · intro a ha
    have hblock : a ∈ b.pool.blocks := by
      have hlast : num_blocks - 1 < num_blocks := by
        have hne : num_blocks ≠ 0 := by
          rintro rfl
          unfold construct at hc
          simp at hc
        omega
      have hfits : memory + (0 + (num_blocks - 1)) * effectiveSize block_size < 2 ^ 64 := by
        have hend := hi.geometry.fits
        rw [hmem, hsize, hnum] at hend
        have := block_le hlast (effectiveSize block_size)
        rw [Nat.zero_add]
        omega
      have hspec := linkStores_spec (num_blocks - 1) 0 (mem.fill memory b.totalSize 0) hfits
      rw [Nat.zero_mul, Nat.add_zero] at hspec
      rw [hstores, hspec] at ha
      obtain ⟨j, hj, rfl⟩ := List.mem_map.mp ha
      apply mem_blocks.mpr
      rw [List.mem_range'_1] at hj
      exact ⟨j, by omega, by rw [hmem, hsize]⟩
    have := hinside a hblock
    omega
  · intro a ha c hc hne
    exact blocks_apart ha hc hne

/-- A free list of all blocks does not fit into a product that has wrapped. -/
theorem not_sound_of_overflow (hprod : 2 ^ 64 ≤ effectiveSize block_size * num_blocks)
    (hb : build newChar block_size num_blocks mem = .ok b) : ¬ Sound b := by
  intro hs
  obtain ⟨memory, -, hc, htotal, -⟩ := build_ok hb
  obtain ⟨-, hsize, hnum⟩ := construct_fixed hc
  obtain ⟨free, -, hlen, hnd, hin, hapart⟩ := hs.list
  have hle := length_mul_le hnd hin hapart
  have hlt : b.totalSize < 2 ^ 64 := by
    rw [htotal]
    exact Nat.mod_lt _ (by decide)
  rw [hlen, hsize, hnum, Nat.mul_comm] at hle
  omega

/-- **Construction.**  For all sizes, and whatever `new char[n]` does, as long as it throws or
returns the address of an array of `n` bytes: the constructor throws or is sound if and only if
there are no blocks, `new` throws, or `block_size_ * num_blocks_` does not wrap. -/
theorem construction_iff (newChar : ℕ → Option ℕ) (hnew : ∀ n m, newChar n = some m → Placed m n)
    (block_size num_blocks : ℕ) (mem : Memory) :
    (∀ b, build newChar block_size num_blocks mem = .ok b → Sound b) ↔
      num_blocks = 0 ∨ newChar (wrap (effectiveSize block_size * num_blocks)) = none ∨
        effectiveSize block_size * num_blocks < 2 ^ 64 := by
  constructor
  · intro h
    by_contra hno
    simp only [not_or, Nat.not_lt] at hno
    obtain ⟨hnum, hnone, hprod⟩ := hno
    obtain ⟨memory, hm⟩ := Option.ne_none_iff_exists'.mp hnone
    obtain ⟨b, hb⟩ := exists_build hnum hm
    exact not_sound_of_overflow hprod hb (h b hb)
  · rintro (rfl | hnone | hprod) b hb
    · simp [build] at hb
    · obtain ⟨memory, hm, -⟩ := build_ok hb
      rw [hnone] at hm
      cases hm
    · exact sound_of_fits hnew hprod hb

end build

/-- A machine with a gigabyte to give away. -/
def gigabyte (n : ℕ) : Option ℕ := if n ≤ 2 ^ 30 then some 4096 else none

theorem placed_gigabyte : ∀ n m, gigabyte n = some m → Placed m n := by
  intro n m h
  unfold gigabyte at h
  split_ifs at h
  cases h
  exact ⟨by decide, by omega⟩

/-- The pool of the default configuration: `MemoryPool(4096, 100000)`. -/
theorem construction_default : ∃ b, build gigabyte 4096 100000 (fun _ => 0) = .ok b ∧ Sound b := by
  have hnew : gigabyte (wrap (effectiveSize 4096 * 100000)) = some 4096 := by decide +kernel
  obtain ⟨b, hb⟩ : ∃ b, build gigabyte 4096 100000 (fun _ => 0) = .ok b := exists_build (by decide) hnew
  exact ⟨b, hb, (construction_iff gigabyte placed_gigabyte 4096 100000 _).mpr (Or.inr (Or.inr (by decide))) b hb⟩

/-- `MemoryPool(4096, 2 ^ 52)` asks for no bytes at all and links its first block, which is not
there. -/
theorem construction_wraps :
    ∃ b, build gigabyte 4096 (2 ^ 52) (fun _ => 0) = .ok b ∧ b.totalSize = 0 ∧ 4096 ∈ b.stores ∧ ¬ Sound b := by
  have hnew : gigabyte (wrap (effectiveSize 4096 * 2 ^ 52)) = some 4096 := by decide +kernel
  obtain ⟨b, hb⟩ : ∃ b, build gigabyte 4096 (2 ^ 52) (fun _ => 0) = .ok b := exists_build (by decide) hnew
  obtain ⟨memory, hm, -, htotal, hstores⟩ := build_ok hb
  have hzero : wrap (effectiveSize 4096 * 2 ^ 52) = 0 := by decide +kernel
  rw [hzero] at hm htotal
  cases hm
  refine ⟨b, hb, htotal, ?_, not_sound_of_overflow (by decide +kernel) hb⟩
  rw [hstores]
  exact mem_linkStores _ _ _ _ _

end Pool

end MemoryPool
