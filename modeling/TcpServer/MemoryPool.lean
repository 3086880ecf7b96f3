import TcpServer.Transition
import TcpServer.Memory
import Mathlib.Data.List.Perm.Basic
import Mathlib.Data.List.Range
import Mathlib.Data.List.Nodup

/-! # The fixed-size block pool (`util/memory_pool.h`, `util/memory_pool.cpp`)

The pool owns `num_blocks_` blocks of `block_size_` bytes in one allocation.  A free block
holds, in its first eight bytes, the address of the next free block: the free list lives in the
memory the clients are given.  The model keeps the bytes, so that a client's write and a link
of the free list are writes to one memory.

The clients are adversarial within the contract of an allocator (`clientOk`): they allocate,
deallocate what they hold, deallocate null and pointers that are no block starts, and write
anything anywhere inside the blocks they hold.

`size_t` arithmetic is taken modulo `2 ^ 64`.  The address `new char[...]` returns is a
parameter, of which the code relies on what the language promises: it is not null, and the
array and its end have addresses (`Placed`). -/

namespace MemoryPool

open Transition ByteMemory

/-- `size_t` and pointer arithmetic. -/
def wrap (n : ℕ) : ℕ := n % 2 ^ 64

/-- `a - b` on `size_t`. -/
def wrapSub (a b : ℕ) : ℕ := if b ≤ a then a - b else 2 ^ 64 - (b - a)

/-- `sizeof(Block)`. -/
def sizeofBlock : ℕ := 8

/-- The pool, the memory, and the pointers the clients hold. -/
structure Pool where
  blockSize : ℕ
  numBlocks : ℕ
  allocatedCount : ℕ
  freeList : ℕ
  memory : ℕ
  mem : Memory
  outstanding : List ℕ

namespace Pool

/-- `block->next`. -/
def next (mem : Memory) (block : ℕ) : ℕ := mem.load block sizeofBlock

/-- `block->next = p`. -/
def setNext (mem : Memory) (block p : ℕ) : Memory := mem.store block sizeofBlock p

/-- `block_size_` as the constructor computes it. -/
def effectiveSize (block_size : ℕ) : ℕ := if block_size < sizeofBlock then sizeofBlock else block_size

/-- The loop of `Initialize`, with `k` rounds to go, at index `i` and pointer `current`. -/
def linkLoop (memory blockSize : ℕ) : ℕ → ℕ → Memory × ℕ → Memory × ℕ
  | 0, _, s => s
  | k + 1, i, (mem, current) =>
      let mem' := setNext mem current (wrap (memory + wrap ((i + 1) * blockSize)))
      linkLoop memory blockSize k (i + 1) (mem', next mem' current)

/-- `Initialize`, where `new char[total_size]` returned `memory`. -/
def initializePool (blockSize numBlocks memory : ℕ) (mem : Memory) : Pool :=
  let mem := mem.fill memory (wrap (blockSize * numBlocks)) 0
  let (mem, current) := linkLoop memory blockSize (numBlocks - 1) 0 (mem, memory)
  { blockSize := blockSize
    numBlocks := numBlocks
    allocatedCount := 0
    freeList := memory
    memory := memory
    mem := setNext mem current 0
    outstanding := [] }

/-- The constructor. -/
def construct (block_size num_blocks memory : ℕ) (mem : Memory) : Except String Pool :=
  let blockSize := effectiveSize block_size
  if blockSize = 0 ∨ num_blocks = 0 then
    .error "block_size and num_blocks must be greater than 0"
  else
    .ok (initializePool blockSize num_blocks memory mem)

/-- `Allocate`: the pointer returned (null is `0`) and the pool after it. -/
def allocate (p : Pool) : ℕ × Pool :=
  if p.freeList = 0 then (0, p)
  else
    (p.freeList, { p with freeList := next p.mem p.freeList
                          allocatedCount := wrap (p.allocatedCount + 1)
                          outstanding := p.freeList :: p.outstanding })

/-- `IsValidPointer`. -/
def isValidPointer (p : Pool) (ptr : ℕ) : Bool :=
  if ptr < p.memory ∨ wrap (p.memory + wrap (p.numBlocks * p.blockSize)) ≤ ptr then false
  else decide ((ptr - p.memory) % p.blockSize = 0)

/-- `Deallocate`; the text is what it writes to `std::cerr`. -/
def deallocate (p : Pool) (ptr : ℕ) : Option String × Pool :=
  if ptr = 0 then (none, p)
  else if p.isValidPointer ptr then
    (none, { p with mem := setNext p.mem ptr p.freeList
                    freeList := ptr
                    allocatedCount := wrapSub p.allocatedCount 1
                    outstanding := p.outstanding.erase ptr })
  else (some "MemoryPool: Invalid pointer detected", p)

/-- `GetAvailableCount`. -/
def getAvailableCount (p : Pool) : ℕ := wrapSub p.numBlocks p.allocatedCount

inductive Label where
  | allocate
  | deallocate (ptr : ℕ)
  | write (a : ℕ) (b : UInt8)
deriving DecidableEq, Repr

def step (p : Pool) : Label → Option Pool
  | .allocate => some p.allocate.2
  | .deallocate ptr => some (p.deallocate ptr).2
  | .write a b => some { p with mem := p.mem.set a b }

/-- The blocks of the pool, by their start. -/
def blocks (p : Pool) : List ℕ := (List.range p.numBlocks).map (fun i => p.memory + i * p.blockSize)

/-- The contract of the clients. -/
def clientOk (p : Pool) : Label → Prop
  | .allocate => True
  | .deallocate ptr => ptr ∈ p.outstanding ∨ ptr = 0 ∨ ptr ∉ p.blocks
  | .write a _ => ∃ b ∈ p.outstanding, b ≤ a ∧ a < b + p.blockSize

instance decidableClientOk (p : Pool) : ∀ l : Label, Decidable (p.clientOk l)
  | .allocate => isTrue trivial
  | .deallocate ptr => inferInstanceAs (Decidable (ptr ∈ p.outstanding ∨ ptr = 0 ∨ ptr ∉ p.blocks))
  | .write a _ => inferInstanceAs (Decidable (∃ b ∈ p.outstanding, b ≤ a ∧ a < b + p.blockSize))

/-- What the language promises of an array of `n` bytes at `memory`. -/
structure Placed (memory n : ℕ) : Prop where
  notNull : memory ≠ 0
  fits : memory + n < 2 ^ 64

/-! ### The blocks -/

/-- The fixed part of a pool: room for a link in each block, and addresses for all of them. -/
structure Geometry (p : Pool) : Prop where
  room : sizeofBlock ≤ p.blockSize
  notNull : p.memory ≠ 0
  fits : p.memory + p.numBlocks * p.blockSize < 2 ^ 64

theorem mem_blocks {p : Pool} {b : ℕ} : b ∈ p.blocks ↔ ∃ i < p.numBlocks, b = p.memory + i * p.blockSize := by
  simp only [blocks, List.mem_map, List.mem_range]
  constructor
  · rintro ⟨i, hi, rfl⟩
    exact ⟨i, hi, rfl⟩
  · rintro ⟨i, hi, rfl⟩
    exact ⟨i, hi, rfl⟩

/-- A smaller index means a block that ends before the other starts. -/
theorem block_le {i j : ℕ} (h : i < j) (size : ℕ) : i * size + size ≤ j * size := by
  have := Nat.mul_le_mul_right size h
  rwa [Nat.succ_mul] at this

/-- Distinct blocks do not overlap. -/
theorem blocks_apart {p : Pool} {a b : ℕ} (ha : a ∈ p.blocks) (hb : b ∈ p.blocks) (hne : a ≠ b) :
    a + p.blockSize ≤ b ∨ b + p.blockSize ≤ a := by
  obtain ⟨i, _, rfl⟩ := mem_blocks.mp ha
  obtain ⟨j, _, rfl⟩ := mem_blocks.mp hb
  rcases Nat.lt_trichotomy i j with h | rfl | h
  · have := block_le h p.blockSize
    omega
  · exact absurd rfl hne
  · have := block_le h p.blockSize
    omega

namespace Geometry

variable {p : Pool}

theorem pos (hg : p.Geometry) : 0 < p.blockSize := Nat.lt_of_lt_of_le (by decide) hg.room

theorem blocks_nodup (hg : p.Geometry) : p.blocks.Nodup := by
  apply List.Nodup.map _ List.nodup_range
  intro i j h
  have : i * p.blockSize = j * p.blockSize := Nat.add_left_cancel h
  exact Nat.eq_of_mul_eq_mul_right hg.pos this

/-- A block lies between the start of the pool and its end. -/
theorem block_bounds (hg : p.Geometry) {b : ℕ} (hb : b ∈ p.blocks) :
    p.memory ≤ b ∧ b < p.memory + p.numBlocks * p.blockSize := by
  obtain ⟨i, hi, rfl⟩ := mem_blocks.mp hb
  have := block_le hi p.blockSize
  have := hg.pos
  omega

theorem numBlocks_lt (hg : p.Geometry) : p.numBlocks < 2 ^ 64 := by
  have : p.numBlocks * 1 ≤ p.numBlocks * p.blockSize := Nat.mul_le_mul_left _ hg.pos
  have := hg.fits
  omega

/-- `IsValidPointer` accepts exactly the block starts. -/
theorem isValidPointer_iff (hg : p.Geometry) (ptr : ℕ) : p.isValidPointer ptr = true ↔ ptr ∈ p.blocks := by
  have hfits := hg.fits
  have hwrap : wrap (p.memory + wrap (p.numBlocks * p.blockSize)) = p.memory + p.numBlocks * p.blockSize := by
    unfold wrap
    rw [Nat.mod_eq_of_lt (a := p.numBlocks * p.blockSize) (by omega), Nat.mod_eq_of_lt hfits]
  unfold isValidPointer
  rw [hwrap]
  constructor
  · intro h
    split at h
    · cases h
    · next hr =>
        have hmod := of_decide_eq_true h
        have hdiv := Nat.div_add_mod (ptr - p.memory) p.blockSize
        rw [hmod, Nat.add_zero, Nat.mul_comm] at hdiv
        apply mem_blocks.mpr
        refine ⟨(ptr - p.memory) / p.blockSize, ?_, by omega⟩
        apply Nat.div_lt_of_lt_mul
        rw [Nat.mul_comm]
        omega
  · intro hb
    have hbounds := hg.block_bounds hb
    rw [if_neg (by omega)]
    obtain ⟨i, _, rfl⟩ := mem_blocks.mp hb
    simp

end Geometry

/-! ### The invariant -/

/-- The free list is `free`, and every block is free or outstanding, never both. -/
structure Inv (p : Pool) (free : List ℕ) : Prop where
  geometry : p.Geometry
  chain : Chain (next p.mem) p.freeList free
  partition : (free ++ p.outstanding).Perm p.blocks
  count : p.allocatedCount = p.outstanding.length

namespace Inv

variable {p : Pool} {free : List ℕ}

theorem nodup (hi : p.Inv free) : (free ++ p.outstanding).Nodup :=
  hi.partition.nodup_iff.mpr hi.geometry.blocks_nodup

theorem free_mem (hi : p.Inv free) {b : ℕ} (hb : b ∈ free) : b ∈ p.blocks :=
  hi.partition.mem_iff.mp (List.mem_append_left _ hb)

theorem outstanding_mem (hi : p.Inv free) {b : ℕ} (hb : b ∈ p.outstanding) : b ∈ p.blocks :=
  hi.partition.mem_iff.mp (List.mem_append_right _ hb)

theorem ne_of_mem (hi : p.Inv free) {a b : ℕ} (ha : a ∈ free) (hb : b ∈ p.outstanding) : a ≠ b :=
  (List.nodup_append.mp hi.nodup).2.2 a ha b hb

theorem length_add (hi : p.Inv free) : free.length + p.outstanding.length = p.numBlocks := by
  have := hi.partition.length_eq
  simpa [blocks] using this

/-- Changing bytes of an outstanding block does not touch the links of the free list. -/
theorem chain_congr (hi : p.Inv free) {b : ℕ} (hb : b ∈ p.outstanding) {mem' : Memory}
    (hmem : ∀ x, x < b ∨ b + p.blockSize ≤ x → mem' x = p.mem x) :
    Chain (next mem') p.freeList free := by
  apply hi.chain.congr
  intro a ha
  apply Memory.load_congr
  intro x h1 h2
  apply hmem
  have hroom := hi.geometry.room
  have := blocks_apart (hi.free_mem ha) (hi.outstanding_mem hb) (hi.ne_of_mem ha hb)
  omega

theorem freeList_lt (hi : p.Inv free) : p.freeList < 256 ^ sizeofBlock := by
  have hpow : (256 : ℕ) ^ sizeofBlock = 2 ^ 64 := by decide
  rw [hpow]
  rcases hi.chain.head with h | h
  · rw [h]
    decide
  · have hb := hi.geometry.block_bounds (hi.free_mem h)
    have hf := hi.geometry.fits
    omega

/-- `Allocate` takes the head of the free list. -/
theorem allocate_cons {b : ℕ} {rest : List ℕ} (hi : p.Inv (b :: rest)) :
    p.allocate.1 = b ∧ p.allocate.2.Inv rest := by
  obtain ⟨hb, hb0, hrest⟩ := hi.chain
  have hlen := hi.length_add
  have hlt := hi.geometry.numBlocks_lt
  have hne : p.freeList ≠ 0 := by rwa [hb]
  unfold allocate
  rw [if_neg hne]
  refine ⟨hb, ?_⟩
  constructor
  · exact ⟨hi.geometry.room, hi.geometry.notNull, hi.geometry.fits⟩
  · rw [hb]
    exact hrest
  · have hpart := hi.partition
    simp only [blocks, hb] at hpart ⊢
    exact List.perm_middle.trans hpart
  · show wrap (p.allocatedCount + 1) = p.outstanding.length + 1
    unfold wrap
    rw [hi.count]
    apply Nat.mod_eq_of_lt
    simp only [List.length_cons] at hlen
    omega

/-- `Allocate` on an exhausted pool returns null and changes nothing. -/
theorem allocate_nil (hi : p.Inv []) : p.allocate = (0, p) := by
  unfold allocate
  rw [if_pos (hi.chain.eq_zero_iff.mpr rfl)]

theorem allocate (hi : p.Inv free) : ∃ free', p.allocate.2.Inv free' := by
  cases free with
  | nil =>
      rw [hi.allocate_nil]
      exact ⟨[], hi⟩
  | cons b rest => exact ⟨rest, hi.allocate_cons.2⟩

/-- `Deallocate` of an outstanding pointer makes it the head of the free list. -/
theorem deallocate_outstanding (hi : p.Inv free) {b : ℕ} (hb : b ∈ p.outstanding) :
    (p.deallocate b).2.Inv (b :: free) := by
  have hblock := hi.outstanding_mem hb
  have hroom := hi.geometry.room
  have hb0 : b ≠ 0 := by
    have := (hi.geometry.block_bounds hblock).1
    have := hi.geometry.notNull
    omega
  have hpos : 0 < p.outstanding.length := List.length_pos_of_mem hb
  unfold deallocate
  rw [if_neg hb0, if_pos ((hi.geometry.isValidPointer_iff b).mpr hblock)]
  constructor
  · exact ⟨hi.geometry.room, hi.geometry.notNull, hi.geometry.fits⟩
  · refine ⟨rfl, hb0, ?_⟩
    have hnext : next (setNext p.mem b p.freeList) b = p.freeList := by
      unfold next setNext
      rw [Memory.load_store_same]
      exact Nat.mod_eq_of_lt hi.freeList_lt
    show Chain (next (setNext p.mem b p.freeList)) (next (setNext p.mem b p.freeList) b) free
    rw [hnext]
    apply hi.chain_congr hb
    intro x hx
    apply Memory.store_frame
    omega
  · have hperm : (b :: p.outstanding.erase b).Perm p.outstanding := (List.perm_cons_erase hb).symm
    have hpart := hi.partition
    simp only [blocks] at hpart ⊢
    exact List.perm_middle.symm.trans ((hperm.append_left free).trans hpart)
  · show wrapSub p.allocatedCount 1 = (p.outstanding.erase b).length
    rw [List.length_erase_of_mem hb, hi.count]
    exact if_pos hpos

/-- `Deallocate` of null or of a pointer that is no block start changes nothing. -/
theorem deallocate_ignored (hi : p.Inv free) {ptr : ℕ} (h : ptr = 0 ∨ ptr ∉ p.blocks) :
    (p.deallocate ptr).2 = p := by
  unfold deallocate
  split
  · rfl
  · next h0 =>
      have hnb : ptr ∉ p.blocks := h.resolve_left h0
      rw [← hi.geometry.isValidPointer_iff ptr] at hnb
      rw [if_neg hnb]

/-- A client's write inside a block it holds. -/
theorem write (hi : p.Inv free) {a b : ℕ} {v : UInt8} (hb : b ∈ p.outstanding) (h1 : b ≤ a)
    (h2 : a < b + p.blockSize) : Inv { p with mem := p.mem.set a v } free := by
  refine ⟨⟨hi.geometry.room, hi.geometry.notNull, hi.geometry.fits⟩, ?_, hi.partition, hi.count⟩
  apply hi.chain_congr hb
  intro x hx
  apply Memory.set_of_ne
  omega

end Inv

/-- **The step lemma.** -/
theorem inv_step {p p' : Pool} {l : Label} {free : List ℕ} (hi : p.Inv free) (hok : p.clientOk l)
    (h : step p l = some p') : ∃ free', p'.Inv free' := by
  cases l with
  | allocate =>
      cases h
      exact hi.allocate
  | deallocate ptr =>
      cases h
      by_cases hout : ptr ∈ p.outstanding
      · exact ⟨ptr :: free, hi.deallocate_outstanding hout⟩
      · rw [hi.deallocate_ignored (hok.resolve_left hout)]
        exact ⟨free, hi⟩
  | write a v =>
      cases h
      obtain ⟨b, hb, h1, h2⟩ := hok
      exact ⟨free, hi.write hb h1 h2⟩

/-! ### `Initialize` -/

/-- One round of the loop: the address of the next block, and the link read back. -/
theorem link_step {memory size : ℕ} (i : ℕ) (mem : Memory) (hfits : memory + (i + 1) * size < 2 ^ 64) :
    wrap (memory + wrap ((i + 1) * size)) = memory + (i + 1) * size ∧
      next (setNext mem (memory + i * size) (memory + (i + 1) * size)) (memory + i * size) =
        memory + (i + 1) * size := by
  constructor
  · unfold wrap
    rw [Nat.mod_eq_of_lt (a := (i + 1) * size) (by omega), Nat.mod_eq_of_lt hfits]
  · unfold next setNext
    rw [Memory.load_store_same]
    apply Nat.mod_eq_of_lt
    have hpow : (256 : ℕ) ^ sizeofBlock = 2 ^ 64 := by decide
    omega

/-- The loop links every block to the next one, ends at the last one, and writes only from
the block it starts at. -/
theorem linkLoop_spec {memory size : ℕ} (hroom : sizeofBlock ≤ size) (k i : ℕ) (mem : Memory)
    (hfits : memory + (i + k) * size < 2 ^ 64) :
    (linkLoop memory size k i (mem, memory + i * size)).2 = memory + (i + k) * size ∧
      (∀ x < memory + i * size, (linkLoop memory size k i (mem, memory + i * size)).1 x = mem x) ∧
      ∀ j, i ≤ j → j < i + k →
        next (linkLoop memory size k i (mem, memory + i * size)).1 (memory + j * size) =
          memory + (j + 1) * size := by
  induction k generalizing i mem with
  | zero =>
      refine ⟨rfl, fun _ _ => rfl, ?_⟩
      intro j h1 h2
      omega
  | succ k ih =>
      have hassoc : i + (k + 1) = i + 1 + k := by omega
      rw [hassoc] at hfits ⊢
      have hstep : (i + 1) * size ≤ (i + 1 + k) * size := Nat.mul_le_mul_right _ (by omega)
      have hsucc : (i + 1) * size = i * size + size := Nat.succ_mul i size
      obtain ⟨hwrap, hread⟩ := link_step i mem (show memory + (i + 1) * size < 2 ^ 64 by omega)
      rw [linkLoop, hwrap, hread]
      obtain ⟨hcur, hframe, hlinks⟩ :=
        ih (i + 1) (setNext mem (memory + i * size) (memory + (i + 1) * size)) hfits
      refine ⟨hcur, ?_, ?_⟩
      · intro x hx
        rw [hframe x (by omega)]
        exact Memory.store_frame _ (Or.inl hx)
      · intro j h1 h2
        rcases Nat.eq_or_lt_of_le h1 with rfl | hlt
        · refine Eq.trans (Memory.load_congr ?_) hread
          intro x _ hx
          exact hframe x (by omega)
        · exact hlinks j hlt h2

theorem inv_initializePool {size num memory : ℕ} (mem : Memory) (hroom : sizeofBlock ≤ size) (hnum : 1 ≤ num)
    (hplaced : Placed memory (size * num)) :
    (initializePool size num memory mem).Inv (initializePool size num memory mem).blocks := by
  have hfits := hplaced.fits
  rw [Nat.mul_comm] at hfits
  have hlast : (num - 1) * size + size = num * size := by
    rw [← Nat.succ_mul]
    congr 1
    omega
  have hblocks : memory + (0 + (num - 1)) * size < 2 ^ 64 := by
    rw [Nat.zero_add]
    omega
  obtain ⟨hcur, _, hlinks⟩ := linkLoop_spec hroom (num - 1) 0 (mem.fill memory (wrap (size * num)) 0) hblocks
  rw [Nat.zero_mul, Nat.add_zero, Nat.zero_add] at hcur
  simp only [Nat.zero_mul, Nat.add_zero, Nat.zero_add] at hlinks
  constructor
  · exact ⟨hroom, hplaced.notNull, hfits⟩
  · have hlinked : ∀ j, 0 ≤ j → j < 0 + (num - 1) →
        next (initializePool size num memory mem).mem (memory + j * size) = memory + (j + 1) * size := by
      intro j _ hj
      rw [← hlinks j (Nat.zero_le j) (by omega)]
      apply Memory.load_store_disjoint
      rw [hcur]
      have := block_le (i := j) (j := num - 1) (by omega) size
      omega
    have hend : next (initializePool size num memory mem).mem (memory + (0 + (num - 1)) * size) = 0 := by
      simp only [initializePool, next, setNext, hcur, Nat.zero_add]
      rw [Memory.load_store_same]
      rfl
    have hchain := Chain.of_sequence (b := fun i => memory + i * size)
      (fun j h => hplaced.notNull (by omega)) 0 (num - 1) hlinked hend
    rw [show num - 1 + 1 = num by omega, ← List.range_eq_range'] at hchain
    simpa [initializePool, blocks] using hchain
  · simp [initializePool]
  · rfl

theorem sizeofBlock_le_effectiveSize (block_size : ℕ) : sizeofBlock ≤ effectiveSize block_size := by
  unfold effectiveSize
  split <;> omega

theorem construct_ok {block_size num_blocks : ℕ} (hnum : 1 ≤ num_blocks) (memory : ℕ) (mem : Memory) :
    construct block_size num_blocks memory mem =
      .ok (initializePool (effectiveSize block_size) num_blocks memory mem) := by
  have hsize := sizeofBlock_le_effectiveSize block_size
  have h8 : sizeofBlock = 8 := rfl
  unfold construct
  rw [if_neg (by omega)]

/-- **The run lemma.** -/
theorem inv_reach {p p' : Pool} {free : List ℕ} (hi : p.Inv free) (h : Reach step clientOk p p') :
    ∃ free', p'.Inv free' := by
  apply Reach.invariant (fun p => ∃ free, p.Inv free) ⟨free, hi⟩ _ h
  rintro p l p' ⟨free, hi⟩ hok hs
  exact inv_step hi hok hs

/-- What a pool whose free list is `free` promises. -/
theorem Inv.refines {p : Pool} {free : List ℕ} (hi : p.Inv free) :
    (p.allocate.1 ≠ 0 → p.allocate.1 ∈ p.blocks ∧ p.allocate.1 ∉ p.outstanding) ∧
      (p.allocate.1 = 0 ↔ p.outstanding.length = p.numBlocks) := by
  have hlen := hi.length_add
  cases free with
  | nil =>
      rw [hi.allocate_nil]
      rw [List.length_nil, Nat.zero_add] at hlen
      simp [hlen]
  | cons b rest =>
      rw [hi.allocate_cons.1]
      have hb0 : b ≠ 0 := hi.chain.2.1
      rw [List.length_cons] at hlen
      constructor
      · intro _
        refine ⟨hi.free_mem List.mem_cons_self, ?_⟩
        intro hout
        exact hi.ne_of_mem List.mem_cons_self hout rfl
      · constructor
        · intro h
          exact absurd h hb0
        · intro h
          omega

/-- Two blocks of eight bytes at `4096`; the client exhausts the pool, overwrites a link,
and gives one block back. -/
def twoBlocks : List Label :=
  [.allocate, .write 4097 7, .allocate, .write 4104 255, .allocate, .deallocate 4100, .deallocate 0,
    .deallocate 4096]

end Pool

end MemoryPool
