import TcpServer.MemoryPool
import TcpServer.Mutex
import TcpServer.Potential

/-! # The block pool among threads (`util/memory_pool.cpp`)

`Allocate` and `Deallocate` as the threads of a program run them: every access to `free_list_`, to a link
and to `allocated_count_` is a step of its own, `pool_mutex_` is taken and given back, and in between the
other threads go on, with calls of their own and with writes to the blocks they were given.  Null and
pointers that are no block starts are turned away before the lock, from fields that never change.

The contract of the clients is that of an allocator (`clientOk`): a pointer given to `Deallocate` is given
up with the call, and a write goes to a block `Allocate` has returned and nobody has given up.

`Serial` is the pool of `Pool` used by one client, with the pointers it was given, in order.  Each call takes
effect at one store to `free_list_` (or, when there is no block, at the test that finds it null):
`linearizable` says that whatever the threads do is such a use. -/

namespace MemoryPool

open Transition ByteMemory Mutex

/-- Where a thread is in `Allocate` or `Deallocate`. -/
inductive Pc where
  /-- Outside. -/
  | idle
  /-- Waiting for `pool_mutex_` in `Allocate`. -/
  | allocLock
  /-- `free_list_ == nullptr`. -/
  | allocTest
  /-- `block = free_list_`. -/
  | allocBlock
  /-- Reading `block->next`. -/
  | allocNext (block : ℕ)
  /-- `free_list_ = next`. -/
  | allocStore (block next : ℕ)
  /-- `++allocated_count_`. -/
  | allocCount (block : ℕ)
  /-- Returning. -/
  | allocUnlock (result : ℕ)
  /-- Waiting for `pool_mutex_` in `Deallocate`. -/
  | deallocLock (ptr : ℕ)
  /-- Reading `free_list_`. -/
  | deallocLoad (ptr : ℕ)
  /-- `block->next = head`. -/
  | deallocLink (ptr head : ℕ)
  /-- `free_list_ = block`. -/
  | deallocHead (ptr : ℕ)
  /-- `--allocated_count_`. -/
  | deallocCount
  /-- Returning. -/
  | deallocUnlock
deriving DecidableEq, Repr

namespace Pc

/-- Between the lock and the unlock. -/
def inside : Pc → Bool
  | .idle | .allocLock | .deallocLock _ => false
  | _ => true

/-- The block that is neither with the clients nor on the free list, because of this call. -/
def holds : Pc → List ℕ
  | .allocCount b => [b]
  | .allocUnlock b => if b = 0 then [] else [b]
  | .deallocLock ptr | .deallocLoad ptr | .deallocLink ptr _ | .deallocHead ptr => [ptr]
  | _ => []

/-- The block whose link the next step reads or writes. -/
def touches : Pc → Option ℕ
  | .allocNext b => some b
  | .deallocLink ptr _ => some ptr
  | _ => none

/-- What the call will return, from the moment this is settled. -/
def pending : Pc → List ℕ
  | .allocCount b => [b]
  | .allocUnlock r => [r]
  | _ => []

/-- The pool as it will be when the counter has followed the free list. -/
def settle (p : Pool) : Pc → Pool
  | .allocCount _ => { p with allocatedCount := wrap (p.allocatedCount + 1) }
  | .deallocCount => { p with allocatedCount := wrapSub p.allocatedCount 1 }
  | _ => p

end Pc

/-- The pool, its mutex, the threads, the pointers the clients have, the pointers `Allocate` has returned in
the order of the returns, and the lines written to `std::cerr`. -/
structure Shared where
  pool : Pool
  lock : Option ℕ
  threads : ℕ
  pc : ℕ → Pc
  owned : List ℕ
  answers : List ℕ
  cerr : List String

namespace Shared

def init (p : Pool) (threads : ℕ) : Shared :=
  { pool := p, lock := none, threads := threads, pc := fun _ => .idle, owned := [], answers := [], cerr := [] }

inductive Label where
  /-- Thread `i` calls `Allocate`. -/
  | allocate (i : ℕ)
  /-- Thread `i` calls `Deallocate(ptr)`. -/
  | deallocate (i ptr : ℕ)
  /-- Thread `i` takes a step of its call. -/
  | thread (i : ℕ)
  /-- A client writes a byte. -/
  | write (a : ℕ) (b : UInt8)
deriving DecidableEq, Repr

/-- Thread `i` goes on at `c`. -/
def goto (s : Shared) (i : ℕ) (c : Pc) : Shared := { s with pc := Function.update s.pc i c }

/-- `std::lock_guard<std::mutex> lock(pool_mutex_)`. -/
def acquire (s : Shared) (i : ℕ) (c : Pc) : Option Shared :=
  if s.lock = none then some { s.goto i c with lock := some i } else none

/-- One step of the call thread `i` is in. -/
def advance (s : Shared) (i : ℕ) : Pc → Option Shared
  | .idle => none
  | .allocLock => s.acquire i .allocTest
  | .allocTest => some (s.goto i (if s.pool.freeList = 0 then .allocUnlock 0 else .allocBlock))
  | .allocBlock => some (s.goto i (.allocNext s.pool.freeList))
  | .allocNext b => some (s.goto i (.allocStore b (Pool.next s.pool.mem b)))
  | .allocStore b n =>
      some { s.goto i (.allocCount b) with
        pool := { s.pool with freeList := n, outstanding := b :: s.pool.outstanding } }
  | .allocCount b =>
      some { s.goto i (.allocUnlock b) with
        pool := { s.pool with allocatedCount := wrap (s.pool.allocatedCount + 1) } }
  | .allocUnlock r =>
      some { s.goto i .idle with
        lock := none
        answers := s.answers ++ [r]
        owned := if r = 0 then s.owned else r :: s.owned }
  | .deallocLock ptr => s.acquire i (.deallocLoad ptr)
  | .deallocLoad ptr => some (s.goto i (.deallocLink ptr s.pool.freeList))
  | .deallocLink ptr head =>
      some { s.goto i (.deallocHead ptr) with
        pool := { s.pool with mem := Pool.setNext s.pool.mem ptr head } }
  | .deallocHead ptr =>
      some { s.goto i .deallocCount with
        pool := { s.pool with freeList := ptr, outstanding := s.pool.outstanding.erase ptr } }
  | .deallocCount =>
      some { s.goto i .deallocUnlock with
        pool := { s.pool with allocatedCount := wrapSub s.pool.allocatedCount 1 } }
  | .deallocUnlock => some { s.goto i .idle with lock := none }

/-- `Deallocate` up to the lock. -/
def deallocate (s : Shared) (i ptr : ℕ) : Shared :=
  if ptr = 0 then s
  else if s.pool.isValidPointer ptr then { s.goto i (.deallocLock ptr) with owned := s.owned.erase ptr }
  else { s with cerr := s.cerr ++ ["MemoryPool: Invalid pointer detected"] }

def step (s : Shared) : Label → Option Shared
  | .allocate i => if i < s.threads ∧ s.pc i = .idle then some (s.goto i .allocLock) else none
  | .deallocate i ptr => if i < s.threads ∧ s.pc i = .idle then some (s.deallocate i ptr) else none
  | .thread i => s.advance i (s.pc i)
  | .write a b => some { s with pool := { s.pool with mem := s.pool.mem.set a b } }

/-- The contract of the clients. -/
def clientOk (s : Shared) : Label → Prop
  | .deallocate _ ptr => ptr ∈ s.owned ∨ ptr = 0 ∨ ptr ∉ s.pool.blocks
  | .write a _ => ∃ b ∈ s.owned, b ≤ a ∧ a < b + s.pool.blockSize
  | _ => True

instance decidableClientOk (s : Shared) : ∀ l : Label, Decidable (s.clientOk l)
  | .allocate _ | .thread _ => isTrue trivial
  | .deallocate _ ptr => inferInstanceAs (Decidable (ptr ∈ s.owned ∨ ptr = 0 ∨ ptr ∉ s.pool.blocks))
  | .write a _ => inferInstanceAs (Decidable (∃ b ∈ s.owned, b ≤ a ∧ a < b + s.pool.blockSize))

/-- `GetAllocatedCount`, at any moment and without the lock. -/
def getAllocatedCount (s : Shared) : ℕ := s.pool.allocatedCount

/-- `GetAvailableCount`, likewise. -/
def getAvailableCount (s : Shared) : ℕ := s.pool.getAvailableCount

/-- What the holder of the lock has settled but not yet returned. -/
def pending (s : Shared) : List ℕ :=
  match s.lock with
  | none => []
  | some i => (s.pc i).pending

/-- The pool as it will be when the holder of the lock has counted. -/
def settled (s : Shared) : Pool :=
  match s.lock with
  | none => s.pool
  | some i => (s.pc i).settle s.pool

end Shared

/-! ### One client -/

/-- A use of the pool by one client that meets the contract: the pointers `Allocate` returned, in order, and
the pool after it. -/
inductive Serial (p₀ : Pool) : List ℕ → Pool → Prop
  | start : Serial p₀ [] p₀
  | allocate {rs : List ℕ} {p : Pool} : Serial p₀ rs p → Serial p₀ (rs ++ [p.allocate.1]) p.allocate.2
  | deallocate {rs : List ℕ} {p : Pool} (ptr : ℕ) :
      Serial p₀ rs p → p.clientOk (.deallocate ptr) → Serial p₀ rs (p.deallocate ptr).2
  | write {rs : List ℕ} {p : Pool} (a : ℕ) (b : UInt8) :
      Serial p₀ rs p → p.clientOk (.write a b) → Serial p₀ rs { p with mem := p.mem.set a b }

namespace Serial

variable {p₀ p : Pool} {rs : List ℕ}

theorem reach (h : Serial p₀ rs p) : Reach Pool.step Pool.clientOk p₀ p := by
  induction h with
  | start => exact .refl
  | allocate _ ih => exact ih.tail (l := .allocate) trivial rfl
  | deallocate ptr _ hok ih => exact ih.tail hok rfl
  | write a b _ hok ih => exact ih.tail hok rfl

/-- A store into a block the client has is as many writes. -/
theorem store (h : Serial p₀ rs p) {b : ℕ} (hb : b ∈ p.outstanding) (a k v : ℕ) (h1 : b ≤ a)
    (h2 : a + k ≤ b + p.blockSize) : Serial p₀ rs { p with mem := p.mem.store a k v } := by
  induction k generalizing p a v with
  | zero => exact h
  | succ k ih =>
      exact ih (h.write a (UInt8.ofNat v) ⟨b, hb, h1, by omega⟩) hb (a + 1) (v / 256) (by omega)
        (show a + 1 + k ≤ b + p.blockSize by omega)

end Serial

/-! ### The invariant -/

namespace Pc

/-- What the thread has read is still so, and the counter is one behind the free list where it has to be. -/
def Right (p : Pool) : Pc → Prop
  | .allocBlock => p.freeList ≠ 0
  | .allocNext b => b = p.freeList ∧ b ≠ 0
  | .allocStore b n => b = p.freeList ∧ b ≠ 0 ∧ n = Pool.next p.mem b
  | .allocCount b => b ≠ 0 ∧ p.allocatedCount + 1 = p.outstanding.length
  | .deallocLink _ head => head = p.freeList
  | .deallocHead ptr => Pool.next p.mem ptr = p.freeList
  | .deallocCount => p.freeList ≠ 0 ∧ p.allocatedCount = p.outstanding.length + 1
  | _ => True

/-- Without the lock a thread has read nothing. -/
theorem right_of_outside {p : Pool} {c : Pc} (h : c.inside = false) : c.Right p := by
  cases c <;> trivial

section settle

variable (p : Pool) (c : Pc)

@[simp] theorem settle_mem : (c.settle p).mem = p.mem := by cases c <;> rfl
@[simp] theorem settle_freeList : (c.settle p).freeList = p.freeList := by cases c <;> rfl
@[simp] theorem settle_outstanding : (c.settle p).outstanding = p.outstanding := by cases c <;> rfl
@[simp] theorem settle_blockSize : (c.settle p).blockSize = p.blockSize := by cases c <;> rfl
@[simp] theorem settle_numBlocks : (c.settle p).numBlocks = p.numBlocks := by cases c <;> rfl
@[simp] theorem settle_blocks : (c.settle p).blocks = p.blocks := by cases c <;> rfl

theorem settle_with_mem (mem : Memory) : c.settle { p with mem := mem } = { c.settle p with mem := mem } := by
  cases c <;> rfl

end settle

end Pc

namespace Shared

variable {p₀ : Pool} {f₀ : List ℕ} {s s' : Shared} {i b : ℕ}

/-- Who holds the lock is inside; what the calls have done is the use of the pool by one client; what the
threads have read is still so; and a block that is not on the free list is with the clients or in the
hands of one call. -/
structure Inv (p₀ : Pool) (s : Shared) : Prop where
  excl : Excl s.lock (fun i => (s.pc i).inside)
  serial : Serial p₀ (s.answers ++ s.pending) s.settled
  right : ∀ i, (s.pc i).Right s.pool
  custody : ∀ b, s.pool.outstanding.count b =
    s.owned.count b + ∑ i ∈ Finset.range s.threads, (s.pc i).holds.count b
  outside : ∀ i, s.threads ≤ i → s.pc i = .idle

theorem inv_init (p₀ : Pool) (hout : p₀.outstanding = []) (threads : ℕ) : Inv p₀ (init p₀ threads) := by
  constructor
  · intro i
    constructor
    · intro h
      cases h
    · intro h
      cases h
  · exact .start
  · intro i
    exact trivial
  · intro b
    simp [init, hout, Pc.holds]
  · intro i _
    rfl

@[simp] theorem settled_mem (s : Shared) : s.settled.mem = s.pool.mem := by
  unfold settled
  split <;> simp

@[simp] theorem settled_freeList (s : Shared) : s.settled.freeList = s.pool.freeList := by
  unfold settled
  split <;> simp

@[simp] theorem settled_outstanding (s : Shared) : s.settled.outstanding = s.pool.outstanding := by
  unfold settled
  split <;> simp

@[simp] theorem settled_blockSize (s : Shared) : s.settled.blockSize = s.pool.blockSize := by
  unfold settled
  split <;> simp

@[simp] theorem settled_numBlocks (s : Shared) : s.settled.numBlocks = s.pool.numBlocks := by
  unfold settled
  split <;> simp

@[simp] theorem settled_blocks (s : Shared) : s.settled.blocks = s.pool.blocks := by
  unfold settled
  split <;> simp

namespace Inv

theorem lock_eq (h : Inv p₀ s) (hin : (s.pc i).inside = true) : s.lock = some i := (h.excl i).mp hin

theorem lt_threads (h : Inv p₀ s) (hi : s.pc i ≠ .idle) : i < s.threads := by
  by_contra hle
  exact hi (h.outside i (Nat.le_of_not_lt hle))

/-- The use of the pool, as the holder of the lock sees it. -/
theorem serial_holder (h : Inv p₀ s) (hin : (s.pc i).inside = true) :
    Serial p₀ (s.answers ++ (s.pc i).pending) ((s.pc i).settle s.pool) := by
  have hser := h.serial
  unfold pending settled at hser
  rw [h.lock_eq hin] at hser
  exact hser

/-- The same, before the call has taken effect and after it has been counted. -/
theorem serial_quiet (h : Inv p₀ s) (hin : (s.pc i).inside = true) (hpend : (s.pc i).pending = [])
    (hsettle : (s.pc i).settle s.pool = s.pool) : Serial p₀ s.answers s.pool := by
  have hser := h.serial_holder hin
  rwa [hpend, hsettle, List.append_nil] at hser

/-- The use of the pool while the lock is free. -/
theorem serial_free (h : Inv p₀ s) (hlock : s.lock = none) : Serial p₀ s.answers s.pool := by
  have hser := h.serial
  unfold pending settled at hser
  rw [hlock] at hser
  simpa using hser

/-- The pool of the sequential use keeps its own invariant. -/
theorem pool (h : Inv p₀ s) (hp₀ : p₀.Inv f₀) : ∃ free, s.settled.Inv free := Pool.inv_reach hp₀ h.serial.reach

theorem geometry (h : Inv p₀ s) (hp₀ : p₀.Inv f₀) : s.pool.Geometry := by
  obtain ⟨free, hinv⟩ := h.pool hp₀
  have hg := hinv.geometry
  unfold settled at hg
  split at hg
  · exact hg
  · next j _ =>
      cases hc : s.pc j <;> rw [hc] at hg <;> exact ⟨hg.room, hg.notNull, hg.fits⟩

theorem count_le_one (h : Inv p₀ s) (hp₀ : p₀.Inv f₀) (b : ℕ) : s.pool.outstanding.count b ≤ 1 := by
  obtain ⟨free, hinv⟩ := h.pool hp₀
  have hnodup := (List.nodup_append.mp hinv.nodup).2.1
  rw [settled_outstanding] at hnodup
  exact List.nodup_iff_count_le_one.mp hnodup b

/-- The counter agrees with the free list where the holder of the lock is not about to change it. -/
theorem count_eq (h : Inv p₀ s) (hp₀ : p₀.Inv f₀) (hsettle : s.settled = s.pool) :
    s.pool.allocatedCount = s.pool.outstanding.length := by
  obtain ⟨free, hinv⟩ := h.pool hp₀
  have hcount := hinv.count
  rwa [hsettle] at hcount

theorem settled_quiet (h : Inv p₀ s) (hin : (s.pc i).inside = true) (hsettle : (s.pc i).settle s.pool = s.pool) :
    s.settled = s.pool := by
  unfold settled
  rw [h.lock_eq hin]
  exact hsettle

theorem owned_mem (h : Inv p₀ s) (hb : b ∈ s.owned) : b ∈ s.pool.outstanding := by
  have hcount := h.custody b
  have hpos := List.count_pos_iff.mpr hb
  apply List.count_pos_iff.mp
  omega

theorem held_le (h : Inv p₀ s) (hi : i < s.threads) (b : ℕ) :
    s.owned.count b + (s.pc i).holds.count b ≤ s.pool.outstanding.count b := by
  rw [h.custody b]
  apply Nat.add_le_add_left
  exact Finset.single_le_sum (f := fun j => (s.pc j).holds.count b) (fun _ _ => Nat.zero_le _)
    (Finset.mem_range.mpr hi)

theorem held_mem (h : Inv p₀ s) (hi : i < s.threads) (hb : b ∈ (s.pc i).holds) : b ∈ s.pool.outstanding := by
  have hle := h.held_le hi b
  have hpos := List.count_pos_iff.mpr hb
  apply List.count_pos_iff.mp
  omega

/-- What a call has in hand no client has. -/
theorem held_not_owned (h : Inv p₀ s) (hp₀ : p₀.Inv f₀) (hi : i < s.threads) (hb : b ∈ (s.pc i).holds) :
    b ∉ s.owned := by
  intro hown
  have hle := h.held_le hi b
  have hone := h.count_le_one hp₀ b
  have h1 := List.count_pos_iff.mpr hb
  have h2 := List.count_pos_iff.mpr hown
  omega

/-! ### What a step keeps -/

/-- The hands of one thread change. -/
theorem custody_goto {c : Pc} {p : Pool} {l : List ℕ} (h : Inv p₀ s) (hi : i < s.threads)
    (hex : ∀ b, p.outstanding.count b + s.owned.count b + (s.pc i).holds.count b =
      s.pool.outstanding.count b + l.count b + c.holds.count b) (b : ℕ) :
    p.outstanding.count b =
      l.count b + ∑ j ∈ Finset.range s.threads, ((Function.update s.pc i c) j).holds.count b := by
  have hsum := sum_exchange (f := fun j => (s.pc j).holds.count b)
    (g := fun j => ((Function.update s.pc i c) j).holds.count b) hi (fun j hj => by
      rw [Function.update_of_ne hj])
  rw [Function.update_self] at hsum
  have hcust := h.custody b
  have hb := hex b
  omega

theorem outside_goto {c : Pc} (h : Inv p₀ s) (hi : i < s.threads) (j : ℕ) (hj : s.threads ≤ j) :
    (Function.update s.pc i c) j = .idle := by
  rw [Function.update_of_ne (by omega)]
  exact h.outside j hj

theorem inside_goto (s : Shared) (i : ℕ) (c : Pc) :
    (fun j => ((Function.update s.pc i c) j).inside) = Function.update (fun j => (s.pc j).inside) i c.inside := by
  funext j
  by_cases hj : j = i
  · rw [hj, Function.update_self, Function.update_self]
  · rw [Function.update_of_ne hj, Function.update_of_ne hj]

/-- While a thread has the lock nobody else has read anything. -/
theorem right_goto {c : Pc} {p : Pool} (hothers : ∀ j, j ≠ i → (s.pc j).inside = false) (hc : c.Right p) (j : ℕ) :
    ((Function.update s.pc i c) j).Right p := by
  by_cases hj : j = i
  · rw [hj, Function.update_self]
    exact hc
  · rw [Function.update_of_ne hj]
    exact Pc.right_of_outside (hothers j hj)

theorem others_outside (h : Inv p₀ s) (hin : (s.pc i).inside = true) (j : ℕ) (hj : j ≠ i) :
    (s.pc j).inside = false := by
  cases hjn : (s.pc j).inside with
  | false => rfl
  | true => exact absurd (h.excl.unique hjn hin) hj

/-- The holder of the lock takes a step. -/
theorem hold (h : Inv p₀ s) (hin : (s.pc i).inside = true) (c : Pc) (pool : Pool) (hc : c.inside = true)
    (hser : Serial p₀ (s.answers ++ c.pending) (c.settle pool)) (hright : c.Right pool)
    (hex : ∀ b, pool.outstanding.count b + (s.pc i).holds.count b =
      s.pool.outstanding.count b + c.holds.count b) :
    Inv p₀ { s.goto i c with pool := pool } := by
  have hi : i < s.threads := h.lt_threads (fun hidle => by rw [hidle] at hin; cases hin)
  have hlock := h.lock_eq hin
  constructor
  · show Excl s.lock (fun j => ((Function.update s.pc i c) j).inside)
    rw [inside_goto]
    exact h.excl.stay (hc.trans hin.symm)
  · show Serial p₀ (s.answers ++ pending { s.goto i c with pool := pool }) (settled { s.goto i c with pool := pool })
    simp only [pending, settled, goto, hlock, Function.update_self]
    exact hser
  · exact right_goto (h.others_outside hin) hright
  · apply h.custody_goto (p := pool) (l := s.owned) hi
    intro b
    have := hex b
    omega
  · exact h.outside_goto hi

/-- A thread gets the lock. -/
theorem enter {c : Pc} (h : Inv p₀ s) (hi : s.pc i ≠ .idle) (hc : c.inside = true) (hlock : s.lock = none)
    (hpend : c.pending = []) (hsettle : c.settle s.pool = s.pool) (hright : c.Right s.pool)
    (hholds : c.holds = (s.pc i).holds) : Inv p₀ { s.goto i c with lock := some i } := by
  have hnone : Excl none (fun j => (s.pc j).inside) := hlock ▸ h.excl
  have hout : ∀ j, (s.pc j).inside = false := by
    intro j
    cases hj : (s.pc j).inside with
    | false => rfl
    | true => cases (hnone j).mp hj
  constructor
  · show Excl (some i) (fun j => ((Function.update s.pc i c) j).inside)
    rw [inside_goto, hc]
    exact hnone.acquire
  · simp only [pending, settled, goto, Function.update_self, hpend, hsettle, List.append_nil]
    exact h.serial_free hlock
  · exact right_goto (fun j _ => hout j) hright
  · apply h.custody_goto (p := s.pool) (l := s.owned) (h.lt_threads hi)
    intro b
    rw [hholds]
  · exact h.outside_goto (h.lt_threads hi)

/-- The holder of the lock returns. -/
theorem leave {owned answers : List ℕ} (h : Inv p₀ s) (hin : (s.pc i).inside = true)
    (hser : Serial p₀ answers s.pool) (hex : ∀ b, s.owned.count b + (s.pc i).holds.count b = owned.count b) :
    Inv p₀ { s.goto i .idle with lock := none, owned := owned, answers := answers } := by
  have hi : i < s.threads := h.lt_threads (fun hidle => by rw [hidle] at hin; cases hin)
  constructor
  · show Excl none (fun j => ((Function.update s.pc i .idle) j).inside)
    rw [inside_goto]
    exact h.excl.release hin
  · simp only [pending, settled, goto, List.append_nil]
    exact hser
  · exact right_goto (h.others_outside hin) trivial
  · apply h.custody_goto (p := s.pool) (l := owned) hi
    intro b
    have := hex b
    have hidle : (Pc.holds .idle).count b = 0 := rfl
    omega
  · exact h.outside_goto hi

/-! ### The steps of a call -/

/-- The test, and the call that finds no block. -/
theorem allocTest (h : Inv p₀ s) (hpc : s.pc i = .allocTest) :
    Inv p₀ (s.goto i (if s.pool.freeList = 0 then .allocUnlock 0 else .allocBlock)) := by
  have hin : (s.pc i).inside = true := by rw [hpc]; rfl
  have hser := h.serial_quiet hin (by rw [hpc]; rfl) (by rw [hpc]; rfl)
  split
  · next hnull =>
      have hall : s.pool.allocate = (0, s.pool) := if_pos hnull
      have hser' := hser.allocate
      rw [hall] at hser'
      apply h.hold hin (.allocUnlock 0) s.pool rfl hser' trivial
      intro b
      rw [hpc]
      rfl
  · next hnull =>
      apply h.hold hin .allocBlock s.pool rfl ((List.append_nil s.answers).symm ▸ hser) hnull
      intro b
      rw [hpc]
      rfl

/-- **`Allocate` takes effect.** -/
theorem allocStore {n : ℕ} (h : Inv p₀ s) (hp₀ : p₀.Inv f₀) (hpc : s.pc i = .allocStore b n) :
    Inv p₀ { s.goto i (.allocCount b) with
      pool := { s.pool with freeList := n, outstanding := b :: s.pool.outstanding } } := by
  have hin : (s.pc i).inside = true := by rw [hpc]; rfl
  have hser := h.serial_quiet hin (by rw [hpc]; rfl) (by rw [hpc]; rfl)
  have hright := h.right i
  rw [hpc] at hright
  obtain ⟨hb, hb0, hn⟩ := hright
  have hall : s.pool.allocate = (b, { s.pool with freeList := n
                                                  allocatedCount := wrap (s.pool.allocatedCount + 1)
                                                  outstanding := b :: s.pool.outstanding }) := by
    unfold Pool.allocate
    rw [if_neg (by rw [← hb]; exact hb0), hn, hb]
  have hser' := hser.allocate
  rw [hall] at hser'
  have hcount := h.count_eq hp₀ (h.settled_quiet hin (by rw [hpc]; rfl))
  apply h.hold hin (.allocCount b) { s.pool with freeList := n, outstanding := b :: s.pool.outstanding } rfl hser'
    ⟨hb0, congrArg (· + 1) hcount⟩
  intro x
  rw [hpc]
  show (b :: s.pool.outstanding).count x + 0 = s.pool.outstanding.count x + [b].count x
  rw [List.count_cons, List.count_cons, List.count_nil]
  omega

theorem allocUnlock (h : Inv p₀ s) (hpc : s.pc i = .allocUnlock b) :
    Inv p₀ { s.goto i .idle with
      lock := none
      answers := s.answers ++ [b]
      owned := if b = 0 then s.owned else b :: s.owned } := by
  have hin : (s.pc i).inside = true := by rw [hpc]; rfl
  have hser := h.serial_holder hin
  rw [hpc] at hser
  apply h.leave hin hser
  intro x
  rw [hpc, Pc.holds]
  by_cases hb0 : b = 0
  · rw [if_pos hb0, if_pos hb0]
    rfl
  · rw [if_neg hb0, if_neg hb0, List.count_cons, List.count_cons, List.count_nil]
    omega

/-- The link goes into a block no client has. -/
theorem deallocLink {head : ℕ} (h : Inv p₀ s) (hp₀ : p₀.Inv f₀) (hpc : s.pc i = .deallocLink b head) :
    Inv p₀ { s.goto i (.deallocHead b) with pool := { s.pool with mem := Pool.setNext s.pool.mem b head } } := by
  have hin : (s.pc i).inside = true := by rw [hpc]; rfl
  have hi : i < s.threads := h.lt_threads (by rw [hpc]; exact Pc.noConfusion)
  have hout : b ∈ s.pool.outstanding := h.held_mem hi (by rw [hpc]; exact List.mem_singleton_self b)
  have hroom := (h.geometry hp₀).room
  have hser := h.serial_quiet hin (by rw [hpc]; rfl) (by rw [hpc]; rfl)
  have hright := h.right i
  rw [hpc] at hright
  have hlt : head < 256 ^ sizeofBlock := by
    obtain ⟨free, hinv⟩ := h.pool hp₀
    have := hinv.freeList_lt
    rwa [settled_freeList, ← hright] at this
  have hser' := hser.store hout b sizeofBlock head (Nat.le_refl b) (Nat.add_le_add_left hroom b)
  apply h.hold hin (.deallocHead b) { s.pool with mem := Pool.setNext s.pool.mem b head } rfl
    ((List.append_nil s.answers).symm ▸ hser')
  · show Pool.next (Pool.setNext s.pool.mem b head) b = s.pool.freeList
    unfold Pool.next Pool.setNext
    rw [Memory.load_store_same, Nat.mod_eq_of_lt hlt]
    exact hright
  · intro x
    rw [hpc]
    rfl

/-- **`Deallocate` takes effect.** -/
theorem deallocHead (h : Inv p₀ s) (hp₀ : p₀.Inv f₀) (hpc : s.pc i = .deallocHead b) :
    Inv p₀ { s.goto i .deallocCount with
      pool := { s.pool with freeList := b, outstanding := s.pool.outstanding.erase b } } := by
  have hin : (s.pc i).inside = true := by rw [hpc]; rfl
  have hi : i < s.threads := h.lt_threads (by rw [hpc]; exact Pc.noConfusion)
  have hout : b ∈ s.pool.outstanding := h.held_mem hi (by rw [hpc]; exact List.mem_singleton_self b)
  have hg := h.geometry hp₀
  have hblock : b ∈ s.pool.blocks := by
    obtain ⟨free, hinv⟩ := h.pool hp₀
    have := hinv.outstanding_mem (b := b) (by rwa [settled_outstanding])
    rwa [settled_blocks] at this
  have hb0 : b ≠ 0 := by
    have := (hg.block_bounds hblock).1
    have := hg.notNull
    omega
  have hser := h.serial_quiet hin (by rw [hpc]; rfl) (by rw [hpc]; rfl)
  have hright := h.right i
  rw [hpc] at hright
  have hlink : Pool.setNext s.pool.mem b s.pool.freeList = s.pool.mem := by
    rw [← hright]
    exact Memory.store_load s.pool.mem b sizeofBlock
  have hdeal : (s.pool.deallocate b).2 = { s.pool with freeList := b
                                                       allocatedCount := wrapSub s.pool.allocatedCount 1
                                                       outstanding := s.pool.outstanding.erase b } := by
    unfold Pool.deallocate
    rw [if_neg hb0, if_pos ((hg.isValidPointer_iff b).mpr hblock), hlink]
  have hser' := hser.deallocate b (Or.inl hout)
  rw [hdeal] at hser'
  have hcount := h.count_eq hp₀ (h.settled_quiet hin (by rw [hpc]; rfl))
  have hlen := List.length_erase_add_one hout
  apply h.hold hin .deallocCount { s.pool with freeList := b, outstanding := s.pool.outstanding.erase b } rfl
    ((List.append_nil s.answers).symm ▸ hser') ⟨hb0, hcount.trans hlen.symm⟩
  intro x
  rw [hpc]
  show (s.pool.outstanding.erase b).count x + [b].count x = s.pool.outstanding.count x + 0
  have hpos := List.count_pos_iff.mpr hout
  by_cases hx : x = b
  · rw [hx, List.count_erase_self, List.count_singleton_self]
    omega
  · rw [List.count_erase_of_ne hx, List.count_singleton, if_neg (by simpa using fun h => hx h.symm)]

/-- A step inside the critical section that leaves the call as far as it was: what it will answer and
what it makes of the pool are the same. -/
theorem hold_at {c c' : Pc} {pool : Pool} (h : Inv p₀ s) (hpc : s.pc i = c) (hc : c.inside = true)
    (hc' : c'.inside = true) (hpend : c'.pending = c.pending) (hsettle : c'.settle pool = c.settle s.pool)
    (hright : c.Right s.pool → c'.Right pool)
    (hex : ∀ b, pool.outstanding.count b + c.holds.count b = s.pool.outstanding.count b + c'.holds.count b) :
    Inv p₀ { s.goto i c' with pool := pool } := by
  subst hpc
  have hser := h.serial_holder hc
  rw [← hpend, ← hsettle] at hser
  exact h.hold hc c' pool hc' hser (hright (h.right i)) hex

/-- **One step of a call.** -/
theorem advance (h : Inv p₀ s) (hp₀ : p₀.Inv f₀) (hs : s.advance i (s.pc i) = some s') : Inv p₀ s' := by
  cases hpc : s.pc i with
  | idle =>
      rw [hpc] at hs
      cases hs
  | allocLock =>
      rw [hpc] at hs
      simp only [Shared.advance, acquire] at hs
      split at hs
      · next hlock =>
          cases hs
          exact h.enter (by rw [hpc]; exact Pc.noConfusion) rfl hlock rfl rfl trivial (by rw [hpc]; rfl)
      · cases hs
  | allocTest =>
      rw [hpc] at hs
      cases hs
      exact h.allocTest hpc
  | allocBlock =>
      rw [hpc] at hs
      cases hs
      exact h.hold_at hpc rfl rfl rfl rfl (fun hright => ⟨rfl, hright⟩) (fun _ => rfl)
  | allocNext b =>
      rw [hpc] at hs
      cases hs
      exact h.hold_at hpc rfl rfl rfl rfl (fun hright => ⟨hright.1, hright.2, rfl⟩) (fun _ => rfl)
  | allocStore b n =>
      rw [hpc] at hs
      cases hs
      exact h.allocStore hp₀ hpc
  | allocCount b =>
      rw [hpc] at hs
      cases hs
      have hright := h.right i
      rw [hpc] at hright
      exact h.hold_at hpc rfl rfl rfl rfl (fun _ => trivial) (fun _ => by rw [Pc.holds, Pc.holds, if_neg hright.1])
  | allocUnlock r =>
      rw [hpc] at hs
      cases hs
      exact h.allocUnlock hpc
  | deallocLock ptr =>
      rw [hpc] at hs
      simp only [Shared.advance, acquire] at hs
      split at hs
      · next hlock =>
          cases hs
          exact h.enter (by rw [hpc]; exact Pc.noConfusion) rfl hlock rfl rfl trivial (by rw [hpc]; rfl)
      · cases hs
  | deallocLoad ptr =>
      rw [hpc] at hs
      cases hs
      exact h.hold_at hpc rfl rfl rfl rfl (fun _ => rfl) (fun _ => rfl)
  | deallocLink ptr head =>
      rw [hpc] at hs
      cases hs
      exact h.deallocLink hp₀ hpc
  | deallocHead ptr =>
      rw [hpc] at hs
      cases hs
      exact h.deallocHead hp₀ hpc
  | deallocCount =>
      rw [hpc] at hs
      cases hs
      exact h.hold_at hpc rfl rfl rfl rfl (fun _ => trivial) (fun _ => rfl)
  | deallocUnlock =>
      rw [hpc] at hs
      cases hs
      have hin : (s.pc i).inside = true := by rw [hpc]; rfl
      have hser := h.serial_quiet hin (by rw [hpc]; rfl) (by rw [hpc]; rfl)
      exact h.leave hin hser (fun _ => by rw [hpc]; rfl)

/-! ### The clients -/

/-- A thread begins a call. -/
theorem call {c : Pc} {owned : List ℕ} (h : Inv p₀ s) (hi : i < s.threads) (hidle : s.pc i = .idle)
    (hc : c.inside = false) (hex : ∀ b, s.owned.count b = owned.count b + c.holds.count b) :
    Inv p₀ { s.goto i c with owned := owned } := by
  have hout : (s.pc i).inside = false := by rw [hidle]; rfl
  have hne : ∀ j, s.lock = some j → j ≠ i := by
    rintro j hlock rfl
    have hin : (s.pc j).inside = true := (h.excl j).mpr hlock
    rw [hout] at hin
    cases hin
  constructor
  · show Excl s.lock (fun j => ((Function.update s.pc i c) j).inside)
    rw [inside_goto]
    exact h.excl.stay (hc.trans hout.symm)
  · have hser := h.serial
    unfold pending settled at hser ⊢
    cases hlock : s.lock with
    | none =>
        rw [hlock] at hser
        simpa only [goto, hlock] using hser
    | some j =>
        rw [hlock] at hser
        simpa only [goto, hlock, Function.update_of_ne (hne j hlock)] using hser
  · intro j
    by_cases hj : j = i
    · rw [hj]
      show ((Function.update s.pc i c) i).Right s.pool
      rw [Function.update_self]
      exact Pc.right_of_outside hc
    · show ((Function.update s.pc i c) j).Right s.pool
      rw [Function.update_of_ne hj]
      exact h.right j
  · apply h.custody_goto (p := s.pool) (l := owned) hi
    intro b
    have := hex b
    rw [hidle]
    have hnone : (Pc.holds .idle).count b = 0 := rfl
    omega
  · exact h.outside_goto hi

theorem deallocate {ptr : ℕ} (h : Inv p₀ s) (hp₀ : p₀.Inv f₀) (hi : i < s.threads) (hidle : s.pc i = .idle)
    (hok : ptr ∈ s.owned ∨ ptr = 0 ∨ ptr ∉ s.pool.blocks) : Inv p₀ (s.deallocate i ptr) := by
  unfold Shared.deallocate
  split
  · exact h
  · next h0 =>
      split
      · next hvalid =>
          have hblock := ((h.geometry hp₀).isValidPointer_iff ptr).mp hvalid
          have hown : ptr ∈ s.owned := by
            rcases hok with hown | hnull | hno
            · exact hown
            · exact absurd hnull h0
            · exact absurd hblock hno
          apply h.call hi hidle rfl
          intro b
          show s.owned.count b = (s.owned.erase ptr).count b + [ptr].count b
          have hperm := (List.perm_cons_erase hown).count_eq b
          rw [List.count_cons] at hperm
          rw [List.count_cons, List.count_nil]
          omega
      · exact ⟨h.excl, h.serial, h.right, h.custody, h.outside⟩

/-- A block is apart from what the clients have when it is on the free list or in the hands of a call. -/
theorem next_write {a : ℕ} {v : UInt8} (h : Inv p₀ s) (hp₀ : p₀.Inv f₀) {x : ℕ} (hx : x ∈ s.pool.blocks)
    (hnot : x ∉ s.owned) (hb : b ∈ s.owned) (h1 : b ≤ a) (h2 : a < b + s.pool.blockSize) :
    Pool.next (s.pool.mem.set a v) x = Pool.next s.pool.mem x := by
  apply Memory.load_congr
  intro y hy1 hy2
  apply Memory.set_of_ne
  have hroom := (h.geometry hp₀).room
  have hbb : b ∈ s.pool.blocks := by
    obtain ⟨free, hinv⟩ := h.pool hp₀
    have := hinv.outstanding_mem (b := b) (by rw [settled_outstanding]; exact h.owned_mem hb)
    rwa [settled_blocks] at this
  have hapart := Pool.blocks_apart hx hbb (fun heq => hnot (heq ▸ hb))
  omega

/-- The block on top of the free list. -/
theorem head_free (h : Inv p₀ s) (hp₀ : p₀.Inv f₀) (h0 : s.pool.freeList ≠ 0) :
    s.pool.freeList ∈ s.pool.blocks ∧ s.pool.freeList ∉ s.owned := by
  obtain ⟨free, hinv⟩ := h.pool hp₀
  have hchain := hinv.chain
  rw [settled_freeList] at hchain
  have hmem := hchain.head.resolve_left h0
  refine ⟨by simpa using hinv.free_mem hmem, ?_⟩
  intro hown
  exact hinv.ne_of_mem hmem (by rw [settled_outstanding]; exact h.owned_mem hown) rfl

theorem held_block (h : Inv p₀ s) (hp₀ : p₀.Inv f₀) (hi : i < s.threads) (hb : b ∈ (s.pc i).holds) :
    b ∈ s.pool.blocks := by
  obtain ⟨free, hinv⟩ := h.pool hp₀
  have := hinv.outstanding_mem (b := b) (by rw [settled_outstanding]; exact h.held_mem hi hb)
  rwa [settled_blocks] at this

/-- A client writes into a block it has. -/
theorem write {a : ℕ} {v : UInt8} (h : Inv p₀ s) (hp₀ : p₀.Inv f₀) (hb : b ∈ s.owned) (h1 : b ≤ a)
    (h2 : a < b + s.pool.blockSize) : Inv p₀ { s with pool := { s.pool with mem := s.pool.mem.set a v } } := by
  refine ⟨h.excl, ?_, ?_, h.custody, h.outside⟩
  · have hser := h.serial.write a v ⟨b, by rw [settled_outstanding]; exact h.owned_mem hb, h1, by simpa using h2⟩
    unfold settled pending at hser ⊢
    cases hlock : s.lock with
    | none =>
        rw [hlock] at hser
        exact hser
    | some j =>
        rw [hlock] at hser
        simpa only [Pc.settle_with_mem, Pc.settle_mem] using hser
  · intro j
    have hright := h.right j
    cases hpc : s.pc j with
    | allocStore x n =>
        rw [hpc] at hright
        obtain ⟨hx, hx0, hn⟩ := hright
        have hfree := h.head_free hp₀ (hx ▸ hx0)
        rw [← hx] at hfree
        exact ⟨hx, hx0, hn.trans (h.next_write hp₀ hfree.1 hfree.2 hb h1 h2).symm⟩
    | deallocHead x =>
        rw [hpc] at hright
        have hj : j < s.threads := h.lt_threads (by rw [hpc]; exact Pc.noConfusion)
        have hx : x ∈ (s.pc j).holds := by rw [hpc]; exact List.mem_singleton_self x
        exact (h.next_write hp₀ (h.held_block hp₀ hj hx) (h.held_not_owned hp₀ hj hx) hb h1 h2).trans hright
    | _ =>
        rw [hpc] at hright
        exact hright

end Inv

/-- **The step lemma.** -/
theorem inv_step {l : Label} (hp₀ : p₀.Inv f₀) (h : Inv p₀ s) (hok : s.clientOk l) (hs : step s l = some s') :
    Inv p₀ s' := by
  cases l with
  | allocate i =>
      simp only [step] at hs
      split at hs
      · next hc =>
          cases hs
          exact h.call hc.1 hc.2 rfl (fun _ => rfl)
      · cases hs
  | deallocate i ptr =>
      simp only [step] at hs
      split at hs
      · next hc =>
          cases hs
          exact h.deallocate hp₀ hc.1 hc.2 hok
      · cases hs
  | thread i => exact h.advance hp₀ hs
  | write a v =>
      cases hs
      obtain ⟨b, hb, h1, h2⟩ := hok
      exact h.write hp₀ hb h1 h2

theorem fixed_step {l : Label} (hs : step s l = some s') :
    s'.threads = s.threads ∧ s'.pool.numBlocks = s.pool.numBlocks := by
  cases l with
  | allocate i =>
      simp only [step] at hs
      split at hs
      · cases hs
        exact ⟨rfl, rfl⟩
      · cases hs
  | deallocate i ptr =>
      simp only [step] at hs
      split at hs
      · cases hs
        unfold deallocate
        split_ifs <;> exact ⟨rfl, rfl⟩
      · cases hs
  | thread i =>
      simp only [step] at hs
      cases hpc : s.pc i <;> rw [hpc] at hs <;> simp only [advance, acquire] at hs <;> try split at hs
      all_goals cases hs
      all_goals exact ⟨rfl, rfl⟩
  | write a v =>
      cases hs
      exact ⟨rfl, rfl⟩

theorem fixed_reach {threads : ℕ} (h : Reach step clientOk (init p₀ threads) s) :
    s.threads = threads ∧ s.pool.numBlocks = p₀.numBlocks := by
  apply h.invariant (fun s => s.threads = threads ∧ s.pool.numBlocks = p₀.numBlocks) ⟨rfl, rfl⟩
  intro s l s' hi _ hs
  obtain ⟨h1, h2⟩ := fixed_step hs
  exact ⟨h1.trans hi.1, h2.trans hi.2⟩

theorem inv_reach {threads : ℕ} (hp₀ : p₀.Inv f₀) (hout : p₀.outstanding = [])
    (h : Reach step clientOk (init p₀ threads) s) : Inv p₀ s :=
  h.invariant (Inv p₀) (inv_init p₀ hout threads) (fun _ _ _ h hok hs => inv_step hp₀ h hok hs)

/-! ### The threads together -/

namespace Inv

/-- The bytes a call reads or writes belong to no client. -/
theorem touches_apart (h : Inv p₀ s) (hp₀ : p₀.Inv f₀) (ht : (s.pc i).touches = some b) :
    b ∈ s.pool.blocks ∧ b ∉ s.owned := by
  have hright := h.right i
  cases hpc : s.pc i with
  | allocNext x =>
      rw [hpc] at ht hright
      cases ht
      have hfree := h.head_free hp₀ (hright.1 ▸ hright.2)
      rwa [← hright.1] at hfree
  | deallocLink x head =>
      have hi : i < s.threads := h.lt_threads (by rw [hpc]; exact Pc.noConfusion)
      have hx : b ∈ (s.pc i).holds := by
        rw [hpc] at ht ⊢
        cases ht
        exact List.mem_singleton_self _
      exact ⟨h.held_block hp₀ hi hx, h.held_not_owned hp₀ hi hx⟩
  | _ =>
      rw [hpc] at ht
      cases ht

/-- How far the counter can be behind the free list. -/
theorem count_bounds (h : Inv p₀ s) (hp₀ : p₀.Inv f₀) :
    s.pool.allocatedCount ≤ s.pool.numBlocks ∧ s.pool.allocatedCount ≤ s.pool.outstanding.length + 1 ∧
      s.pool.outstanding.length ≤ s.pool.allocatedCount + 1 := by
  obtain ⟨free, hinv⟩ := h.pool hp₀
  have hlen := hinv.length_add
  rw [settled_outstanding, settled_numBlocks] at hlen
  by_cases hquiet : s.settled = s.pool
  · have hcount := h.count_eq hp₀ hquiet
    omega
  · unfold settled at hquiet
    cases hlock : s.lock with
    | none =>
        rw [hlock] at hquiet
        exact absurd rfl hquiet
    | some j =>
        rw [hlock] at hquiet
        have hright := h.right j
        cases hpc : s.pc j with
        | allocCount x =>
            rw [hpc] at hright
            have := hright.2
            omega
        | deallocCount =>
            rw [hpc] at hright
            have hchain := hinv.chain
            rw [settled_freeList] at hchain
            have hpos := List.length_pos_of_mem (hchain.head.resolve_left hright.1)
            have := hright.2
            omega
        | _ =>
            simp only [hpc] at hquiet
            exact absurd rfl hquiet

end Inv

/-- Thread `0` gets the first block and writes into it; thread `1` waits with it in `Deallocate` while thread
`0` takes the second block, which it has not counted yet. -/
def handoverRun : List Label :=
  .allocate 0 :: List.replicate 7 (.thread 0) ++ [.write 4097 7, .deallocate 1 4096, .allocate 0] ++
    List.replicate 5 (.thread 0)

end Shared

end MemoryPool
