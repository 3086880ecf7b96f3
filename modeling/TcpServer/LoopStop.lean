import TcpServer.Transition
import Mathlib.Data.Int.Order.Basic

/-! # Starting and stopping the IO threads (`net/event_loop.cpp`, `net/io_thread_pool.cpp`)

`IOThreadPool::Start` spawns one thread for each loop, and each thread runs `EventLoop::Loop`:
its prologue stores `running_ = true`, then it tests `running_`, waits and handles events.
The main thread calls `EventLoop::Stop` on single loops or `IOThreadPool::Stop`, which stops
every loop in turn and then joins the threads.  `EventLoop::Stop` stores `running_ = false` and
writes to the wakeup eventfd; nobody ever reads that eventfd.

The store of the prologue and the store of `Stop` are not ordered.  `Loop.stoppedAt` records the
number of rounds the loop had begun when `Stop` was first executed on it, so that a stop request
is honoured when `running_` stays false and no round has been begun since.

`honoured_iff`: a run honours every stop request *iff* no thread executes its prologue after
`Stop` has been executed on its loop. -/

namespace TcpServer

open Transition

namespace IOThreadPool

/-- Where an IO thread stands in `EventLoop::Loop`. -/
inductive LoopPc where
  | unborn
  | prologue
  | test
  | wait
  | handle
  | exited
deriving DecidableEq, Repr

/-- An `EventLoop` and its thread.  `wakeup` is the counter of the eventfd, `rounds` counts the
rounds of the `while` loop that were begun. -/
structure Loop where
  running : Bool
  wakeupFd : ℤ
  wakeup : ℕ
  pc : LoopPc
  rounds : ℕ
  stoppedAt : Option ℕ
deriving DecidableEq, Repr

/-- Where the main thread stands: `Start` about to spawn thread `k`, outside of the pool's
methods, in `EventLoop::Stop` of loop `i` (as part of `IOThreadPool::Stop` when `all`), or
about to join thread `k`. -/
inductive MainPc where
  | start (k : ℕ)
  | idle
  | store (i : ℕ) (all : Bool)
  | write (i : ℕ) (all : Bool)
  | join (k : ℕ)
deriving DecidableEq, Repr

/-- The pool; `threads` is the size of `threads_`, `aborted` says that an exception left a
thread's function. -/
structure Pool where
  num : ℕ
  loops : ℕ → Loop
  main : MainPc
  threads : ℕ
  aborted : Bool

/-- The constructor, with the descriptors `eventfd` returned, before `Start`. -/
def init (thread_num : ℕ) (wakeupFd : ℕ → ℤ) : Pool where
  num := if thread_num = 0 then 1 else thread_num
  loops := fun i =>
    { running := false, wakeupFd := wakeupFd i, wakeup := 0, pc := .unborn, rounds := 0, stoppedAt := none }
  main := .start 0
  threads := 0
  aborted := false

/-- How `epoll_wait` and the handlers come back. -/
inductive Outcome where
  | returns
  | interrupted
  | throws
deriving DecidableEq, Repr

inductive Label where
  | main
  | poolStop
  | loopStop (i : ℕ)
  | thread (i : ℕ) (o : Outcome)
deriving DecidableEq, Repr

def setLoop (s : Pool) (i : ℕ) (l : Loop) : Pool :=
  { s with loops := fun j => if j = i then l else s.loops j }

/-- `running_ = false` of `EventLoop::Stop`. -/
def Loop.stopStore (l : Loop) : Loop :=
  { l with running := false, stoppedAt := some (l.stoppedAt.getD l.rounds) }

/-- The write to the eventfd of `EventLoop::Stop`. -/
def Loop.stopWrite (l : Loop) : Loop :=
  if l.wakeupFd ≠ -1 then { l with wakeup := l.wakeup + 1 } else l

/-- The main thread goes on. -/
def mainStep (s : Pool) : Option Pool :=
  match s.main with
  | .start k =>
      if k < s.num then
        some { setLoop s k { s.loops k with pc := .prologue } with threads := s.threads + 1, main := .start (k + 1) }
      else some { s with main := .idle }
  | .idle => none
  | .store i all =>
      if all = true ∧ s.num ≤ i then some { s with main := .join 0 }
      else some { setLoop s i (s.loops i).stopStore with main := .write i all }
  | .write i all =>
      some { setLoop s i (s.loops i).stopWrite with main := if all then .store (i + 1) true else .idle }
  | .join k =>
      if k < s.threads then
        if (s.loops k).pc = .exited then some { s with main := .join (k + 1) } else none
      else some { s with threads := 0, main := .idle }

/-- The thread of a loop goes on; `none` when it cannot, or when an exception leaves it. -/
def Loop.threadStep (l : Loop) (o : Outcome) : Option Loop :=
  match l.pc with
  | .unborn => none
  | .prologue => some { l with running := true, pc := .test }
  | .test => some (if l.running then { l with rounds := l.rounds + 1, pc := .wait } else { l with pc := .exited })
  | .wait => if o = .throws then none else some { l with pc := .handle }
  | .handle => if o = .throws then none else some { l with pc := .test }
  | .exited => none

/-- An exception leaves the thread's function. -/
def Loop.escapes (l : Loop) (o : Outcome) : Bool :=
  decide (o = .throws) && (decide (l.pc = .wait) || decide (l.pc = .handle))

def step (s : Pool) : Label → Option Pool
  | l =>
    if s.aborted then none
    else
      match l with
      | .main => mainStep s
      | .poolStop => if s.main = .idle then some { s with main := .store 0 true } else none
      | .loopStop i => if s.main = .idle ∧ i < s.num then some { s with main := .store i false } else none
      | .thread i o =>
          if (s.loops i).escapes o then some { s with aborted := true }
          else ((s.loops i).threadStep o).map (setLoop s i)

/-! ### What is asked of a stop request -/

/-- Once `Stop` has been executed on the loop, `running_` is false and no round was begun since. -/
def Loop.Honoured (l : Loop) : Prop := ∀ k, l.stoppedAt = some k → l.running = false ∧ l.rounds = k

/-- Every stop request is honoured, and a join never waits for a loop that is still running. -/
def Honoured (s : Pool) : Prop :=
  (∀ i, (s.loops i).Honoured) ∧ ∀ k, s.main = .join k → k < s.threads → (s.loops k).running = false

/-- No thread executes its prologue after `Stop` has been executed on its loop. -/
def prologueFirst (s : Pool) : Label → Prop
  | .thread i _ => (s.loops i).pc = .prologue → (s.loops i).stoppedAt = none
  | .main => True
  | .poolStop => True
  | .loopStop _ => True

instance decidablePrologueFirst (s : Pool) : ∀ l : Label, Decidable (prologueFirst s l)
  | .thread i _ => inferInstanceAs (Decidable ((s.loops i).pc = .prologue → (s.loops i).stoppedAt = none))
  | .main => isTrue trivial
  | .poolStop => isTrue trivial
  | .loopStop _ => isTrue trivial

/-! ### What a step can do -/

/-- Everything a step can do to the loops and to the main thread. -/
inductive Effect (s : Pool) (l : Label) : Pool → Prop
  | spawn (k : ℕ) (hm : s.main = .start k) (hk : k < s.num) :
      Effect s l { setLoop s k { s.loops k with pc := .prologue } with
        threads := s.threads + 1, main := .start (k + 1) }
  | started (k : ℕ) (hm : s.main = .start k) : Effect s l { s with main := .idle }
  | call (i : ℕ) (all : Bool) (hi : all = true → i = 0) : Effect s l { s with main := .store i all }
  | stopStore (i : ℕ) (all : Bool) (hm : s.main = .store i all) :
      Effect s l { setLoop s i (s.loops i).stopStore with main := .write i all }
  | stopWrite (i : ℕ) (all : Bool) (hm : s.main = .write i all) :
      Effect s l { setLoop s i (s.loops i).stopWrite with main := if all then .store (i + 1) true else .idle }
  | stopped (i : ℕ) (hm : s.main = .store i true) (hi : s.num ≤ i) : Effect s l { s with main := .join 0 }
  | join (k : ℕ) (hm : s.main = .join k) : Effect s l { s with main := .join (k + 1) }
  | joined : Effect s l { s with threads := 0, main := .idle }
  | prologue (i : ℕ) (o : Outcome) (hl : l = .thread i o) (hpc : (s.loops i).pc = .prologue) :
      Effect s l (setLoop s i { s.loops i with running := true, pc := .test })
  | round (i : ℕ) (hpc : (s.loops i).pc = .test) (hr : (s.loops i).running = true) :
      Effect s l (setLoop s i { s.loops i with rounds := (s.loops i).rounds + 1, pc := .wait })
  | move (i : ℕ) (pc : LoopPc) (hpc : (s.loops i).pc ≠ .prologue) : Effect s l (setLoop s i { s.loops i with pc := pc })
  | abort : Effect s l { s with aborted := true }

/-- How far `IOThreadPool::Stop` has come: the loops it has passed have been stopped. -/
structure Progress (s : Pool) : Prop where
  threads : s.threads ≤ s.num
  start : ∀ k, s.main = .start k → s.threads ≤ k
  store : ∀ i, s.main = .store i true → ∀ j < i, (s.loops j).stoppedAt.isSome = true
  write : ∀ i, s.main = .write i true → ∀ j < i + 1, (s.loops j).stoppedAt.isSome = true
  join : ∀ k, s.main = .join k → ∀ j < s.num, (s.loops j).stoppedAt.isSome = true

theorem effect_main {s s' : Pool} (h : mainStep s = some s') : Effect s .main s' := by
  unfold mainStep at h
  split at h
  · next k hm =>
      split at h
      · next hk =>
          cases h
          exact Effect.spawn k hm hk
      · cases h
        exact Effect.started k hm
  · cases h
  · next i all hm =>
      split at h
      · next hi =>
          cases h
          obtain ⟨rfl, hi⟩ := hi
          exact Effect.stopped i hm hi
      · cases h
        exact Effect.stopStore i all hm
  · next i all hm =>
      cases h
      exact Effect.stopWrite i all hm
  · next k hm =>
      split at h
      · split at h
        · cases h
          exact Effect.join k hm
        · cases h
      · cases h
        exact Effect.joined

theorem effect_thread {s : Pool} {i : ℕ} {o : Outcome} {l' : Loop} (h : (s.loops i).threadStep o = some l') :
    Effect s (.thread i o) (setLoop s i l') := by
  unfold Loop.threadStep at h
  split at h
  · cases h
  · next hpc =>
      cases h
      exact Effect.prologue i o rfl hpc
  · next hpc =>
      split at h
      · next hr =>
          cases h
          exact Effect.round i hpc hr
      · cases h
        exact Effect.move i .exited (by simp [hpc])
  · next hpc =>
      split at h
      · cases h
      · cases h
        exact Effect.move i .handle (by simp [hpc])
  · next hpc =>
      split at h
      · cases h
      · cases h
        exact Effect.move i .test (by simp [hpc])
  · cases h

theorem step_effect {s s' : Pool} {l : Label} (h : step s l = some s') : Effect s l s' := by
  unfold step at h
  split at h
  · cases h
  · cases l with
    | main => exact effect_main h
    | poolStop =>
        simp only [Option.ite_none_right_eq_some] at h
        obtain ⟨_, h⟩ := h
        cases h
        exact Effect.call 0 true (fun _ => rfl)
    | loopStop i =>
        simp only [Option.ite_none_right_eq_some] at h
        obtain ⟨_, h⟩ := h
        cases h
        exact Effect.call i false (by simp)
    | thread i o =>
        simp only at h
        split at h
        · cases h
          exact Effect.abort
        · obtain ⟨l', hl', rfl⟩ := Option.map_eq_some_iff.mp h
          exact effect_thread hl'

/-! ### How far the stop has come -/

theorem setLoop_self (s : Pool) (i : ℕ) (l : Loop) : (setLoop s i l).loops i = l := if_pos rfl

/-- A loop that has been stopped stays so. -/
theorem isSome_setLoop {s : Pool} {i : ℕ} {l : Loop}
    (hl : (s.loops i).stoppedAt.isSome = true → l.stoppedAt.isSome = true) {j : ℕ}
    (hj : (s.loops j).stoppedAt.isSome = true) : ((setLoop s i l).loops j).stoppedAt.isSome = true := by
  unfold setLoop
  dsimp only
  split
  · next h =>
      rw [h] at hj
      exact hl hj
  · exact hj

theorem stopWrite_stoppedAt (l : Loop) : l.stopWrite.stoppedAt = l.stoppedAt := by
  unfold Loop.stopWrite
  split <;> rfl

theorem progress_init (thread_num : ℕ) (wakeupFd : ℕ → ℤ) : Progress (init thread_num wakeupFd) := by
  constructor <;> simp [init]

/-- A step of a thread that leaves the record of the stop alone. -/
theorem Progress.thread {s : Pool} (hp : Progress s) {i : ℕ} {l : Loop}
    (hl : l.stoppedAt = (s.loops i).stoppedAt) : Progress (setLoop s i l) := by
  have hsome : (s.loops i).stoppedAt.isSome = true → l.stoppedAt.isSome = true := by
    rw [hl]
    exact id
  refine ⟨hp.threads, hp.start, ?_, ?_, ?_⟩
  · intro k hk j hj
    exact isSome_setLoop hsome (hp.store k hk j hj)
  · intro k hk j hj
    exact isSome_setLoop hsome (hp.write k hk j hj)
  · intro k hk j hj
    exact isSome_setLoop hsome (hp.join k hk j hj)

/-- The store of `Stop` on loop `i` adds it to the stopped ones. -/
theorem Progress.stopStore {s : Pool} (hp : Progress s) {i : ℕ} {all : Bool} (hm : s.main = .store i all) :
    Progress { setLoop s i (s.loops i).stopStore with main := .write i all } := by
  refine ⟨hp.threads, by simp, by simp, ?_, by simp⟩
  intro k hk j hj
  cases hk
  rcases Nat.lt_succ_iff_lt_or_eq.mp hj with hlt | rfl
  · exact isSome_setLoop (fun _ => rfl) (hp.store i hm j hlt)
  · show ((setLoop s j (s.loops j).stopStore).loops j).stoppedAt.isSome = true
    rw [setLoop_self]
    rfl

theorem Progress.stopWrite {s : Pool} (hp : Progress s) {i : ℕ} {all : Bool} (hm : s.main = .write i all) :
    Progress { setLoop s i (s.loops i).stopWrite with main := if all then .store (i + 1) true else .idle } := by
  have hsome : (s.loops i).stoppedAt.isSome = true → (s.loops i).stopWrite.stoppedAt.isSome = true := by
    rw [stopWrite_stoppedAt]
    exact id
  cases all with
  | false => exact ⟨hp.threads, by simp, by simp, by simp, by simp⟩
  | true =>
      refine ⟨hp.threads, by simp, ?_, by simp, by simp⟩
      intro k hk j hj
      cases hk
      exact isSome_setLoop hsome (hp.write i hm j hj)

theorem progress_step {s s' : Pool} {l : Label} (hp : Progress s) (h : step s l = some s') : Progress s' := by
  cases step_effect h with
  | spawn k hm hk =>
      have := hp.start k hm
      refine ⟨?_, ?_, by simp, by simp, by simp⟩
      · show s.threads + 1 ≤ s.num
        omega
      · intro k' hk'
        cases hk'
        show s.threads + 1 ≤ k + 1
        omega
  | started k hm => exact ⟨hp.threads, by simp, by simp, by simp, by simp⟩
  | call i all hi =>
      refine ⟨hp.threads, by simp, ?_, by simp, by simp⟩
      intro k hk j hj
      cases hk
      have := hi rfl
      omega
  | stopStore i all hm => exact hp.stopStore hm
  | stopWrite i all hm => exact hp.stopWrite hm
  | stopped i hm hi =>
      refine ⟨hp.threads, by simp, by simp, by simp, ?_⟩
      intro k hk j hj
      exact hp.store i hm j (Nat.lt_of_lt_of_le hj hi)
  | join k hm =>
      refine ⟨hp.threads, by simp, by simp, by simp, ?_⟩
      intro k' _
      exact hp.join k hm
  | joined => exact ⟨Nat.zero_le _, by simp, by simp, by simp, by simp⟩
  | prologue i o hl hpc => exact hp.thread rfl
  | round i hpc hr => exact hp.thread rfl
  | move i pc hpc => exact hp.thread rfl
  | abort => exact ⟨hp.threads, hp.start, hp.store, hp.write, hp.join⟩

/-! ### When stop requests are honoured -/

/-- When `IOThreadPool::Stop` joins, every loop has been stopped. -/
theorem honoured_of_loops {s : Pool} (hp : Progress s) (h : ∀ i, (s.loops i).Honoured) : Honoured s := by
  refine ⟨h, ?_⟩
  intro k hm hk
  have hstopped := hp.join k hm k (Nat.lt_of_lt_of_le hk hp.threads)
  obtain ⟨n, hn⟩ := Option.isSome_iff_exists.mp hstopped
  exact (h k n hn).1

theorem Loop.Honoured.stopStore {l : Loop} (h : l.Honoured) : l.stopStore.Honoured := by
  intro k hk
  refine ⟨rfl, ?_⟩
  cases hs : l.stoppedAt with
  | none => simpa [Loop.stopStore, hs] using hk
  | some n =>
      have hn : n = k := by simpa [Loop.stopStore, hs] using hk
      subst hn
      exact (h n hs).2

theorem Loop.Honoured.stopWrite {l : Loop} (h : l.Honoured) : l.stopWrite.Honoured := by
  unfold Loop.stopWrite
  split
  · exact h
  · exact h

theorem honoured_setLoop {s : Pool} (h : ∀ j, (s.loops j).Honoured) {i : ℕ} {l : Loop} (hl : l.Honoured) :
    ∀ j, ((setLoop s i l).loops j).Honoured := by
  intro j
  unfold setLoop
  dsimp only
  split
  · exact hl
  · exact h j

/-- The step lemma: a step in which no stopped loop starts keeps every stop request honoured. -/
theorem honoured_loops_step {s s' : Pool} {l : Label} (hok : prologueFirst s l)
    (h : ∀ i, (s.loops i).Honoured) (hs : step s l = some s') : ∀ i, (s'.loops i).Honoured := by
  cases step_effect hs with
  | spawn k hm hk =>
      apply honoured_setLoop h
      exact h k
  | stopStore i all hm => exact honoured_setLoop h (h i).stopStore
  | stopWrite i all hm => exact honoured_setLoop h (h i).stopWrite
  | prologue i o hl hpc =>
      subst hl
      have hnone := hok hpc
      apply honoured_setLoop h
      intro k hk
      rw [hnone] at hk
      cases hk
  | round i hpc hr =>
      apply honoured_setLoop h
      intro k hk
      have := (h i k hk).1
      rw [hr] at this
      cases this
  | move i pc hpc =>
      apply honoured_setLoop h
      exact h i
  | started | call | stopped | join | joined | abort => exact h

/-- A prologue after the stop undoes it. -/
theorem not_honoured_of_prologue {s s' : Pool} {l : Label} (hok : ¬ prologueFirst s l)
    (hs : step s l = some s') : ¬ Honoured s' := by
  cases l with
  | main => exact absurd trivial hok
  | poolStop => exact absurd trivial hok
  | loopStop i => exact absurd trivial hok
  | thread i o =>
      simp only [prologueFirst, Classical.not_imp, ← ne_eq, Option.ne_none_iff_exists'] at hok
      obtain ⟨hpc, k, hk⟩ := hok
      have hs' : s' = setLoop s i { s.loops i with running := true, pc := .test } := by
        simp only [step, Loop.escapes, Loop.threadStep, hpc] at hs
        split at hs
        · cases hs
        · simpa using hs.symm
      intro hh
      have := (hh.1 i k (by rw [hs', setLoop_self]; exact hk)).1
      rw [hs', setLoop_self] at this
      cases this

theorem honoured_init (thread_num : ℕ) (wakeupFd : ℕ → ℤ) : Honoured (init thread_num wakeupFd) := by
  apply honoured_of_loops (progress_init thread_num wakeupFd)
  intro i k hk
  cases hk

/-- **When a stop request is lost.**  For every number of threads and every interleaving: in
all states of the run a stopped loop stays stopped, begins no further round, and is not still
running when it is joined, if and only if no thread of the run executes its prologue after
`Stop` has been executed on its loop. -/
theorem honoured_iff (thread_num : ℕ) (wakeupFd : ℕ → ℤ) (ls : List Label) (s : Pool)
    (h : run step (init thread_num wakeupFd) ls = some s) :
    (∀ ls₁ s₁, ls₁ <+: ls → run step (init thread_num wakeupFd) ls₁ = some s₁ → Honoured s₁) ↔
      Along step prologueFirst (init thread_num wakeupFd) ls := by
  refine always_iff_along (I := Progress) ?_ ?_ ?_ (progress_init thread_num wakeupFd)
    (honoured_init thread_num wakeupFd) h
  · intro s l s' hp hs
    exact progress_step hp hs
  · intro s l s' hp hh hok hs
    exact honoured_of_loops (progress_step hp hs) (honoured_loops_step hok hh.1 hs)
  · intro s l s' _ hok hs
    exact not_honoured_of_prologue hok hs

/-- Two loops, both past their prologue when `IOThreadPool::Stop` is called. -/
def timelyStop : List Label :=
  [.main, .main, .main, .thread 0 .returns, .thread 1 .returns, .thread 0 .returns, .poolStop, .main, .main,
    .main, .main, .main, .thread 0 .returns, .thread 0 .returns, .thread 0 .returns, .thread 1 .returns, .main, .main,
    .main]

theorem honoured_timelyStop :
    ∃ s, run step (init 2 (fun _ => 7)) timelyStop = some s ∧ s.main = .idle ∧ Honoured s := by
  obtain ⟨s, hrun, hs⟩ := exists_of_any (o := run step (init 2 (fun _ => 7)) timelyStop)
    (fun s => s.main = .idle) (by decide +kernel)
  have hall := (honoured_iff 2 (fun _ => 7) timelyStop s hrun).mpr (by decide +kernel)
  exact ⟨s, hrun, hs, hall timelyStop s (List.prefix_refl _) hrun⟩

/-- One loop; `IOThreadPool::Stop` runs before the thread has reached the prologue of `Loop`. -/
def lateStart : List Label :=
  [.main, .main, .poolStop, .main, .main, .main, .thread 0 .returns, .thread 0 .returns]

/-- The stop request is lost: the main thread is in the join and the loop runs on. -/
theorem stop_lost : ¬ ∀ (thread_num : ℕ) (wakeupFd : ℕ → ℤ) (ls : List Label) (s : Pool),
    run step (init thread_num wakeupFd) ls = some s → Honoured s := by
  intro hall
  obtain ⟨s, hrun, hs⟩ := exists_of_any (o := run step (init 1 (fun _ => 7)) lateStart)
    (fun s => s.main = .join 0 ∧ s.threads = 1 ∧ (s.loops 0).running = true) (by decide +kernel)
  have := (hall 1 (fun _ => 7) lateStart s hrun).2 0 hs.1 (by omega)
  rw [hs.2.2] at this
  cases this

end IOThreadPool

end TcpServer
