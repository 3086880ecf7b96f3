import TcpServer.Transition
import Mathlib.Data.List.Perm.Basic

/-! # The task queue and its workers (`util/thread_pool.h`, `util/thread_pool.cpp`)

Any number of threads call `Enqueue` and `Shutdown`, and every worker runs `WorkerThread`.
The critical sections of `queue_mutex_` are one step each; between them anything may
happen: a worker that found nothing to do sleeps in `condition_.wait` until it is notified or
wakes spuriously, a task runs while other steps go on, a call of `Enqueue` has pushed its task
and has not notified yet.

Every call of `Enqueue` draws a ticket, so that two calls with the same function are two jobs.
The pool keeps four histories of jobs: `accepted` (pushed), `thrown` (the call threw),
`dequeued` (moved out of the queue by a worker) and `finished` (`task()` returned).

`Pool.exactly_once`: in every reachable state the accepted jobs are, without overlap, the
finished ones, those held by a worker and those queued; they leave the queue in the order of
acceptance; a job whose call threw is never run; and when the `Shutdown` that set
`shutdown_requested_` has joined all workers, every accepted job has been run exactly once. -/

namespace ThreadPool

open Transition

/-! ### A list of parties that each hold some items -/

section Held

variable {π β : Type} (held : π → List β)

/-- Replacing one party exchanges what it held for what it holds. -/
theorem flatMap_set_perm {ps : List π} {i : ℕ} {p : π} (h : ps[i]? = some p) (p' : π) :
    (held p ++ (ps.set i p').flatMap held).Perm (held p' ++ ps.flatMap held) := by
  induction ps generalizing i with
  | nil => simp at h
  | cons q ps ih =>
      cases i with
      | zero =>
          simp only [List.getElem?_cons_zero, Option.some.injEq] at h
          subst h
          simp only [List.set_cons_zero, List.flatMap_cons]
          exact List.perm_append_comm_assoc _ _ _
      | succ i =>
          rw [List.getElem?_cons_succ] at h
          simp only [List.set_cons_succ, List.flatMap_cons]
          refine (List.perm_append_comm_assoc _ _ _).trans ?_
          refine ((ih h).append_left (held q)).trans ?_
          exact List.perm_append_comm_assoc _ _ _

end Held

/-! ### The pool -/

/-- A call of `Enqueue`: its ticket and the bound function. -/
structure Job (α : Type) where
  ticket : ℕ
  fn : α
deriving DecidableEq, Repr

/-- Where a worker stands in `WorkerThread`: before the critical section, asleep in
`condition_.wait`, inside `task()`, or returned. -/
inductive Worker (α : Type) where
  | top
  | waiting
  | running (j : Job α)
  | exited
deriving DecidableEq, Repr

/-- The job a worker holds. -/
def Worker.held {α : Type} : Worker α → List (Job α)
  | .running j => [j]
  | .top => []
  | .waiting => []
  | .exited => []

/-- What `notify_one`, `notify_all` and a spurious wakeup do to a worker. -/
def Worker.wake {α : Type} : Worker α → Worker α
  | .waiting => .top
  | w => w

/-- Where the call of `Shutdown` that set the flag stands: not made, before `notify_all`,
about to join worker `k`, or returned. -/
inductive ShutdownPc where
  | idle
  | notify
  | join (k : ℕ)
  | joined
deriving DecidableEq, Repr

/-- The pool.  `notifies` counts the calls of `Enqueue` between their critical section and
`notify_one`, `calls` the tickets drawn. -/
structure Pool (α : Type) where
  stop : Bool
  shutdownRequested : Bool
  workers : List (Worker α)
  tasks : List (Job α)
  shutdown : ShutdownPc
  notifies : ℕ
  calls : ℕ
  accepted : List (Job α)
  thrown : List (Job α)
  dequeued : List (Job α)
  finished : List (Job α)
deriving DecidableEq, Repr

namespace Pool

variable {α : Type}

/-- `num_threads_` as the constructor computes it. -/
def numThreads (num_threads hardware_concurrency : ℕ) : ℕ :=
  if num_threads = 0 then (if hardware_concurrency = 0 then 4 else hardware_concurrency) * 2
  else num_threads

/-- The constructor. -/
def init (num_threads hardware_concurrency : ℕ) : Pool α where
  stop := false
  shutdownRequested := false
  workers := List.replicate (numThreads num_threads hardware_concurrency) .top
  tasks := []
  shutdown := .idle
  notifies := 0
  calls := 0
  accepted := []
  thrown := []
  dequeued := []
  finished := []

/-- The jobs held by workers. -/
def held (p : Pool α) : List (Job α) := p.workers.flatMap Worker.held

/-- The job of the next call of `Enqueue`. -/
def job (p : Pool α) (f : α) : Job α := ⟨p.calls, f⟩

/-- `Enqueue` up to the end of its critical section; the ticket stands for the future. -/
def enqueue (p : Pool α) (f : α) : Pool α × Except String ℕ :=
  if p.stop || p.shutdownRequested then
    ({ p with calls := p.calls + 1, thrown := p.thrown ++ [p.job f] },
      .error "Cannot enqueue on stopped ThreadPool")
  else
    ({ p with calls := p.calls + 1, tasks := p.tasks ++ [p.job f],
              accepted := p.accepted ++ [p.job f], notifies := p.notifies + 1 }, .ok p.calls)

def setWorker (p : Pool α) (w : ℕ) (s : Worker α) : Pool α := { p with workers := p.workers.set w s }

/-- `condition_.notify_one()` of a call of `Enqueue`; it wakes some waiting worker, if any. -/
def notifyOne (p : Pool α) (w : Option ℕ) : Option (Pool α) :=
  if p.notifies = 0 then none
  else
    let p' := { p with notifies := p.notifies - 1 }
    match w with
    | some w => if p.workers[w]?.any (fun s => s matches .waiting) then some (p'.setWorker w .top) else none
    | none => if p.workers.any (fun s => s matches .waiting) then none else some p'

/-- The critical section of `WorkerThread`: the predicate of the wait, then either the return,
or `tasks_.front()` and `tasks_.pop()`. -/
def critical (p : Pool α) (w : ℕ) : Pool α :=
  match p.tasks with
  | [] => if p.stop || p.shutdownRequested then p.setWorker w .exited else p.setWorker w .waiting
  | j :: rest => { p.setWorker w (.running j) with tasks := rest, dequeued := p.dequeued ++ [j] }

/-- A step of worker `w`: its critical section, or the return of `task()`. -/
def worker (p : Pool α) (w : ℕ) : Option (Pool α) :=
  match p.workers[w]? with
  | some .top => some (p.critical w)
  | some (.running j) => some { p.setWorker w .top with finished := p.finished ++ [j] }
  | some .waiting => none
  | some .exited => none
  | none => none

/-- A worker wakes spuriously. -/
def spurious (p : Pool α) (w : ℕ) : Option (Pool α) :=
  match p.workers[w]? with
  | some .waiting => some (p.setWorker w .top)
  | _ => none

/-- The critical section of `Shutdown`: a call that finds the flag set returns. -/
def requestShutdown (p : Pool α) : Pool α :=
  if p.shutdownRequested then p else { p with shutdownRequested := true, shutdown := .notify }

/-- The call of `Shutdown` that set the flag goes on: `notify_all`, then the joins in order. -/
def shutdownStep (p : Pool α) : Option (Pool α) :=
  match p.shutdown with
  | .idle => none
  | .notify => some { p with workers := p.workers.map Worker.wake, shutdown := .join 0 }
  | .join k =>
      if k < p.workers.length then
        if p.workers[k]?.any (fun s => s matches .exited) then some { p with shutdown := .join (k + 1) } else none
      else some { p with shutdown := .joined }
  | .joined => none

inductive Label (α : Type) where
  | enqueue (f : α)
  | notifyOne (w : Option ℕ)
  | worker (w : ℕ)
  | spurious (w : ℕ)
  | requestShutdown
  | shutdown
deriving DecidableEq, Repr

def step (p : Pool α) : Label α → Option (Pool α)
  | .enqueue f => some (p.enqueue f).1
  | .notifyOne w => p.notifyOne w
  | .worker w => p.worker w
  | .spurious w => p.spurious w
  | .requestShutdown => some p.requestShutdown
  | .shutdown => p.shutdownStep

/-! ### What a step can do -/

/-- Everything a step can do to the pool; `wake` covers the notifications and the spurious
wakeups, after which the same workers hold the same jobs and the same workers have returned. -/
inductive Effect (p : Pool α) : Pool α → Prop
  | thrown (f : α) (hs : (p.stop || p.shutdownRequested) = true) :
      Effect p { p with calls := p.calls + 1, thrown := p.thrown ++ [p.job f] }
  | accepted (f : α) (hs : (p.stop || p.shutdownRequested) = false) :
      Effect p { p with calls := p.calls + 1, tasks := p.tasks ++ [p.job f],
                        accepted := p.accepted ++ [p.job f], notifies := p.notifies + 1 }
  | wake (ws : List (Worker α)) (n : ℕ) (pc : ShutdownPc)
      (hlen : ws.length = p.workers.length)
      (hheld : (ws.flatMap Worker.held).Perm (p.workers.flatMap Worker.held))
      (hexit : ∀ i : ℕ, ws[i]? = some .exited ↔ p.workers[i]? = some .exited)
      (hpc : pc = p.shutdown ∨ pc = .join 0) :
      Effect p { p with workers := ws, notifies := n, shutdown := pc }
  | wait (w : ℕ) (hw : p.workers[w]? = some .top) :
      Effect p (p.setWorker w .waiting)
  | exit (w : ℕ) (hw : p.workers[w]? = some .top) (hs : (p.stop || p.shutdownRequested) = true)
      (ht : p.tasks = []) : Effect p (p.setWorker w .exited)
  | dequeue (w : ℕ) (j : Job α) (rest : List (Job α)) (hw : p.workers[w]? = some .top)
      (ht : p.tasks = j :: rest) :
      Effect p { p.setWorker w (.running j) with tasks := rest, dequeued := p.dequeued ++ [j] }
  | finish (w : ℕ) (j : Job α) (hw : p.workers[w]? = some (.running j)) :
      Effect p { p.setWorker w .top with finished := p.finished ++ [j] }
  | again (hs : p.shutdownRequested = true) : Effect p p
  | request (hs : p.shutdownRequested = false) :
      Effect p { p with shutdownRequested := true, shutdown := .notify }
  | join (k : ℕ) (hpc : p.shutdown = .join k) (hk : p.workers[k]? = some .exited) :
      Effect p { p with shutdown := .join (k + 1) }
  | joined (k : ℕ) (hpc : p.shutdown = .join k) (hk : p.workers.length ≤ k) :
      Effect p { p with shutdown := .joined }

theorem setWorker_exited {p : Pool α} {w : ℕ} {s : Worker α} (hw : p.workers[w]? = some s)
    (hs : s ≠ .exited) {s' : Worker α} (hs' : s' ≠ .exited) (i : ℕ) :
    (p.setWorker w s').workers[i]? = some .exited ↔ p.workers[i]? = some .exited := by
  unfold setWorker
  rw [List.getElem?_set]
  split
  · next h =>
      subst h
      simp [hw, hs, hs']
  · rfl

theorem effect_wakeOne {p : Pool α} {w n : ℕ} (hw : p.workers[w]? = some .waiting) :
    Effect p { p.setWorker w .top with notifies := n } := by
  apply Effect.wake (p := p) (p.workers.set w .top) n p.shutdown
  · exact List.length_set
  · exact flatMap_set_perm Worker.held hw .top
  · exact setWorker_exited hw (by simp) (by simp)
  · exact Or.inl rfl

theorem wake_exited {s : Worker α} : s.wake = .exited ↔ s = .exited := by
  cases s <;> simp [Worker.wake]

theorem wake_held (s : Worker α) : s.wake.held = s.held := by
  cases s <;> rfl

theorem effect_wakeAll (p : Pool α) :
    Effect p { p with workers := p.workers.map Worker.wake, shutdown := .join 0 } := by
  apply Effect.wake (p := p) (p.workers.map Worker.wake) p.notifies (.join 0)
  · exact List.length_map ..
  · rw [List.flatMap_map]
    simp only [wake_held]
    exact List.Perm.refl _
  · intro i
    rw [List.getElem?_map]
    cases p.workers[i]? with
    | none => simp
    | some s => simp [wake_exited]
  · exact Or.inr rfl

theorem effect_worker {p p' : Pool α} {w : ℕ} (h : p.worker w = some p') : Effect p p' := by
  unfold worker at h
  split at h
  · next hw =>
      cases h
      unfold critical
      split
      · next ht =>
          split
          · next hs => exact Effect.exit w hw hs ht
          · exact Effect.wait w hw
      · next j rest ht => exact Effect.dequeue w j rest hw ht
  · next j hw =>
      cases h
      exact Effect.finish w j hw
  all_goals cases h

/-- What `notify_one` does: it wakes a worker, or nobody sleeps. -/
theorem notifyOne_cases {p p' : Pool α} {o : Option ℕ} (hs : p.notifyOne o = some p') :
    0 < p.notifies ∧
      ((∃ w, p.workers[w]? = some .waiting ∧ p' = { p.setWorker w .top with notifies := p.notifies - 1 }) ∨
        (.waiting ∉ p.workers ∧ p' = { p with notifies := p.notifies - 1 })) := by
  unfold notifyOne at hs
  split at hs
  · cases hs
  · next hn =>
      refine ⟨Nat.pos_of_ne_zero hn, ?_⟩
      cases o with
      | some w =>
          simp only [Option.ite_none_right_eq_some, Option.any_eq_true] at hs
          obtain ⟨⟨s, hw, hm⟩, hs⟩ := hs
          cases s <;> simp at hm
          cases hs
          exact Or.inl ⟨w, hw, rfl⟩
      | none =>
          simp only [Option.ite_none_left_eq_some] at hs
          obtain ⟨hno, hs⟩ := hs
          cases hs
          refine Or.inr ⟨fun hm => hno ?_, rfl⟩
          exact List.any_eq_true.mpr ⟨.waiting, hm, rfl⟩

theorem effect_notifyOne {p p' : Pool α} {w : Option ℕ} (h : p.notifyOne w = some p') : Effect p p' := by
  obtain ⟨-, ⟨w, hw, rfl⟩ | ⟨-, rfl⟩⟩ := notifyOne_cases h
  · exact effect_wakeOne hw
  · exact Effect.wake p.workers _ p.shutdown rfl (List.Perm.refl _) (fun _ => Iff.rfl) (Or.inl rfl)

theorem effect_shutdownStep {p p' : Pool α} (h : p.shutdownStep = some p') : Effect p p' := by
  unfold shutdownStep at h
  split at h
  · cases h
  · cases h
    exact effect_wakeAll p
  · next k hpc =>
      split at h
      · simp only [Option.ite_none_right_eq_some, Option.any_eq_true] at h
        obtain ⟨⟨s, hk, hs⟩, h⟩ := h
        cases s <;> simp at hs
        cases h
        exact Effect.join k hpc hk
      · next hk =>
          cases h
          exact Effect.joined k hpc (by omega)
  · cases h

theorem step_effect {p p' : Pool α} {l : Label α} (h : step p l = some p') : Effect p p' := by
  cases l with
  | enqueue f =>
      cases h
      unfold enqueue
      split
      · next hs => exact Effect.thrown f hs
      · next hs => exact Effect.accepted f (by simpa using hs)
  | notifyOne w => exact effect_notifyOne h
  | worker w => exact effect_worker h
  | spurious w =>
      simp only [step, spurious] at h
      split at h
      · next hw =>
          cases h
          exact effect_wakeOne hw
      · cases h
  | requestShutdown =>
      cases h
      unfold requestShutdown
      split
      · next hs => exact Effect.again hs
      · next hs => exact Effect.request (by simpa using hs)
  | shutdown => exact effect_shutdownStep h

/-! ### The invariant -/

/-- What holds of the pool in every reachable state. -/
structure Inv (p : Pool α) : Prop where
  /-- the queue is the accepted jobs less the ones that left it, in the order of acceptance -/
  order : p.dequeued ++ p.tasks = p.accepted
  /-- what left the queue has been run or is held by a worker -/
  split : (p.finished ++ p.held).Perm p.dequeued
  fresh : ∀ j ∈ p.accepted ++ p.thrown, j.ticket < p.calls
  nodup : (p.accepted ++ p.thrown).Nodup
  workers : p.workers ≠ []
  /-- a worker returns only when the queue is empty for good -/
  exited : ∀ i : ℕ, p.workers[i]? = some .exited → (p.stop || p.shutdownRequested) = true ∧ p.tasks = []
  joining : ∀ k, p.shutdown = .join k → ∀ i < k, p.workers[i]? = some .exited
  joined : p.shutdown = .joined → ∀ i < p.workers.length, p.workers[i]? = some .exited

theorem numThreads_pos (num_threads hardware_concurrency : ℕ) :
    0 < numThreads num_threads hardware_concurrency := by
  unfold numThreads
  split
  · split <;> omega
  · omega

theorem inv_init (num_threads hardware_concurrency : ℕ) :
    (init num_threads hardware_concurrency : Pool α).Inv where
  order := rfl
  split := by simp [init, held, Worker.held]
  fresh := by simp [init]
  nodup := by simp [init]
  workers := by
    have := numThreads_pos num_threads hardware_concurrency
    simp only [init, ne_eq, List.replicate_eq_nil_iff]
    omega
  exited := by simp [init, List.getElem?_replicate]
  joining := by simp [init]
  joined := by simp [init]

/-- The ticket of the next call has not been drawn before. -/
theorem Inv.job_notMem {p : Pool α} (hi : p.Inv) (f : α) : p.job f ∉ p.accepted ++ p.thrown := by
  intro hm
  have := hi.fresh _ hm
  simp [job] at this

theorem Inv.fresh_snoc {p : Pool α} (hi : p.Inv) (f : α) :
    ∀ j ∈ p.job f :: (p.accepted ++ p.thrown), j.ticket < p.calls + 1 := by
  intro j hj
  rcases List.mem_cons.mp hj with rfl | hj
  · exact Nat.lt_succ_self _
  · exact Nat.lt_succ_of_lt (hi.fresh j hj)

theorem Inv.thrown {p : Pool α} (hi : p.Inv) (f : α) :
    Inv { p with calls := p.calls + 1, thrown := p.thrown ++ [p.job f] } := by
  have hperm : (p.accepted ++ (p.thrown ++ [p.job f])).Perm (p.job f :: (p.accepted ++ p.thrown)) := by
    rw [← List.append_assoc]
    exact List.perm_append_singleton _ _
  refine { hi with fresh := ?_, nodup := ?_ }
  · intro j hj
    exact hi.fresh_snoc f j (hperm.mem_iff.mp hj)
  · rw [hperm.nodup_iff, List.nodup_cons]
    exact ⟨hi.job_notMem f, hi.nodup⟩

theorem Inv.accepted {p : Pool α} (hi : p.Inv) (f : α) (hs : (p.stop || p.shutdownRequested) = false) :
    Inv { p with calls := p.calls + 1, tasks := p.tasks ++ [p.job f],
                 accepted := p.accepted ++ [p.job f], notifies := p.notifies + 1 } := by
  have hperm : (p.accepted ++ [p.job f] ++ p.thrown).Perm (p.job f :: (p.accepted ++ p.thrown)) := by
    rw [List.append_assoc]
    exact List.perm_middle
  refine { hi with order := ?_, fresh := ?_, nodup := ?_, exited := ?_ }
  · show p.dequeued ++ (p.tasks ++ [p.job f]) = p.accepted ++ [p.job f]
    rw [← List.append_assoc, hi.order]
  · intro j hj
    exact hi.fresh_snoc f j (hperm.mem_iff.mp hj)
  · rw [hperm.nodup_iff, List.nodup_cons]
    exact ⟨hi.job_notMem f, hi.nodup⟩
  · intro i hx
    have := (hi.exited i hx).1
    rw [hs] at this
    cases this

/-- Moving a worker between two places of `WorkerThread` other than its return. -/
theorem Inv.move {p : Pool α} (hi : p.Inv) {w : ℕ} {s s' : Worker α} (hw : p.workers[w]? = some s)
    (hs : s ≠ .exited) (hs' : s' ≠ .exited) {tasks dequeued finished : List (Job α)}
    (horder : dequeued ++ tasks = p.accepted)
    (hsplit : (finished ++ (p.setWorker w s').held).Perm dequeued)
    (htasks : p.tasks = [] → tasks = []) :
    Inv { p.setWorker w s' with tasks := tasks, dequeued := dequeued, finished := finished } := by
  have hx : ∀ i : ℕ, (p.workers.set w s')[i]? = some .exited ↔ p.workers[i]? = some .exited :=
    setWorker_exited hw hs hs'
  refine ⟨horder, hsplit, hi.fresh, hi.nodup, ?_, ?_, ?_, ?_⟩
  · intro hnil
    exact hi.workers (by simpa [setWorker] using hnil)
  · intro i hi'
    obtain ⟨h1, h2⟩ := hi.exited i ((hx i).mp hi')
    exact ⟨h1, htasks h2⟩
  · intro k hk i hik
    exact (hx i).mpr (hi.joining k hk i hik)
  · intro hj i hlt
    apply (hx i).mpr
    apply hi.joined hj i
    simpa [setWorker] using hlt

theorem held_setWorker {p : Pool α} {w : ℕ} {s : Worker α} (hw : p.workers[w]? = some s) (s' : Worker α) :
    (s.held ++ (p.setWorker w s').held).Perm (s'.held ++ p.held) :=
  flatMap_set_perm Worker.held hw s'

theorem Inv.exit {p : Pool α} (hi : p.Inv) {w : ℕ} (hw : p.workers[w]? = some .top)
    (hs : (p.stop || p.shutdownRequested) = true) (ht : p.tasks = []) : (p.setWorker w .exited).Inv := by
  have hkeep : ∀ i : ℕ, p.workers[i]? = some .exited → (p.workers.set w .exited)[i]? = some .exited := by
    intro i hx
    rw [List.getElem?_set]
    split
    · next h =>
        subst h
        rw [hw] at hx
        cases hx
    · exact hx
  refine ⟨hi.order, ?_, hi.fresh, hi.nodup, ?_, ?_, ?_, ?_⟩
  · have hheld : (p.setWorker w .exited).held.Perm p.held := held_setWorker hw .exited
    exact (hheld.append_left p.finished).trans hi.split
  · intro hnil
    exact hi.workers (by simpa [setWorker] using hnil)
  · intro _ _
    exact ⟨hs, ht⟩
  · intro k hk i hik
    exact hkeep i (hi.joining k hk i hik)
  · intro hj i hlt
    apply hkeep
    apply hi.joined hj i
    simpa [setWorker] using hlt

theorem Inv.wake {p : Pool α} (hi : p.Inv) {ws : List (Worker α)} {n : ℕ} {pc : ShutdownPc}
    (hlen : ws.length = p.workers.length)
    (hheld : (ws.flatMap Worker.held).Perm (p.workers.flatMap Worker.held))
    (hexit : ∀ i : ℕ, ws[i]? = some .exited ↔ p.workers[i]? = some .exited)
    (hpc : pc = p.shutdown ∨ pc = .join 0) :
    Inv { p with workers := ws, notifies := n, shutdown := pc } := by
  refine ⟨hi.order, (hheld.append_left p.finished).trans hi.split, hi.fresh, hi.nodup, ?_, ?_, ?_, ?_⟩
  · intro hnil
    apply hi.workers
    apply List.length_eq_zero_iff.mp
    rw [← hlen]
    exact List.length_eq_zero_iff.mpr hnil
  · intro i hx
    exact hi.exited i ((hexit i).mp hx)
  · intro k hk i hik
    apply (hexit i).mpr
    rcases hpc with rfl | rfl
    · exact hi.joining k hk i hik
    · cases hk
      omega
  · intro hj i hlt
    apply (hexit i).mpr
    rcases hpc with rfl | rfl
    · apply hi.joined hj i
      rw [← hlen]
      exact hlt
    · cases hj

/-- **The step lemma.** -/
theorem inv_step {p p' : Pool α} {l : Label α} (hi : p.Inv) (h : step p l = some p') : p'.Inv := by
  cases step_effect h with
  | thrown f hs => exact hi.thrown f
  | accepted f hs => exact hi.accepted f hs
  | wake ws n pc hlen hheld hexit hpc => exact hi.wake hlen hheld hexit hpc
  | wait w hw =>
      have hheld : (p.setWorker w .waiting).held.Perm p.held := held_setWorker hw .waiting
      exact hi.move hw (by simp) (by simp) hi.order ((hheld.append_left p.finished).trans hi.split) id
  | exit w hw hs ht => exact hi.exit hw hs ht
  | dequeue w j rest hw ht =>
      have hheld : (p.setWorker w (.running j)).held.Perm (j :: p.held) := held_setWorker hw (.running j)
      apply hi.move hw (by simp) (by simp)
      · rw [← hi.order, ht, List.append_assoc, List.singleton_append]
      · refine (hheld.append_left p.finished).trans (List.perm_middle.trans ?_)
        exact (hi.split.cons j).trans (List.perm_append_singleton j p.dequeued).symm
      · intro hnil
        rw [ht] at hnil
        cases hnil
  | finish w j hw =>
      have hheld : (j :: (p.setWorker w .top).held).Perm p.held := held_setWorker hw .top
      apply hi.move hw (by simp) (by simp) hi.order
      · rw [List.append_assoc, List.singleton_append]
        exact (hheld.append_left p.finished).trans hi.split
      · exact id
  | again hs => exact hi
  | request hs =>
      refine { hi with exited := ?_, joining := ?_, joined := ?_ }
      · intro i hx
        exact ⟨by simp, (hi.exited i hx).2⟩
      · intro k hk
        cases hk
      · intro hj
        cases hj
  | join k hpc hk =>
      refine { hi with joining := ?_, joined := ?_ }
      · intro k' hk' i hik
        cases hk'
        rcases Nat.lt_succ_iff_lt_or_eq.mp hik with hlt | rfl
        · exact hi.joining k hpc i hlt
        · exact hk
      · intro hj
        cases hj
  | joined k hpc hk =>
      refine { hi with joining := ?_, joined := ?_ }
      · intro k' hk'
        cases hk'
      · intro _ i hlt
        exact hi.joining k hpc i (Nat.lt_of_lt_of_le hlt hk)

/-- **The run lemma.** -/
theorem inv_reach {p p' : Pool α} (hi : p.Inv) (h : Reach step always p p') : p'.Inv :=
  Reach.invariant Inv hi (fun _ _ _ hi _ hs => inv_step hi hs) h

/-- A job whose call threw stays on the record of the calls that threw. -/
theorem thrown_reach {p p' : Pool α} {j : Job α} (hj : j ∈ p.thrown) (h : Reach step always p p') :
    j ∈ p'.thrown := by
  apply Reach.invariant (fun p => j ∈ p.thrown) hj _ h
  intro p l p' hj _ hs
  cases step_effect hs with
  | thrown f hs => exact List.mem_append_left _ hj
  | _ => exact hj

theorem Inv.notMem_of_thrown {p : Pool α} (hi : p.Inv) {j : Job α} (hj : j ∈ p.thrown) :
    j ∉ p.tasks ∧ j ∉ p.held ∧ j ∉ p.finished := by
  have hna : j ∉ p.accepted := fun ha => (List.nodup_append.mp hi.nodup).2.2 j ha j hj rfl
  rw [← hi.order, List.mem_append, not_or, ← hi.split.mem_iff, List.mem_append, not_or] at hna
  exact ⟨hna.2, hna.1.2, hna.1.1⟩

/-- When every worker has been joined, nothing is held. -/
theorem Inv.held_of_joined {p : Pool α} (hi : p.Inv) (hj : p.shutdown = .joined) : p.held = [] := by
  apply List.flatMap_eq_nil_iff.mpr
  intro s hs
  obtain ⟨i, hlt, rfl⟩ := List.mem_iff_getElem.mp hs
  have := hi.joined hj i hlt
  rw [List.getElem?_eq_getElem hlt, Option.some.injEq] at this
  rw [this]
  rfl

theorem Inv.tasks_of_joined {p : Pool α} (hi : p.Inv) (hj : p.shutdown = .joined) : p.tasks = [] :=
  (hi.exited 0 (hi.joined hj 0 (List.length_pos_iff.mpr hi.workers))).2

theorem Inv.partition {p : Pool α} (hi : p.Inv) : (p.finished ++ p.held ++ p.tasks).Perm p.accepted := by
  rw [← hi.order]
  exact hi.split.append_right p.tasks

theorem Inv.finished_of_joined {p : Pool α} (hi : p.Inv) (hj : p.shutdown = .joined) :
    p.finished.Perm p.accepted := by
  have := hi.partition
  rwa [hi.tasks_of_joined hj, hi.held_of_joined hj, List.append_nil, List.append_nil] at this

theorem enqueue_error {p : Pool α} {f : α} {e : String} (h : (p.enqueue f).2 = .error e) :
    (p.enqueue f).1.tasks = p.tasks ∧ p.job f ∈ (p.enqueue f).1.thrown := by
  unfold enqueue at h ⊢
  split
  · exact ⟨rfl, List.mem_append_right _ (List.mem_singleton_self _)⟩
  · next hs =>
      rw [if_neg hs] at h
      cases h

/-- **Every accepted task is run exactly once.**  For every number of workers the constructor
can spawn and every interleaving: the accepted jobs are distinct and are, without overlap, the
finished, the held and the queued ones; they leave the queue in the order of acceptance; an
`Enqueue` that throws leaves the queue unchanged and its job never leaves the ranks of the
thrown ones; and after the joins of `Shutdown` the queue is empty and the finished jobs are
the accepted ones. -/
theorem exactly_once (num_threads hardware_concurrency : ℕ) (p : Pool α)
    (h : Reach step always (init num_threads hardware_concurrency) p) :
    p.accepted.Nodup ∧ (p.finished ++ p.held ++ p.tasks).Perm p.accepted ∧
      p.dequeued ++ p.tasks = p.accepted ∧ (p.finished ++ p.held).Perm p.dequeued ∧
      (∀ f e, (p.enqueue f).2 = .error e → (p.enqueue f).1.tasks = p.tasks ∧
        ∀ p', Reach step always (p.enqueue f).1 p' →
          p.job f ∉ p'.tasks ∧ p.job f ∉ p'.held ∧ p.job f ∉ p'.finished) ∧
      (p.shutdown = .joined → p.tasks = [] ∧ p.finished.Perm p.accepted) := by
  have hi := inv_reach (inv_init num_threads hardware_concurrency) h
  refine ⟨(List.nodup_append.mp hi.nodup).1, hi.partition, hi.order, hi.split, ?_, ?_⟩
  · intro f e he
    obtain ⟨htasks, hthrown⟩ := enqueue_error he
    refine ⟨htasks, fun p' hr => ?_⟩
    have hi' : p'.Inv := inv_reach (inv_step (l := .enqueue f) hi rfl) hr
    exact hi'.notMem_of_thrown (thrown_reach hthrown hr)
  · intro hj
    exact ⟨hi.tasks_of_joined hj, hi.finished_of_joined hj⟩

/-- Two workers, three jobs, a shutdown with one job queued and one running. -/
theorem exactly_once_two :
    ∃ p : Pool ℕ, run step (init 2 8) [.enqueue 5, .enqueue 5, .worker 0, .enqueue 7, .requestShutdown,
        .enqueue 9, .worker 1, .worker 0, .shutdown, .worker 0, .worker 1, .worker 0, .worker 0, .worker 1,
        .shutdown, .shutdown, .shutdown] = some p ∧
      p.shutdown = .joined ∧ p.accepted.length = 3 ∧ p.thrown.length = 1 ∧ p.finished.Perm p.accepted := by
  obtain ⟨p, hr, h⟩ := exists_of_any (o := run step (init 2 8) [.enqueue 5, .enqueue 5, .worker 0, .enqueue 7,
      .requestShutdown, .enqueue 9, .worker 1, .worker 0, .shutdown, .worker 0, .worker 1, .worker 0, .worker 0,
      .worker 1, .shutdown, .shutdown, .shutdown])
    (fun p : Pool ℕ => p.shutdown = .joined ∧ p.accepted.length = 3 ∧ p.thrown.length = 1) (by decide +kernel)
  exact ⟨p, hr, h.1, h.2.1, h.2.2, ((exactly_once 2 8 p (reach_of_run hr)).2.2.2.2.2 h.1).2⟩

end Pool

end ThreadPool
