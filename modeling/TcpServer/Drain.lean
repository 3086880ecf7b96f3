import TcpServer.Wakeup
import TcpServer.Potential

/-! # The thread pool works off its queue

`Wakeup.lean` says that work is never left to sleeping workers alone.  Here the steps are counted: a
queued job has two steps before it (a worker takes it and finishes it), a worker that is up one, a
notification two, and the call of `Shutdown` that set the flag has `notify_all` and the joins.  What
callers bring in - jobs, `Shutdown` - and spurious wakeups are charged when they come (`cost`).

`drains`: every run is bounded by the work at its start and these charges, and where nobody can go on
without a charge every accepted job has been run; then all workers sleep, or, when a shutdown was
requested, all have returned and `Shutdown` has joined them.  So every task that `Enqueue` accepts is
run and every `Shutdown` returns, if only the tasks do. -/

namespace ThreadPool

open Transition

/-- Replacing one party of a list exchanges its share of the sum. -/
theorem sum_set {π : Type} (f : π → ℕ) {ps : List π} {i : ℕ} {p : π} (h : ps[i]? = some p) (q : π) :
    ((ps.set i q).map f).sum + f p = (ps.map f).sum + f q := by
  induction ps generalizing i with
  | nil => simp at h
  | cons a ps ih =>
      cases i with
      | zero =>
          simp only [List.getElem?_cons_zero, Option.some.injEq] at h
          subst h
          simp only [List.set_cons_zero, List.map_cons, List.sum_cons]
          omega
      | succ i =>
          rw [List.getElem?_cons_succ] at h
          have hrest := ih h
          simp only [List.set_cons_succ, List.map_cons, List.sum_cons]
          omega

def Worker.rank {α : Type} : Worker α → ℕ
  | .top => 1
  | .running _ => 2
  | .waiting | .exited => 0

/-- The steps of the call of `Shutdown` that set the flag, and what its `notify_all` adds. -/
def ShutdownPc.rank (n : ℕ) : ShutdownPc → ℕ
  | .idle | .joined => 0
  | .notify => 2 * n + 2
  | .join k => n + 1 - k

namespace Pool

variable {α : Type}

/-- What a label brings in to a pool of `n` workers. -/
def cost (n : ℕ) : Label α → ℕ
  | .enqueue _ => 5
  | .spurious _ => 2
  | .requestShutdown => 2 * n + 3
  | .notifyOne _ | .worker _ | .shutdown => 0

/-- What the workers and the call of `Shutdown` have still to do. -/
def work (p : Pool α) : ℕ :=
  (p.workers.map Worker.rank).sum + 2 * p.tasks.length + 2 * p.notifies + p.shutdown.rank p.workers.length

/-- Every accepted job has been run, and the workers sleep or have been joined. -/
structure Drained (p : Pool α) : Prop where
  tasks : p.tasks = []
  finished : p.finished.Perm p.accepted
  asleep : p.shutdownRequested = false → ∀ s ∈ p.workers, s = .waiting
  joined : p.shutdownRequested = true → p.shutdown = .joined ∧ ∀ s ∈ p.workers, s = .exited

section work

variable {p p' : Pool α} {w : ℕ} {s s' : Worker α}

theorem work_worker (h : p.worker w = some p') : p'.work + 1 ≤ p.work := by
  unfold worker at h
  split at h
  · next hw =>
      cases h
      unfold critical
      split
      · split_ifs
        · have hsum := sum_set Worker.rank hw .exited
          simp only [Worker.rank] at hsum
          simp only [work, setWorker, List.length_set]
          omega
        · have hsum := sum_set Worker.rank hw .waiting
          simp only [Worker.rank] at hsum
          simp only [work, setWorker, List.length_set]
          omega
      · next j rest ht =>
          have hsum := sum_set Worker.rank hw (.running j)
          simp only [Worker.rank] at hsum
          simp only [work, setWorker, List.length_set, ht, List.length_cons]
          omega
  · next j hw =>
      cases h
      have hsum := sum_set Worker.rank hw .top
      simp only [Worker.rank] at hsum
      simp only [work, setWorker, List.length_set]
      omega
  all_goals cases h

theorem work_notifyOne {o : Option ℕ} (h : p.notifyOne o = some p') : p'.work + 1 ≤ p.work := by
  obtain ⟨hpos, ⟨w, hw, rfl⟩ | ⟨-, rfl⟩⟩ := notifyOne_cases h
  · have hsum := sum_set Worker.rank hw .top
    simp only [Worker.rank] at hsum
    simp only [work, setWorker, List.length_set]
    omega
  · simp only [work]
    omega

/-- `notify_all` gives every sleeping worker one step. -/
theorem sum_wake_le (ws : List (Worker α)) :
    ((ws.map Worker.wake).map Worker.rank).sum ≤ (ws.map Worker.rank).sum + ws.length := by
  induction ws with
  | nil => exact Nat.le_refl _
  | cons s ws ih =>
      have hone : s.wake.rank ≤ s.rank + 1 := by
        cases s <;> simp [Worker.wake, Worker.rank]
      simp only [List.map_cons, List.sum_cons, List.length_cons]
      omega

/-- Only workers are joined. -/
theorem Inv.join_le (hi : p.Inv) {k : ℕ} (hpc : p.shutdown = .join k) : k ≤ p.workers.length := by
  by_contra hlt
  have hx := hi.joining k hpc p.workers.length (by omega)
  rw [List.getElem?_eq_none (Nat.le_refl _)] at hx
  cases hx

theorem work_shutdownStep (hi : p.Inv) (h : p.shutdownStep = some p') : p'.work + 1 ≤ p.work := by
  unfold shutdownStep at h
  split at h
  · cases h
  · next hpc =>
      cases h
      have hwake := sum_wake_le p.workers
      simp only [work, hpc, ShutdownPc.rank, List.length_map]
      omega
  · next k hpc =>
      have hle := hi.join_le hpc
      split_ifs at h with hk hx
      · cases h
        simp only [work, hpc, ShutdownPc.rank]
        omega
      · cases h
        simp only [work, hpc, ShutdownPc.rank]
        omega
  · cases h

/-- Every step brings the work down, up to what it brings in. -/
theorem work_step {l : Label α} (hi : p.Inv) (h : step p l = some p') :
    p'.work + 1 ≤ p.work + cost p.workers.length l := by
  cases l with
  | worker w => exact work_worker h
  | notifyOne o => exact work_notifyOne h
  | shutdown => exact work_shutdownStep hi h
  | enqueue f =>
      cases h
      unfold enqueue
      split
      · simp only [work, cost]
        omega
      · simp only [work, cost, List.length_append, List.length_singleton]
        omega
  | spurious w =>
      simp only [step, spurious] at h
      split at h
      · next hw =>
          cases h
          have hsum := sum_set Worker.rank hw .top
          simp only [Worker.rank] at hsum
          simp only [work, cost, setWorker, List.length_set]
          omega
      · cases h
  | requestShutdown =>
      cases h
      unfold requestShutdown
      split
      · simp only [cost]
        omega
      · simp only [work, cost, ShutdownPc.rank]
        omega

theorem length_workers_step {l : Label α} (h : step p l = some p') : p'.workers.length = p.workers.length := by
  cases step_effect h with
  | wake ws n pc hlen hheld hexit hpc => exact hlen
  | wait w hw => exact List.length_set
  | exit w hw hs ht => exact List.length_set
  | dequeue w j rest hw ht => exact List.length_set
  | finish w j hw => exact List.length_set
  | _ => rfl

end work

/-! ### Where nobody can go on -/

/-- Nothing can happen without a charge. -/
def Waits (p : Pool α) : Prop := ∀ l : Label α, cost p.workers.length l = 0 → step p l = none

/-- The invariants of the pool together; when the flag is set, a call of `Shutdown` has set it. -/
structure Sound (p : Pool α) : Prop where
  inv : p.Inv
  alert : p.Alert
  flag : p.shutdownRequested = true → p.shutdown ≠ .idle

section rest

variable {p p' : Pool α} {s : Worker α}

theorem sound_init (num_threads hardware_concurrency : ℕ) :
    (init num_threads hardware_concurrency : Pool α).Sound :=
  ⟨inv_init _ _, alert_init _ _, by simp [init]⟩

theorem sound_step {l : Label α} (h : p.Sound) (hs : step p l = some p') : p'.Sound := by
  refine ⟨inv_step h.inv hs, alert_step h.alert hs, ?_⟩
  cases step_effect hs with
  | wake ws n pc hlen hheld hexit hpc =>
      rcases hpc with rfl | rfl
      · exact h.flag
      · simp
  | request hs => simp
  | join k hpc hk => simp
  | joined k hpc hk => simp
  | _ => exact h.flag

/-- A worker that is up can go on, so all sleep or have returned. -/
theorem Waits.worker (hw : Waits p) (hs : s ∈ p.workers) : s = .waiting ∨ s = .exited := by
  obtain ⟨w, hw'⟩ := List.mem_iff_getElem?.mp hs
  have hnone : p.worker w = none := hw (.worker w) rfl
  unfold Pool.worker at hnone
  rw [hw'] at hnone
  cases s with
  | top => cases hnone
  | running j => cases hnone
  | waiting => exact Or.inl rfl
  | exited => exact Or.inr rfl

theorem Waits.not_awake (hw : Waits p) : ¬ p.Awake := by
  rintro ⟨s, hs, hne, hne'⟩
  rcases hw.worker hs with h | h
  · exact hne h
  · exact hne' h

/-- A notification that is due can be issued. -/
theorem Waits.not_due (hw : Waits p) : ¬ p.NotifyDue := by
  rintro (hn | hpc)
  · have hne : p.notifies ≠ 0 := by omega
    by_cases hs : .waiting ∈ p.workers
    · obtain ⟨o, p', ho⟩ := exists_notifyOne hn hs
      rw [hw (.notifyOne o) rfl] at ho
      cases ho
    · have hnone : p.notifyOne none = none := hw (.notifyOne none) rfl
      unfold Pool.notifyOne at hnone
      rw [if_neg hne] at hnone
      simp only [] at hnone
      split_ifs at hnone with hany
      obtain ⟨s, hmem, hm⟩ := List.any_eq_true.mp hany
      cases s <;> simp at hm
      exact hs hmem
  · have hnone : p.shutdownStep = none := hw .shutdown rfl
    simp [Pool.shutdownStep, hpc] at hnone

theorem Waits.tasks (hw : Waits p) (h : p.Sound) : p.tasks = [] := by
  by_contra ht
  by_cases hrem : p.Remaining
  · rcases h.alert.work ht hrem with ha | hd
    · exact hw.not_awake ha
    · exact hw.not_due hd
  · -- all workers have returned, and they return only from an empty queue
    obtain ⟨s, hs⟩ := List.exists_mem_of_ne_nil _ h.inv.workers
    obtain ⟨w, hw'⟩ := List.mem_iff_getElem?.mp hs
    have hx : s = .exited := by
      by_contra hne
      exact hrem ⟨s, hs, hne⟩
    rw [hx] at hw'
    exact ht (h.inv.exited w hw').2

theorem Waits.held (hw : Waits p) : p.held = [] := by
  apply List.flatMap_eq_nil_iff.mpr
  intro s hs
  rcases hw.worker hs with rfl | rfl
  · rfl
  · rfl

/-- After a shutdown request nobody sleeps, so every worker has returned and can be joined. -/
theorem Waits.joined (hw : Waits p) (h : p.Sound) (hreq : p.shutdownRequested = true) :
    p.shutdown = .joined ∧ ∀ s ∈ p.workers, s = .exited := by
  have hawake : .waiting ∉ p.workers := by
    rcases h.alert.leave hreq with hpc | hno
    · exact absurd (Or.inr hpc) hw.not_due
    · exact hno
  have hexit : ∀ s ∈ p.workers, s = .exited := by
    intro s hs
    rcases hw.worker hs with rfl | hx
    · exact absurd hs hawake
    · exact hx
  refine ⟨?_, hexit⟩
  have hnone : p.shutdownStep = none := hw .shutdown rfl
  unfold Pool.shutdownStep at hnone
  cases hpc : p.shutdown with
  | idle => exact absurd hpc (h.flag hreq)
  | notify => exact absurd (Or.inr hpc) hw.not_due
  | joined => rfl
  | join k =>
      rw [hpc] at hnone
      simp only [] at hnone
      split_ifs at hnone with hk hx
      have hmem := hexit _ (List.getElem_mem hk)
      rw [List.getElem?_eq_getElem hk, hmem] at hx
      simp at hx

theorem Waits.drained (hw : Waits p) (h : p.Sound) : Drained p := by
  have ht := hw.tasks h
  refine ⟨ht, ?_, ?_, hw.joined h⟩
  · have hpart := h.inv.partition
    rwa [ht, hw.held, List.append_nil, List.append_nil] at hpart
  · intro hreq s hs
    rcases hw.worker hs with hwait | rfl
    · exact hwait
    · obtain ⟨w, hw'⟩ := List.mem_iff_getElem?.mp hs
      have hstop := (h.inv.exited w hw').1
      rw [h.alert.stop, hreq] at hstop
      cases hstop

/-- **The pool works off its queue.**  From every state reached: a run is no longer than the work at its
start and what its labels bring in; where nothing can happen without bringing something in, every
accepted job has been run and the workers sleep or have been joined; and the workers, the notifications
due and the call of `Shutdown` can always come that far by themselves. -/
theorem drains {num_threads hardware_concurrency : ℕ}
    (hr : Reach step always (init num_threads hardware_concurrency) p) :
    (∀ ls p', run step p ls = some p' → ls.length ≤ p.work + (ls.map (cost p.workers.length)).sum) ∧
      (Waits p → Drained p) ∧
      ∃ ls p', (∀ l ∈ ls, cost p.workers.length l = 0) ∧ run step p ls = some p' ∧ ls.length ≤ p.work ∧
        Drained p' := by
  have hsound : p.Sound := hr.invariant Sound (sound_init _ _) fun _ _ _ h _ hs => sound_step h hs
  have hI : ∀ (q : Pool α) l q', q.Sound ∧ q.workers.length = p.workers.length → True → step q l = some q' →
      q'.Sound ∧ q'.workers.length = p.workers.length := by
    rintro q l q' ⟨hq, hn⟩ - hs
    exact ⟨sound_step hq hs, (length_workers_step hs).trans hn⟩
  have hdrop : ∀ (q : Pool α) l q', q.Sound ∧ q.workers.length = p.workers.length → True → step q l = some q' →
      q'.work + 1 ≤ q.work + cost p.workers.length l := by
    rintro q l q' ⟨hq, hn⟩ - hs
    rw [← hn]
    exact work_step hq.inv hs
  refine ⟨?_, fun hw => hw.drained hsound, ?_⟩
  · intro ls p' hrun
    have hlen := length_le_of_potential hI hdrop ⟨hsound, rfl⟩ (fun _ _ => trivial) hrun
    omega
  · have hgo : ∀ q : Pool α, q.Sound ∧ q.workers.length = p.workers.length → ¬ Drained q →
        ∃ l q', True ∧ cost p.workers.length l = 0 ∧ step q l = some q' := by
      rintro q ⟨hq, hn⟩ hnd
      by_contra hno
      apply hnd
      refine Waits.drained ?_ hq
      intro l hl
      cases hs : step q l with
      | none => rfl
      | some q' => exact absurd ⟨l, q', trivial, by rw [← hn]; exact hl, hs⟩ hno
    obtain ⟨ls, p', hok, hrun, hlen, hd, -⟩ := exists_run_to hI hdrop hgo ⟨hsound, rfl⟩
    exact ⟨ls, p', fun l hl => (hok l hl).2, hrun, hlen, hd⟩

end rest

/-- Both workers sleep when two jobs arrive, and `Shutdown` is called before they are notified. -/
def lateShutdownRun : List (Label ℕ) := [.worker 0, .worker 1, .enqueue 7, .enqueue 8, .requestShutdown]

theorem lateShutdownRun_drains :
    ∃ p, run step (init 2 0) lateShutdownRun = some p ∧ p.tasks.length = 2 ∧ p.work = 14 ∧
      ∃ ls p', (∀ l ∈ ls, cost p.workers.length l = 0) ∧ run step p ls = some p' ∧ ls.length ≤ p.work ∧
        Drained p' := by
  obtain ⟨p, hp, ht, hwork⟩ := exists_of_any (o := run step (init 2 0) lateShutdownRun)
    (fun p => p.tasks.length = 2 ∧ p.work = 14) (by decide)
  exact ⟨p, hp, ht, hwork, (drains (reach_of_run hp)).2.2⟩

end Pool

end ThreadPool
