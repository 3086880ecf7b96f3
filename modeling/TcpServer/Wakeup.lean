import TcpServer.ThreadPool

/-! # No lost wakeup in the thread pool

`Enqueue` and `Shutdown` notify after they have released the mutex, so that a notification may
find nobody asleep, or wake a worker whose task has been taken by another one.  What keeps the
pool alive is that a worker falls asleep only when it has just seen an empty queue and no
shutdown request, under the mutex.

`Alert` says what holds in every reachable state: while the queue is not empty a worker is up or a
notification is due, and once a shutdown has been requested nobody sleeps, or its `notify_all` is
due.  `no_lost_wakeup`: work or a shutdown is never left to sleeping workers alone, and the
notification that is due then wakes one of them. -/

namespace ThreadPool

open Transition

namespace Pool

variable {α : Type}

/-- Some worker is neither asleep in `condition_.wait` nor has it returned. -/
def Awake (p : Pool α) : Prop := ∃ s ∈ p.workers, s ≠ .waiting ∧ s ≠ .exited

/-- Some worker has not returned. -/
def Remaining (p : Pool α) : Prop := ∃ s ∈ p.workers, s ≠ .exited

/-- There is work, or the workers are to return. -/
def Pending (p : Pool α) : Prop := p.tasks ≠ [] ∨ p.shutdownRequested = true

/-- A call of `Enqueue` or `Shutdown` has its notification still to issue. -/
def NotifyDue (p : Pool α) : Prop := 0 < p.notifies ∨ p.shutdown = .notify

structure Alert (p : Pool α) : Prop where
  stop : p.stop = false
  work : p.tasks ≠ [] → p.Remaining → p.Awake ∨ p.NotifyDue
  leave : p.shutdownRequested = true → p.shutdown = .notify ∨ .waiting ∉ p.workers

theorem alert_init (num_threads hardware_concurrency : ℕ) :
    (init num_threads hardware_concurrency : Pool α).Alert :=
  ⟨rfl, fun ht => absurd rfl ht, fun hs => by cases hs⟩

/-! ### Who is up after a step -/

section workers

variable {p p' : Pool α} {w : ℕ} {s : Worker α}

theorem awake_of_not_waiting (h : .waiting ∉ p.workers) (hr : p.Remaining) : p.Awake := by
  obtain ⟨s, hs, hne⟩ := hr
  refine ⟨s, hs, ?_, hne⟩
  rintro rfl
  exact h hs

theorem awake_setWorker {s' : Worker α} (hw : p.workers[w]? = some s) (h1 : s' ≠ .waiting) (h2 : s' ≠ .exited) :
    (p.setWorker w s').Awake := by
  obtain ⟨hlt, -⟩ := List.getElem?_eq_some_iff.mp hw
  exact ⟨s', List.mem_set (by simpa using hlt) s', h1, h2⟩

/-- No worker falls asleep by a change of another one. -/
theorem not_waiting_setWorker {s' : Worker α} (h1 : s' ≠ .waiting) (h : .waiting ∉ p.workers) :
    .waiting ∉ (p.setWorker w s').workers := by
  intro hm
  rcases List.mem_or_eq_of_mem_set hm with hm | hm
  · exact h hm
  · exact h1 hm.symm

theorem not_waiting_wake (ws : List (Worker α)) : .waiting ∉ ws.map Worker.wake := by
  intro hm
  obtain ⟨s, -, hs⟩ := List.mem_map.mp hm
  cases s <;> cases hs

theorem remaining_wake {ws : List (Worker α)} (h : ∃ s ∈ ws, s ≠ .exited) : ∃ s ∈ ws.map Worker.wake, s ≠ .exited := by
  obtain ⟨s, hs, hne⟩ := h
  exact ⟨s.wake, List.mem_map_of_mem hs, fun he => hne (wake_exited.mp he)⟩

end workers

/-! ### Steps -/

section steps

variable {p p' : Pool α} {w : ℕ}

theorem Alert.enqueue (h : p.Alert) (f : α) : (p.enqueue f).1.Alert := by
  unfold Pool.enqueue
  split
  · exact ⟨h.stop, h.work, h.leave⟩
  · next hs =>
      refine ⟨h.stop, fun _ _ => Or.inr (Or.inl (Nat.succ_pos _)), fun hreq => ?_⟩
      simp only [Bool.or_eq_true, not_or] at hs
      exact absurd hreq hs.2

/-- A worker that has been woken up is awake, and nobody has fallen asleep. -/
theorem Alert.wakeOne (h : p.Alert) (hw : p.workers[w]? = some .waiting) (n : ℕ) :
    Alert { p.setWorker w .top with notifies := n } := by
  have hawake : (p.setWorker w .top).Awake := awake_setWorker hw (by simp) (by simp)
  refine ⟨h.stop, fun _ _ => Or.inl hawake, fun hreq => ?_⟩
  exact (h.leave hreq).imp id (not_waiting_setWorker (by simp))

theorem Alert.notifyOne {o : Option ℕ} (h : p.Alert) (hs : p.notifyOne o = some p') : p'.Alert := by
  obtain ⟨-, ⟨w, hw, rfl⟩ | ⟨hno, rfl⟩⟩ := notifyOne_cases hs
  · exact h.wakeOne hw _
  · exact ⟨h.stop, fun _ hr => Or.inl (awake_of_not_waiting hno hr), h.leave⟩

/-- The critical section: a worker goes to sleep only when there is nothing to do. -/
theorem Alert.critical (h : p.Alert) (hw : p.workers[w]? = some .top) : (p.critical w).Alert := by
  unfold Pool.critical
  split
  · next ht =>
      split
      · refine ⟨h.stop, fun hne => absurd ht hne, fun hreq => ?_⟩
        exact (h.leave hreq).imp id (not_waiting_setWorker (by simp))
      · next hs =>
          refine ⟨h.stop, fun hne => absurd ht hne, fun hreq => ?_⟩
          simp only [Bool.or_eq_true, not_or] at hs
          exact absurd hreq hs.2
  · next j rest ht =>
      have hawake : (p.setWorker w (.running j)).Awake := awake_setWorker hw (by simp) (by simp)
      refine ⟨h.stop, fun _ _ => Or.inl hawake, fun hreq => ?_⟩
      exact (h.leave hreq).imp id (not_waiting_setWorker (by simp))

theorem Alert.worker (h : p.Alert) (hs : p.worker w = some p') : p'.Alert := by
  unfold Pool.worker at hs
  split at hs
  · next hw =>
      cases hs
      exact h.critical hw
  · next j hw =>
      cases hs
      have hawake : (p.setWorker w .top).Awake := awake_setWorker hw (by simp) (by simp)
      refine ⟨h.stop, fun _ _ => Or.inl hawake, fun hreq => ?_⟩
      exact (h.leave hreq).imp id (not_waiting_setWorker (by simp))
  all_goals cases hs

theorem Alert.requestShutdown (h : p.Alert) : p.requestShutdown.Alert := by
  unfold Pool.requestShutdown
  split
  · exact h
  · exact ⟨h.stop, fun _ _ => Or.inr (Or.inr rfl), fun _ => Or.inl rfl⟩

theorem Alert.shutdownStep (h : p.Alert) (hs : p.shutdownStep = some p') : p'.Alert := by
  -- the joins change nothing for the workers
  have hjoin : ∀ pc, p.shutdown ≠ .notify → Alert { p with shutdown := pc } := by
    intro pc hpc
    refine ⟨h.stop, fun ht hr => ?_, fun hreq => Or.inr ((h.leave hreq).resolve_left hpc)⟩
    exact (h.work ht hr).imp id fun hdue => Or.inl (hdue.resolve_right hpc)
  unfold Pool.shutdownStep at hs
  split at hs
  · cases hs
  · cases hs
    have hno : Worker.waiting ∉ p.workers.map Worker.wake := not_waiting_wake p.workers
    exact ⟨h.stop, fun _ hr => Or.inl (awake_of_not_waiting hno hr), fun _ => Or.inr hno⟩
  · next k hpc =>
      have hne : p.shutdown ≠ .notify := by rw [hpc]; simp
      split_ifs at hs <;> cases hs <;> exact hjoin _ hne
  · cases hs

theorem alert_step {l : Label α} (h : p.Alert) (hs : step p l = some p') : p'.Alert := by
  cases l with
  | enqueue f =>
      cases hs
      exact h.enqueue f
  | notifyOne o => exact h.notifyOne hs
  | worker w => exact h.worker hs
  | spurious w =>
      simp only [step, Pool.spurious] at hs
      split at hs
      · next hw =>
          cases hs
          exact h.wakeOne hw _
      · cases hs
  | requestShutdown =>
      cases hs
      exact h.requestShutdown
  | shutdown => exact h.shutdownStep hs

/-! ### The notification that is due -/

/-- With a worker asleep, `notify_one` can be issued. -/
theorem exists_notifyOne (hn : 0 < p.notifies) (hw : .waiting ∈ p.workers) :
    ∃ o p', step p (.notifyOne o) = some p' := by
  obtain ⟨w, hw⟩ := List.mem_iff_getElem?.mp hw
  refine ⟨some w, { p.setWorker w .top with notifies := p.notifies - 1 }, ?_⟩
  have hne : p.notifies ≠ 0 := by omega
  simp [step, Pool.notifyOne, hne, hw, setWorker]

/-- Whichever worker `notify_one` picks, somebody is awake afterwards. -/
theorem awake_notifyOne {o : Option ℕ} (hr : p.Remaining) (hs : step p (.notifyOne o) = some p') : p'.Awake := by
  obtain ⟨-, ⟨w, hw, rfl⟩ | ⟨hno, rfl⟩⟩ := notifyOne_cases hs
  · exact awake_setWorker hw (by simp) (by simp)
  · exact awake_of_not_waiting hno hr

theorem awake_notifyAll (hpc : p.shutdown = .notify) (hr : p.Remaining) :
    ∃ p', step p .shutdown = some p' ∧ p'.Awake := by
  refine ⟨{ p with workers := p.workers.map Worker.wake, shutdown := .join 0 }, ?_, ?_⟩
  · simp [step, Pool.shutdownStep, hpc]
  · exact awake_of_not_waiting (not_waiting_wake p.workers) (remaining_wake hr)

theorem Alert.awake_or_due (h : p.Alert) (hp : p.Pending) (hr : p.Remaining) : p.Awake ∨ p.NotifyDue := by
  rcases hp with ht | hreq
  · exact h.work ht hr
  · rcases h.leave hreq with hpc | hno
    · exact Or.inr (Or.inr hpc)
    · exact Or.inl (awake_of_not_waiting hno hr)

/-- **No lost wakeup.**  In every reachable state with tasks in the queue, or with a shutdown
requested, and a worker that has not returned: some worker is neither asleep nor has returned, or
a caller of `Enqueue` or `Shutdown` has its notification still to issue.  In the second case, if
all the remaining workers sleep, the notification can be issued, and every way of issuing it
leaves a worker awake. -/
theorem no_lost_wakeup {num_threads hardware_concurrency : ℕ}
    (hr : Reach step always (init num_threads hardware_concurrency) p) (hp : p.Pending) (hrem : p.Remaining) :
    (p.Awake ∨ p.NotifyDue) ∧
      (¬ p.Awake →
        (0 < p.notifies → (∃ o p', step p (.notifyOne o) = some p') ∧
          ∀ o p', step p (.notifyOne o) = some p' → p'.Awake) ∧
        (p.shutdown = .notify → ∃ p', step p .shutdown = some p' ∧ p'.Awake)) := by
  have h : p.Alert := hr.invariant Alert (alert_init _ _) fun _ _ _ hI _ hs => alert_step hI hs
  refine ⟨h.awake_or_due hp hrem, fun hno => ⟨fun hn => ⟨?_, ?_⟩, fun hpc => awake_notifyAll hpc hrem⟩⟩
  · apply exists_notifyOne hn
    by_contra hw
    exact hno (awake_of_not_waiting hw hrem)
  · intro o p' hs
    exact awake_notifyOne hrem hs

end steps

/-- Both workers have gone to sleep when a job arrives; its notification is still due. -/
def sleepersRun : List (Label ℕ) := [.worker 0, .worker 1, .enqueue 7]

theorem sleepersRun_notifyDue :
    ∃ p, run step (init 2 0) sleepersRun = some p ∧ p.workers = [.waiting, .waiting] ∧ p.tasks = [⟨0, 7⟩] ∧
      p.NotifyDue ∧ ∃ o p', step p (.notifyOne o) = some p' ∧ p'.Awake := by
  obtain ⟨p, hp, hw, ht, hn⟩ := exists_of_any (o := run step (init 2 0) sleepersRun)
    (fun p => p.workers = [.waiting, .waiting] ∧ p.tasks = [⟨0, 7⟩] ∧ 0 < p.notifies) (by decide)
  have hno : ¬ p.Awake := by
    rintro ⟨s, hs, hne, -⟩
    simp only [hw, List.mem_cons, List.not_mem_nil, or_false, or_self] at hs
    exact hne hs
  have hrem : p.Remaining := ⟨.waiting, by simp [hw], by simp⟩
  obtain ⟨hdue, hwake⟩ := no_lost_wakeup (reach_of_run hp) (Or.inl (by simp [ht])) hrem
  obtain ⟨⟨o, p', hs⟩, hall⟩ := (hwake hno).1 hn
  exact ⟨p, hp, hw, ht, hdue.resolve_left hno, o, p', hs, hall o p' hs⟩

end Pool

end ThreadPool
