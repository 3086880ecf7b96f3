import TcpServer.Supervision
import TcpServer.Potential

/-! # Callers and heartbeat thread come to rest

`rank` counts the steps a caller or the thread has at most before it returns, falls asleep or ends.  What
the thread has before it depends on `heartbeat_running_`: with a stop request it runs through to its end,
without one to its next sleep.  So a store of `heartbeat_running_` may add to its work, and the caller
that stores has been charged for that before; the same with `notify_all` and the creation of the thread.
New calls, timeouts, spurious wakeups, other users of `mutex_` and connections to remove are
charged when they come (`cost`).

`comes_to_rest`: every run is bounded by the work at its start and these charges, and where nobody can go
on without a charge, all callers have returned, both mutexes are free and the thread has ended or is
asleep with no stop request.  In particular `join()` in `StopHeartbeatCheck` always returns, also when
the thread is in the middle of a sweep, and `Shutdown` gets `mutex_`. -/

namespace TcpServer

open Transition

namespace HeartbeatThread

def CallPc.rank : CallPc → ℕ
  | .idle => 0
  | .startLock => 14
  | .startTest => 13
  | .startStore => 12
  | .startSpawn => 5
  | .startUnlock => 1
  | .stopLock _ => 15
  | .stopTest _ => 14
  | .stopStore _ => 13
  | .stopUnlock _ _ => 10
  | .stopNotify _ => 9
  | .stopJoinable _ => 4
  | .stopJoin _ => 3
  | .shutLock => 2
  | .shutBody => 1

/-- The steps of the thread to its end when it has been asked to stop, else to its next sleep. -/
def ThreadPc.rank (running : Bool) : ThreadPc → ℕ
  | .unborn | .parked | .ended => 0
  | .test => if running then 3 else 1
  | .lock => if running then 2 else 4
  | .pred => if running then 1 else 3
  | .wake timedOut => if running then (if timedOut then 10 else 2) else 4
  | .last => if running then 9 else 3
  | .unlock => if running then 8 else 2
  | .check => if running then 7 else 1
  | .scanLock => if running then 6 else 4
  | .scan => if running then 5 else 3
  | .sweep n => (if running then 4 else 2) + 2 * n
  | .remove n => (if running then 5 else 3) + 2 * n

namespace Pool

/-- What a label brings in from outside. -/
def cost : Label → ℕ
  | .invoke _ _ => 16
  | .caller _ | .thread _ | .leave => 0
  | .collect _ n => 2 * n
  | .timeout _ => 11
  | .spurious _ => 5
  | .take => 2

/-- What the callers have still to do. -/
def callWork (s : Pool) : ℕ := ∑ c ∈ Finset.range s.callers, (s.call c).rank

/-- What the thread in `heartbeat_thread_` has still to do. -/
def threadWork (s : Pool) : ℕ := s.handle.elim 0 fun k => (s.thread k).rank s.running

/-- What all have still to do; the last two are for the other user of `mutex_` and for the process. -/
def work (s : Pool) : ℕ :=
  s.callWork + s.threadWork + (if s.mutex = some .other then 1 else 0) + (if s.aborted then 0 else 1)

/-- Nobody is in the middle of anything. -/
structure Rest (s : Pool) : Prop where
  callers : ∀ c < s.callers, s.call c = .idle
  thread : ∀ k, (s.thread k).alive = true → s.thread k = .parked ∧ s.running = true
  heartbeatMutex : s.heartbeatMutex = none
  mutex : s.mutex = none

section work

variable {s s' : Pool} {c k : ℕ} {l : Label} {p q : CallPc} {u v : ThreadPc}

theorem callWork_goto (hc : c < s.callers) (hp : s.call c = p) (hcallers : s'.callers = s.callers)
    (hcall : s'.call = Function.update s.call c q) : s'.callWork + p.rank = s.callWork + q.rank := by
  have hsum := sum_exchange (f := fun d => (s.call d).rank) (g := fun d => (s'.call d).rank) hc
    (fun d hd => by rw [hcall, Function.update_of_ne hd])
  have hnew : s'.call c = q := by rw [hcall, Function.update_self]
  rw [hp, hnew] at hsum
  unfold callWork
  rw [hcallers]
  exact hsum

theorem threadWork_some (hk : s.handle = some k) : s.threadWork = (s.thread k).rank s.running := by
  unfold threadWork
  rw [hk]
  rfl

theorem threadWork_none (hk : s.handle = none) : s.threadWork = 0 := by
  unfold threadWork
  rw [hk]
  rfl

/-- A store of `heartbeat_running_` adds at most six steps, or two. -/
theorem rank_running (u : ThreadPc) : u.rank true ≤ u.rank false + 6 ∧ u.rank false ≤ u.rank true + 2 := by
  cases u with
  | wake t => cases t <;> simp [ThreadPc.rank]
  | _ => simp [ThreadPc.rank] <;> omega

theorem rank_afterStop (sh : Bool) : (afterStop sh).rank ≤ 2 := by
  cases sh <;> simp [afterStop, CallPc.rank]

/-- No other member function comes to hold `mutex_`. -/
theorem mutexWork_le (hother : s'.mutex = some .other → s.mutex = some .other) :
    (if s'.mutex = some .other then 1 else 0) ≤ if s.mutex = some .other then 1 else 0 := by
  split_ifs with h1 h2
  · exact Nat.le_refl _
  · exact absurd (hother h1) h2
  · exact Nat.zero_le _
  · exact Nat.le_refl _

/-- A caller goes on and nothing else changes but a mutex. -/
theorem work_goto (hc : c < s.callers) (hp : s.call c = p) (hcallers : s'.callers = s.callers)
    (hcall : s'.call = Function.update s.call c q) (hthread : s'.threadWork ≤ s.threadWork + k)
    (hother : s'.mutex = some .other → s.mutex = some .other) (hab : s'.aborted = s.aborted)
    (hrank : q.rank + k + 1 ≤ p.rank) : s'.work + 1 ≤ s.work := by
  have hsum := callWork_goto hc hp hcallers hcall
  have hmutex := mutexWork_le hother
  unfold work
  rw [hab]
  omega

theorem work_callStep (h : Inv s) (halive : s.aborted = false) (hs : s.callStep c = some s') :
    s'.work + 1 ≤ s.work := by
  have hc : c < s.callers := h.lt_callers (callStep_frame hs).1
  cases hpc : s.call c with
  | idle =>
      simp only [callStep, hpc] at hs
      cases hs
  | startLock =>
      simp only [callStep, hpc] at hs
      split_ifs at hs
      cases hs
      exact work_goto (k := 0) hc hpc rfl rfl (Nat.le_refl _) id rfl (by simp [CallPc.rank])
  | startTest =>
      simp only [callStep, hpc] at hs
      cases hs
      exact work_goto (k := 0) hc hpc rfl rfl (Nat.le_refl _) id rfl (by split_ifs <;> simp [CallPc.rank])
  | startStore =>
      simp only [callStep, hpc] at hs
      cases hs
      refine work_goto (k := 6) hc hpc rfl rfl ?_ id rfl (by simp [CallPc.rank])
      cases hh : s.handle with
      | none =>
          rw [threadWork_none (show ((s.setRunning true).goto c .startSpawn).handle = none from hh)]
          exact Nat.zero_le _
      | some j =>
          rw [threadWork_some (show ((s.setRunning true).goto c .startSpawn).handle = some j from hh),
            threadWork_some hh, h.supervised.start c hpc]
          exact (rank_running _).1
  | startSpawn =>
      simp only [callStep, hpc] at hs
      split at hs
      · next hnone =>
          cases hs
          refine work_goto (k := 3) hc hpc rfl rfl ?_ id rfl (by simp [CallPc.rank])
          rw [threadWork_some (show (s.spawn.goto c .startUnlock).handle = some s.spawned from rfl),
            threadWork_none hnone]
          simp only [goto_thread, spawn_thread, Function.update_self, ThreadPc.rank]
          split_ifs <;> omega
      · cases hs
        have hthread : s.abort.threadWork = s.threadWork := rfl
        have hcall : s.abort.callWork = s.callWork := rfl
        unfold work
        rw [hthread, hcall, halive]
        simp
  | startUnlock =>
      simp only [callStep, hpc] at hs
      cases hs
      exact work_goto (k := 0) hc hpc rfl rfl (Nat.le_refl _) id rfl (by simp [CallPc.rank])
  | stopLock sh =>
      simp only [callStep, hpc] at hs
      split_ifs at hs
      cases hs
      exact work_goto (k := 0) hc hpc rfl rfl (Nat.le_refl _) id rfl (by simp [CallPc.rank])
  | stopTest sh =>
      simp only [callStep, hpc] at hs
      cases hs
      exact work_goto (k := 0) hc hpc rfl rfl (Nat.le_refl _) id rfl (by split_ifs <;> simp [CallPc.rank])
  | stopStore sh =>
      simp only [callStep, hpc] at hs
      cases hs
      refine work_goto (k := 2) hc hpc rfl rfl ?_ id rfl (by simp [CallPc.rank])
      cases hh : s.handle with
      | none =>
          rw [threadWork_none (show ((s.setRunning false).goto c (.stopUnlock sh true)).handle = none from hh)]
          exact Nat.zero_le _
      | some j =>
          rw [threadWork_some (show ((s.setRunning false).goto c (.stopUnlock sh true)).handle = some j from hh),
            threadWork_some hh, h.supervised.stop c sh hpc]
          exact (rank_running _).2
  | stopUnlock sh found =>
      simp only [callStep, hpc] at hs
      cases hs
      refine work_goto (k := 0) hc hpc rfl rfl (Nat.le_refl _) id rfl ?_
      have hafter := rank_afterStop sh
      have hrank : (CallPc.stopUnlock sh found).rank = 10 := rfl
      split_ifs
      · simp [CallPc.rank]
      · omega
  | stopNotify sh =>
      simp only [callStep, hpc] at hs
      cases hs
      refine work_goto (k := 4) hc hpc rfl rfl ?_ id rfl (by simp [CallPc.rank])
      cases hh : s.handle with
      | none =>
          rw [threadWork_none (show (s.notifyAll.goto c (.stopJoinable sh)).handle = none from hh)]
          exact Nat.zero_le _
      | some j =>
          rw [threadWork_some (show (s.notifyAll.goto c (.stopJoinable sh)).handle = some j from hh), threadWork_some hh]
          simp only [goto_thread, notifyAll_thread, goto_running, notifyAll_running]
          split_ifs with hj
          · rw [hj]
            cases s.running <;> simp [ThreadPc.rank]
          · omega
  | stopJoinable sh =>
      simp only [callStep, hpc] at hs
      cases hs
      refine work_goto (k := 0) hc hpc rfl rfl (Nat.le_refl _) id rfl ?_
      have hafter := rank_afterStop sh
      have hrank : (CallPc.stopJoinable sh).rank = 4 := rfl
      split_ifs
      · simp [CallPc.rank]
      · omega
  | stopJoin sh =>
      simp only [callStep, hpc] at hs
      split at hs
      · next hnone => exact absurd hnone (h.supervised.stopper c (by rw [hpc]; rfl)).1
      · split_ifs at hs
        cases hs
        refine work_goto (k := 0) hc hpc rfl rfl ?_ id rfl ?_
        · rw [threadWork_none rfl]
          exact Nat.zero_le _
        · have hafter := rank_afterStop sh
          have hrank : (CallPc.stopJoin sh).rank = 3 := rfl
          omega
  | shutLock =>
      simp only [callStep, hpc] at hs
      split_ifs at hs
      cases hs
      exact work_goto (k := 0) hc hpc rfl rfl (Nat.le_refl _) (by simp) rfl (by simp [CallPc.rank])
  | shutBody =>
      simp only [callStep, hpc] at hs
      cases hs
      exact work_goto (k := 0) hc hpc rfl rfl (Nat.le_refl _) (by simp) rfl (by simp [CallPc.rank])

/-- The thread goes on. -/
theorem work_move {e : ℕ} (h : Inv s) (hu : s.thread k = u) (halive : u.alive = true)
    (hcallers : s'.callers = s.callers) (hcall : s'.call = s.call) (hhandle : s'.handle = s.handle)
    (hrunning : s'.running = s.running) (hthread : s'.thread k = v)
    (hother : s'.mutex = some .other → s.mutex = some .other) (hab : s'.aborted = s.aborted)
    (hrank : v.rank s.running + 1 ≤ u.rank s.running + e) : s'.work + 1 ≤ s.work + e := by
  have hmine : s.handle = some k := h.supervised.alive k (by rw [hu]; exact halive)
  have hcw : s'.callWork = s.callWork := by
    unfold callWork
    rw [hcallers, hcall]
  have htw : s'.threadWork = v.rank s.running := by rw [threadWork_some (hhandle.trans hmine), hthread, hrunning]
  have hmutex := mutexWork_le hother
  unfold work
  rw [hcw, htw, hab, threadWork_some hmine, hu]
  omega

theorem work_threadStep (h : Inv s) (hs : s.threadStep k = some s') : s'.work + 1 ≤ s.work + 0 := by
  cases hpc : s.thread k with
  | test =>
      simp only [threadStep, hpc] at hs
      cases hs
      refine work_move h hpc rfl rfl rfl rfl rfl (Function.update_self _ _ _) id rfl ?_
      split_ifs with hr <;> simp [ThreadPc.rank, hr]
  | lock =>
      simp only [threadStep, hpc] at hs
      split_ifs at hs
      cases hs
      refine work_move (v := .pred) h hpc rfl rfl rfl rfl rfl (by simp) id rfl ?_
      cases s.running <;> simp [ThreadPc.rank]
  | pred =>
      simp only [threadStep, hpc] at hs
      split_ifs at hs with hr
      · cases hs
        exact work_move (v := .parked) h hpc rfl rfl rfl rfl rfl (by simp) id rfl (by simp [ThreadPc.rank, hr])
      · cases hs
        exact work_move (v := .unlock) h hpc rfl rfl rfl rfl rfl (by simp) id rfl (by simp [ThreadPc.rank, hr])
  | wake timedOut =>
      simp only [threadStep, hpc] at hs
      split_ifs at hs with hfree ht
      · cases hs
        refine work_move (v := .last) h hpc rfl rfl rfl rfl rfl (by simp) id rfl ?_
        cases s.running <;> simp [ThreadPc.rank, ht]
      · cases hs
        refine work_move (v := .pred) h hpc rfl rfl rfl rfl rfl (by simp) id rfl ?_
        cases s.running <;> simp [ThreadPc.rank, ht]
  | last =>
      simp only [threadStep, hpc] at hs
      cases hs
      refine work_move (v := .unlock) h hpc rfl rfl rfl rfl rfl (by simp) id rfl ?_
      cases s.running <;> simp [ThreadPc.rank]
  | unlock =>
      simp only [threadStep, hpc] at hs
      cases hs
      refine work_move (v := .check) h hpc rfl rfl rfl rfl rfl (by simp) id rfl ?_
      cases s.running <;> simp [ThreadPc.rank]
  | check =>
      simp only [threadStep, hpc] at hs
      cases hs
      refine work_move h hpc rfl rfl rfl rfl rfl (Function.update_self _ _ _) id rfl ?_
      split_ifs with hr <;> simp [ThreadPc.rank, hr]
  | scanLock =>
      simp only [threadStep, hpc] at hs
      split_ifs at hs
      cases hs
      refine work_move (v := .scan) h hpc rfl rfl rfl rfl rfl (by simp) (by simp) rfl ?_
      cases s.running <;> simp [ThreadPc.rank]
  | sweep n =>
      cases n with
      | zero =>
          simp only [threadStep, hpc] at hs
          cases hs
          refine work_move (v := .test) h hpc rfl rfl rfl rfl rfl (by simp) id rfl ?_
          cases s.running <;> simp [ThreadPc.rank]
      | succ n =>
          simp only [threadStep, hpc] at hs
          split_ifs at hs
          cases hs
          refine work_move (v := .remove n) h hpc rfl rfl rfl rfl rfl (by simp) (by simp) rfl ?_
          simp only [ThreadPc.rank]
          split_ifs <;> omega
  | remove n =>
      simp only [threadStep, hpc] at hs
      cases hs
      refine work_move (v := .sweep n) h hpc rfl rfl rfl rfl rfl (by simp) (by simp) rfl ?_
      simp only [ThreadPc.rank]
      split_ifs <;> omega
  | _ =>
      simp only [threadStep, hpc] at hs
      cases hs

theorem work_wakeStep {timedOut : Bool} (h : Inv s) (hs : s.wakeStep k timedOut = some s') :
    s'.work + 1 ≤ s.work + if timedOut then 11 else 5 := by
  unfold wakeStep at hs
  split_ifs at hs with hpc
  cases hs
  refine work_move (v := .wake timedOut) h hpc rfl rfl rfl rfl rfl (by simp) id rfl ?_
  cases s.running <;> cases timedOut <;> simp [ThreadPc.rank]

/-- Every step brings the work down, up to what it brings in. -/
theorem work_step (h : Inv s) (hs : step s l = some s') : s'.work + 1 ≤ s.work + cost l := by
  obtain ⟨halive, ha⟩ := step_some hs
  cases l with
  | caller c => exact work_callStep h halive ha
  | thread k => exact work_threadStep h ha
  | timeout k => exact work_wakeStep h ha
  | spurious k => exact work_wakeStep h ha
  | invoke c f =>
      simp only [act] at ha
      split_ifs at ha with hc
      cases ha
      have hsum : (s.goto c (entry f)).callWork + CallPc.idle.rank = s.callWork + (entry f).rank :=
        callWork_goto hc.1 hc.2 rfl rfl
      have hentry : (entry f).rank ≤ 15 := by cases f <;> simp [entry, CallPc.rank]
      have hidle : CallPc.idle.rank = 0 := rfl
      have hthread : (s.goto c (entry f)).threadWork = s.threadWork := rfl
      simp only [work, cost, hthread, goto_mutex, goto_aborted]
      omega
  | collect k n =>
      simp only [act] at ha
      split_ifs at ha with hpc
      cases ha
      refine work_move (v := .sweep n) h hpc rfl rfl rfl rfl rfl (by simp) (by simp) rfl ?_
      simp only [ThreadPc.rank, cost]
      split_ifs <;> omega
  | take =>
      simp only [act] at ha
      split_ifs at ha with hfree
      cases ha
      have hthread : (s.setMutex (some .other)).threadWork = s.threadWork := rfl
      have hcall : (s.setMutex (some .other)).callWork = s.callWork := rfl
      simp only [work, cost, hthread, hcall, setMutex_mutex, setMutex_aborted, hfree, if_true]
      simp only [reduceCtorEq, if_false]
      omega
  | leave =>
      simp only [act] at ha
      split_ifs at ha with hmine
      cases ha
      have hthread : (s.setMutex none).threadWork = s.threadWork := rfl
      have hcall : (s.setMutex none).callWork = s.callWork := rfl
      simp only [work, cost, hthread, hcall, setMutex_mutex, setMutex_aborted, hmine, if_true]
      simp only [reduceCtorEq, if_false]
      omega

end work

/-! ### Where nobody can go on -/

/-- Nothing can happen without a charge. -/
def Waits (s : Pool) : Prop := ∀ l, cost l = 0 → step s l = none

section rest

variable {s s' : Pool} {c k : ℕ}

theorem Waits.act (hw : Waits s) (halive : s.aborted = false) {l : Label} (hl : cost l = 0) : s.act l = none := by
  have h := hw l hl
  unfold step at h
  rwa [halive, if_neg Bool.false_ne_true] at h

/-- Who holds `heartbeat_mutex_` can go on. -/
theorem Waits.heartbeatMutex (hw : Waits s) (h : Inv s) (halive : s.aborted = false) : s.heartbeatMutex = none := by
  by_contra hm
  obtain ⟨o, ho⟩ := Option.ne_none_iff_exists'.mp hm
  have hin := (h.excluding.heartbeat o).mpr ho
  cases o with
  | caller c =>
      have hnone : s.callStep c = none := hw.act halive (l := .caller c) rfl
      unfold callStep at hnone
      cases hpc : s.call c with
      | startSpawn =>
          rw [hpc] at hnone
          simp only [] at hnone
          split at hnone <;> cases hnone
      | startTest | startStore | startUnlock | stopTest _ | stopStore _ | stopUnlock _ _ => simp [hpc] at hnone
      | _ => simp [inside, hpc, CallPc.holds] at hin
  | thread k =>
      have hnone : s.threadStep k = none := hw.act halive (l := .thread k) rfl
      unfold threadStep at hnone
      cases hpc : s.thread k with
      | pred =>
          rw [hpc] at hnone
          simp only [] at hnone
          split_ifs at hnone
      | last | unlock => simp [hpc] at hnone
      | _ => simp [inside, hpc, ThreadPc.holds] at hin
  | other => cases hin

/-- Who holds `mutex_` can go on. -/
theorem Waits.mutex (hw : Waits s) (h : Inv s) (halive : s.aborted = false) : s.mutex = none := by
  by_contra hm
  obtain ⟨o, ho⟩ := Option.ne_none_iff_exists'.mp hm
  have hin := (h.excluding.pool o).mpr ho
  cases o with
  | caller c =>
      have hnone : s.callStep c = none := hw.act halive (l := .caller c) rfl
      have hpc : s.call c = .shutBody := by simpa [insidePool] using hin
      simp [callStep, hpc] at hnone
  | thread k =>
      have hnone : s.threadStep k = none := hw.act halive (l := .thread k) rfl
      have hscan := hw.act halive (l := .collect k 0) rfl
      unfold threadStep at hnone
      cases hpc : s.thread k with
      | scan => simp [Pool.act, hpc] at hscan
      | remove n => simp [hpc] at hnone
      | _ => simp [insidePool, hpc, ThreadPc.holdsPool] at hin
  | other =>
      have hnone := hw.act halive (l := .leave) rfl
      simp [Pool.act, ho] at hnone

/-- With the mutexes free the thread is asleep or over. -/
theorem Waits.thread (hw : Waits s) (h : Inv s) (halive : s.aborted = false) (hk : (s.thread k).alive = true) :
    s.thread k = .parked := by
  have hm := hw.heartbeatMutex h halive
  have hp := hw.mutex h halive
  have hnone : s.threadStep k = none := hw.act halive (l := .thread k) rfl
  have hscan := hw.act halive (l := .collect k 0) rfl
  unfold threadStep at hnone
  cases hpc : s.thread k with
  | parked => rfl
  | scan => simp [Pool.act, hpc] at hscan
  | unborn => simp [hpc, ThreadPc.alive] at hk
  | ended => simp [hpc, ThreadPc.alive] at hk
  | pred =>
      rw [hpc] at hnone
      simp only [] at hnone
      split_ifs at hnone
  | sweep n =>
      cases n with
      | zero => simp [hpc] at hnone
      | succ n => simp [hpc, hp] at hnone
  | _ => simp [hpc, hm, hp] at hnone

/-- A caller that wants to go on is waiting for a thread that has not ended. -/
theorem Waits.call (hw : Waits s) (h : Inv s) (halive : s.aborted = false) :
    s.call c = .idle ∨ ∃ sh j, s.call c = .stopJoin sh ∧ s.handle = some j ∧ s.thread j ≠ .ended := by
  have hm := hw.heartbeatMutex h halive
  have hp := hw.mutex h halive
  have hnone : s.callStep c = none := hw.act halive (l := .caller c) rfl
  unfold callStep at hnone
  cases hpc : s.call c with
  | idle => exact Or.inl rfl
  | startSpawn =>
      rw [hpc] at hnone
      simp only [] at hnone
      split at hnone <;> cases hnone
  | stopJoin sh =>
      rw [hpc] at hnone
      simp only [] at hnone
      split at hnone
      · cases hnone
      · next j hj =>
          split_ifs at hnone with hend
          exact Or.inr ⟨sh, j, rfl, hj, hend⟩
  | _ => simp [hpc, hm, hp] at hnone

/-- Nobody is about to notify. -/
theorem Waits.running (hw : Waits s) (h : Inv s) (halive : s.aborted = false) (hk : s.thread k = .parked) :
    s.running = true := by
  by_contra hr
  obtain ⟨c, hc⟩ := h.supervised.parked k hk (by simpa using hr)
  rcases hw.call h halive (c := c) with hidle | ⟨sh, j, hpc, -⟩
  · rw [hidle] at hc
    cases hc
  · rw [hpc] at hc
    cases hc

theorem Waits.rest (hw : Waits s) (h : Inv s) (halive : s.aborted = false) : Rest s := by
  have hparked : ∀ k, (s.thread k).alive = true → s.thread k = .parked ∧ s.running = true := by
    intro k hk
    have hpk := hw.thread h halive hk
    exact ⟨hpk, hw.running h halive hpk⟩
  refine ⟨?_, hparked, hw.heartbeatMutex h halive, hw.mutex h halive⟩
  intro c _
  rcases hw.call h halive (c := c) with hidle | ⟨sh, j, hpc, hj, hend⟩
  · exact hidle
  · -- the thread that is waited for is asleep, although it has been asked to stop
    have halive' : (s.thread j).alive = true := by
      have hborn := h.born j hj
      cases ht : s.thread j with
      | unborn => exact absurd ht hborn
      | ended => exact absurd ht hend
      | _ => rfl
    rcases (h.supervised.stopper c (by rw [hpc]; rfl)).2 with hr | ⟨d, hd⟩
    · rw [(hparked j halive').2] at hr
      cases hr
    · rcases hw.call h halive (c := d) with hidle | ⟨sh', j', hpc', -⟩
      · rw [hidle] at hd
        cases hd
      · rw [hpc'] at hd
        cases hd

end rest

/-- The thread is in the middle of a sweep of two connections, `Shutdown` waits in `join()` for it, and
another thread has `mutex_`. -/
def sweepingRun : List Label :=
  startedRun ++ [.timeout 0] ++ List.replicate 5 (.thread 0) ++ [.collect 0 2, .take, .invoke 0 .shutdown] ++
    List.replicate 6 (.caller 0)

end Pool

end HeartbeatThread

end TcpServer
