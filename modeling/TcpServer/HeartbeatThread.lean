import TcpServer.Transition
import TcpServer.Mutex

/-! # Starting and stopping the heartbeat thread (`conn/connection_pool.cpp`)

Any number of callers run `StartHeartbeatCheck`, `StopHeartbeatCheck` and `Shutdown`, in any order and at
the same time, and the threads that `StartHeartbeatCheck` makes run `HeartbeatCheckLoop`.  A step is one
load or store of `heartbeat_running_`, taking or leaving one of the two mutexes, the creation of the
thread, `notify_all`, the test `joinable()` or the end of `join()`.

`wait_for` with a predicate is the loop the standard gives for it: the predicate is tested with the
mutex held; waiting releases the mutex; the thread wakes up by `notify_all`, by the timeout or
spuriously, takes the mutex again and, unless it was the timeout, tests the predicate again.

`heartbeat_thread_` is read and assigned without `heartbeat_mutex_` in `StopHeartbeatCheck`.  Assigning to
it while it still holds a thread that has not been joined ends the process (`std::terminate`), and so
does an exception of `join()`; both are `aborted`.

The two mutexes exclude in every state (`excluding_act`); what follows for the thread is in
`Supervision.lean`, and that nobody waits for ever in `HeartbeatRest.lean`. -/

namespace TcpServer

open Transition

namespace HeartbeatThread

/-- Who holds a mutex; `other` is a thread in some other member function of the pool. -/
inductive Owner where
  | caller (c : ℕ)
  | thread (k : ℕ)
  | other
deriving DecidableEq, Repr

/-- What a caller does next; `sh` says that `Shutdown` has called `StopHeartbeatCheck`. -/
inductive CallPc where
  | idle
  | startLock
  /-- `StartHeartbeatCheck`, with the mutex held: load of `heartbeat_running_`. -/
  | startTest
  | startStore
  /-- `heartbeat_thread_ = std::thread(…)`. -/
  | startSpawn
  | startUnlock
  | stopLock (sh : Bool)
  | stopTest (sh : Bool)
  | stopStore (sh : Bool)
  /-- The end of the block in `StopHeartbeatCheck`; `found` says that the check was running. -/
  | stopUnlock (sh found : Bool)
  | stopNotify (sh : Bool)
  | stopJoinable (sh : Bool)
  | stopJoin (sh : Bool)
  | shutLock
  /-- `Shutdown`, with `mutex_` held: close the connections and clear the map. -/
  | shutBody
deriving DecidableEq, Repr

/-- What a heartbeat thread does next. -/
inductive ThreadPc where
  | unborn
  /-- The test of the `while` loop. -/
  | test
  | lock
  /-- `wait_for`, with the mutex held: the predicate. -/
  | pred
  | parked
  /-- `wait_for`, woken up: take the mutex again. -/
  | wake (timedOut : Bool)
  /-- `wait_for`, after the timeout: `return pred()`, whose value nobody uses. -/
  | last
  | unlock
  /-- The test after `wait_for`. -/
  | check
  | scanLock
  /-- The scan, with `mutex_` held. -/
  | scan
  /-- The loop over `timeout_fds`, with `n` numbers to go. -/
  | sweep (n : ℕ)
  /-- `RemoveConnection`, with `mutex_` held. -/
  | remove (n : ℕ)
  | ended
deriving DecidableEq, Repr

namespace CallPc

/-- `heartbeat_mutex_` is held. -/
def holds : CallPc → Bool
  | .startTest | .startStore | .startSpawn | .startUnlock | .stopTest _ | .stopStore _ | .stopUnlock _ _ => true
  | _ => false

/-- Between the store of `StopHeartbeatCheck` and the end of its `join()`. -/
def stopping : CallPc → Bool
  | .stopUnlock _ true | .stopNotify _ | .stopJoinable _ | .stopJoin _ => true
  | _ => false

/-- Between the store of `StopHeartbeatCheck` and its `notify_all`. -/
def notifying : CallPc → Bool
  | .stopUnlock _ true | .stopNotify _ => true
  | _ => false

end CallPc

namespace ThreadPc

def holds : ThreadPc → Bool
  | .pred | .last | .unlock => true
  | _ => false

/-- `mutex_` is held. -/
def holdsPool : ThreadPc → Bool
  | .scan | .remove _ => true
  | _ => false

/-- The thread runs. -/
def alive : ThreadPc → Bool
  | .unborn | .ended => false
  | _ => true

end ThreadPc

structure Pool where
  callers : ℕ
  /-- `heartbeat_running_`. -/
  running : Bool
  /-- `mutex_`. -/
  mutex : Option Owner
  /-- `heartbeat_mutex_`. -/
  heartbeatMutex : Option Owner
  /-- `heartbeat_thread_`: the thread it holds, when it is joinable. -/
  handle : Option ℕ
  spawned : ℕ
  call : ℕ → CallPc
  thread : ℕ → ThreadPc
  aborted : Bool

/-- The member functions the callers use. -/
inductive Call where
  | startHeartbeatCheck
  | stopHeartbeatCheck
  | shutdown
deriving DecidableEq, Repr

inductive Label where
  | invoke (c : ℕ) (f : Call)
  | caller (c : ℕ)
  | thread (k : ℕ)
  /-- The scan of thread `k` finds `n` connections that are idle for too long. -/
  | collect (k n : ℕ)
  | timeout (k : ℕ)
  | spurious (k : ℕ)
  /-- Another member function takes `mutex_`, or leaves it. -/
  | take
  | leave
deriving DecidableEq, Repr

namespace Pool

/-- The pool before the first call. -/
def init (callers : ℕ) : Pool where
  callers := callers
  running := false
  mutex := none
  heartbeatMutex := none
  handle := none
  spawned := 0
  call := fun _ => .idle
  thread := fun _ => .unborn
  aborted := false

@[simps] def goto (c : ℕ) (p : CallPc) (s : Pool) : Pool := { s with call := Function.update s.call c p }

@[simps] def move (k : ℕ) (p : ThreadPc) (s : Pool) : Pool := { s with thread := Function.update s.thread k p }

@[simps] def setMutex (o : Option Owner) (s : Pool) : Pool := { s with mutex := o }

@[simps] def setHeartbeatMutex (o : Option Owner) (s : Pool) : Pool := { s with heartbeatMutex := o }

@[simps] def setRunning (b : Bool) (s : Pool) : Pool := { s with running := b }

@[simps] def abort (s : Pool) : Pool := { s with aborted := true }

/-- A new thread, and `heartbeat_thread_` holds it. -/
@[simps] def spawn (s : Pool) : Pool :=
  { s with handle := some s.spawned, spawned := s.spawned + 1, thread := Function.update s.thread s.spawned .test }

/-- `heartbeat_cv_.notify_all()`. -/
@[simps] def notifyAll (s : Pool) : Pool :=
  { s with thread := fun k => if s.thread k = .parked then .wake false else s.thread k }

/-- Where a call goes on. -/
def entry : Call → CallPc
  | .startHeartbeatCheck => .startLock
  | .stopHeartbeatCheck => .stopLock false
  | .shutdown => .stopLock true

/-- Where a caller goes on when `StopHeartbeatCheck` returns. -/
def afterStop (sh : Bool) : CallPc := if sh then .shutLock else .idle

def callStep (c : ℕ) (s : Pool) : Option Pool :=
  match s.call c with
  | .idle => none
  | .startLock =>
      if s.heartbeatMutex = none then some ((s.setHeartbeatMutex (some (.caller c))).goto c .startTest) else none
  | .startTest => some (s.goto c (if s.running then .startUnlock else .startStore))
  | .startStore => some ((s.setRunning true).goto c .startSpawn)
  | .startSpawn =>
      match s.handle with
      | none => some (s.spawn.goto c .startUnlock)
      | some _ => some s.abort
  | .startUnlock => some ((s.setHeartbeatMutex none).goto c .idle)
  | .stopLock sh =>
      if s.heartbeatMutex = none then some ((s.setHeartbeatMutex (some (.caller c))).goto c (.stopTest sh)) else none
  | .stopTest sh => some (s.goto c (if s.running then .stopStore sh else .stopUnlock sh false))
  | .stopStore sh => some ((s.setRunning false).goto c (.stopUnlock sh true))
  | .stopUnlock sh found =>
      some ((s.setHeartbeatMutex none).goto c (if found then .stopNotify sh else afterStop sh))
  | .stopNotify sh => some (s.notifyAll.goto c (.stopJoinable sh))
  | .stopJoinable sh => some (s.goto c (if s.handle.isSome then .stopJoin sh else afterStop sh))
  | .stopJoin sh =>
      match s.handle with
      | none => some s.abort
      | some k => if s.thread k = .ended then some ({ s with handle := none }.goto c (afterStop sh)) else none
  | .shutLock => if s.mutex = none then some ((s.setMutex (some (.caller c))).goto c .shutBody) else none
  | .shutBody => some ((s.setMutex none).goto c .idle)

def threadStep (k : ℕ) (s : Pool) : Option Pool :=
  match s.thread k with
  | .test => some (s.move k (if s.running then .lock else .ended))
  | .lock =>
      if s.heartbeatMutex = none then some ((s.setHeartbeatMutex (some (.thread k))).move k .pred) else none
  | .pred => if s.running then some ((s.setHeartbeatMutex none).move k .parked) else some (s.move k .unlock)
  | .wake timedOut =>
      if s.heartbeatMutex = none then
        some ((s.setHeartbeatMutex (some (.thread k))).move k (if timedOut then .last else .pred))
      else none
  | .last => some (s.move k .unlock)
  | .unlock => some ((s.setHeartbeatMutex none).move k .check)
  | .check => some (s.move k (if s.running then .scanLock else .ended))
  | .scanLock => if s.mutex = none then some ((s.setMutex (some (.thread k))).move k .scan) else none
  | .sweep 0 => some (s.move k .test)
  | .sweep (n + 1) =>
      if s.mutex = none then some ((s.setMutex (some (.thread k))).move k (.remove n)) else none
  | .remove n => some ((s.setMutex none).move k (.sweep n))
  | _ => none

/-- The thread wakes up in `wait_for` without a notification. -/
def wakeStep (k : ℕ) (timedOut : Bool) (s : Pool) : Option Pool :=
  if s.thread k = .parked then some (s.move k (.wake timedOut)) else none

/-- What a label does; only the callers `0, …, callers - 1` exist. -/
def act (s : Pool) : Label → Option Pool
  | .invoke c f => if c < s.callers ∧ s.call c = .idle then some (s.goto c (entry f)) else none
  | .caller c => s.callStep c
  | .thread k => s.threadStep k
  | .collect k n => if s.thread k = .scan then some ((s.setMutex none).move k (.sweep n)) else none
  | .timeout k => s.wakeStep k true
  | .spurious k => s.wakeStep k false
  | .take => if s.mutex = none then some (s.setMutex (some .other)) else none
  | .leave => if s.mutex = some .other then some (s.setMutex none) else none

/-- One step; an aborted process makes none. -/
def step (s : Pool) (l : Label) : Option Pool := if s.aborted then none else s.act l

theorem step_some {s s' : Pool} {l : Label} (h : step s l = some s') : s.aborted = false ∧ s.act l = some s' := by
  unfold step at h
  split_ifs at h with hab
  exact ⟨by simpa using hab, h⟩

/-! ### The mutexes -/

/-- Who is inside a section of `heartbeat_mutex_`. -/
def inside (s : Pool) : Owner → Bool
  | .caller c => (s.call c).holds
  | .thread k => (s.thread k).holds
  | .other => false

/-- Who is inside a section of `mutex_`; of other member functions only the mutex knows. -/
def insidePool (s : Pool) : Owner → Bool
  | .caller c => decide (s.call c = .shutBody)
  | .thread k => (s.thread k).holdsPool
  | .other => decide (s.mutex = some .other)

/-- Both mutexes exclude, and threads that were not made yet do not run. -/
structure Excluding (s : Pool) : Prop where
  heartbeat : Mutex.Excl s.heartbeatMutex s.inside
  pool : Mutex.Excl s.mutex s.insidePool
  fresh : ∀ k, s.spawned ≤ k → s.thread k = .unborn

section excluding

variable {s s' : Pool} {c k : ℕ} {l : Label} {p q : CallPc} {u v : ThreadPc}

theorem inside_goto (s : Pool) (c : ℕ) (q : CallPc) :
    (s.goto c q).inside = Function.update s.inside (.caller c) q.holds := by
  funext o
  cases o with
  | caller d =>
      by_cases hd : d = c
      · simp [inside, hd]
      · simp [inside, hd]
  | thread k => simp [inside]
  | other => simp [inside]

theorem inside_move (s : Pool) (k : ℕ) (q : ThreadPc) :
    (s.move k q).inside = Function.update s.inside (.thread k) q.holds := by
  funext o
  cases o with
  | caller d => simp [inside]
  | thread j =>
      by_cases hj : j = k
      · simp [inside, hj]
      · simp [inside, hj]
  | other => simp [inside]

theorem insidePool_goto (s : Pool) (c : ℕ) (q : CallPc) :
    (s.goto c q).insidePool = Function.update s.insidePool (.caller c) (decide (q = .shutBody)) := by
  funext o
  cases o with
  | caller d =>
      by_cases hd : d = c
      · simp [insidePool, hd]
      · simp [insidePool, hd]
  | thread k => simp [insidePool]
  | other => simp [insidePool]

theorem insidePool_move (s : Pool) (k : ℕ) (q : ThreadPc) :
    (s.move k q).insidePool = Function.update s.insidePool (.thread k) q.holdsPool := by
  funext o
  cases o with
  | caller d => simp [insidePool]
  | thread j =>
      by_cases hj : j = k
      · simp [insidePool, hj]
      · simp [insidePool, hj]
  | other => simp [insidePool]

theorem excluding_init (callers : ℕ) : Excluding (init callers) := by
  refine ⟨?_, ?_, fun _ _ => rfl⟩
  · intro o
    cases o <;> simp [inside, init, CallPc.holds, ThreadPc.holds]
  · intro o
    cases o <;> simp [insidePool, init, ThreadPc.holdsPool]

theorem Excluding.fresh_move (h : Excluding s) (hk : s.thread k ≠ .unborn) (v : ThreadPc) :
    ∀ j, s.spawned ≤ j → (s.move k v).thread j = .unborn := by
  intro j hj
  have hjk : j ≠ k := by
    rintro rfl
    exact hk (h.fresh j hj)
  rw [move_thread, Function.update_of_ne hjk]
  exact h.fresh j hj

/-- A caller goes on where it is. -/
theorem Excluding.goto (h : Excluding s) (hp : s.call c = p) (hq : q.holds = p.holds)
    (hpool : decide (q = .shutBody) = decide (p = .shutBody)) : Excluding (s.goto c q) := by
  subst hp
  refine ⟨?_, ?_, h.fresh⟩
  · rw [inside_goto]
    exact h.heartbeat.stay hq
  · rw [insidePool_goto]
    exact h.pool.stay hpool

/-- A caller takes `heartbeat_mutex_`. -/
theorem Excluding.enter (h : Excluding s) (hfree : s.heartbeatMutex = none) (hp : s.call c = p)
    (hq : q.holds = true) (hpool : decide (q = .shutBody) = decide (p = .shutBody)) :
    Excluding ((s.setHeartbeatMutex (some (.caller c))).goto c q) := by
  subst hp
  refine ⟨?_, ?_, h.fresh⟩
  · have hh := h.heartbeat
    rw [hfree] at hh
    rw [inside_goto, hq]
    exact hh.acquire
  · rw [insidePool_goto]
    exact h.pool.stay hpool

/-- A caller leaves `heartbeat_mutex_`. -/
theorem Excluding.leave (h : Excluding s) (hp : s.call c = p) (hin : p.holds = true) (hq : q.holds = false)
    (hpool : decide (q = .shutBody) = decide (p = .shutBody)) :
    Excluding ((s.setHeartbeatMutex none).goto c q) := by
  subst hp
  refine ⟨?_, ?_, h.fresh⟩
  · rw [inside_goto, hq]
    exact h.heartbeat.release (show s.inside (.caller c) = true from hin)
  · rw [insidePool_goto]
    exact h.pool.stay hpool

/-- A thread goes on where it is. -/
theorem Excluding.move (h : Excluding s) (hu : s.thread k = u) (hborn : u ≠ .unborn) (hv : v.holds = u.holds)
    (hpool : v.holdsPool = u.holdsPool) : Excluding (s.move k v) := by
  subst hu
  refine ⟨?_, ?_, h.fresh_move hborn v⟩
  · rw [inside_move]
    exact h.heartbeat.stay hv
  · rw [insidePool_move]
    exact h.pool.stay hpool

/-- A thread takes `heartbeat_mutex_`. -/
theorem Excluding.moveEnter (h : Excluding s) (hfree : s.heartbeatMutex = none) (hu : s.thread k = u)
    (hborn : u ≠ .unborn) (hv : v.holds = true) (hpool : v.holdsPool = u.holdsPool) :
    Excluding ((s.setHeartbeatMutex (some (.thread k))).move k v) := by
  subst hu
  refine ⟨?_, ?_, h.fresh_move hborn v⟩
  · have hh := h.heartbeat
    rw [hfree] at hh
    rw [inside_move, hv]
    exact hh.acquire
  · rw [insidePool_move]
    exact h.pool.stay hpool

/-- A thread leaves `heartbeat_mutex_`. -/
theorem Excluding.moveLeave (h : Excluding s) (hu : s.thread k = u) (hborn : u ≠ .unborn) (hin : u.holds = true)
    (hv : v.holds = false) (hpool : v.holdsPool = u.holdsPool) :
    Excluding ((s.setHeartbeatMutex none).move k v) := by
  subst hu
  refine ⟨?_, ?_, h.fresh_move hborn v⟩
  · rw [inside_move, hv]
    exact h.heartbeat.release (show s.inside (.thread k) = true from hin)
  · rw [insidePool_move]
    exact h.pool.stay hpool

/-- `mutex_` changes hands, but not to or from another member function. -/
theorem insidePool_setMutex {o : Option Owner} (hs : s.mutex ≠ some .other) (ho : o ≠ some .other) :
    (s.setMutex o).insidePool = s.insidePool := by
  funext a
  cases a with
  | caller c => rfl
  | thread k => rfl
  | other => simp [insidePool, hs, ho]

/-- A thread takes `mutex_`. -/
theorem Excluding.moveEnterPool (h : Excluding s) (hfree : s.mutex = none) (hu : s.thread k = u)
    (hborn : u ≠ .unborn) (hv : v.holds = u.holds) (hpool : v.holdsPool = true) :
    Excluding ((s.setMutex (some (.thread k))).move k v) := by
  subst hu
  refine ⟨?_, ?_, h.fresh_move hborn v⟩
  · rw [inside_move]
    exact h.heartbeat.stay hv
  · have hp := h.pool
    rw [hfree] at hp
    rw [insidePool_move, hpool, insidePool_setMutex (by rw [hfree]; simp) (by simp)]
    exact hp.acquire

/-- A thread leaves `mutex_`. -/
theorem Excluding.moveLeavePool (h : Excluding s) (hu : s.thread k = u) (hborn : u ≠ .unborn)
    (hv : v.holds = u.holds) (hin : u.holdsPool = true) (hpool : v.holdsPool = false) :
    Excluding ((s.setMutex none).move k v) := by
  subst hu
  have hmine : s.mutex = some (.thread k) := (h.pool (.thread k)).mp hin
  refine ⟨?_, ?_, h.fresh_move hborn v⟩
  · rw [inside_move]
    exact h.heartbeat.stay hv
  · rw [insidePool_move, hpool, insidePool_setMutex (by rw [hmine]; simp) (by simp)]
    exact h.pool.release (show s.insidePool (.thread k) = true from hin)

/-- The new thread holds nothing. -/
theorem Excluding.spawn (h : Excluding s) : Excluding s.spawn := by
  have hnew := h.fresh s.spawned (Nat.le_refl _)
  refine ⟨?_, ?_, ?_⟩
  · have hin : s.spawn.inside = (s.move s.spawned .test).inside := by
      funext o
      cases o <;> rfl
    rw [hin, inside_move]
    exact h.heartbeat.stay (by simp [inside, hnew, ThreadPc.holds])
  · have hin : s.spawn.insidePool = (s.move s.spawned .test).insidePool := by
      funext o
      cases o <;> rfl
    rw [hin, insidePool_move]
    exact h.pool.stay (by simp [insidePool, hnew, ThreadPc.holdsPool])
  · intro k hk
    rw [spawn_spawned] at hk
    rw [spawn_thread, Function.update_of_ne (by omega)]
    exact h.fresh k (by omega)

/-- A thread that is woken still waits for the mutex. -/
theorem Excluding.notifyAll (h : Excluding s) : Excluding s.notifyAll := by
  have hthread : ∀ k, (s.notifyAll.thread k).holds = (s.thread k).holds ∧
      (s.notifyAll.thread k).holdsPool = (s.thread k).holdsPool := by
    intro k
    rw [notifyAll_thread]
    split_ifs with hk
    · rw [hk]
      exact ⟨rfl, rfl⟩
    · exact ⟨rfl, rfl⟩
  refine ⟨?_, ?_, ?_⟩
  · have hin : s.notifyAll.inside = s.inside := by
      funext o
      cases o with
      | caller c => rfl
      | thread k => exact (hthread k).1
      | other => rfl
    rw [hin]
    exact h.heartbeat
  · have hin : s.notifyAll.insidePool = s.insidePool := by
      funext o
      cases o with
      | caller c => rfl
      | thread k => exact (hthread k).2
      | other => rfl
    rw [hin]
    exact h.pool
  · intro k hk
    rw [notifyAll_thread, h.fresh k hk]
    rfl

/-- `Shutdown` takes `mutex_`. -/
theorem Excluding.enterPool (h : Excluding s) (hfree : s.mutex = none) (hp : s.call c = .shutLock) :
    Excluding ((s.setMutex (some (.caller c))).goto c .shutBody) := by
  refine ⟨?_, ?_, h.fresh⟩
  · rw [inside_goto]
    exact h.heartbeat.stay (by simp [inside, hp, CallPc.holds])
  · have hpool := h.pool
    rw [hfree] at hpool
    rw [insidePool_goto, insidePool_setMutex (by rw [hfree]; simp) (by simp)]
    exact hpool.acquire

/-- `Shutdown` leaves `mutex_`. -/
theorem Excluding.leavePool (h : Excluding s) (hp : s.call c = .shutBody) :
    Excluding ((s.setMutex none).goto c .idle) := by
  have hin : s.insidePool (.caller c) = true := by simp [insidePool, hp]
  have hmine := (h.pool (.caller c)).mp hin
  refine ⟨?_, ?_, h.fresh⟩
  · rw [inside_goto]
    exact h.heartbeat.stay (by simp [inside, hp, CallPc.holds])
  · rw [insidePool_goto, insidePool_setMutex (by rw [hmine]; simp) (by simp)]
    exact h.pool.release hin

theorem excluding_callStep (h : Excluding s) (hs : s.callStep c = some s') : Excluding s' := by
  cases hpc : s.call c with
  | idle =>
      simp only [callStep, hpc] at hs
      cases hs
  | startLock =>
      simp only [callStep, hpc] at hs
      split_ifs at hs with hfree
      cases hs
      exact h.enter hfree hpc rfl rfl
  | startTest =>
      simp only [callStep, hpc] at hs
      cases hs
      split_ifs
      · exact h.goto hpc rfl rfl
      · exact h.goto hpc rfl rfl
  | startStore =>
      simp only [callStep, hpc] at hs
      cases hs
      exact Excluding.goto (s := s.setRunning true) ⟨h.heartbeat, h.pool, h.fresh⟩ hpc rfl rfl
  | startSpawn =>
      simp only [callStep, hpc] at hs
      split at hs
      · cases hs
        exact h.spawn.goto hpc rfl rfl
      · cases hs
        exact ⟨h.heartbeat, h.pool, h.fresh⟩
  | startUnlock =>
      simp only [callStep, hpc] at hs
      cases hs
      exact h.leave hpc rfl rfl rfl
  | stopLock sh =>
      simp only [callStep, hpc] at hs
      split_ifs at hs with hfree
      cases hs
      exact h.enter hfree hpc rfl rfl
  | stopTest sh =>
      simp only [callStep, hpc] at hs
      cases hs
      split_ifs
      · exact h.goto hpc rfl rfl
      · exact h.goto hpc rfl rfl
  | stopStore sh =>
      simp only [callStep, hpc] at hs
      cases hs
      exact Excluding.goto (s := s.setRunning false) ⟨h.heartbeat, h.pool, h.fresh⟩ hpc rfl rfl
  | stopUnlock sh found =>
      simp only [callStep, hpc] at hs
      cases hs
      cases found with
      | true => exact h.leave hpc rfl rfl rfl
      | false => cases sh <;> exact h.leave hpc rfl rfl rfl
  | stopNotify sh =>
      simp only [callStep, hpc] at hs
      cases hs
      exact h.notifyAll.goto hpc rfl rfl
  | stopJoinable sh =>
      simp only [callStep, hpc] at hs
      cases hs
      split_ifs
      · exact h.goto hpc rfl rfl
      · cases sh <;> exact h.goto hpc rfl rfl
  | stopJoin sh =>
      simp only [callStep, hpc] at hs
      split at hs
      · cases hs
        exact ⟨h.heartbeat, h.pool, h.fresh⟩
      · split_ifs at hs
        cases hs
        cases sh <;>
          exact Excluding.goto (s := { s with handle := none }) ⟨h.heartbeat, h.pool, h.fresh⟩ hpc rfl rfl
  | shutLock =>
      simp only [callStep, hpc] at hs
      split_ifs at hs with hfree
      cases hs
      exact h.enterPool hfree hpc
  | shutBody =>
      simp only [callStep, hpc] at hs
      cases hs
      exact h.leavePool hpc

theorem excluding_threadStep (h : Excluding s) (hs : s.threadStep k = some s') : Excluding s' := by
  cases hpc : s.thread k with
  | test =>
      simp only [threadStep, hpc] at hs
      cases hs
      split_ifs
      · exact h.move hpc (by simp) rfl rfl
      · exact h.move hpc (by simp) rfl rfl
  | lock =>
      simp only [threadStep, hpc] at hs
      split_ifs at hs with hfree
      cases hs
      exact h.moveEnter hfree hpc (by simp) rfl rfl
  | pred =>
      simp only [threadStep, hpc] at hs
      split_ifs at hs
      · cases hs
        exact h.moveLeave hpc (by simp) rfl rfl rfl
      · cases hs
        exact h.move hpc (by simp) rfl rfl
  | wake timedOut =>
      simp only [threadStep, hpc] at hs
      split_ifs at hs with hfree
      · cases hs
        exact h.moveEnter hfree hpc (by simp) rfl rfl
      · cases hs
        exact h.moveEnter hfree hpc (by simp) rfl rfl
  | last =>
      simp only [threadStep, hpc] at hs
      cases hs
      exact h.move hpc (by simp) rfl rfl
  | unlock =>
      simp only [threadStep, hpc] at hs
      cases hs
      exact h.moveLeave hpc (by simp) rfl rfl rfl
  | check =>
      simp only [threadStep, hpc] at hs
      cases hs
      split_ifs
      · exact h.move hpc (by simp) rfl rfl
      · exact h.move hpc (by simp) rfl rfl
  | scanLock =>
      simp only [threadStep, hpc] at hs
      split_ifs at hs with hfree
      cases hs
      exact h.moveEnterPool hfree hpc (by simp) rfl rfl
  | sweep n =>
      cases n with
      | zero =>
          simp only [threadStep, hpc] at hs
          cases hs
          exact h.move hpc (by simp) rfl rfl
      | succ n =>
          simp only [threadStep, hpc] at hs
          split_ifs at hs with hfree
          cases hs
          exact h.moveEnterPool hfree hpc (by simp) rfl rfl
  | remove n =>
      simp only [threadStep, hpc] at hs
      cases hs
      exact h.moveLeavePool hpc (by simp) rfl rfl rfl
  | _ =>
      simp only [threadStep, hpc] at hs
      cases hs

theorem excluding_act (h : Excluding s) (hs : s.act l = some s') : Excluding s' := by
  unfold act at hs
  cases l with
  | invoke c f =>
      simp only [] at hs
      split_ifs at hs with hc
      cases hs
      cases f <;> exact h.goto hc.2 rfl rfl
  | caller c => exact excluding_callStep h hs
  | thread k => exact excluding_threadStep h hs
  | collect k n =>
      simp only [] at hs
      split_ifs at hs with hpc
      cases hs
      exact h.moveLeavePool hpc (by simp) rfl rfl rfl
  | timeout k =>
      simp only [wakeStep] at hs
      split_ifs at hs with hpc
      cases hs
      exact h.move hpc (by simp) rfl rfl
  | spurious k =>
      simp only [wakeStep] at hs
      split_ifs at hs with hpc
      cases hs
      exact h.move hpc (by simp) rfl rfl
  | take =>
      simp only [] at hs
      split_ifs at hs with hfree
      cases hs
      refine ⟨h.heartbeat, ?_, h.fresh⟩
      have hp := h.pool
      rw [hfree] at hp
      have hin : (s.setMutex (some .other)).insidePool = Function.update s.insidePool .other true := by
        funext o
        cases o <;> rfl
      rw [hin]
      exact hp.acquire
  | leave =>
      simp only [] at hs
      split_ifs at hs with hmine
      cases hs
      refine ⟨h.heartbeat, ?_, h.fresh⟩
      have hin : (s.setMutex none).insidePool = Function.update s.insidePool .other false := by
        funext o
        cases o <;> rfl
      rw [hin]
      exact h.pool.release (by simp [insidePool, hmine])

end excluding

end Pool

end HeartbeatThread

end TcpServer
