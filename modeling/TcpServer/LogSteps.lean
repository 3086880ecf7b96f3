import TcpServer.Transition
import Mathlib.Logic.Function.Basic

/-! # The logger's threads, step by step (`util/log.cpp`)

Any number of threads call `WriteLog`, `Flush` and `Shutdown` while the log thread runs
`LogThreadFunc`.  Every evaluation of `active_buffer_`, every acquisition and release of a
mutex, the capacity checks, `SwapBuffers`, the notification and the append are steps of their
own, and they interleave in any order.  The two `LogBuffer` objects are named by a `Bool`;
`active_buffer_` is the name `active`, `backup_buffer_` the other one.

A call locks the buffer `b` that was active when it evaluated `active_buffer_` for its
`lock_guard`.  Its capacity checks and its append use whatever buffer is active by then, and
`SwapBuffers` is called with the mutex of `b`, with `cv_mutex_` or with no mutex at all.

A call with a level below `log_level_` touches none of this.  What `Fatal` does after `WriteLog`
is a `Shutdown` by the same thread, and its `abort` ends the run. -/

namespace TcpServer

open Transition

namespace LogSteps

/-! ### Where the threads stand -/

/-- A log line: its number of bytes, and whether its level is `FATAL`. -/
structure Line where
  len : ℕ
  fatal : Bool
deriving DecidableEq, Repr

/-- Where a calling thread stands.  In `WriteLog`, `b` is the buffer of `lock` and `c` the one of
`lock2`; in `Flush`, `join` says that it was called by `Shutdown`. -/
inductive Pc where
  | idle
  | read (l : Line)
  | lock (l : Line) (b : Bool)
  | check (l : Line) (b : Bool)
  | swap (l : Line) (b : Bool)
  | notifyLock (l : Line) (b : Bool)
  | notify (l : Line) (b : Bool)
  | notifyUnlock (l : Line) (b : Bool)
  | reread (l : Line) (b : Bool)
  | lock2 (l : Line) (b c : Bool)
  | check2 (l : Line) (b c : Bool)
  | unlock2 (l : Line) (b c fits : Bool)
  | append (l : Line) (b : Bool)
  | unlock (l : Line) (b written : Bool)
  | flushSwap (join : Bool)
  | flushLock (join : Bool)
  | flushNotify (join : Bool)
  | flushUnlock (join : Bool)
  | join
deriving DecidableEq, Repr

/-- Where the log thread stands in `LogThreadFunc`. -/
inductive LogPc where
  | test
  | lock
  | wait
  | sleeping
  | woken
  | swap
  | write
  | clear
  | unlock
  | done
deriving DecidableEq, Repr

/-- `cv_.notify_one()`; only the log thread waits on `cv_`. -/
def LogPc.notified : LogPc → LogPc
  | .sleeping => .woken
  | p => p

/-- Who can hold `cv_mutex_`. -/
inductive Party where
  | caller (w : ℕ)
  | logThread
deriving DecidableEq, Repr

/-! ### The logger -/

/-- The logger and its threads.  `swaps` counts the calls of `SwapBuffers`, and `readAt w` is
that count when thread `w` last evaluated `active_buffer_` for its `lock`. -/
structure State where
  capacity : ℕ
  callers : ℕ
  running : Bool
  active : Bool
  size : Bool → ℕ
  owner : Bool → Option ℕ
  cvOwner : Option Party
  writer : ℕ → Pc
  log : LogPc
  swaps : ℕ
  readAt : ℕ → ℕ

/-- After `Init`, with `callers` threads that may call the logger. -/
def init (capacity callers : ℕ) : State where
  capacity := capacity
  callers := callers
  running := true
  active := false
  size := fun _ => 0
  owner := fun _ => none
  cvOwner := none
  writer := fun _ => .idle
  log := .test
  swaps := 0
  readAt := fun _ => 0

namespace State

def goto (s : State) (w : ℕ) (p : Pc) : State := { s with writer := Function.update s.writer w p }

def setOwner (s : State) (b : Bool) (o : Option ℕ) : State := { s with owner := Function.update s.owner b o }

/-- `SwapBuffers`. -/
def swapBuffers (s : State) : State :=
  { s with active := !s.active, size := Function.update s.size (!s.active) 0, swaps := s.swaps + 1 }

/-- `active_buffer_->size + log_line_size > active_buffer_->buffer.size()`. -/
def overflows (s : State) (l : Line) : Bool := decide (s.size s.active + l.len > s.capacity)

/-- `memcpy` and the update of `size`. -/
def append (s : State) (l : Line) : State :=
  { s with size := Function.update s.size s.active (s.size s.active + l.len) }

end State

/-- The next step of a calling thread. -/
def callerStep (s : State) (w : ℕ) : Option State :=
  match s.writer w with
  | .idle => none
  | .read l => some ({ s with readAt := Function.update s.readAt w s.swaps }.goto w (.lock l s.active))
  | .lock l b => if s.owner b = none then some ((s.setOwner b (some w)).goto w (.check l b)) else none
  | .check l b => some (s.goto w (if s.overflows l then .swap l b else .append l b))
  | .swap l b => some (s.swapBuffers.goto w (.notifyLock l b))
  | .notifyLock l b =>
      if s.cvOwner = none then some ({ s with cvOwner := some (.caller w) }.goto w (.notify l b)) else none
  | .notify l b => some ({ s with log := s.log.notified }.goto w (.notifyUnlock l b))
  | .notifyUnlock l b => some ({ s with cvOwner := none }.goto w (.reread l b))
  | .reread l b => some (s.goto w (.lock2 l b s.active))
  | .lock2 l b c => if s.owner c = none then some ((s.setOwner c (some w)).goto w (.check2 l b c)) else none
  | .check2 l b c => some (s.goto w (.unlock2 l b c (!s.overflows l)))
  | .unlock2 l b c fits => some ((s.setOwner c none).goto w (if fits then .append l b else .unlock l b false))
  | .append l b => some ((s.append l).goto w (.unlock l b true))
  -- a line that was dropped returns before the test for `FATAL`
  | .unlock l b written =>
      some ((s.setOwner b none).goto w (if written && l.fatal then .flushSwap false else .idle))
  | .flushSwap join => some (s.swapBuffers.goto w (.flushLock join))
  | .flushLock join =>
      if s.cvOwner = none then some ({ s with cvOwner := some (.caller w) }.goto w (.flushNotify join)) else none
  | .flushNotify join => some ({ s with log := s.log.notified }.goto w (.flushUnlock join))
  | .flushUnlock join => some ({ s with cvOwner := none }.goto w (if join then .join else .idle))
  | .join => if s.log = .done then some (s.goto w .idle) else none

/-- The next step of the log thread; `WriteToFile` only reads the buffer. -/
def logStep (s : State) : Option State :=
  match s.log with
  | .test => some { s with log := if s.running then .lock else .done }
  | .lock => if s.cvOwner = none then some { s with cvOwner := some .logThread, log := .wait } else none
  | .wait => some { s with cvOwner := none, log := .sleeping }
  | .sleeping => none
  | .woken => if s.cvOwner = none then some { s with cvOwner := some .logThread, log := .swap } else none
  | .swap => some { s.swapBuffers with log := .write }
  | .write => some { s with log := if s.size (!s.active) > 0 then .clear else .unlock }
  | .clear => some { s with size := Function.update s.size (!s.active) 0, log := .unlock }
  | .unlock => some { s with cvOwner := none, log := .test }
  | .done => none

/-- `call`, `flush` and `shutdown` enter `WriteLog`, `Flush` and `Shutdown`; `timeout` ends the
wait of the log thread without a notification. -/
inductive Label where
  | call (w : ℕ) (l : Line)
  | flush (w : ℕ)
  | shutdown (w : ℕ)
  | caller (w : ℕ)
  | timeout
  | log
deriving DecidableEq, Repr

/-- An idle thread enters a method. -/
def enter (s : State) (w : ℕ) (p : Pc) : Option State :=
  if w < s.callers ∧ s.writer w = .idle then some (s.goto w p) else none

def step (s : State) : Label → Option State
  | .call w l => enter s w (.read l)
  | .flush w => enter s w (.flushSwap false)
  | .shutdown w => enter { s with running := false } w (.flushSwap true)
  | .caller w => callerStep s w
  | .timeout => if s.log = .sleeping then some { s with log := .woken } else none
  | .log => logStep s

/-! ### What a call has and what it is about to do -/

/-- The buffer of `lock`, from the evaluation of `active_buffer_` to the release. -/
def Pc.first : Pc → Option Bool
  | .lock _ b | .check _ b | .swap _ b | .notifyLock _ b | .notify _ b | .notifyUnlock _ b | .reread _ b
  | .lock2 _ b _ | .check2 _ b _ | .unlock2 _ b _ _ | .append _ b | .unlock _ b _ => some b
  | _ => none

/-- The buffer of `lock2`, from the evaluation of `active_buffer_` to the release. -/
def Pc.second : Pc → Option Bool
  | .lock2 _ _ c | .check2 _ _ c | .unlock2 _ _ c _ => some c
  | _ => none

/-- The buffer mutexes a call holds. -/
def Pc.holds (p : Pc) (x : Bool) : Bool :=
  match p with
  | .check _ b | .swap _ b | .notifyLock _ b | .notify _ b | .notifyUnlock _ b | .reread _ b
  | .lock2 _ b _ | .append _ b | .unlock _ b _ => x == b
  | .check2 _ b c | .unlock2 _ b c _ => x == b || x == c
  | _ => false

/-- The buffer whose mutex a call waits for. -/
def Pc.wants : Pc → Option Bool
  | .lock _ b => some b
  | .lock2 _ _ c => some c
  | _ => none

/-- The line a call is going to append: it has passed its last capacity check. -/
def Pc.due : Pc → Option Line
  | .append l _ => some l
  | .unlock2 l _ _ true => some l
  | _ => none

/-- The line a call appends in its next step. -/
def Pc.appending : Pc → Option Line
  | .append l _ => some l
  | _ => none

/-- The call evaluates `active_buffer_` for `lock2` in its next step. -/
def Pc.rereads : Pc → Bool
  | .reread _ _ => true
  | _ => false

/-- The call waits for the mutex of `lock2`. -/
def Pc.atLock2 : Pc → Bool
  | .lock2 _ _ _ => true
  | _ => false

/-! ### What a step can do -/

/-- What has nothing to do with the buffers and their mutexes. -/
def State.env (s : State) (running : Bool) (cv : Option Party) (log : LogPc) : State :=
  { s with running := running, cvOwner := cv, log := log }

/-- Everything a step can do to the buffers, to their mutexes and to the calls.  `env` covers what
the log thread does outside of them, and `quiet` what a calling thread does. -/
inductive Effect (s : State) (l : Label) : State → Prop
  | env (r : Bool) (cv : Option Party) (q : LogPc) : Effect s l (s.env r cv q)
  | quiet (r : Bool) (cv : Option Party) (q : LogPc) (w : ℕ) (p p' : Pc) (hw : s.writer w = p)
      (hc : w < s.callers ∨ p ≠ .idle) (hf : p'.first = p.first) (hh : p'.holds = p.holds)
      (hsec : p'.second = none) (hdue : p'.due = none) : Effect s l ((s.env r cv q).goto w p')
  | read (w : ℕ) (k : Line) (hw : s.writer w = .read k) :
      Effect s l ({ s with readAt := Function.update s.readAt w s.swaps }.goto w (.lock k s.active))
  | lock (w : ℕ) (k : Line) (b : Bool) (hw : s.writer w = .lock k b) (ho : s.owner b = none) :
      Effect s l ((s.setOwner b (some w)).goto w (.check k b))
  | check (w : ℕ) (k : Line) (b : Bool) (hw : s.writer w = .check k b)
      (hroom : s.size s.active + k.len ≤ s.capacity) : Effect s l (s.goto w (.append k b))
  | swap (w : ℕ) (p p' : Pc) (hw : s.writer w = p) (hc : p ≠ .idle)
      (hf : p'.first = p.first) (hh : p'.holds = p.holds) (hsec : p'.second = none)
      (hdue : p'.due = none) : Effect s l (s.swapBuffers.goto w p')
  | reread (w : ℕ) (k : Line) (b : Bool) (hl : l = .caller w) (hw : s.writer w = .reread k b) :
      Effect s l (s.goto w (.lock2 k b s.active))
  | lock2 (w : ℕ) (k : Line) (b c : Bool) (hw : s.writer w = .lock2 k b c) (ho : s.owner c = none) :
      Effect s l ((s.setOwner c (some w)).goto w (.check2 k b c))
  | check2 (w : ℕ) (k : Line) (b c fits : Bool) (hw : s.writer w = .check2 k b c)
      (hroom : fits = true → s.size s.active + k.len ≤ s.capacity) : Effect s l (s.goto w (.unlock2 k b c fits))
  | unlock2 (w : ℕ) (k : Line) (b c fits : Bool) (hw : s.writer w = .unlock2 k b c fits) :
      Effect s l ((s.setOwner c none).goto w (if fits then .append k b else .unlock k b false))
  | append (w : ℕ) (k : Line) (b : Bool) (hl : l = .caller w) (hw : s.writer w = .append k b) :
      Effect s l ((s.append k).goto w (.unlock k b true))
  | unlock (w : ℕ) (k : Line) (b written : Bool) (hw : s.writer w = .unlock k b written) :
      Effect s l ((s.setOwner b none).goto w (if written && k.fatal then .flushSwap false else .idle))
  | logSwap (r : Bool) (cv : Option Party) (q : LogPc) : Effect s l (s.swapBuffers.env r cv q)
  | clear (r : Bool) (cv : Option Party) (q : LogPc) :
      Effect s l (State.env { s with size := Function.update s.size (!s.active) 0 } r cv q)

theorem State.overflows_eq_false {s : State} {l : Line} :
    s.overflows l = false ↔ s.size s.active + l.len ≤ s.capacity := by
  unfold State.overflows
  rw [decide_eq_false_iff_not, gt_iff_lt, Nat.not_lt]

theorem effect_callerStep {s s' : State} {w : ℕ} (h : callerStep s w = some s') : Effect s (.caller w) s' := by
  cases hw : s.writer w with
  | idle =>
      simp only [callerStep, hw] at h
      cases h
  | read k =>
      simp only [callerStep, hw] at h
      cases h
      exact Effect.read w k hw
  | lock k b =>
      simp only [callerStep, hw] at h
      split at h
      · next ho =>
          cases h
          exact Effect.lock w k b hw ho
      · cases h
  | check k b =>
      simp only [callerStep, hw] at h
      cases h
      split
      · exact Effect.quiet _ _ _ w _ _ hw (Or.inr nofun) rfl rfl rfl rfl
      · next hroom => exact Effect.check w k b hw (State.overflows_eq_false.mp (Bool.eq_false_iff.mpr hroom))
  | swap k b =>
      simp only [callerStep, hw] at h
      cases h
      exact Effect.swap w _ _ hw nofun rfl rfl rfl rfl
  | notifyLock k b =>
      simp only [callerStep, hw] at h
      split at h
      · cases h
        exact Effect.quiet _ _ _ w _ _ hw (Or.inr nofun) rfl rfl rfl rfl
      · cases h
  | notify k b =>
      simp only [callerStep, hw] at h
      cases h
      exact Effect.quiet _ _ _ w _ _ hw (Or.inr nofun) rfl rfl rfl rfl
  | notifyUnlock k b =>
      simp only [callerStep, hw] at h
      cases h
      exact Effect.quiet _ _ _ w _ _ hw (Or.inr nofun) rfl rfl rfl rfl
  | reread k b =>
      simp only [callerStep, hw] at h
      cases h
      exact Effect.reread w k b rfl hw
  | lock2 k b c =>
      simp only [callerStep, hw] at h
      split at h
      · next ho =>
          cases h
          exact Effect.lock2 w k b c hw ho
      · cases h
  | check2 k b c =>
      simp only [callerStep, hw] at h
      cases h
      refine Effect.check2 w k b c _ hw ?_
      intro hfits
      exact State.overflows_eq_false.mp (by simpa using hfits)
  | unlock2 k b c fits =>
      simp only [callerStep, hw] at h
      cases h
      exact Effect.unlock2 w k b c fits hw
  | append k b =>
      simp only [callerStep, hw] at h
      cases h
      exact Effect.append w k b rfl hw
  | unlock k b written =>
      simp only [callerStep, hw] at h
      cases h
      exact Effect.unlock w k b written hw
  | flushSwap join =>
      simp only [callerStep, hw] at h
      cases h
      exact Effect.swap w _ _ hw nofun rfl rfl rfl rfl
  | flushLock join =>
      simp only [callerStep, hw] at h
      split at h
      · cases h
        exact Effect.quiet _ _ _ w _ _ hw (Or.inr nofun) rfl rfl rfl rfl
      · cases h
  | flushNotify join =>
      simp only [callerStep, hw] at h
      cases h
      exact Effect.quiet _ _ _ w _ _ hw (Or.inr nofun) rfl rfl rfl rfl
  | flushUnlock join =>
      simp only [callerStep, hw] at h
      cases h
      cases join with
      | true => exact Effect.quiet _ _ _ w _ _ hw (Or.inr nofun) rfl rfl rfl rfl
      | false => exact Effect.quiet _ _ _ w _ _ hw (Or.inr nofun) rfl rfl rfl rfl
  | join =>
      simp only [callerStep, hw] at h
      split at h
      · cases h
        exact Effect.quiet _ _ _ w _ _ hw (Or.inr nofun) rfl rfl rfl rfl
      · cases h

theorem effect_logStep {s s' : State} (h : logStep s = some s') : Effect s .log s' := by
  unfold logStep at h
  split at h
  · cases h
    exact Effect.env _ _ _
  · split at h
    · cases h
      exact Effect.env _ _ _
    · cases h
  · cases h
    exact Effect.env _ _ _
  · cases h
  · split at h
    · cases h
      exact Effect.env _ _ _
    · cases h
  · cases h
    exact Effect.logSwap _ _ _
  · cases h
    exact Effect.env _ _ _
  · cases h
    exact Effect.clear _ _ _
  · cases h
    exact Effect.env _ _ _
  · cases h

theorem effect_enter {s s' : State} {l : Label} {r : Bool} {w : ℕ} {p : Pc}
    (h : enter { s with running := r } w p = some s') (hf : p.first = none) (hh : p.holds = Pc.idle.holds)
    (hsec : p.second = none) (hdue : p.due = none) : Effect s l s' := by
  unfold enter at h
  split at h
  · next hw =>
      cases h
      exact Effect.quiet _ _ _ w _ _ hw.2 (Or.inl hw.1) hf hh hsec hdue
  · cases h

theorem step_effect {s s' : State} {l : Label} (h : step s l = some s') : Effect s l s' := by
  cases l with
  | call w k => exact effect_enter h rfl rfl rfl rfl
  | flush w => exact effect_enter h rfl rfl rfl rfl
  | shutdown w => exact effect_enter h rfl rfl rfl rfl
  | caller w => exact effect_callerStep h
  | timeout =>
      simp only [step] at h
      split at h
      · cases h
        exact Effect.env _ _ _
      · cases h
  | log => exact effect_logStep h

/-! ### Threads that never call -/

@[simp] theorem State.goto_writer (s : State) (w : ℕ) (p : Pc) :
    (s.goto w p).writer = Function.update s.writer w p := rfl

/-- Only the threads below `callers` call the logger. -/
def Bounded (s : State) : Prop := ∀ v, s.callers ≤ v → s.writer v = .idle

theorem bounded_init (capacity callers : ℕ) : Bounded (init capacity callers) := by
  intro v _
  rfl

theorem Bounded.goto {s t : State} (hs : Bounded s) {w : ℕ} {p p' : Pc} (hw : s.writer w = p)
    (hc : w < s.callers ∨ p ≠ .idle) (ht : t.writer = s.writer) (hn : t.callers = s.callers) :
    Bounded (t.goto w p') := by
  intro v hv
  have hv' : s.callers ≤ v := le_of_eq_of_le hn.symm hv
  have hne : v ≠ w := by
    rintro rfl
    rcases hc with hc | hc
    · omega
    · apply hc
      rw [← hw]
      exact hs v hv'
  rw [State.goto_writer, Function.update_of_ne hne, ht]
  exact hs v hv'

theorem bounded_step {s s' : State} {l : Label} (hs : Bounded s) (h : step s l = some s') : Bounded s' := by
  cases step_effect h with
  | env r cv q => exact hs
  | quiet r cv q w p p' hw hc => exact hs.goto hw hc rfl rfl
  | read w k hw => exact hs.goto hw (Or.inr nofun) rfl rfl
  | lock w k b hw => exact hs.goto hw (Or.inr nofun) rfl rfl
  | check w k b hw => exact hs.goto hw (Or.inr nofun) rfl rfl
  | swap w p p' hw hc => exact hs.goto hw (Or.inr hc) rfl rfl
  | reread w k b hl hw => exact hs.goto hw (Or.inr nofun) rfl rfl
  | lock2 w k b c hw => exact hs.goto hw (Or.inr nofun) rfl rfl
  | check2 w k b c fits hw => exact hs.goto hw (Or.inr nofun) rfl rfl
  | unlock2 w k b c fits hw => exact hs.goto hw (Or.inr nofun) rfl rfl
  | append w k b hl hw => exact hs.goto hw (Or.inr nofun) rfl rfl
  | unlock w k b written hw => exact hs.goto hw (Or.inr nofun) rfl rfl
  | logSwap r cv q => exact hs
  | clear r cv q => exact hs

end LogSteps

end TcpServer
