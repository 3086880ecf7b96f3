import TcpServer.Transition
import Mathlib.Data.Int.Order.Basic

/-! # The main event loop and graceful shutdown (`net/server.cpp`)

`SignalHandler` sets `stop_requested_` and writes to the eventfd; it may run on any thread,
so its two effects are separate steps that interleave freely with the main thread.
`MainEventLoop` tests `running_ && !stop_requested_`, waits, and walks through the events:
the eventfd's event clears `running_` and leaves the walk, an event of the listening socket
calls `HandleAccept`.  After the loop it calls `Stop`, whose body runs only while `running_`
is still true.

`epoll_wait` may be interrupted (`Epoll::Wait` then returns `0`), may report any events of
open descriptors, or may fail (`Epoll::Wait` throws).  The eventfd is reported only when it
has been written to.

`stopped_eq_stopBody_iff`: when `MainEventLoop` has returned, the body of `Stop` has been
executed exactly once *iff* no `epoll_wait` reported the eventfd; otherwise it has not been
executed at all. -/

namespace TcpServer

open Transition

/-- An event as the loop reads it: `data.fd` and `events & EPOLLIN`. -/
structure MainEvent where
  fd : ℤ
  epollin : Bool
deriving DecidableEq, Repr

/-- The actions in the body of `Server::Stop` after `running_ = false`. -/
inductive StopAction where
  | stopIoThreadPool
  | stopHeartbeatCheck
  | shutdownConnectionPool
  | closeEventfd
  | closeListenSocket
deriving DecidableEq, Repr

/-- Where the main thread stands in `MainEventLoop`. -/
inductive MainPc where
  | enter
  | test
  | wait
  | events (rest : List MainEvent)
  | stop
  | stopping (todo : List StopAction)
  | returned
  | thrown
deriving DecidableEq, Repr

/-- The server as `MainEventLoop` and `Stop` see it.  `eventfd` is the counter behind
`signal_fd_`, `handlers` counts the signal handlers that have set the flag and not yet
written, `stopped` records the actions of `Stop` in the order they were executed. -/
structure Server where
  mainLoop : Bool
  listenSocket : Option ℤ
  running : Bool
  stopRequested : Bool
  signalFd : ℤ
  eventfd : ℕ
  handlers : ℕ
  pc : MainPc
  stopped : List StopAction
deriving DecidableEq, Repr

namespace Server

/-- The server when `Start` calls `MainEventLoop`, after `Init`; `signalFd` is `-1` when the
eventfd could not be created. -/
def init (signalFd listenFd : ℤ) : Server where
  mainLoop := true
  listenSocket := some listenFd
  running := true
  stopRequested := false
  signalFd := signalFd
  eventfd := 0
  handlers := 0
  pc := .enter
  stopped := []

/-- Outcome of `epoll_wait`. -/
inductive WaitResult where
  | interrupted
  | events (evs : List MainEvent)
  | failed
deriving DecidableEq, Repr

/-- `epoll_wait` reports open descriptors, and the eventfd only when it is readable. -/
def deliverable (s : Server) (evs : List MainEvent) : Bool :=
  evs.all (fun e => decide (0 ≤ e.fd) && (decide (e.fd ≠ s.signalFd) || decide (0 < s.eventfd)))

inductive Label where
  | signal
  | signalWrite
  | wait (r : WaitResult)
  | acceptThrows
  | main
deriving DecidableEq, Repr

/-- One action of `Stop`. -/
def exec (s : Server) : StopAction → Server
  | .closeEventfd =>
      if s.signalFd ≠ -1 then { s with signalFd := -1, stopped := s.stopped ++ [.closeEventfd] } else s
  | .closeListenSocket =>
      if s.listenSocket.isSome then
        { s with listenSocket := none, stopped := s.stopped ++ [.closeListenSocket] } else s
  | a => { s with stopped := s.stopped ++ [a] }

/-- The body of `Stop`. -/
def stopActions : List StopAction :=
  [.stopIoThreadPool, .stopHeartbeatCheck, .shutdownConnectionPool, .closeEventfd, .closeListenSocket]

/-- The loop body for one event. -/
def handleEvent (s : Server) (e : MainEvent) (rest : List MainEvent) : Server :=
  if e.fd = s.signalFd then { s with eventfd := 0, running := false, pc := .test }
  else { s with pc := .events rest }

/-- The event makes the loop call `HandleAccept`. -/
def accepts (s : Server) (e : MainEvent) : Bool :=
  decide (e.fd ≠ s.signalFd) && decide (some e.fd = s.listenSocket) && e.epollin

/-- The main thread's steps in which the environment has no choice. -/
def mainStep (s : Server) : Option Server :=
  match s.pc with
  | .enter => some { s with pc := if s.mainLoop && s.listenSocket.isSome then .test else .returned }
  | .test => some { s with pc := if s.running && !s.stopRequested then .wait else .stop }
  | .events [] => some { s with pc := .test }
  | .events (e :: rest) => some (s.handleEvent e rest)
  | .stop =>
      some (if s.running then { s with running := false, pc := .stopping stopActions }
        else { s with pc := .returned })
  | .stopping [] => some { s with pc := .returned }
  | .stopping (a :: todo) => some { s.exec a with pc := .stopping todo }
  | .wait => none
  | .returned => none
  | .thrown => none

def step (s : Server) : Label → Option Server
  | .signal => some { s with stopRequested := true, handlers := s.handlers + 1 }
  | .signalWrite =>
      if 0 < s.handlers then
        some { s with handlers := s.handlers - 1,
                      eventfd := if s.signalFd ≠ -1 then s.eventfd + 1 else s.eventfd }
      else none
  | .wait r =>
      match s.pc with
      | .wait =>
          match r with
          | .interrupted => some { s with pc := .events [] }
          | .events evs => if s.deliverable evs then some { s with pc := .events evs } else none
          | .failed => some { s with pc := .thrown }
      | _ => none
  | .acceptThrows =>
      match s.pc with
      | .events (e :: _) => if s.accepts e then some { s with pc := .thrown } else none
      | _ => none
  | .main => s.mainStep

/-! ### The eventfd decides -/

/-- The label is an `epoll_wait` that reports descriptor `fd`. -/
def reports (fd : ℤ) : Label → Bool
  | .wait (.events evs) => evs.any (fun e => decide (e.fd = fd))
  | _ => false

/-- What one complete execution of `Stop`'s body records. -/
def stopBody (signalFd : ℤ) : List StopAction :=
  if signalFd = -1 then
    [.stopIoThreadPool, .stopHeartbeatCheck, .shutdownConnectionPool, .closeListenSocket]
  else [.stopIoThreadPool, .stopHeartbeatCheck, .shutdownConnectionPool, .closeEventfd, .closeListenSocket]

/-- What the actions still to do will record. -/
def toRecord (signalFd : ℤ) (todo : List StopAction) : List StopAction :=
  todo.filter (fun a => decide (a ≠ .closeEventfd) || decide (signalFd ≠ -1))

/-- `Inv fd seen s`: the state after a run from a server whose eventfd is `fd`, where `seen`
says whether some `epoll_wait` has reported `fd`. -/
def Inv (fd : ℤ) (seen : Bool) (s : Server) : Prop :=
  match s.pc with
  | .enter => seen = false ∧ s.running = true ∧ s.signalFd = fd ∧ s.stopped = [] ∧
      s.mainLoop = true ∧ s.listenSocket.isSome = true
  | .test => s.running = !seen ∧ s.signalFd = fd ∧ s.stopped = [] ∧ s.listenSocket.isSome = true
  | .wait => seen = false ∧ s.running = true ∧ s.signalFd = fd ∧ s.stopped = [] ∧
      s.listenSocket.isSome = true
  | .events rest => s.running = true ∧ s.signalFd = fd ∧ s.stopped = [] ∧
      s.listenSocket.isSome = true ∧ seen = rest.any (fun e => decide (e.fd = fd))
  | .stop => s.running = !seen ∧ s.signalFd = fd ∧ s.stopped = [] ∧ s.listenSocket.isSome = true
  | .stopping todo => seen = false ∧ s.stopped ++ toRecord fd todo = stopBody fd ∧ todo.Nodup ∧
      (.closeEventfd ∈ todo → s.signalFd = fd) ∧
      (.closeListenSocket ∈ todo → s.listenSocket.isSome = true)
  | .returned => s.stopped = if seen then [] else stopBody fd
  | .thrown => True

theorem inv_init (fd listenFd : ℤ) : Inv fd false (init fd listenFd) := by
  refine ⟨rfl, rfl, rfl, rfl, rfl, rfl⟩

theorem toRecord_stopActions (fd : ℤ) : toRecord fd stopActions = stopBody fd := by
  by_cases h : fd = -1
  · simp [toRecord, stopActions, stopBody, h]
  · simp [toRecord, stopActions, stopBody, h]

theorem toRecord_cons (fd : ℤ) (a : StopAction) (todo : List StopAction) :
    toRecord fd (a :: todo) = toRecord fd [a] ++ toRecord fd todo := by
  unfold toRecord
  rw [← List.filter_append]
  rfl

/-- One action of `Stop` records itself, unless there is no eventfd to close. -/
theorem stopped_exec {fd : ℤ} {s : Server} {a : StopAction}
    (he : a = .closeEventfd → s.signalFd = fd)
    (hl : a = .closeListenSocket → s.listenSocket.isSome = true) :
    (s.exec a).stopped = s.stopped ++ toRecord fd [a] := by
  cases a with
  | closeEventfd =>
      rw [← he rfl]
      unfold exec
      split_ifs with h <;> simp [toRecord, h]
  | closeListenSocket => simp [exec, hl rfl, toRecord]
  | stopIoThreadPool => simp [exec, toRecord]
  | stopHeartbeatCheck => simp [exec, toRecord]
  | shutdownConnectionPool => simp [exec, toRecord]

theorem signalFd_exec {s : Server} {a : StopAction} (h : a ≠ .closeEventfd) :
    (s.exec a).signalFd = s.signalFd := by
  cases a with
  | closeEventfd => exact absurd rfl h
  | closeListenSocket => unfold exec; split_ifs <;> rfl
  | stopIoThreadPool => rfl
  | stopHeartbeatCheck => rfl
  | shutdownConnectionPool => rfl

theorem listenSocket_exec {s : Server} {a : StopAction} (h : a ≠ .closeListenSocket) :
    (s.exec a).listenSocket = s.listenSocket := by
  cases a with
  | closeEventfd => unfold exec; split_ifs <;> rfl
  | closeListenSocket => exact absurd rfl h
  | stopIoThreadPool => rfl
  | stopHeartbeatCheck => rfl
  | shutdownConnectionPool => rfl

theorem inv_mainStep {fd : ℤ} {seen : Bool} {s s' : Server} (h : Inv fd seen s)
    (hs : s.mainStep = some s') : Inv fd seen s' := by
  unfold mainStep at hs
  unfold Inv at h
  cases hpc : s.pc with
  | enter =>
      simp only [hpc, Option.some.injEq] at hs h
      obtain ⟨h1, h2, h3, h4, h5, h6⟩ := h
      subst hs
      simp only [Inv, h5, h6, Bool.and_self, if_true]
      exact ⟨by rw [h1, h2]; rfl, h3, h4, trivial⟩
  | test =>
      simp only [hpc, Option.some.injEq] at hs h
      obtain ⟨h1, h2, h3, h4⟩ := h
      subst hs
      by_cases hgo : s.running && !s.stopRequested
      · have hrun : s.running = true := (Bool.and_eq_true _ _ ▸ hgo).1
        rw [hrun] at h1
        simp only [Inv, hgo, if_true]
        exact ⟨by simpa using h1, hrun, h2, h3, h4⟩
      · simp only [Inv, hgo]
        exact ⟨h1, h2, h3, h4⟩
  | wait => simp [hpc] at hs
  | events rest =>
      cases rest with
      | nil =>
          simp only [hpc, Option.some.injEq] at hs h
          obtain ⟨h1, h2, h3, h4, h5⟩ := h
          subst hs
          exact ⟨by rw [h5, h1]; rfl, h2, h3, h4⟩
      | cons e rest =>
          simp only [hpc, Option.some.injEq] at hs h
          obtain ⟨h1, h2, h3, h4, h5⟩ := h
          subst hs
          unfold handleEvent
          split_ifs with he
          · -- the eventfd's event was in the batch, so `seen` holds
            have hs : seen = true := by simp [h5, he, h2]
            exact ⟨by rw [hs]; rfl, h2, h3, h4⟩
          · rw [h2] at he
            refine ⟨h1, h2, h3, h4, ?_⟩
            rw [h5]
            simp [he]
  | stop =>
      simp only [hpc, Option.some.injEq] at hs h
      obtain ⟨h1, h2, h3, h4⟩ := h
      subst hs
      split_ifs with hrun
      · rw [hrun] at h1
        refine ⟨by simpa using h1, ?_, by decide, fun _ => h2, fun _ => h4⟩
        show s.stopped ++ _ = _
        rw [h3, toRecord_stopActions]
        rfl
      · have hseen : seen = true := by
          cases seen with
          | false => rw [h1] at hrun; exact absurd rfl hrun
          | true => rfl
        simp only [Inv, hseen, if_true]
        exact h3
  | stopping todo =>
      cases todo with
      | nil =>
          simp only [hpc, Option.some.injEq] at hs h
          obtain ⟨h1, h2, -, -, -⟩ := h
          subst hs
          simpa [Inv, h1, toRecord] using h2
      | cons a todo =>
          simp only [hpc, Option.some.injEq] at hs h
          obtain ⟨h1, h2, h3, h4, h5⟩ := h
          subst hs
          obtain ⟨hnot, hnodup⟩ := List.nodup_cons.mp h3
          have hst : (s.exec a).stopped = s.stopped ++ toRecord fd [a] :=
            stopped_exec (fun e => h4 (e ▸ List.mem_cons_self)) (fun e => h5 (e ▸ List.mem_cons_self))
          refine ⟨h1, ?_, hnodup, fun hm => ?_, fun hm => ?_⟩
          · show (s.exec a).stopped ++ _ = _
            rw [hst, List.append_assoc, ← toRecord_cons, h2]
          · show (s.exec a).signalFd = fd
            rw [signalFd_exec (fun e => hnot (by rw [e]; exact hm)), h4 (List.mem_cons_of_mem _ hm)]
          · show (s.exec a).listenSocket.isSome = true
            rw [listenSocket_exec (fun e => hnot (by rw [e]; exact hm)), h5 (List.mem_cons_of_mem _ hm)]
  | returned => simp [hpc] at hs
  | thrown => simp [hpc] at hs

/-- One step of any party. -/
theorem inv_step {fd : ℤ} {seen : Bool} {s s' : Server} {l : Label} (h : Inv fd seen s)
    (hs : step s l = some s') : Inv fd (seen || reports fd l) s' := by
  cases l with
  | signal =>
      simp only [step, Option.some.injEq] at hs
      subst hs
      rw [show reports fd .signal = false from rfl, Bool.or_false]
      exact h
  | signalWrite =>
      simp only [step] at hs
      split_ifs at hs <;> cases hs
      · rw [show reports fd .signalWrite = false from rfl, Bool.or_false]
        exact h
      · rw [show reports fd .signalWrite = false from rfl, Bool.or_false]
        exact h
  | wait r =>
      simp only [step] at hs
      split at hs
      · rename_i hpc
        simp only [Inv, hpc] at h
        obtain ⟨h1, h2, h3, h4, h5⟩ := h
        cases r with
        | interrupted =>
            cases hs
            exact ⟨h2, h3, h4, h5, by simp [h1, reports]⟩
        | events evs =>
            simp only [] at hs
            split_ifs at hs
            cases hs
            exact ⟨h2, h3, h4, h5, by simp [h1, reports]⟩
        | failed =>
            cases hs
            exact trivial
      · cases hs
  | acceptThrows =>
      simp only [step] at hs
      split at hs
      · split_ifs at hs
        cases hs
        exact trivial
      · cases hs
  | main => simpa [reports] using inv_mainStep h hs

theorem inv_run {fd : ℤ} {seen : Bool} {s s' : Server} {ls : List Label} (h : Inv fd seen s)
    (hr : run step s ls = some s') : Inv fd (seen || ls.any (reports fd)) s' := by
  induction ls generalizing s seen with
  | nil =>
      rw [run_nil] at hr
      cases hr
      simpa using h
  | cons l ls ih =>
      obtain ⟨s₁, hs, hr'⟩ := run_cons_some.mp hr
      have := ih (inv_step h hs) hr'
      rwa [Bool.or_assoc] at this

theorem stopBody_ne_nil (fd : ℤ) : stopBody fd ≠ [] := by
  unfold stopBody
  split_ifs <;> simp

/-- **When the clean-up runs.**  For every interleaving of signals with the main thread and
every sequence of `epoll_wait` results, when `MainEventLoop` has returned the body of
`Stop` has been executed exactly once if and only if no `epoll_wait` of the run reported
the eventfd. -/
theorem stopped_eq_stopBody_iff {fd listenFd : ℤ} {ls : List Label} {s : Server}
    (hr : run step (init fd listenFd) ls = some s) (hret : s.pc = .returned) :
    s.stopped = stopBody fd ↔ ∀ l ∈ ls, reports fd l = false := by
  have h := inv_run (inv_init fd listenFd) hr
  simp only [Inv, hret, Bool.false_or] at h
  cases hany : ls.any (reports fd) with
  | false =>
      rw [hany] at h
      simp only [Bool.false_eq_true, if_false] at h
      simp only [h, true_iff]
      intro l hl
      by_contra hc
      rw [Bool.not_eq_false] at hc
      rw [List.any_eq_false] at hany
      exact hany l hl hc
  | true =>
      rw [hany] at h
      simp only [if_true] at h
      obtain ⟨l, hl, hrep⟩ := List.any_eq_true.mp hany
      constructor
      · intro h'
        rw [h] at h'
        exact absurd h'.symm (stopBody_ne_nil fd)
      · intro h'
        rw [h' l hl] at hrep
        cases hrep

/-! ### Two ways to stop -/

/-- The signal interrupts `epoll_wait`. -/
def interruptedRun : List Label :=
  [.main, .main, .signal, .signalWrite, .wait .interrupted, .main, .main, .main,
    .main, .main, .main, .main, .main, .main]

/-- The signal is handled by another thread; `epoll_wait` returns the eventfd's event. -/
def eventfdRun : List Label :=
  [.main, .main, .signal, .signalWrite, .wait (.events [⟨7, true⟩]), .main, .main, .main]

theorem interruptedRun_cleans_up :
    ∃ s, run step (init 7 3) interruptedRun = some s ∧ s.pc = .returned ∧
      (s.stopped = stopBody 7 ↔ ∀ l ∈ interruptedRun, reports 7 l = false) ∧
      s.stopped = stopBody 7 :=
  ⟨_, rfl, rfl, stopped_eq_stopBody_iff (show run step (init 7 3) interruptedRun = some _ from rfl) rfl,
    by decide⟩

theorem eventfdRun_skips_stop :
    ∃ s, run step (init 7 3) eventfdRun = some s ∧ s.pc = .returned ∧ s.stopRequested = true ∧
      s.stopped = [] ∧ s.stopped ≠ stopBody 7 := by
  refine ⟨_, rfl, rfl, rfl, rfl, ?_⟩
  decide

end Server

end TcpServer
