import TcpServer.LogSteps
import TcpServer.Logger

/-! # Calls of the logger that are left alone

In `Logger.lean` the critical section of `WriteLog`, a flush and an iteration of the log thread are
single steps on the bytes of the buffers; in `LogSteps.lean` they are sequences of steps that
other threads may interrupt.  When nobody interrupts them the two agree: a thread alone can run
through the call, and it ends with the sizes, the flag `running_` and the place of the log thread
that the functions compute.

Hence every run of `Logger` is a run of the threads in which each call is left alone
(`solo_run`). -/

namespace TcpServer

open Transition

namespace LogSteps

/-! ### A call that is left alone -/

/-- The steps of thread `w` only. -/
abbrev Solo (w : ℕ) : State → State → Prop := Reach step (fun _ l => l = .caller w)

theorem Solo.next {s s₁ s' : State} {w : ℕ} (h : callerStep s w = some s₁) (hr : Solo w s₁ s') : Solo w s s' :=
  Reach.head rfl h hr

/-- A mutex that was free is free again after its release. -/
theorem State.setOwner_none {s : State} {b : Bool} (h : s.owner b = none) (o : Option ℕ) :
    (s.setOwner b o).setOwner b none = s := by
  unfold State.setOwner
  rw [Function.update_idem, ← h, Function.update_eq_self]

/-- Nobody holds a mutex. -/
def State.Free (s : State) : Prop := (∀ b, s.owner b = none) ∧ s.cvOwner = none

/-- The log thread is notified. -/
def State.notify (s : State) : State := { s with log := s.log.notified }

/-- The critical section of `WriteLog`, undisturbed; the flag is false when it returns without
appending. -/
def State.appendLine (s : State) (l : Line) : State × Bool :=
  if s.overflows l then
    if s.swapBuffers.overflows l then (s.swapBuffers.notify, false)
    else (s.swapBuffers.notify.append l, true)
  else (s.append l, true)

section solo

variable {s : State} {w : ℕ} {l : Line} {b : Bool}

/-- The append and the release of the mutex. -/
theorem solo_append (hb : s.owner b = none) :
    Solo w ((s.setOwner b (some w)).goto w (.append l b))
      ((s.append l).goto w (if l.fatal then .flushSwap false else .idle)) := by
  have h1 : callerStep ((s.setOwner b (some w)).goto w (.append l b)) w =
      some (((s.append l).setOwner b (some w)).goto w (.unlock l b true)) := by
    simp [callerStep, State.goto, State.setOwner, State.append]
  have h2 : callerStep (((s.append l).setOwner b (some w)).goto w (.unlock l b true)) w =
      some ((((s.append l).setOwner b (some w)).setOwner b none).goto w
        (if l.fatal then .flushSwap false else .idle)) := by
    simp [callerStep, State.goto, State.setOwner]
  rw [State.setOwner_none (s := s.append l) hb] at h2
  exact Solo.next h1 (Solo.next h2 Reach.refl)

/-- `SwapBuffers` and the notification of an overflowing call. -/
theorem solo_swap (hcv : s.cvOwner = none) :
    Solo w ((s.setOwner b (some w)).goto w (.swap l b))
      ((s.swapBuffers.notify.setOwner b (some w)).goto w (.reread l b)) := by
  have h1 : callerStep ((s.setOwner b (some w)).goto w (.swap l b)) w =
      some ((s.swapBuffers.setOwner b (some w)).goto w (.notifyLock l b)) := by
    simp [callerStep, State.goto, State.setOwner, State.swapBuffers]
  have h2 : callerStep ((s.swapBuffers.setOwner b (some w)).goto w (.notifyLock l b)) w =
      some (({ s.swapBuffers with cvOwner := some (.caller w) }.setOwner b (some w)).goto w (.notify l b)) := by
    simp [callerStep, State.goto, State.setOwner, State.swapBuffers, hcv]
  have h3 : callerStep (({ s.swapBuffers with cvOwner := some (.caller w) }.setOwner b (some w)).goto w (.notify l b)) w =
      some (({ s.swapBuffers.notify with cvOwner := some (.caller w) }.setOwner b (some w)).goto w
        (.notifyUnlock l b)) := by
    simp [callerStep, State.goto, State.setOwner, State.swapBuffers, State.notify]
  have h4 : callerStep (({ s.swapBuffers.notify with cvOwner := some (.caller w) }.setOwner b (some w)).goto w
      (.notifyUnlock l b)) w = some ((s.swapBuffers.notify.setOwner b (some w)).goto w (.reread l b)) := by
    simp [callerStep, State.goto, State.setOwner, State.swapBuffers, State.notify, hcv]
  exact Solo.next h1 (Solo.next h2 (Solo.next h3 (Solo.next h4 Reach.refl)))

/-- The scope of `lock2`. -/
theorem solo_lock2 (hc : s.owner s.active = none) (hne : s.active ≠ b) :
    Solo w ((s.setOwner b (some w)).goto w (.reread l b))
      ((s.setOwner b (some w)).goto w (if s.overflows l then .unlock l b false else .append l b)) := by
  have hfree : (s.setOwner b (some w)).owner s.active = none := (Function.update_of_ne hne _ _).trans hc
  have h1 : callerStep ((s.setOwner b (some w)).goto w (.reread l b)) w =
      some ((s.setOwner b (some w)).goto w (.lock2 l b s.active)) := by
    simp [callerStep, State.goto, State.setOwner]
  have h2 : callerStep ((s.setOwner b (some w)).goto w (.lock2 l b s.active)) w =
      some (((s.setOwner b (some w)).setOwner s.active (some w)).goto w (.check2 l b s.active)) := by
    simp [callerStep, State.goto, State.setOwner, hne, hc]
  have h3 : callerStep (((s.setOwner b (some w)).setOwner s.active (some w)).goto w (.check2 l b s.active)) w =
      some (((s.setOwner b (some w)).setOwner s.active (some w)).goto w
        (.unlock2 l b s.active (!s.overflows l))) := by
    simp [callerStep, State.goto, State.setOwner, State.overflows]
  have h4 : callerStep (((s.setOwner b (some w)).setOwner s.active (some w)).goto w
      (.unlock2 l b s.active (!s.overflows l))) w =
      some ((((s.setOwner b (some w)).setOwner s.active (some w)).setOwner s.active none).goto w
        (if s.overflows l then .unlock l b false else .append l b)) := by
    cases ho : s.overflows l <;> simp [callerStep, State.goto, State.setOwner]
  rw [State.setOwner_none hfree] at h4
  exact Solo.next h1 (Solo.next h2 (Solo.next h3 (Solo.next h4 Reach.refl)))

/-- `WriteLog` from its first evaluation of `active_buffer_` to the release of its mutex. -/
theorem solo_writeLog (hfree : s.Free) :
    Solo w (s.goto w (.read l))
      (({ s with readAt := Function.update s.readAt w s.swaps }.appendLine l).1.goto w
        (if ({ s with readAt := Function.update s.readAt w s.swaps }.appendLine l).2 && l.fatal then .flushSwap false
          else .idle)) := by
  generalize hs₁ : { s with readAt := Function.update s.readAt w s.swaps } = s₁
  have hfree₁ : s₁.Free := by
    rw [← hs₁]
    exact hfree
  have h1 : callerStep (s.goto w (.read l)) w = some (s₁.goto w (.lock l s.active)) := by
    simp [callerStep, State.goto, ← hs₁]
  have h2 : callerStep (s₁.goto w (.lock l s.active)) w =
      some ((s₁.setOwner s.active (some w)).goto w (.check l s.active)) := by
    simp [callerStep, State.goto, State.setOwner, hfree₁.1]
  have h3 : callerStep ((s₁.setOwner s.active (some w)).goto w (.check l s.active)) w =
      some ((s₁.setOwner s.active (some w)).goto w
        (if s₁.overflows l then .swap l s.active else .append l s.active)) := by
    simp [callerStep, State.goto, State.setOwner, State.overflows]
  refine Solo.next h1 (Solo.next h2 (Solo.next h3 ?_))
  have hact : s₁.active = s.active := by rw [← hs₁]
  rw [← hact]
  unfold State.appendLine
  cases ho : s₁.overflows l with
  | false => exact solo_append (hfree₁.1 _)
  | true =>
      refine (solo_swap hfree₁.2).trans ?_
      -- nobody else swaps, so `lock2` takes the other buffer
      have hne : s₁.swapBuffers.notify.active ≠ s₁.active := by
        show (!s₁.active) ≠ s₁.active
        simp
      refine (solo_lock2 (s := s₁.swapBuffers.notify) (hfree₁.1 _) hne).trans ?_
      have hsame : s₁.swapBuffers.notify.overflows l = s₁.swapBuffers.overflows l := rfl
      rw [hsame]
      cases ho₂ : s₁.swapBuffers.overflows l with
      | false => exact solo_append (s := s₁.swapBuffers.notify) (hfree₁.1 _)
      | true =>
          have h4 : callerStep ((s₁.swapBuffers.notify.setOwner s₁.active (some w)).goto w (.unlock l s₁.active false)) w =
              some (((s₁.swapBuffers.notify.setOwner s₁.active (some w)).setOwner s₁.active none).goto w .idle) := by
            simp [callerStep, State.goto, State.setOwner]
          rw [State.setOwner_none (s := s₁.swapBuffers.notify) (hfree₁.1 _)] at h4
          exact Solo.next h4 Reach.refl

/-- `Flush`. -/
theorem solo_flush (hfree : s.Free) (join : Bool) :
    Solo w (s.goto w (.flushSwap join)) (s.swapBuffers.notify.goto w (if join then .join else .idle)) := by
  have hcv : s.cvOwner = none := hfree.2
  have h1 : callerStep (s.goto w (.flushSwap join)) w = some (s.swapBuffers.goto w (.flushLock join)) := by
    simp [callerStep, State.goto, State.swapBuffers]
  have h2 : callerStep (s.swapBuffers.goto w (.flushLock join)) w =
      some ({ s.swapBuffers with cvOwner := some (.caller w) }.goto w (.flushNotify join)) := by
    simp [callerStep, State.goto, State.swapBuffers, hcv]
  have h3 : callerStep ({ s.swapBuffers with cvOwner := some (.caller w) }.goto w (.flushNotify join)) w =
      some ({ s.swapBuffers.notify with cvOwner := some (.caller w) }.goto w (.flushUnlock join)) := by
    simp [callerStep, State.goto, State.swapBuffers, State.notify]
  have h4 : callerStep ({ s.swapBuffers.notify with cvOwner := some (.caller w) }.goto w (.flushUnlock join)) w =
      some (s.swapBuffers.notify.goto w (if join then .join else .idle)) := by
    simp [callerStep, State.goto, State.swapBuffers, State.notify, hcv]
  exact Solo.next h1 (Solo.next h2 (Solo.next h3 (Solo.next h4 Reach.refl)))

end solo

/-! ### The log thread -/

/-- Where the log thread stands, between two of its own steps in `Logger.lean`. -/
def Stands : LogThread → LogPc → Prop
  | .test, p => p = .test
  | .waiting, p => p = .sleeping ∨ p = .woken
  | .done, p => p = .done

theorem Stands.notified {t : LogThread} {p : LogPc} (h : Stands t p) : Stands t p.notified := by
  cases t with
  | test =>
      rw [show p = .test from h]
      rfl
  | waiting =>
      rcases h with rfl | rfl
      · exact Or.inr rfl
      · exact Or.inr rfl
  | done =>
      rw [show p = .done from h]
      rfl

/-- The test of `running_` and the wait. -/
theorem solo_loopTest {s : State} (hfree : s.Free) (hl : s.log = .test) :
    Reach step always s { s with log := if s.running then .sleeping else .done } := by
  have hcv : s.cvOwner = none := hfree.2
  split
  · next hr =>
      have h1 : step s .log = some { s with log := .lock } := by simp [step, logStep, hl, hr]
      have h2 : step { s with log := .lock } .log = some { s with cvOwner := some .logThread, log := .wait } := by
        simp [step, logStep, hcv]
      have h3 : step { s with cvOwner := some .logThread, log := .wait } .log = some { s with log := .sleeping } := by
        simp [step, logStep, hcv]
      exact Reach.head trivial h1 (Reach.head trivial h2 (Reach.single trivial h3))
  · next hr =>
      apply Reach.single (l := .log) trivial
      simp [step, logStep, hl, hr]

/-- What an iteration of the log thread leaves in the buffer it has written. -/
def State.iterate (s : State) : State :=
  { s.swapBuffers with size := Function.update s.swapBuffers.size s.active 0, log := .test }

/-- An iteration of the log thread, from the end of its wait. -/
theorem solo_iterate {s : State} (hfree : s.Free) (hl : s.log = .sleeping ∨ s.log = .woken) :
    Reach step always s s.iterate := by
  have hcv : s.cvOwner = none := hfree.2
  have h0 : Reach step always s { s with log := .woken } := by
    rcases hl with hl | hl
    · apply Reach.single (l := .timeout) trivial
      simp [step, hl]
    · rw [← hl]
      exact Reach.refl
  have h1 : step { s with log := .woken } .log = some { s with cvOwner := some .logThread, log := .swap } := by
    simp [step, logStep, hcv]
  have h2 : step { s with cvOwner := some .logThread, log := .swap } .log =
      some { s.swapBuffers with cvOwner := some .logThread, log := .write } := by
    simp [step, logStep, State.swapBuffers]
  have hsize : s.swapBuffers.size s.active = s.size s.active := Function.update_of_ne (by simp) _ _
  have h3 : Reach step always { s.swapBuffers with cvOwner := some .logThread, log := .write }
      { s.iterate with cvOwner := some .logThread, log := .unlock } := by
    rcases Nat.eq_zero_or_pos (s.size s.active) with hz | hpos
    · -- an empty buffer is neither written nor cleared
      apply Reach.single (l := .log) trivial
      have hsame : Function.update s.swapBuffers.size s.active 0 = s.swapBuffers.size := by
        rw [← hz, ← hsize, Function.update_eq_self]
      simp only [step, logStep, State.iterate, hsame]
      simp [State.swapBuffers, hz]
    · have hw : step { s.swapBuffers with cvOwner := some .logThread, log := .write } .log =
          some { s.swapBuffers with cvOwner := some .logThread, log := .clear } := by
        simp [step, logStep, State.swapBuffers, hpos]
      have hc : step { s.swapBuffers with cvOwner := some .logThread, log := .clear } .log =
          some { s.iterate with cvOwner := some .logThread, log := .unlock } := by
        simp [step, logStep, State.iterate, State.swapBuffers]
      exact Reach.head trivial hw (Reach.single trivial hc)
  have h4 : step { s.iterate with cvOwner := some .logThread, log := .unlock } .log = some s.iterate := by
    simp [step, logStep, State.iterate, State.swapBuffers, hcv]
  exact h0.trans (Reach.head trivial h1 (Reach.head trivial h2 (h3.trans (Reach.single trivial h4))))

/-! ### Whole runs -/

/-- The threads stand as the logger does: the sizes, the flag and the place of the log thread
agree, and nobody holds a mutex. -/
structure Hosts (g : Logger) (s : State) : Prop where
  activeCap : g.activeBuffer.capacity = s.capacity
  backupCap : g.backupBuffer.capacity = s.capacity
  activeSize : g.activeBuffer.size = s.size s.active
  backupSize : g.backupBuffer.size = s.size (!s.active)
  running : g.running = s.running
  log : Stands g.thread s.log
  free : s.Free

/-- The line `WriteLog` makes of its arguments. -/
def lineOf (r : LogRecord) : Line := ⟨(logLine r).length, decide (r.level = .fatal)⟩

theorem hosts_init (capacity callers : ℕ) (level : LogLevel) :
    Hosts (Logger.init capacity level) (init capacity callers) :=
  ⟨rfl, rfl, rfl, rfl, rfl, rfl, fun _ => rfl, rfl⟩

section hosts

variable {g : Logger} {s : State}

theorem Hosts.goto (h : Hosts g s) (w : ℕ) (p : Pc) : Hosts g (s.goto w p) :=
  ⟨h.activeCap, h.backupCap, h.activeSize, h.backupSize, h.running, h.log, h.free⟩

theorem Hosts.readAt (h : Hosts g s) (f : ℕ → ℕ) : Hosts g { s with readAt := f } :=
  ⟨h.activeCap, h.backupCap, h.activeSize, h.backupSize, h.running, h.log, h.free⟩

theorem Hosts.swapBuffers (h : Hosts g s) : Hosts g.swapBuffers s.swapBuffers := by
  refine ⟨h.backupCap, h.activeCap, ?_, ?_, h.running, h.log, h.free⟩
  · show 0 = Function.update s.size (!s.active) 0 (!s.active)
    rw [Function.update_self]
  · show g.activeBuffer.size = Function.update s.size (!s.active) 0 (!!s.active)
    rw [Bool.not_not, Function.update_of_ne (by simp)]
    exact h.activeSize

theorem Hosts.notify (h : Hosts g s) : Hosts g s.notify :=
  ⟨h.activeCap, h.backupCap, h.activeSize, h.backupSize, h.running, h.log.notified, h.free⟩

theorem Hosts.append (h : Hosts g s) (r : LogRecord) : Hosts (g.append r) (s.append (lineOf r)) := by
  refine ⟨h.activeCap, h.backupCap, ?_, ?_, h.running, h.log, h.free⟩
  · show (g.activeBuffer.data ++ logLine r).length = Function.update s.size s.active _ s.active
    rw [Function.update_self, List.length_append, ← h.activeSize]
    rfl
  · show g.backupBuffer.size = Function.update s.size s.active _ (!s.active)
    rw [Function.update_of_ne (by simp)]
    exact h.backupSize

theorem Hosts.overflows (h : Hosts g s) (r : LogRecord) : g.overflows r = s.overflows (lineOf r) := by
  unfold Logger.overflows State.overflows
  rw [h.activeCap, h.activeSize]
  rfl

theorem Hosts.appendLine (h : Hosts g s) (r : LogRecord) :
    Hosts (g.appendLine r).1 (s.appendLine (lineOf r)).1 := by
  unfold Logger.appendLine State.appendLine
  rw [h.overflows r, h.swapBuffers.overflows r]
  split
  · split
    · exact h.swapBuffers.notify
    · exact h.swapBuffers.notify.append r
  · exact h.append r

theorem Hosts.iterate (h : Hosts g s) : Hosts { g.iterate with thread := .test } s.iterate := by
  have hcap := h.activeCap
  unfold Logger.iterate
  dsimp only
  split
  · refine ⟨h.backupCap, hcap, ?_, ?_, h.running, rfl, h.free⟩
    · show 0 = Function.update s.swapBuffers.size s.active 0 (!s.active)
      rw [Function.update_of_ne (by simp)]
      exact h.swapBuffers.activeSize
    · show 0 = Function.update s.swapBuffers.size s.active 0 (!!s.active)
      rw [Bool.not_not, Function.update_self]
  · next hz =>
      refine ⟨h.backupCap, hcap, ?_, ?_, h.running, rfl, h.free⟩
      · show 0 = Function.update s.swapBuffers.size s.active 0 (!s.active)
        rw [Function.update_of_ne (by simp)]
        exact h.swapBuffers.activeSize
      · show g.swapBuffers.backupBuffer.size = Function.update s.swapBuffers.size s.active 0 (!!s.active)
        rw [Bool.not_not, Function.update_self]
        omega

theorem Hosts.drain (h : Hosts g s) : Hosts { g.drain with thread := .done } { s with log := .done } := by
  unfold Logger.drain
  dsimp only
  split <;> split <;> exact ⟨h.activeCap, h.backupCap, h.activeSize, h.backupSize, h.running, rfl, h.free⟩

/-- A thread that has not called yet enters a method and runs through it alone. -/
theorem reach_of_enter {s₀ t : State} {w : ℕ} {p : Pc} {l : Label} (hw : w < s.callers) (hidle : s.writer w = .idle)
    (hl : step s₀ l = enter s w p) (hr : Solo w (s.goto w p) t) : Reach step always s₀ t := by
  apply Reach.head (l := l) trivial _ (hr.mono fun _ _ _ => trivial)
  rw [hl]
  exact if_pos ⟨hw, hidle⟩

/-- The threads from `j` on have not called yet. -/
def Unused (j : ℕ) (s : State) : Prop := ∀ v, j ≤ v → s.writer v = .idle

theorem Unused.goto {j : ℕ} (h : Unused j s) {t : State} (ht : t.writer = s.writer) (p : Pc) :
    Unused (j + 1) (t.goto j p) := by
  intro v hv
  have hne : v ≠ j := by omega
  rw [State.goto_writer, Function.update_of_ne hne, ht]
  exact h v (by omega)

theorem appendLine_frame (s : State) (l : Line) :
    (s.appendLine l).1.writer = s.writer ∧ (s.appendLine l).1.callers = s.callers := by
  unfold State.appendLine
  split
  · split <;> exact ⟨rfl, rfl⟩
  · exact ⟨rfl, rfl⟩

theorem reach_writeLog {j : ℕ} (hfree : s.Free) (hu : Unused j s) (hj : j < s.callers) (l : Line) :
    ∃ p, Reach step always s (({ s with readAt := Function.update s.readAt j s.swaps }.appendLine l).1.goto j p) :=
  ⟨_, reach_of_enter hj (hu j (Nat.le_refl j)) (l := .call j l) rfl (solo_writeLog hfree)⟩

/-- **One step.**  What the logger does in one step, the threads can do with thread `j` as the
caller. -/
theorem Hosts.step {g' : Logger} {j : ℕ} {l : Logger.Label} (h : Hosts g s) (hu : Unused j s) (hj : j < s.callers)
    (hs : g.step l = some g') :
    ∃ s', Reach LogSteps.step always s s' ∧ Hosts g' s' ∧ Unused (j + 1) s' ∧ s'.callers = s.callers := by
  have hlater : Unused (j + 1) s := fun v hv => hu v (by omega)
  cases l with
  | append r =>
      simp only [Logger.step, Option.some.injEq] at hs
      subst hs
      split
      · exact ⟨s, Reach.refl, h, hlater, rfl⟩
      · have happ := (h.readAt (Function.update s.readAt j s.swaps)).appendLine r
        obtain ⟨hwr, hcal⟩ := appendLine_frame { s with readAt := Function.update s.readAt j s.swaps } (lineOf r)
        obtain ⟨p, hr⟩ := reach_writeLog h.free hu hj (lineOf r)
        generalize ({ s with readAt := Function.update s.readAt j s.swaps }.appendLine (lineOf r)).1 = s' at *
        exact ⟨_, hr, happ.goto j p, hu.goto hwr p, hcal⟩
  | flush =>
      simp only [Logger.step, Option.some.injEq] at hs
      subst hs
      refine ⟨_, reach_of_enter hj (hu j (Nat.le_refl j)) (l := .flush j) rfl (solo_flush h.free false), ?_, ?_, rfl⟩
      · exact h.swapBuffers.notify.goto j _
      · exact hu.goto rfl _
  | loopTest =>
      have hlog := h.log
      simp only [Logger.step] at hs
      split at hs
      · next ht =>
          cases hs
          rw [ht] at hlog
          refine ⟨_, solo_loopTest h.free hlog, ?_, hlater, rfl⟩
          by_cases hr : g.running = true
          · rw [if_pos hr, if_pos (h.running ▸ hr)]
            exact ⟨h.activeCap, h.backupCap, h.activeSize, h.backupSize, h.running, Or.inl rfl, h.free⟩
          · rw [if_neg hr, if_neg (h.running ▸ hr)]
            exact h.drain
      · cases hs
  | iterate =>
      have hlog := h.log
      simp only [Logger.step] at hs
      split at hs
      · next ht =>
          cases hs
          rw [ht] at hlog
          exact ⟨_, solo_iterate h.free hlog, h.iterate, hlater, rfl⟩
      · cases hs
  | shutdown =>
      simp only [Logger.step, Option.some.injEq] at hs
      subst hs
      have hstop : Hosts { g with running := false } { s with running := false } :=
        ⟨h.activeCap, h.backupCap, h.activeSize, h.backupSize, rfl, h.log, h.free⟩
      refine ⟨_, reach_of_enter (s := { s with running := false }) hj (hu j (Nat.le_refl j)) (l := .shutdown j) rfl
        (solo_flush hstop.free true), ?_, ?_, rfl⟩
      · exact hstop.swapBuffers.notify.goto j _
      · exact hu.goto rfl _
  | join =>
      simp only [Logger.step, Option.ite_none_right_eq_some] at hs
      obtain ⟨-, hs⟩ := hs
      cases hs
      exact ⟨s, Reach.refl, ⟨h.activeCap, h.backupCap, h.activeSize, h.backupSize, h.running, h.log, h.free⟩, hlater, rfl⟩

theorem Hosts.run {g' : Logger} {j : ℕ} {ls : List Logger.Label} (h : Hosts g s) (hu : Unused j s)
    (hj : j + ls.length ≤ s.callers) (hr : Transition.run Logger.step g ls = some g') :
    ∃ s', Reach LogSteps.step always s s' ∧ Hosts g' s' := by
  induction ls generalizing g s j with
  | nil =>
      cases hr
      exact ⟨s, Reach.refl, h⟩
  | cons l ls ih =>
      obtain ⟨g₁, hs, hr'⟩ := run_cons_some.mp hr
      rw [List.length_cons] at hj
      obtain ⟨s₁, hreach, h₁, hu₁, hcal⟩ := h.step hu (by omega) hs
      obtain ⟨s', hreach', h'⟩ := ih h₁ hu₁ (by omega) hr'
      exact ⟨s', hreach.trans hreach', h'⟩

end hosts

/-- **Undisturbed runs.**  Every run of the logger is, up to the bytes of its lines, a run of the
threads, with one calling thread for each step. -/
theorem solo_run (capacity : ℕ) (level : LogLevel) (ls : List Logger.Label) (g : Logger)
    (h : run Logger.step (Logger.init capacity level) ls = some g) :
    ∃ s, Reach step always (init capacity ls.length) s ∧ Hosts g s :=
  (hosts_init capacity ls.length level).run (j := 0) (fun _ _ => rfl) (Nat.le_of_eq (Nat.zero_add _)) h

end LogSteps

end TcpServer
