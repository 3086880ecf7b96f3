import TcpServer.LogMutex
import TcpServer.Potential

/-! # `Shutdown` of the logger returns

After `Shutdown` has cleared `running_` the log thread has a bounded number of steps left, also when
the notification came while it was not waiting: then the wait ends with its timeout.  A call of the
logger has no loop, so its steps are bounded too; what new calls bring in is charged when they come
(`cost`).

A thread that holds `cv_mutex_` waits for nothing, so whoever needs that mutex gets it.  What is left
when nobody can go on is a log thread that has returned and calls of `WriteLog` that wait for a buffer
mutex of one another (`Rest`): no call of `Flush` or `Shutdown` waits there, so that a `Shutdown`
returns even when other threads have blocked themselves in `WriteLog` (`shutdown_returns`).  Where
`LogDeadlock.lean` excludes these cycles, every call has returned (`Rest.idle`). -/

namespace TcpServer

namespace LogSteps

open Transition

/-! ### The steps that are left -/

/-- The steps of a call up to its return. -/
def Pc.rank : Pc → ℕ
  | .idle => 0
  | .join => 1
  | .flushUnlock _ => 2
  | .flushNotify _ => 3
  | .flushLock _ => 4
  | .flushSwap _ => 5
  | .unlock _ _ _ => 6
  | .append _ _ => 7
  | .unlock2 _ _ _ _ => 8
  | .check2 _ _ _ => 9
  | .lock2 _ _ _ => 10
  | .reread _ _ => 11
  | .notifyUnlock _ _ => 12
  | .notify _ _ => 13
  | .notifyLock _ _ => 14
  | .swap _ _ => 15
  | .check _ _ => 16
  | .lock _ _ => 17
  | .read _ => 18

/-- The steps of the log thread up to its return, once `running_` is false. -/
def LogPc.rank : LogPc → ℕ
  | .done => 0
  | .test => 1
  | .unlock => 2
  | .clear => 3
  | .write => 4
  | .swap => 5
  | .woken => 6
  | .sleeping => 7
  | .wait => 8
  | .lock => 9

/-- What a label brings in. -/
def cost : Label → ℕ
  | .call _ _ => 19
  | .flush _ => 6
  | .shutdown _ => 6
  | .caller _ => 0
  | .timeout => 0
  | .log => 0

/-- What the calls and the log thread have still to do. -/
def State.work (s : State) : ℕ := ∑ w ∈ Finset.range s.callers, (s.writer w).rank + s.log.rank

/-- The log thread has returned, and who has not waits in `WriteLog` for the mutex of a buffer that a
call holds which has not returned either. -/
structure Rest (s : State) : Prop where
  log : s.log = .done
  cv : s.cvOwner = none
  calls : ∀ w, s.writer w = .idle ∨
    ∃ b v, (s.writer w).wants = some b ∧ s.owner b = some v ∧ s.writer v ≠ .idle

section work

variable {s s' : State} {l : Label} {w : ℕ} {p p' : Pc}

theorem rank_notified (q : LogPc) : q.notified.rank ≤ q.rank := by
  cases q <;> simp [LogPc.notified, LogPc.rank]

/-- A call goes on; the log thread may be woken. -/
theorem work_goto {t : State} (hw : w < s.callers) (hp : s.writer w = p) (hcallers : t.callers = s.callers)
    (hwriter : t.writer = s.writer) (hlog : t.log.rank ≤ s.log.rank) {c : ℕ} (hrank : p'.rank + 1 ≤ p.rank + c) :
    (t.goto w p').work + 1 ≤ s.work + c := by
  have hsum := sum_step_le (n := s.callers) (i := w) (c := c) (f := fun v => (s.writer v).rank)
    (g := fun v => ((t.goto w p').writer v).rank) hw ?_ ?_
  · have hcallers' : (t.goto w p').callers = s.callers := hcallers
    have hlog' : (t.goto w p').log.rank ≤ s.log.rank := hlog
    unfold State.work
    rw [hcallers']
    omega
  · intro v hv
    simp only [State.goto_writer, Function.update_of_ne hv, hwriter]
  · simp only [State.goto_writer, Function.update_self, hp]
    exact hrank

theorem work_callerStep (hb : Bounded s) (hs : callerStep s w = some s') : s'.work + 1 ≤ s.work + 0 := by
  have hw : w < s.callers := by
    by_contra hge
    have hidle := hb w (Nat.not_lt.mp hge)
    simp [callerStep, hidle] at hs
  have hnotified := rank_notified s.log
  unfold callerStep at hs
  split at hs
  next => cases hs
  next l hp =>
    cases hs
    exact work_goto hw hp rfl rfl (Nat.le_refl _) (by simp [Pc.rank])
  next l b hp =>
    split_ifs at hs
    cases hs
    exact work_goto hw hp rfl rfl (Nat.le_refl _) (by simp [Pc.rank])
  next l b hp =>
    cases hs
    exact work_goto hw hp rfl rfl (Nat.le_refl _) (by split <;> simp [Pc.rank])
  next l b hp =>
    cases hs
    exact work_goto hw hp rfl rfl (Nat.le_refl _) (by simp [Pc.rank])
  next l b hp =>
    split_ifs at hs
    cases hs
    exact work_goto hw hp rfl rfl (Nat.le_refl _) (by simp [Pc.rank])
  next l b hp =>
    cases hs
    exact work_goto (t := { s with log := s.log.notified }) hw hp rfl rfl hnotified (by simp [Pc.rank])
  next l b hp =>
    cases hs
    exact work_goto hw hp rfl rfl (Nat.le_refl _) (by simp [Pc.rank])
  next l b hp =>
    cases hs
    exact work_goto hw hp rfl rfl (Nat.le_refl _) (by simp [Pc.rank])
  next l b c hp =>
    split_ifs at hs
    cases hs
    exact work_goto hw hp rfl rfl (Nat.le_refl _) (by simp [Pc.rank])
  next l b c hp =>
    cases hs
    exact work_goto hw hp rfl rfl (Nat.le_refl _) (by simp [Pc.rank])
  next l b c fits hp =>
    cases hs
    exact work_goto hw hp rfl rfl (Nat.le_refl _) (by split <;> simp [Pc.rank])
  next l b hp =>
    cases hs
    exact work_goto hw hp rfl rfl (Nat.le_refl _) (by simp [Pc.rank])
  next l b written hp =>
    cases hs
    exact work_goto hw hp rfl rfl (Nat.le_refl _) (by split <;> simp [Pc.rank])
  next join hp =>
    cases hs
    exact work_goto hw hp rfl rfl (Nat.le_refl _) (by simp [Pc.rank])
  next join hp =>
    split_ifs at hs
    cases hs
    exact work_goto hw hp rfl rfl (Nat.le_refl _) (by simp [Pc.rank])
  next join hp =>
    cases hs
    exact work_goto (t := { s with log := s.log.notified }) hw hp rfl rfl hnotified (by simp [Pc.rank])
  next join hp =>
    cases hs
    exact work_goto hw hp rfl rfl (Nat.le_refl _) (by split <;> simp [Pc.rank])
  next hp =>
    split_ifs at hs
    cases hs
    exact work_goto hw hp rfl rfl (Nat.le_refl _) (by simp [Pc.rank])

/-- The log thread goes on. -/
theorem work_log (hcallers : s'.callers = s.callers) (hwriter : s'.writer = s.writer)
    (hrank : s'.log.rank + 1 ≤ s.log.rank) : s'.work + 1 ≤ s.work + 0 := by
  unfold State.work
  rw [hcallers, hwriter]
  omega

theorem work_logStep (hstop : s.running = false) (hs : logStep s = some s') : s'.work + 1 ≤ s.work + 0 := by
  unfold logStep at hs
  split at hs
  next hq =>
    cases hs
    exact work_log rfl rfl (by simp [hq, hstop, LogPc.rank])
  next hq =>
    split_ifs at hs
    cases hs
    exact work_log rfl rfl (by simp [hq, LogPc.rank])
  next hq =>
    cases hs
    exact work_log rfl rfl (by simp [hq, LogPc.rank])
  next => cases hs
  next hq =>
    split_ifs at hs
    cases hs
    exact work_log rfl rfl (by simp [hq, LogPc.rank])
  next hq =>
    cases hs
    exact work_log rfl rfl (by simp [hq, LogPc.rank])
  next hq =>
    cases hs
    refine work_log rfl rfl ?_
    rw [hq]
    split <;> simp [LogPc.rank]
  next hq =>
    cases hs
    exact work_log rfl rfl (by simp [hq, LogPc.rank])
  next hq =>
    cases hs
    exact work_log rfl rfl (by simp [hq, LogPc.rank])
  next => cases hs

theorem work_enter {r : Bool} {c : ℕ} (hs : enter { s with running := r } w p = some s') (hrank : p.rank + 1 ≤ c) :
    s'.work + 1 ≤ s.work + c := by
  unfold enter at hs
  split_ifs at hs with hw
  cases hs
  have hidle : s.writer w = .idle := hw.2
  exact work_goto hw.1 hidle rfl rfl (Nat.le_refl _) (by simpa [Pc.rank] using hrank)

theorem work_step (hb : Bounded s) (hstop : s.running = false) (hs : step s l = some s') :
    s'.work + 1 ≤ s.work + cost l := by
  cases l with
  | call w k => exact work_enter hs (Nat.le_refl _)
  | flush w => exact work_enter hs (Nat.le_refl _)
  | shutdown w => exact work_enter hs (Nat.le_refl _)
  | caller w => exact work_callerStep hb hs
  | timeout =>
      simp only [step] at hs
      split_ifs at hs with hq
      cases hs
      exact work_log rfl rfl (by simp [hq, LogPc.rank])
  | log => exact work_logStep hstop hs

end work

/-! ### Who can go on -/

section rest

variable {s s' : State} {l : Label} {w : ℕ}

/-- `running_` stays false. -/
theorem running_step (hstop : s.running = false) (hs : step s l = some s') : s'.running = false := by
  have henter : ∀ (t : State) (p : Pc) (v : ℕ), t.running = false → enter t v p = some s' → s'.running = false := by
    intro t p v ht he
    unfold enter at he
    split_ifs at he
    cases he
    exact ht
  cases l with
  | call w k => exact henter s _ w hstop hs
  | flush w => exact henter s _ w hstop hs
  | shutdown w => exact henter { s with running := false } _ w rfl hs
  | caller w =>
      simp only [step, callerStep] at hs
      split at hs <;> (try split_ifs at hs) <;> cases hs <;> exact hstop
  | timeout =>
      simp only [step] at hs
      split_ifs at hs
      cases hs
      exact hstop
  | log =>
      simp only [step, logStep] at hs
      split at hs <;> (try split_ifs at hs) <;> cases hs <;> exact hstop

/-- Nobody can go on without a new call. -/
def Waits (s : State) : Prop := ∀ l, cost l = 0 → step s l = none

/-- Nobody holds `cv_mutex_`: its holder could go on. -/
theorem Waits.cvOwner (hw : Waits s) (h : Held s) : s.cvOwner = none := by
  cases hcv : s.cvOwner with
  | none => rfl
  | some p =>
      have hin : s.insideCv p = true := (h.excl p).mpr hcv
      cases p with
      | caller v =>
          have hin' : (s.writer v).holdsCv = true := hin
          have hnone := hw (.caller v) rfl
          simp only [step, callerStep] at hnone
          cases hv : s.writer v <;> rw [hv] at hin' hnone <;> simp_all [Pc.holdsCv]
      | logThread =>
          have hin' : s.log.holdsCv = true := hin
          have hnone := hw .log rfl
          simp only [step, logStep] at hnone
          cases hq : s.log <;> rw [hq] at hin' hnone <;> simp_all [LogPc.holdsCv]

/-- The log thread has returned: its wait ends with a timeout, and `cv_mutex_` is free. -/
theorem Waits.log (hw : Waits s) (h : Held s) : s.log = .done := by
  have hcv := hw.cvOwner h
  have hnone := hw .log rfl
  have htimeout := hw .timeout rfl
  simp only [step, logStep] at hnone htimeout
  cases hq : s.log <;> rw [hq] at hnone htimeout <;> simp_all

/-- A call that has not returned waits for the mutex of a buffer. -/
theorem Waits.call (hw : Waits s) (h : Held s) (hbusy : s.writer w ≠ .idle) :
    ∃ b v, (s.writer w).wants = some b ∧ s.owner b = some v := by
  have hcv := hw.cvOwner h
  have hdone := hw.log h
  have hnone := hw (.caller w) rfl
  simp only [step, callerStep] at hnone
  cases hp : s.writer w with
  | lock l b =>
      rw [hp] at hnone
      obtain ⟨v, hv⟩ := Option.ne_none_iff_exists'.mp (fun hfree : s.owner b = none => by simp [hfree] at hnone)
      exact ⟨b, v, rfl, hv⟩
  | lock2 l b c =>
      rw [hp] at hnone
      obtain ⟨v, hv⟩ := Option.ne_none_iff_exists'.mp (fun hfree : s.owner c = none => by simp [hfree] at hnone)
      exact ⟨c, v, rfl, hv⟩
  | idle => exact absurd hp hbusy
  | _ =>
      rw [hp] at hnone
      simp_all

theorem Waits.rest (hw : Waits s) (h : Held s) : Rest s where
  log := hw.log h
  cv := hw.cvOwner h
  calls := by
    intro w
    by_cases hidle : s.writer w = .idle
    · exact Or.inl hidle
    · obtain ⟨b, v, hwants, howner⟩ := hw.call h hidle
      refine Or.inr ⟨b, v, hwants, howner, ?_⟩
      intro hv
      have hholds := (h.locked.1 b v).mp howner
      rw [hv] at hholds
      cases hholds

/-- Two calls that wait for each other, or one for itself, are what is left. -/
theorem Rest.idle (h : Rest s) (hlocked : Owned s) (hfree : DeadlockFree s) (w : ℕ) : s.writer w = .idle := by
  rcases h.calls w with hidle | ⟨b, v, -, hv, hvbusy⟩
  · exact hidle
  exfalso
  rcases h.calls v with hidle | ⟨c, u, hvwants, hu, hubusy⟩
  · exact hvbusy hidle
  obtain ⟨l, hvpc⟩ := hlocked.atLock2 hvwants hv
  rcases h.calls u with hidle | ⟨d, t, huwants, ht, -⟩
  · exact hubusy hidle
  obtain ⟨l', hupc⟩ := hlocked.atLock2 huwants hu
  have huv : u ≠ v := by
    rintro rfl
    exact hfree.1 u l b c hvpc hu
  have hcb : c ≠ b := by
    rintro rfl
    rw [hv] at hu
    exact huv (Option.some.inj hu).symm
  have hdc : d ≠ c := by
    rintro rfl
    exact hfree.1 u l' d d hupc hu
  -- there are two buffers only, so the second call waits for the first
  have hdb : d = b := by
    cases b <;> cases c <;> cases d <;> simp_all
  have hvu : waitsFor s v u := ⟨c, hvwants, hu⟩
  have huv' : waitsFor s u v := ⟨d, huwants, by rw [hdb]; exact hv⟩
  exact hfree.2 v ((Relation.TransGen.single hvu).tail huv')

/-- What holds in every state after `Shutdown`. -/
structure Stopped (s : State) : Prop where
  bounded : Bounded s
  held : Held s
  stopped : s.running = false

theorem stopped_step (h : Stopped s) (hs : step s l = some s') : Stopped s' :=
  ⟨bounded_step h.bounded hs, held_step h.held hs, running_step h.stopped hs⟩

end rest

/-- The first thread has overflowed, and the log thread that it has notified has swapped, so that the
call waits for its own mutex; the second thread calls `Shutdown`. -/
def blockedRun : List Label := selfLockRun ++ [.shutdown 1]

end LogSteps

end TcpServer
