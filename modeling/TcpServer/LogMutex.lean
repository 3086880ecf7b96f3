import TcpServer.LogDeadlock
import TcpServer.Mutex

/-! # Who holds which mutex of the logger (`util/log.cpp`)

`LogDeadlock.lean` follows the mutexes of the two buffers.  Here `cv_mutex_` is added, which the log
thread takes too, and the three are put on one footing: a call holds a mutex exactly while it stands
inside its scope (`Held.holder_iff`), so that only its own steps acquire or release it
(`Held.holder_kept`, `Held.holder_was`), and a call before a mutex in use takes no step
(`callerStep_eq_none`). -/

namespace TcpServer

open Transition

namespace LogSteps

/-- The mutexes of the two buffers and `cv_mutex_`. -/
inductive Lock where
  | buffer (b : Bool)
  | cv
deriving DecidableEq, Repr

/-- The call that holds a mutex. -/
def State.holder (s : State) : Lock → Option ℕ
  | .buffer b => s.owner b
  | .cv =>
      match s.cvOwner with
      | some (.caller w) => some w
      | _ => none

/-- The mutex a call waits for. -/
def Pc.needs : Pc → Option Lock
  | .lock _ b => some (.buffer b)
  | .lock2 _ _ c => some (.buffer c)
  | .notifyLock _ _ => some .cv
  | .flushLock _ => some .cv
  | _ => none

/-- The mutex a call comes to in its next step. -/
def State.comesTo (s : State) (w : ℕ) : Option Lock :=
  match s.writer w with
  | .read _ => some (.buffer s.active)
  | .reread _ _ => some (.buffer s.active)
  | .swap _ _ => some .cv
  | .flushSwap _ => some .cv
  | _ => none

/-- The calling thread that a label belongs to. -/
def Label.thread : Label → Option ℕ
  | .call w _ => some w
  | .flush w => some w
  | .shutdown w => some w
  | .caller w => some w
  | .timeout => none
  | .log => none

/-- The calls inside the scope of `cv_mutex_`. -/
def Pc.holdsCv : Pc → Bool
  | .notify _ _ | .notifyUnlock _ _ | .flushNotify _ | .flushUnlock _ => true
  | _ => false

def LogPc.holdsCv : LogPc → Bool
  | .wait | .swap | .write | .clear | .unlock => true
  | _ => false

def State.insideCv (s : State) : Party → Bool
  | .caller w => (s.writer w).holdsCv
  | .logThread => s.log.holdsCv

section mutexes

variable {s s' : State} {l : Label} {v w : ℕ}

theorem holdsCv_notified (q : LogPc) : q.notified.holdsCv = q.holdsCv := by
  cases q <;> rfl

/-- A call that goes on. -/
theorem insideCv_goto (s : State) (w : ℕ) (p : Pc) :
    (s.goto w p).insideCv = Function.update s.insideCv (.caller w) p.holdsCv := by
  funext x
  cases x with
  | caller v =>
      by_cases hv : v = w
      · subst hv
        rw [Function.update_self]
        simp [State.insideCv, State.goto]
      · rw [Function.update_of_ne (by simpa using hv)]
        simp [State.insideCv, State.goto, Function.update_of_ne hv]
  | logThread =>
      rw [Function.update_of_ne (by simp)]
      rfl

/-- A log thread that goes on. -/
theorem insideCv_env (s : State) (r : Bool) (cv : Option Party) (q : LogPc) :
    (s.env r cv q).insideCv = Function.update s.insideCv .logThread q.holdsCv := by
  funext x
  cases x with
  | caller v =>
      rw [Function.update_of_ne (by simp)]
      rfl
  | logThread => rw [Function.update_self]; rfl

theorem insideCv_env_of_eq (s : State) (r : Bool) (cv : Option Party) {q : LogPc} (hq : q.holdsCv = s.log.holdsCv) :
    (s.env r cv q).insideCv = s.insideCv := by
  rw [insideCv_env, hq]
  exact Function.update_eq_self Party.logThread s.insideCv

/-- A call goes on, and whether it is inside does not change. -/
theorem excl_goto_stay {t : State} {p : Pc} (h : Mutex.Excl s.cvOwner s.insideCv) (hcv : t.cvOwner = s.cvOwner)
    (hin : t.insideCv = s.insideCv) (hp : p.holdsCv = (s.writer w).holdsCv) :
    Mutex.Excl (t.goto w p).cvOwner (t.goto w p).insideCv := by
  rw [insideCv_goto, hin, show (t.goto w p).cvOwner = s.cvOwner from hcv]
  exact h.stay hp

theorem excl_goto_acquire {t : State} {p : Pc} (h : Mutex.Excl s.cvOwner s.insideCv) (hfree : s.cvOwner = none)
    (hcv : t.cvOwner = some (.caller w)) (hin : t.insideCv = s.insideCv) (hp : p.holdsCv = true) :
    Mutex.Excl (t.goto w p).cvOwner (t.goto w p).insideCv := by
  rw [insideCv_goto, hin, show (t.goto w p).cvOwner = some (.caller w) from hcv, hp]
  rw [hfree] at h
  exact h.acquire

theorem excl_goto_release {t : State} {p : Pc} (h : Mutex.Excl s.cvOwner s.insideCv)
    (hinside : (s.writer w).holdsCv = true) (hcv : t.cvOwner = none) (hin : t.insideCv = s.insideCv)
    (hp : p.holdsCv = false) : Mutex.Excl (t.goto w p).cvOwner (t.goto w p).insideCv := by
  rw [insideCv_goto, hin, show (t.goto w p).cvOwner = none from hcv, hp]
  have hw : s.insideCv (.caller w) = true := hinside
  exact h.release hw

theorem excl_callerStep (h : Mutex.Excl s.cvOwner s.insideCv) (hs : callerStep s w = some s') :
    Mutex.Excl s'.cvOwner s'.insideCv := by
  unfold callerStep at hs
  split at hs
  next => cases hs
  next l hw =>
    cases hs
    exact excl_goto_stay h rfl rfl (by rw [hw]; rfl)
  next l b hw =>
    split_ifs at hs
    cases hs
    exact excl_goto_stay h rfl rfl (by rw [hw]; rfl)
  next l b hw =>
    cases hs
    exact excl_goto_stay h rfl rfl (by rw [hw]; split <;> rfl)
  next l b hw =>
    cases hs
    exact excl_goto_stay h rfl rfl (by rw [hw]; rfl)
  next l b hw =>
    split_ifs at hs with hfree
    cases hs
    exact excl_goto_acquire h hfree rfl rfl rfl
  next l b hw =>
    cases hs
    exact excl_goto_stay h rfl (insideCv_env_of_eq s _ _ (holdsCv_notified s.log)) (by rw [hw]; rfl)
  next l b hw =>
    cases hs
    exact excl_goto_release h (by rw [hw]; rfl) rfl rfl rfl
  next l b hw =>
    cases hs
    exact excl_goto_stay h rfl rfl (by rw [hw]; rfl)
  next l b c hw =>
    split_ifs at hs
    cases hs
    exact excl_goto_stay h rfl rfl (by rw [hw]; rfl)
  next l b c hw =>
    cases hs
    exact excl_goto_stay h rfl rfl (by rw [hw]; rfl)
  next l b c fits hw =>
    cases hs
    exact excl_goto_stay h rfl rfl (by rw [hw]; split <;> rfl)
  next l b hw =>
    cases hs
    exact excl_goto_stay h rfl rfl (by rw [hw]; rfl)
  next l b written hw =>
    cases hs
    exact excl_goto_stay h rfl rfl (by rw [hw]; split <;> rfl)
  next join hw =>
    cases hs
    exact excl_goto_stay h rfl rfl (by rw [hw]; rfl)
  next join hw =>
    split_ifs at hs with hfree
    cases hs
    exact excl_goto_acquire h hfree rfl rfl rfl
  next join hw =>
    cases hs
    exact excl_goto_stay h rfl (insideCv_env_of_eq s _ _ (holdsCv_notified s.log)) (by rw [hw]; rfl)
  next join hw =>
    cases hs
    exact excl_goto_release h (by rw [hw]; rfl) rfl rfl (by split <;> rfl)
  next hw =>
    split_ifs at hs
    cases hs
    exact excl_goto_stay h rfl rfl (by rw [hw]; rfl)

/-- The log thread goes on; `t` may differ from `s` in the buffers. -/
theorem excl_env {t : State} {r : Bool} {c : Option Party} {q : LogPc} (hin : t.insideCv = s.insideCv)
    (h : Mutex.Excl c (Function.update s.insideCv .logThread q.holdsCv)) :
    Mutex.Excl (t.env r c q).cvOwner (t.env r c q).insideCv := by
  rw [insideCv_env, hin]
  exact h

theorem excl_logStep (h : Mutex.Excl s.cvOwner s.insideCv) (hs : logStep s = some s') :
    Mutex.Excl s'.cvOwner s'.insideCv := by
  have hstay : ∀ q : LogPc, q.holdsCv = s.log.holdsCv →
      Mutex.Excl s.cvOwner (Function.update s.insideCv .logThread q.holdsCv) := by
    intro q hq
    have hlog : q.holdsCv = s.insideCv .logThread := hq
    exact h.stay hlog
  have hacquire : s.cvOwner = none → Mutex.Excl (some Party.logThread) (Function.update s.insideCv .logThread true) := by
    intro hfree
    rw [hfree] at h
    exact h.acquire
  have hrelease : s.log.holdsCv = true → Mutex.Excl none (Function.update s.insideCv .logThread false) := by
    intro hin
    have hlog : s.insideCv .logThread = true := hin
    exact h.release hlog
  unfold logStep at hs
  split at hs
  next hq =>
    cases hs
    exact excl_env (t := s) (r := s.running) (c := s.cvOwner) rfl (hstay _ (by rw [hq]; split <;> rfl))
  next hq =>
    split_ifs at hs with hfree
    cases hs
    exact excl_env (t := s) (r := s.running) (q := .wait) rfl (hacquire hfree)
  next hq =>
    cases hs
    exact excl_env (t := s) (r := s.running) (q := .sleeping) rfl (hrelease (by rw [hq]; rfl))
  next hq => cases hs
  next hq =>
    split_ifs at hs with hfree
    cases hs
    exact excl_env (t := s) (r := s.running) (q := .swap) rfl (hacquire hfree)
  next hq =>
    cases hs
    exact excl_env (t := s.swapBuffers) (r := s.running) (q := .write) rfl (hstay _ (by rw [hq]; rfl))
  next hq =>
    cases hs
    exact excl_env (t := s) (r := s.running) rfl (hstay _ (by rw [hq]; split <;> rfl))
  next hq =>
    cases hs
    exact excl_env (t := { s with size := _ }) (r := s.running) (q := .unlock) rfl (hstay _ (by rw [hq]; rfl))
  next hq =>
    cases hs
    exact excl_env (t := s) (r := s.running) (q := .test) rfl (hrelease (by rw [hq]; rfl))
  next hq => cases hs

theorem excl_enter {r : Bool} {p : Pc} (h : Mutex.Excl s.cvOwner s.insideCv) (hp : p.holdsCv = false)
    (hs : enter { s with running := r } w p = some s') : Mutex.Excl s'.cvOwner s'.insideCv := by
  unfold enter at hs
  split_ifs at hs with hw
  cases hs
  have hidle : s.writer w = .idle := hw.2
  exact excl_goto_stay h rfl rfl (by rw [hp, hidle]; rfl)

/-- `cv_mutex_` is held by the thread that stands inside its scope. -/
theorem excl_step (h : Mutex.Excl s.cvOwner s.insideCv) (hs : step s l = some s') :
    Mutex.Excl s'.cvOwner s'.insideCv := by
  cases l with
  | call w k => exact excl_enter h rfl hs
  | flush w => exact excl_enter h rfl hs
  | shutdown w => exact excl_enter h rfl hs
  | caller w => exact excl_callerStep h hs
  | timeout =>
      simp only [step] at hs
      split_ifs at hs with hq
      cases hs
      refine excl_env (t := s) (r := s.running) (c := s.cvOwner) (q := .woken) rfl ?_
      have hlog : LogPc.woken.holdsCv = s.insideCv .logThread := by
        show LogPc.woken.holdsCv = s.log.holdsCv
        rw [hq]
        rfl
      exact h.stay hlog
  | log => exact excl_logStep h hs

/-! What a step of one thread leaves to the others. -/

theorem writer_callerStep (hs : callerStep s w = some s') (hv : v ≠ w) : s'.writer v = s.writer v := by
  have hgoto : ∀ (t : State) (p : Pc), t.writer = s.writer → (t.goto w p).writer v = s.writer v := by
    intro t p ht
    rw [State.goto_writer, Function.update_of_ne hv, ht]
  unfold callerStep at hs
  split at hs <;> (try split_ifs at hs) <;> cases hs <;> exact hgoto _ _ rfl

theorem writer_step (hs : step s l = some s') (hv : l.thread ≠ some v) : s'.writer v = s.writer v := by
  have hne : ∀ w, l.thread = some w → v ≠ w := by
    rintro w hw rfl
    exact hv hw
  have henter : ∀ (t : State) (w : ℕ) (p : Pc), t.writer = s.writer → l.thread = some w →
      enter t w p = some s' → s'.writer v = s.writer v := by
    intro t w p ht hw he
    unfold enter at he
    split_ifs at he
    cases he
    rw [State.goto_writer, Function.update_of_ne (hne w hw), ht]
  cases l with
  | call w k => exact henter _ w _ rfl rfl hs
  | flush w => exact henter _ w _ rfl rfl hs
  | shutdown w => exact henter { s with running := false } w _ rfl rfl hs
  | caller w => exact writer_callerStep hs (hne w rfl)
  | timeout =>
      simp only [step] at hs
      split_ifs at hs
      cases hs
      rfl
  | log =>
      simp only [step, logStep] at hs
      split at hs <;> (try split_ifs at hs) <;> cases hs <;> rfl

/-- The mutexes in the hands of the calls. -/
structure Held (s : State) : Prop where
  locked : Locked s
  excl : Mutex.Excl s.cvOwner s.insideCv

/-- The call inside the scope of a mutex. -/
def Pc.inside (p : Pc) : Lock → Bool
  | .buffer b => p.holds b
  | .cv => p.holdsCv

theorem held_init (capacity callers : ℕ) : Held (init capacity callers) where
  locked := locked_init capacity callers
  excl := by
    intro x
    cases x <;> simp [init, State.insideCv, Pc.holdsCv, LogPc.holdsCv]

theorem held_step (h : Held s) (hs : step s l = some s') : Held s' :=
  ⟨locked_step h.locked hs, excl_step h.excl hs⟩

theorem Held.holder_iff (h : Held s) (m : Lock) : s.holder m = some v ↔ (s.writer v).inside m = true := by
  cases m with
  | buffer b => exact h.locked.1 b v
  | cv =>
      rw [show (s.writer v).inside .cv = s.insideCv (.caller v) from rfl, h.excl (.caller v)]
      rcases hcv : s.cvOwner with _ | (w | _) <;> simp [State.holder, hcv]

/-- Nobody else releases the mutex of a call. -/
theorem Held.holder_kept (h : Held s) (hs : step s l = some s') {m : Lock} (hm : s.holder m = some v)
    (hv : l.thread ≠ some v) : s'.holder m = some v := by
  rw [(held_step h hs).holder_iff, writer_step hs hv]
  exact (h.holder_iff m).mp hm

/-- Nobody else acquires a mutex for a call. -/
theorem Held.holder_was (h : Held s) (hs : step s l = some s') {m : Lock} (hm : s'.holder m = some v)
    (hv : l.thread ≠ some v) : s.holder m = some v := by
  rw [h.holder_iff, ← writer_step hs hv]
  exact ((held_step h hs).holder_iff m).mp hm

/-- Who waits for a mutex in use takes no step. -/
theorem callerStep_eq_none {m : Lock} (hneeds : (s.writer w).needs = some m) (hm : s.holder m = some v) :
    callerStep s w = none := by
  have hbuffer : ∀ b, s.holder (.buffer b) = some v → s.owner b ≠ none := by
    intro b hb hnone
    rw [show s.holder (.buffer b) = s.owner b from rfl, hnone] at hb
    cases hb
  have hcv : s.holder .cv = some v → s.cvOwner ≠ none := by
    intro hb hnone
    simp [State.holder, hnone] at hb
  unfold callerStep
  split
  case h_3 l b hw =>
    rw [hw] at hneeds
    cases hneeds
    rw [if_neg (hbuffer b hm)]
  case h_6 l b hw =>
    rw [hw] at hneeds
    cases hneeds
    rw [if_neg (hcv hm)]
  case h_10 l b c hw =>
    rw [hw] at hneeds
    cases hneeds
    rw [if_neg (hbuffer c hm)]
  case h_16 join hw =>
    rw [hw] at hneeds
    cases hneeds
    rw [if_neg (hcv hm)]
  all_goals simp_all [Pc.needs]

/-- A call that comes to a mutex stands before it then, and the mutexes are as they were. -/
theorem callerStep_comesTo {m : Lock} (hs : callerStep s w = some s') (hm : s.comesTo w = some m) :
    (s'.writer w).needs = some m ∧ s'.holder m = s.holder m := by
  unfold State.comesTo at hm
  unfold callerStep at hs
  split at hm
  next l hw =>
    rw [hw] at hs
    cases hs
    cases hm
    exact ⟨by rw [State.goto_writer, Function.update_self]; rfl, rfl⟩
  next l b hw =>
    rw [hw] at hs
    cases hs
    cases hm
    exact ⟨by rw [State.goto_writer, Function.update_self]; rfl, rfl⟩
  next l b hw =>
    rw [hw] at hs
    cases hs
    cases hm
    exact ⟨by rw [State.goto_writer, Function.update_self]; rfl, rfl⟩
  next join hw =>
    rw [hw] at hs
    cases hs
    cases hm
    exact ⟨by rw [State.goto_writer, Function.update_self]; rfl, rfl⟩
  next => cases hm

/-- A call that stands before a mutex has just come to it. -/
theorem comesTo_of_needs {m : Lock} (hs : callerStep s w = some s') (hneeds : (s'.writer w).needs = some m) :
    s.comesTo w = some m := by
  have hgoto : ∀ (t : State) (p : Pc), ((t.goto w p).writer w).needs = p.needs := by
    intro t p
    rw [State.goto_writer, Function.update_self]
  unfold callerStep at hs
  unfold State.comesTo
  split at hs <;> (try split_ifs at hs) <;> cases hs <;> rw [hgoto] at hneeds <;> simp_all [Pc.needs]

end mutexes

end LogSteps

end TcpServer
