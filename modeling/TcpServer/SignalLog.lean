import TcpServer.LogMutex

/-! # Signals that arrive while a line is logged (`net/server.cpp`, `util/log.cpp`)

`SignalHandler` calls `LOG_INFO` before it stores `stop_requested_` and writes to the eventfd, and it
runs on top of whatever its thread was doing.  When that is a call of the logger that holds a mutex,
and the handler's own call needs this mutex, the handler waits for a call that cannot go on before the
handler has returned.

A thread is a stack of frames: the frame `w < threads` is the thread's own code, and the frame
`w + threads` is the handler that interrupts the frame `w`.  A frame with a handler on top takes no
step.  `SIGINT` and `SIGTERM` are each blocked while their handler runs, so there are at most two
handlers on a thread.

* `hung_forever`: a handler that waits for a mutex of a frame below it never returns, whatever the
  other threads do; the frame below keeps the mutex and takes no further step.
* `hangFree_iff`: a run has no such handler, *iff* no handler ever comes to a mutex that a frame below
  it holds. -/

namespace TcpServer

open Transition

/-! ### Threads and their handlers -/

namespace SignalLog

open LogSteps (Lock)

/-- Where a handler stands: not running, in `LOG_INFO`, before `stop_requested_ = true`, before the
`write` to the eventfd. -/
inductive HandlerPc where
  | off
  | logging
  | store
  | write
deriving DecidableEq, Repr

/-- The process: the frames of its `threads` threads are the callers of the logger.  `signalFd` is the
counter of the eventfd, if `Init` could make one. -/
structure Process where
  log : LogSteps.State
  threads : ℕ
  handler : ℕ → HandlerPc
  stopRequested : Bool
  signalFd : Option ℕ

namespace Process

/-- Two signals are handled, so a thread has at most three frames. -/
def init (capacity threads : ℕ) (signalFd : Option ℕ) : Process where
  log := LogSteps.init capacity (3 * threads)
  threads := threads
  handler := fun _ => .off
  stopRequested := false
  signalFd := signalFd

def setHandler (s : Process) (w : ℕ) (p : HandlerPc) : Process :=
  { s with handler := Function.update s.handler w p }

/-- No handler runs on top of the frame. -/
def top (s : Process) (w : ℕ) : Prop := s.handler (w + s.threads) = .off

/-- The frame is a thread's own code or a handler that runs. -/
def live (s : Process) (w : ℕ) : Prop := w < s.threads ∨ s.handler w ≠ .off

instance (s : Process) (w : ℕ) : Decidable (s.top w) := inferInstanceAs (Decidable (_ = _))

instance (s : Process) (w : ℕ) : Decidable (s.live w) := inferInstanceAs (Decidable (_ ∨ _))

/-- A thread's own code calls the logger, and a frame goes on in the logger, while no handler runs on
top of them. -/
def allows (s : Process) : LogSteps.Label → Prop
  | .call w _ => w < s.threads ∧ s.top w
  | .flush w => w < s.threads ∧ s.top w
  | .shutdown w => w < s.threads ∧ s.top w
  | .caller w => s.top w
  | .timeout => True
  | .log => True

instance (s : Process) : ∀ l, Decidable (s.allows l)
  | .call _ _ => inferInstanceAs (Decidable (_ ∧ _))
  | .flush _ => inferInstanceAs (Decidable (_ ∧ _))
  | .shutdown _ => inferInstanceAs (Decidable (_ ∧ _))
  | .caller _ => inferInstanceAs (Decidable (_ = _))
  | .timeout => isTrue trivial
  | .log => isTrue trivial

/-- A step in the logger, a signal that interrupts the frame `w` (whose line has `len` bytes), or a step
of the handler in the frame `h` outside of the logger. -/
inductive Label where
  | log (l : LogSteps.Label)
  | signal (w len : ℕ)
  | handler (h : ℕ)
deriving DecidableEq, Repr

/-- The next step of `SignalHandler` outside of the logger; it leaves `LOG_INFO` when its call has
returned. -/
def handlerStep (s : Process) (h : ℕ) : Option Process :=
  match s.handler h with
  | .off => none
  | .logging => if s.log.writer h = .idle then some (s.setHandler h .store) else none
  | .store => some ({ s with stopRequested := true }.setHandler h .write)
  | .write => some ({ s with signalFd := s.signalFd.map (· + 1) }.setHandler h .off)

def step (s : Process) : Label → Option Process
  | .log l => if s.allows l then (LogSteps.step s.log l).map fun g => { s with log := g } else none
  | .signal w len =>
      if s.live w ∧ s.top w then
        (LogSteps.step s.log (.call (w + s.threads) ⟨len, false⟩)).map fun g =>
          { s with log := g }.setHandler (w + s.threads) .logging
      else none
  | .handler h => if s.top h then s.handlerStep h else none

/-- The frame `w` is on the stack of the frame `h`, below it. -/
def Below (s : Process) (w h : ℕ) : Prop := w < h ∧ w % s.threads = h % s.threads

instance (s : Process) (w h : ℕ) : Decidable (s.Below w h) := inferInstanceAs (Decidable (_ ∧ _))

/-- The handler `h` waits for a mutex that the frame `w` below it holds. -/
structure Hung (s : Process) (h w : ℕ) (m : Lock) : Prop where
  below : s.Below w h
  needs : (s.log.writer h).needs = some m
  holder : s.log.holder m = some w

def HangFree (s : Process) : Prop := ∀ h w m, ¬ s.Hung h w m

/-- A handler comes to a mutex that a frame below it holds. -/
def meets (s : Process) : Label → Bool
  | .log (.caller h) =>
      (s.log.comesTo h).any fun m => (s.log.holder m).any fun w => decide (s.Below w h)
  | _ => false

/-! ### The stacks -/

/-- A handler runs on top of frames that run, and calls the logger from `LOG_INFO` only. -/
structure Inv (s : Process) : Prop where
  held : LogSteps.Held s.log
  above : ∀ h, s.handler h ≠ .off → s.threads ≤ h
  stack : ∀ h, s.handler h ≠ .off → ∀ w, s.threads ≤ w → s.Below w h → s.handler w ≠ .off
  calls : ∀ h, s.threads ≤ h → s.log.writer h ≠ .idle → s.handler h = .logging

section frames

variable {s s' : Process} {l : Label} {h w : ℕ}

/-- The frame on top of `w` is `h` itself or below it. -/
theorem Below.next (hb : s.Below w h) : w + s.threads = h ∨ s.Below (w + s.threads) h := by
  obtain ⟨hlt, hmod⟩ := hb
  have hdvd : s.threads ∣ h - w := Nat.dvd_of_mod_eq_zero (Nat.sub_mod_eq_zero_of_mod_eq hmod.symm)
  have hle : s.threads ≤ h - w := Nat.le_of_dvd (by omega) hdvd
  rcases Nat.lt_or_ge (w + s.threads) h with hlt' | hge
  · exact Or.inr ⟨hlt', by rw [Nat.add_mod_right, hmod]⟩
  · exact Or.inl (by omega)

theorem Below.threads_le (hb : s.Below w h) : s.threads ≤ h := by
  rcases hb.next with heq | hb'
  · omega
  · have := hb'.1
    omega

/-- A frame below a handler has a handler on top. -/
theorem Inv.not_top (hI : Inv s) (hon : s.handler h ≠ .off) (hb : s.Below w h) : ¬ s.top w := by
  intro htop
  rcases hb.next with heq | hb'
  · rw [top, heq] at htop
    exact hon htop
  · exact hI.stack h hon (w + s.threads) (Nat.le_add_left _ _) hb' htop

theorem step_cases (hs : step s l = some s') :
    (∃ k g, l = .log k ∧ s.allows k ∧ LogSteps.step s.log k = some g ∧ s' = { s with log := g }) ∨
      (∃ w len g, l = .signal w len ∧ s.live w ∧ s.top w ∧
        LogSteps.step s.log (.call (w + s.threads) ⟨len, false⟩) = some g ∧
        s' = { s with log := g }.setHandler (w + s.threads) .logging) ∨
      ∃ h, l = .handler h ∧ s.top h ∧ s.handlerStep h = some s' := by
  cases l with
  | log k =>
      simp only [step] at hs
      split_ifs at hs with hall
      obtain ⟨g, hg, rfl⟩ := Option.map_eq_some_iff.mp hs
      exact Or.inl ⟨k, g, rfl, hall, hg, rfl⟩
  | signal w len =>
      simp only [step] at hs
      split_ifs at hs with hw
      obtain ⟨g, hg, rfl⟩ := Option.map_eq_some_iff.mp hs
      exact Or.inr (Or.inl ⟨w, len, g, rfl, hw.1, hw.2, hg, rfl⟩)
  | handler h =>
      simp only [step] at hs
      split_ifs at hs with htop
      exact Or.inr (Or.inr ⟨h, rfl, htop, hs⟩)

/-- What `SignalHandler` does outside of the logger. -/
theorem handlerStep_cases (hs : s.handlerStep h = some s') :
    (s.handler h = .logging ∧ s.log.writer h = .idle ∧ s' = s.setHandler h .store) ∨
      (s.handler h = .store ∧ s' = { s with stopRequested := true }.setHandler h .write) ∨
      (s.handler h = .write ∧ s' = { s with signalFd := s.signalFd.map (· + 1) }.setHandler h .off) := by
  unfold handlerStep at hs
  split at hs
  next => cases hs
  next hh =>
    split_ifs at hs with hidle
    cases hs
    exact Or.inl ⟨hh, hidle, rfl⟩
  next hh =>
    cases hs
    exact Or.inr (Or.inl ⟨hh, rfl⟩)
  next hh =>
    cases hs
    exact Or.inr (Or.inr ⟨hh, rfl⟩)

theorem handler_setHandler_self (s : Process) (h : ℕ) (p : HandlerPc) : (s.setHandler h p).handler h = p :=
  Function.update_self ..

theorem handler_setHandler_of_ne {h' : ℕ} (hne : h' ≠ h) (s : Process) (p : HandlerPc) :
    (s.setHandler h p).handler h' = s.handler h' :=
  Function.update_of_ne hne ..

/-- A handler that has left `LOG_INFO` goes on. -/
theorem inv_advance (hI : Inv s) {p : HandlerPc} (hon : s.handler h ≠ .off) (hp : p ≠ .off)
    (hidle : s.log.writer h = .idle) : Inv (s.setHandler h p) := by
  have hsame : ∀ h', (s.setHandler h p).handler h' ≠ .off ↔ s.handler h' ≠ .off := by
    intro h'
    by_cases hne : h' = h
    · rw [hne, handler_setHandler_self]
      exact iff_of_true hp hon
    · rw [handler_setHandler_of_ne hne]
  refine ⟨hI.held, ?_, ?_, ?_⟩
  · intro h' hon'
    exact hI.above h' ((hsame h').mp hon')
  · intro h' hon' w hw hb
    exact (hsame w).mpr (hI.stack h' ((hsame h').mp hon') w hw hb)
  · intro h' hle hcall
    have hne : h' ≠ h := by
      rintro rfl
      exact hcall hidle
    rw [handler_setHandler_of_ne hne]
    exact hI.calls h' hle hcall

/-- A handler with no other on top returns. -/
theorem inv_return (hI : Inv s) (htop : s.top h) (hidle : s.log.writer h = .idle) : Inv (s.setHandler h .off) := by
  have hne_of_on : ∀ h', (s.setHandler h .off).handler h' ≠ .off → h' ≠ h := by
    rintro h' hon' rfl
    exact hon' (handler_setHandler_self s h' .off)
  refine ⟨hI.held, ?_, ?_, ?_⟩
  · intro h' hon'
    rw [handler_setHandler_of_ne (hne_of_on h' hon')] at hon'
    exact hI.above h' hon'
  · intro h' hon' w hw hb
    rw [handler_setHandler_of_ne (hne_of_on h' hon')] at hon'
    have hne : w ≠ h := by
      rintro rfl
      exact hI.not_top hon' hb htop
    rw [handler_setHandler_of_ne hne]
    exact hI.stack h' hon' w hw hb
  · intro h' hle hcall
    have hne : h' ≠ h := by
      rintro rfl
      exact hcall hidle
    rw [handler_setHandler_of_ne hne]
    exact hI.calls h' hle hcall

/-- A signal puts a handler on top of a frame that runs. -/
theorem inv_signal {g : LogSteps.State} {len : ℕ} (hI : Inv s) (hlive : s.live w)
    (hg : LogSteps.step s.log (.call (w + s.threads) ⟨len, false⟩) = some g) :
    Inv ({ s with log := g }.setHandler (w + s.threads) .logging) := by
  refine ⟨LogSteps.held_step hI.held hg, ?_, ?_, ?_⟩
  · intro h' hon'
    by_cases hne : h' = w + s.threads
    · rw [hne]
      exact Nat.le_add_left _ _
    · rw [handler_setHandler_of_ne hne] at hon'
      exact hI.above h' hon'
  · intro h' hon' v hv hb
    by_cases hnew : v = w + s.threads
    · rw [hnew, handler_setHandler_self]
      simp
    rw [handler_setHandler_of_ne hnew]
    by_cases hne : h' = w + s.threads
    · -- below the new handler: the interrupted frame and what is below it
      have hbw : s.Below v (w + s.threads) := hne ▸ hb
      have hwon : s.threads ≤ w → s.handler w ≠ .off := by
        intro hle
        rcases hlive with hlt | hon
        · omega
        · exact hon
      rcases hbw.next with heq | hb'
      · have hvw : v = w := Nat.add_right_cancel heq
        rw [hvw] at hv ⊢
        exact hwon hv
      · have hlt : v < w := Nat.add_lt_add_iff_right.mp hb'.1
        have hmod : v % s.threads = w % s.threads := by
          have := hbw.2
          rwa [Nat.add_mod_right] at this
        have hle : s.threads ≤ v := hv
        exact hI.stack w (hwon (by omega)) v hle ⟨hlt, hmod⟩
    · rw [handler_setHandler_of_ne hne] at hon'
      exact hI.stack h' hon' v hv hb
  · intro h' hle hcall
    by_cases hne : h' = w + s.threads
    · rw [hne, handler_setHandler_self]
    · rw [handler_setHandler_of_ne hne]
      have hthread : (LogSteps.Label.call (w + s.threads) ⟨len, false⟩).thread ≠ some h' := by
        simpa [LogSteps.Label.thread] using Ne.symm hne
      have hcall' : g.writer h' ≠ .idle := hcall
      rw [LogSteps.writer_step hg hthread] at hcall'
      exact hI.calls h' hle hcall'

/-- A frame that takes a step in the logger has no handler on top. -/
theorem top_of_allows {k : LogSteps.Label} (hall : s.allows k) (hk : k.thread = some w) : s.top w := by
  cases k <;> cases hk
  · exact hall.2
  · exact hall.2
  · exact hall.2
  · exact hall

/-- Handlers do not enter the logger by themselves. -/
theorem busy_of_allows {k : LogSteps.Label} {g : LogSteps.State} (hall : s.allows k) (hk : k.thread = some w)
    (hle : s.threads ≤ w) (hg : LogSteps.step s.log k = some g) : s.log.writer w ≠ .idle := by
  have hnot : ¬ w < s.threads := Nat.not_lt.mpr hle
  cases k <;> cases hk
  · exact absurd hall.1 hnot
  · exact absurd hall.1 hnot
  · exact absurd hall.1 hnot
  · intro hidle
    simp [LogSteps.step, LogSteps.callerStep, hidle] at hg

theorem inv_log {k : LogSteps.Label} {g : LogSteps.State} (hI : Inv s) (hall : s.allows k)
    (hg : LogSteps.step s.log k = some g) : Inv { s with log := g } := by
  refine ⟨LogSteps.held_step hI.held hg, hI.above, hI.stack, ?_⟩
  intro h' hle hcall
  by_cases hk : k.thread = some h'
  · exact hI.calls h' hle (busy_of_allows hall hk hle hg)
  · have hcall' : g.writer h' ≠ .idle := hcall
    rw [LogSteps.writer_step hg hk] at hcall'
    exact hI.calls h' hle hcall'

theorem Inv.idle (hI : Inv s) (hon : s.handler h ≠ .off) (hlog : s.handler h ≠ .logging) :
    s.log.writer h = .idle := by
  by_contra hbusy
  exact hlog (hI.calls h (hI.above h hon) hbusy)

theorem inv_step (hI : Inv s) (hs : step s l = some s') : Inv s' := by
  obtain ⟨k, g, -, hall, hg, rfl⟩ | ⟨w, len, g, -, hlive, -, hg, rfl⟩ | ⟨h, -, htop, hh⟩ := step_cases hs
  · exact inv_log hI hall hg
  · exact inv_signal hI hlive hg
  · obtain ⟨hpc, hidle, rfl⟩ | ⟨hpc, rfl⟩ | ⟨hpc, rfl⟩ := handlerStep_cases hh
    · exact inv_advance hI (by simp [hpc]) (by simp) hidle
    · have hidle := hI.idle (h := h) (by simp [hpc]) (by simp [hpc])
      have hI' : Inv { s with stopRequested := true } := ⟨hI.held, hI.above, hI.stack, hI.calls⟩
      exact inv_advance hI' (by simp [hpc]) (by simp) hidle
    · have hidle := hI.idle (h := h) (by simp [hpc]) (by simp [hpc])
      have hI' : Inv { s with signalFd := s.signalFd.map (· + 1) } := ⟨hI.held, hI.above, hI.stack, hI.calls⟩
      exact inv_return hI' htop hidle

theorem inv_init (capacity threads : ℕ) (signalFd : Option ℕ) : Inv (init capacity threads signalFd) where
  held := LogSteps.held_init capacity (3 * threads)
  above := fun _ hon => absurd rfl hon
  stack := fun _ hon => absurd rfl hon
  calls := fun _ _ hcall => absurd rfl hcall

end frames

/-! ### Handlers that wait for themselves -/

section hung

variable {s s' : Process} {l : Label} {h w : ℕ} {m : Lock}

theorem Hung.logging (hI : Inv s) (hh : s.Hung h w m) : s.handler h = .logging := by
  apply hI.calls h hh.below.threads_le
  intro hidle
  have hneeds := hh.needs
  rw [hidle] at hneeds
  cases hneeds

/-- What no step changes once the handler `h` waits for the frame `w` below it. -/
structure Frozen (s s' : Process) (h w : ℕ) : Prop where
  handler : s'.handler h = .logging
  waits : s'.log.writer h = s.log.writer h
  keeps : s'.log.writer w = s.log.writer w

/-- The handler takes no step in the logger. -/
theorem Hung.blocked (hh : s.Hung h w m) {k : LogSteps.Label} (hall : s.allows k) (hk : k.thread = some h) :
    LogSteps.step s.log k = none := by
  have hnot : ¬ h < s.threads := Nat.not_lt.mpr hh.below.threads_le
  cases k <;> cases hk
  · exact absurd hall.1 hnot
  · exact absurd hall.1 hnot
  · exact absurd hall.1 hnot
  · exact LogSteps.callerStep_eq_none hh.needs hh.holder

/-- A step in the logger by another frame. -/
theorem Hung.other (hI : Inv s) (hh : s.Hung h w m) {k : LogSteps.Label} {g : LogSteps.State}
    (hg : LogSteps.step s.log k = some g) (hkh : k.thread ≠ some h) (hkw : k.thread ≠ some w) :
    g.writer h = s.log.writer h ∧ g.writer w = s.log.writer w ∧ (g.writer h).needs = some m ∧
      g.holder m = some w := by
  have hwriter := LogSteps.writer_step hg hkh
  exact ⟨hwriter, LogSteps.writer_step hg hkw, by rw [hwriter, hh.needs], hI.held.holder_kept hg hh.holder hkw⟩

theorem hung_step (hI : Inv s) (hh : s.Hung h w m) (hs : step s l = some s') :
    s'.Hung h w m ∧ Frozen s s' h w := by
  have hlog := hh.logging hI
  have hon : s.handler h ≠ .off := by simp [hlog]
  obtain ⟨k, g, -, hall, hg, rfl⟩ | ⟨v, len, g, -, hlive, htop, hg, rfl⟩ | ⟨v, -, htop, hv⟩ := step_cases hs
  · have hkw : k.thread ≠ some w := fun hk => hI.not_top hon hh.below (top_of_allows hall hk)
    have hkh : k.thread ≠ some h := by
      intro hk
      rw [hh.blocked hall hk] at hg
      cases hg
    obtain ⟨h1, h2, h3, h4⟩ := hh.other hI hg hkh hkw
    exact ⟨⟨hh.below, h3, h4⟩, ⟨hlog, h1, h2⟩⟩
  · -- the new handler is neither of the two frames, which run already
    have hoff : s.handler (v + s.threads) = .off := htop
    have hvh : v + s.threads ≠ h := by
      rintro rfl
      exact hon hoff
    have hvw : v + s.threads ≠ w := by
      rintro rfl
      exact hI.stack h hon _ (Nat.le_add_left _ _) hh.below hoff
    have hthread : (LogSteps.Label.call (v + s.threads) ⟨len, false⟩).thread = some (v + s.threads) := rfl
    obtain ⟨h1, h2, h3, h4⟩ := hh.other hI hg (by simpa [hthread] using hvh) (by simpa [hthread] using hvw)
    refine ⟨⟨hh.below, h3, h4⟩, ⟨?_, h1, h2⟩⟩
    rw [handler_setHandler_of_ne (Ne.symm hvh)]
    exact hlog
  · have hidle : s.log.writer h ≠ .idle := by
      intro hidle
      have hneeds := hh.needs
      rw [hidle] at hneeds
      cases hneeds
    have hkeep : ∀ (t : Process) (p : HandlerPc), t.log = s.log → t.threads = s.threads → t.handler = s.handler →
        v ≠ h → (t.setHandler v p).Hung h w m ∧ Frozen s (t.setHandler v p) h w := by
      rintro ⟨_, _, _, b, n⟩ p rfl rfl rfl hne
      refine ⟨⟨hh.below, hh.needs, hh.holder⟩, ⟨?_, rfl, rfl⟩⟩
      rw [handler_setHandler_of_ne (Ne.symm hne)]
      exact hlog
    obtain ⟨hpc, hidle', rfl⟩ | ⟨hpc, rfl⟩ | ⟨hpc, rfl⟩ := handlerStep_cases hv
    · exact hkeep s _ rfl rfl rfl (fun hvh => hidle (hvh ▸ hidle'))
    · exact hkeep { s with stopRequested := true } _ rfl rfl rfl (fun hvh => by rw [hvh, hlog] at hpc; cases hpc)
    · exact hkeep { s with signalFd := s.signalFd.map (· + 1) } _ rfl rfl rfl
        (fun hvh => by rw [hvh, hlog] at hpc; cases hpc)

theorem hung_reach (hI : Inv s) (hh : s.Hung h w m) (hr : Reach step always s s') :
    s'.Hung h w m ∧ Frozen s s' h w := by
  have hall : Inv s' ∧ s'.Hung h w m ∧ Frozen s s' h w := by
    apply hr.invariant (fun t => Inv t ∧ t.Hung h w m ∧ Frozen s t h w)
    · exact ⟨hI, hh, hh.logging hI, rfl, rfl⟩
    · rintro t l t' ⟨hIt, hht, hft⟩ - hs
      obtain ⟨hht', hft'⟩ := hung_step hIt hht hs
      exact ⟨inv_step hIt hs, hht', hft'.handler, hft'.waits.trans hft.waits, hft'.keeps.trans hft.keeps⟩
  exact hall.2

end hung

/-- **A handler that waits for its own thread.**  Take any number of threads that log, flush and shut the
logger down, and signals at any time.  Once a handler waits for a mutex that a frame below it on its
thread holds, it never gets past `LOG_INFO`, and the interrupted call takes no further step and keeps the
mutex, whatever all threads do. -/
theorem hung_forever {capacity threads : ℕ} {signalFd : Option ℕ} {s s' : Process} {h w : ℕ} {m : Lock}
    (hs : Reach step always (init capacity threads signalFd) s) (hh : s.Hung h w m) (hs' : Reach step always s s') :
    s'.handler h = .logging ∧ s'.log.writer h = s.log.writer h ∧ s'.log.writer w = s.log.writer w ∧
      s'.log.holder m = some w := by
  have hI := hs.invariant Inv (inv_init capacity threads signalFd) (fun _ _ _ hI _ hst => inv_step hI hst)
  obtain ⟨hh', hf⟩ := hung_reach hI hh hs'
  exact ⟨hf.handler, hf.waits, hf.keeps, hh'.holder⟩

/-- A thread holds the mutex of the active buffer when a signal arrives, and the handler reads
`active_buffer_` too. -/
def interruptedRun : List Label :=
  [.log (.call 0 ⟨100, false⟩), .log (.caller 0), .log (.caller 0), .signal 0 64, .log (.caller 1)]

/-- The log thread goes on meanwhile. -/
def loggingRun : List Label := [.log .log, .log .log, .log .log, .log .timeout, .log .log, .log .log]

theorem interruptedRun_hung_forever :
    ∃ s s', run step (init 1048576 1 (some 0)) interruptedRun = some s ∧ run step s loggingRun = some s' ∧
      s.Hung 1 0 (.buffer false) ∧ s'.handler 1 = .logging ∧ s'.stopRequested = false := by
  obtain ⟨s', hr', hstop⟩ := exists_of_any (o := run step (init 1048576 1 (some 0)) (interruptedRun ++ loggingRun))
    (fun s => s.stopRequested = false) (by decide)
  obtain ⟨s, hr, hlater⟩ := run_append_some.mp hr'
  obtain ⟨t, ht, hb, hneeds, hholder⟩ := exists_of_any (o := run step (init 1048576 1 (some 0)) interruptedRun)
    (fun s => s.Below 0 1 ∧ (s.log.writer 1).needs = some (.buffer false) ∧ s.log.holder (.buffer false) = some 0)
    (by decide)
  rw [hr] at ht
  cases ht
  have hh : s.Hung 1 0 (.buffer false) := ⟨hb, hneeds, hholder⟩
  obtain ⟨hlog, -⟩ := hung_forever (reach_of_run hr) hh (reach_of_run hlater)
  exact ⟨s, s', hr, hlater, hh, hlog, hstop⟩

/-! ### When a run has none -/

section free

variable {s s' : Process} {l : Label} {h w : ℕ} {m : Lock}

theorem meets_eq_true : s.meets l = true ↔
    ∃ h m w, l = .log (.caller h) ∧ s.log.comesTo h = some m ∧ s.log.holder m = some w ∧ s.Below w h := by
  constructor
  · intro hm
    unfold meets at hm
    split at hm
    next h =>
      obtain ⟨m, hcomes, hm'⟩ := (Option.any_eq_true _ _).mp hm
      obtain ⟨w, hholder, hb⟩ := (Option.any_eq_true _ _).mp hm'
      exact ⟨h, m, w, rfl, hcomes, hholder, of_decide_eq_true hb⟩
    next => cases hm
  · rintro ⟨h, m, w, rfl, hcomes, hholder, hb⟩
    simp [meets, hcomes, hholder, hb]

/-- After a step of another frame, a handler that waits for its own thread did so before. -/
theorem hung_before {k : LogSteps.Label} {g : LogSteps.State} (hI : Inv s) (hg : LogSteps.step s.log k = some g)
    (hb : s.Below w h) (hneeds : (g.writer h).needs = some m) (hholder : g.holder m = some w)
    (hkh : k.thread ≠ some h) (hkw : s.handler h ≠ .off → k.thread ≠ some w) : s.Hung h w m := by
  rw [LogSteps.writer_step hg hkh] at hneeds
  have hbusy : s.log.writer h ≠ .idle := by
    intro hidle
    rw [hidle] at hneeds
    cases hneeds
  have hon : s.handler h ≠ .off := by
    rw [hI.calls h hb.threads_le hbusy]
    simp
  exact ⟨hb, hneeds, hI.held.holder_was hg hholder (hkw hon)⟩

theorem hangFree_log {k : LogSteps.Label} {g : LogSteps.State} (hI : Inv s) (hfree : HangFree s)
    (hmeets : s.meets (.log k) = false) (hall : s.allows k) (hg : LogSteps.step s.log k = some g) :
    HangFree { s with log := g } := by
  rintro h w m ⟨hb, hneeds, hholder⟩
  by_cases hkh : k.thread = some h
  · have hnot : ¬ h < s.threads := Nat.not_lt.mpr (Below.threads_le (s := s) hb)
    cases k <;> cases hkh
    · exact hnot hall.1
    · exact hnot hall.1
    · exact hnot hall.1
    · have hcomes := LogSteps.comesTo_of_needs hg hneeds
      have hsame := (LogSteps.callerStep_comesTo hg hcomes).2
      have htrue : s.meets (.log (.caller h)) = true :=
        meets_eq_true.mpr ⟨h, m, w, rfl, hcomes, hsame ▸ hholder, hb⟩
      rw [hmeets] at htrue
      cases htrue
  · have hkw : s.handler h ≠ .off → k.thread ≠ some w :=
      fun hon hk => hI.not_top hon hb (top_of_allows hall hk)
    exact hfree h w m (hung_before hI hg hb hneeds hholder hkh hkw)

theorem hangFree_signal {v len : ℕ} {g : LogSteps.State} (hI : Inv s) (hfree : HangFree s) (htop : s.top v)
    (hg : LogSteps.step s.log (.call (v + s.threads) ⟨len, false⟩) = some g) :
    HangFree ({ s with log := g }.setHandler (v + s.threads) .logging) := by
  rintro h w m ⟨hb, hneeds, hholder⟩
  have hthread : (LogSteps.Label.call (v + s.threads) ⟨len, false⟩).thread = some (v + s.threads) := rfl
  have hneeds' : (g.writer h).needs = some m := hneeds
  by_cases hvh : v + s.threads = h
  · -- the new handler is about to read `active_buffer_`
    simp only [LogSteps.step, LogSteps.enter] at hg
    split_ifs at hg
    cases hg
    rw [LogSteps.State.goto_writer, hvh, Function.update_self] at hneeds'
    cases hneeds'
  · have hkw : s.handler h ≠ .off →
        (LogSteps.Label.call (v + s.threads) ⟨len, false⟩).thread ≠ some w := by
      intro hon hk
      rw [hthread] at hk
      cases hk
      exact hI.stack h hon _ (Nat.le_add_left _ _) hb htop
    exact hfree h w m (hung_before hI hg hb hneeds' hholder (by simpa [hthread] using hvh) hkw)

theorem hangFree_step (hI : Inv s) (hfree : HangFree s) (hmeets : s.meets l = false) (hs : step s l = some s') :
    HangFree s' := by
  obtain ⟨k, g, rfl, hall, hg, rfl⟩ | ⟨v, len, g, -, -, htop, hg, rfl⟩ | ⟨v, -, -, hv⟩ := step_cases hs
  · exact hangFree_log hI hfree hmeets hall hg
  · exact hangFree_signal hI hfree htop hg
  · rintro h w m ⟨hb, hneeds, hholder⟩
    obtain ⟨-, -, rfl⟩ | ⟨-, rfl⟩ | ⟨-, rfl⟩ := handlerStep_cases hv
    · exact hfree h w m ⟨hb, hneeds, hholder⟩
    · exact hfree h w m ⟨hb, hneeds, hholder⟩
    · exact hfree h w m ⟨hb, hneeds, hholder⟩

theorem not_hangFree_of_meets (hmeets : s.meets l = true) (hs : step s l = some s') : ¬ HangFree s' := by
  obtain ⟨h, m, w, rfl, hcomes, hholder, hb⟩ := meets_eq_true.mp hmeets
  simp only [step] at hs
  split_ifs at hs
  obtain ⟨g, hg, rfl⟩ := Option.map_eq_some_iff.mp hs
  obtain ⟨hneeds, hsame⟩ := LogSteps.callerStep_comesTo hg hcomes
  intro hfree
  exact hfree h w m ⟨hb, hneeds, by rw [hsame]; exact hholder⟩

end free

/-- **Signals and the logger.**  In a run, with signals at any time on any thread, no handler ever waits
for a mutex of its own thread, if and only if no handler comes to a mutex (the one of the buffer that is
active when it evaluates `active_buffer_`, or `cv_mutex_` after a swap) while a frame below it holds that
mutex. -/
theorem hangFree_iff (capacity threads : ℕ) (signalFd : Option ℕ) {ls : List Label} {s : Process}
    (hr : run step (init capacity threads signalFd) ls = some s) :
    (∀ ls₁ s₁, ls₁ <+: ls → run step (init capacity threads signalFd) ls₁ = some s₁ → HangFree s₁) ↔
      Along step (fun s l => s.meets l = false) (init capacity threads signalFd) ls := by
  refine always_iff_along (I := Inv) ?_ ?_ ?_ (inv_init capacity threads signalFd) ?_ hr
  · intro s l s' hI hs
    exact inv_step hI hs
  · intro s l s' hI hfree hok hs
    exact hangFree_step hI hfree hok hs
  · intro s l s' _ hok hs
    exact not_hangFree_of_meets (by simpa using hok) hs
  · rintro h w m ⟨-, hneeds, -⟩
    cases hneeds

/-- A signal on a thread that is not in the logger: the handler logs its line, stores
`stop_requested_`, writes to the eventfd and returns. -/
def handledRun : List Label :=
  [.signal 0 64, .log (.caller 1), .log (.caller 1), .log (.caller 1), .log (.caller 1), .log (.caller 1),
    .handler 1, .handler 1, .handler 1]

theorem handledRun_hangFree :
    ∃ s, run step (init 1048576 1 (some 0)) handledRun = some s ∧
      (s.stopRequested = true ∧ s.signalFd = some 1 ∧ s.handler 1 = .off) ∧ HangFree s := by
  obtain ⟨s, hr, hfacts⟩ := exists_of_any (o := run step (init 1048576 1 (some 0)) handledRun)
    (fun s => s.stopRequested = true ∧ s.signalFd = some 1 ∧ s.handler 1 = .off) (by decide)
  have hok : Along step (fun s l => s.meets l = false) (init 1048576 1 (some 0)) handledRun := by decide
  exact ⟨s, hr, hfacts, (hangFree_iff 1048576 1 (some 0) hr).mpr hok _ s (List.prefix_refl _) hr⟩

end Process

end SignalLog

end TcpServer
