import TcpServer.LogSteps

/-! # When a log buffer is overrun

A call of `WriteLog` checks the capacity of the buffer that is active at its check and appends
to the buffer that is active at its append.  The mutex it holds is the one of the buffer that was
active when it entered, so neither the check nor the append excludes other calls from the buffer
they use.

Until it appends, a call that has passed its last check counts on the room it has found.
`SwapBuffers` never takes that room away, since it empties the buffer that it makes active;
an append of another call may.

`Inside` asks that no buffer holds more than its capacity and that each of these calls could append at
once, which is more than that the appends made so far were inside.  `inside_iff`: a run stays `Inside`
*iff* every append of the run leaves enough room for each of the other calls that have passed their
last check; so the condition is enough for every append of the run to be inside the buffer. -/

namespace TcpServer

open Transition

namespace LogSteps

/-! ### What is asked of the buffers -/

/-- No buffer holds more than its capacity, and every call that has passed its last check
would append inside the active buffer if it did so now. -/
def Inside (s : State) : Prop :=
  (∀ b, s.size b ≤ s.capacity) ∧
    ∀ w l, (s.writer w).due = some l → s.size s.active + l.len ≤ s.capacity

/-- An append leaves room for the lines of the other calls that have passed their last check. -/
def leavesRoom (s : State) : Label → Prop
  | .caller w =>
      ∀ l ∈ (s.writer w).appending, ∀ v < s.callers, v ≠ w → ∀ k ∈ (s.writer v).due,
        s.size s.active + l.len + k.len ≤ s.capacity
  | _ => True

instance decidableLeavesRoom (s : State) : ∀ l : Label, Decidable (leavesRoom s l)
  | .caller w =>
      inferInstanceAs (Decidable (∀ l ∈ (s.writer w).appending, ∀ v < s.callers, v ≠ w →
        ∀ k ∈ (s.writer v).due, s.size s.active + l.len + k.len ≤ s.capacity))
  | .call _ _ => isTrue trivial
  | .flush _ => isTrue trivial
  | .shutdown _ => isTrue trivial
  | .timeout => isTrue trivial
  | .log => isTrue trivial

/-! ### Lines that fit into an empty buffer -/

/-- A line that has passed a check fits into an empty buffer. -/
def Passed (s : State) : Prop := ∀ w l, (s.writer w).due = some l → l.len ≤ s.capacity

theorem passed_init (capacity callers : ℕ) : Passed (init capacity callers) := by
  intro w l hl
  cases hl

theorem due_goto {s : State} {w v : ℕ} {p : Pc} {l : Line} (h : ((s.goto w p).writer v).due = some l) :
    p.due = some l ∨ v ≠ w ∧ (s.writer v).due = some l := by
  rw [State.goto_writer] at h
  by_cases hv : v = w
  · rw [hv, Function.update_self] at h
    exact Or.inl h
  · rw [Function.update_of_ne hv] at h
    exact Or.inr ⟨hv, h⟩

theorem Passed.goto {s : State} (hs : Passed s) {w : ℕ} {p : Pc} (hp : ∀ l, p.due = some l → l.len ≤ s.capacity) :
    Passed (s.goto w p) := by
  intro v l hl
  rcases due_goto hl with hl | ⟨_, hl⟩
  · exact hp l hl
  · exact hs v l hl

theorem Passed.goto_none {s : State} (hs : Passed s) {w : ℕ} {p : Pc} (hp : p.due = none) : Passed (s.goto w p) := by
  apply hs.goto
  intro l hl
  rw [hp] at hl
  cases hl

theorem due_unlock2 {k l : Line} {b c fits : Bool}
    (h : (if fits then Pc.append k b else Pc.unlock k b false).due = some l) :
    (Pc.unlock2 k b c fits).due = some l := by
  cases fits with
  | true => exact h
  | false => cases h

theorem due_unlock (k : Line) (written : Bool) :
    (if written && k.fatal then Pc.flushSwap false else Pc.idle).due = none := by
  split <;> rfl

theorem due_check2 {k l : Line} {b c fits : Bool} (h : (Pc.unlock2 k b c fits).due = some l) :
    fits = true ∧ k = l := by
  cases fits with
  | true =>
      cases h
      exact ⟨rfl, rfl⟩
  | false => cases h

theorem passed_step {s s' : State} {l : Label} (hs : Passed s) (h : step s l = some s') : Passed s' := by
  cases step_effect h with
  | env r cv q => exact hs
  | quiet r cv q w p p' hw hc hf hh hsec hdue => exact Passed.goto_none (s := s.env r cv q) hs hdue
  | read w k hw => exact Passed.goto_none (s := { s with readAt := _ }) hs rfl
  | lock w k b hw ho => exact Passed.goto_none (s := s.setOwner b _) hs rfl
  | check w k b hw hroom =>
      apply hs.goto
      intro l hl
      cases hl
      omega
  | swap w p p' hw hc hf hh hsec hdue => exact Passed.goto_none (s := s.swapBuffers) hs hdue
  | reread w k b hl hw => exact hs.goto_none rfl
  | lock2 w k b c hw ho => exact Passed.goto_none (s := s.setOwner c _) hs rfl
  | check2 w k b c fits hw hroom =>
      apply hs.goto
      intro l hl
      obtain ⟨hfits, rfl⟩ := due_check2 hl
      have := hroom hfits
      omega
  | unlock2 w k b c fits hw =>
      apply Passed.goto (s := s.setOwner c none) hs
      intro l hl
      apply hs w l
      rw [hw]
      exact due_unlock2 hl
  | append w k b hl hw => exact Passed.goto_none (s := s.append k) hs rfl
  | unlock w k b written hw => exact Passed.goto_none (s := s.setOwner b none) hs (due_unlock k written)
  | logSwap r cv q => exact hs
  | clear r cv q => exact hs

/-! ### A step that leaves room -/

theorem inside_init (capacity callers : ℕ) : Inside (init capacity callers) := by
  constructor
  · intro b
    exact Nat.zero_le _
  · intro w l hl
    cases hl

theorem Inside.goto {s : State} (hs : Inside s) {w : ℕ} {p : Pc}
    (hp : ∀ l, p.due = some l → s.size s.active + l.len ≤ s.capacity) : Inside (s.goto w p) := by
  refine ⟨hs.1, ?_⟩
  intro v l hl
  rcases due_goto hl with hl | ⟨_, hl⟩
  · exact hp l hl
  · exact hs.2 v l hl

theorem Inside.goto_none {s : State} (hs : Inside s) {w : ℕ} {p : Pc} (hp : p.due = none) : Inside (s.goto w p) := by
  apply hs.goto
  intro l hl
  rw [hp] at hl
  cases hl

/-- Emptying a buffer keeps the sizes inside. -/
theorem size_update_zero {s : State} (hs : Inside s) (x b : Bool) : Function.update s.size x 0 b ≤ s.capacity := by
  by_cases hb : b = x
  · rw [hb, Function.update_self]
    exact Nat.zero_le _
  · rw [Function.update_of_ne hb]
    exact hs.1 b

/-- `SwapBuffers` empties the buffer that it makes active, so every line that has passed its
check fits. -/
theorem Inside.swapBuffers {s : State} (hs : Inside s) (hp : Passed s) : Inside s.swapBuffers := by
  refine ⟨size_update_zero hs (!s.active), ?_⟩
  intro w l hl
  show Function.update s.size (!s.active) 0 (!s.active) + l.len ≤ s.capacity
  rw [Function.update_self, Nat.zero_add]
  exact hp w l hl

theorem Inside.clear {s : State} (hs : Inside s) :
    Inside { s with size := Function.update s.size (!s.active) 0 } := by
  refine ⟨size_update_zero hs (!s.active), ?_⟩
  intro w l hl
  show Function.update s.size (!s.active) 0 s.active + l.len ≤ s.capacity
  rw [Function.update_of_ne (by simp)]
  exact hs.2 w l hl

theorem Inside.append {s : State} (hs : Inside s) (hb : Bounded s) {w : ℕ} {k : Line} {b : Bool}
    (hw : s.writer w = .append k b) (hok : leavesRoom s (.caller w)) :
    Inside ((s.append k).goto w (.unlock k b true)) := by
  constructor
  · intro x
    show Function.update s.size s.active (s.size s.active + k.len) x ≤ s.capacity
    by_cases hx : x = s.active
    · rw [hx, Function.update_self]
      apply hs.2 w k
      rw [hw]
      rfl
    · rw [Function.update_of_ne hx]
      exact hs.1 x
  · intro v l hl
    show Function.update s.size s.active (s.size s.active + k.len) s.active + l.len ≤ s.capacity
    rw [Function.update_self]
    rcases due_goto hl with hl | ⟨hv, hl⟩
    · cases hl
    · have hl : (s.writer v).due = some l := hl
      -- a thread that never calls has nothing to append
      have hlt : v < s.callers := by
        by_contra hge
        rw [hb v (by omega)] at hl
        cases hl
      exact hok k (by rw [hw]; rfl) v hlt hv l hl

theorem inside_step {s s' : State} {l : Label} (hb : Bounded s) (hp : Passed s) (hs : Inside s)
    (hok : leavesRoom s l) (h : step s l = some s') : Inside s' := by
  cases step_effect h with
  | env r cv q => exact hs
  | quiet r cv q w p p' hw hc hf hh hsec hdue => exact Inside.goto_none (s := s.env r cv q) hs hdue
  | read w k hw => exact Inside.goto_none (s := { s with readAt := _ }) hs rfl
  | lock w k b hw ho => exact Inside.goto_none (s := s.setOwner b _) hs rfl
  | check w k b hw hroom =>
      apply hs.goto
      intro l hl
      cases hl
      exact hroom
  | swap w p p' hw hc hf hh hsec hdue => exact (hs.swapBuffers hp).goto_none hdue
  | reread w k b hl hw => exact hs.goto_none rfl
  | lock2 w k b c hw ho => exact Inside.goto_none (s := s.setOwner c _) hs rfl
  | check2 w k b c fits hw hroom =>
      apply hs.goto
      intro l hl
      obtain ⟨hfits, rfl⟩ := due_check2 hl
      exact hroom hfits
  | unlock2 w k b c fits hw =>
      apply Inside.goto (s := s.setOwner c none) hs
      intro l hl
      apply hs.2 w l
      rw [hw]
      exact due_unlock2 hl
  | append w k b hl hw =>
      subst hl
      exact hs.append hb hw hok
  | unlock w k b written hw => exact Inside.goto_none (s := s.setOwner b none) hs (due_unlock k written)
  | logSwap r cv q => exact hs.swapBuffers hp
  | clear r cv q => exact hs.clear

/-! ### A step that does not -/

theorem appending_eq {p : Pc} {l : Line} (h : p.appending = some l) : ∃ b, p = .append l b := by
  cases p with
  | append k b =>
      cases h
      exact ⟨b, rfl⟩
  | _ => cases h

theorem not_inside_of_append {s s' : State} {l : Label} (hok : ¬ leavesRoom s l) (h : step s l = some s') :
    ¬ Inside s' := by
  cases l with
  | caller w =>
      simp only [leavesRoom, Option.mem_def, not_forall] at hok
      obtain ⟨k, hk, v, hv, hne, k', hk', hroom⟩ := hok
      obtain ⟨b, hw⟩ := appending_eq hk
      simp only [step, callerStep, hw, Option.some.injEq] at h
      subst h
      intro hin
      have hdue := hin.2 v k' (by rw [State.goto_writer, Function.update_of_ne hne]; exact hk')
      have hsize : ((s.append k).goto w (.unlock k b true)).size s.active = s.size s.active + k.len :=
        Function.update_self ..
      exact hroom (hsize ▸ hdue)
  | _ => exact absurd trivial hok

/-! ### Whole runs -/

/-- **When the log buffers are overrun.**  For every capacity, every number of calling threads,
lines of every length and every interleaving: in all states of the run no buffer holds more
than its capacity and every call that has passed its last check could append at once inside the
active buffer (`Inside`), if and only if each append of the run leaves room for the lines of all
other calls that have passed their last check.  `Inside` in all states is more than that no append
of the run is outside: a swap may give back the room that an append has taken. -/
theorem inside_iff (capacity callers : ℕ) (ls : List Label) (s : State)
    (h : run step (init capacity callers) ls = some s) :
    (∀ ls₁ s₁, ls₁ <+: ls → run step (init capacity callers) ls₁ = some s₁ → Inside s₁) ↔
      Along step leavesRoom (init capacity callers) ls := by
  refine always_iff_along (I := fun s => Bounded s ∧ Passed s) ?_ ?_ ?_
    ⟨bounded_init capacity callers, passed_init capacity callers⟩ (inside_init capacity callers) h
  · intro s l s' hI hs
    exact ⟨bounded_step hI.1 hs, passed_step hI.2 hs⟩
  · intro s l s' hI hin hok hs
    exact inside_step hI.1 hI.2 hin hok hs
  · intro s l s' _ hok hs
    exact not_inside_of_append hok hs

/-- Two threads and buffers of 1 MiB.  The first thread logs two lines of 600000 bytes, so that
the second line overflows and is appended to the other buffer while the second thread waits to
enter. -/
def roomyRun : List Label :=
  [.call 0 ⟨600000, false⟩, .caller 0, .caller 0, .caller 0, .caller 0, .caller 0,
    .call 0 ⟨600000, false⟩, .caller 0, .caller 0, .call 1 ⟨80, false⟩, .caller 1, .caller 0, .caller 0, .caller 0,
    .caller 0, .caller 0, .caller 0, .caller 0, .caller 0, .caller 0, .caller 0, .caller 0, .caller 1, .caller 1,
    .caller 1, .caller 1]

theorem inside_roomyRun : ∃ s, run step (init (1024 * 1024) 2) roomyRun = some s ∧
    s.size true = 600080 ∧ s.writer 0 = .idle ∧ s.writer 1 = .idle ∧ Inside s := by
  obtain ⟨s, hrun, h1, h2, h3⟩ := exists_of_any (o := run step (init (1024 * 1024) 2) roomyRun)
    (fun s => s.size true = 600080 ∧ s.writer 0 = .idle ∧ s.writer 1 = .idle) (by decide +kernel)
  have hall := (inside_iff (1024 * 1024) 2 roomyRun s hrun).mpr (by decide +kernel)
  exact ⟨s, hrun, h1, h2, h3, hall roomyRun s (List.prefix_refl _) hrun⟩

/-- Two threads and buffers of 1 MiB.  The first thread passes its check; the log thread swaps;
the second thread locks the other buffer and passes its check as well; both append. -/
def overrunRun : List Label :=
  [.call 0 ⟨600000, false⟩, .caller 0, .caller 0, .caller 0, .log, .log, .log, .timeout, .log, .log,
    .call 1 ⟨600000, false⟩, .caller 1, .caller 1, .caller 1, .caller 0, .caller 1]

/-- Two lines that have both been found to fit overrun the buffer. -/
theorem buffer_overrun : ¬ ∀ (capacity callers : ℕ) (ls : List Label) (s : State),
    run step (init capacity callers) ls = some s → ∀ b, s.size b ≤ s.capacity := by
  intro hall
  obtain ⟨s, hrun, hsize, hcap⟩ := exists_of_any (o := run step (init (1024 * 1024) 2) overrunRun)
    (fun s => s.size true = 1200000 ∧ s.capacity = 1024 * 1024) (by decide +kernel)
  have := hall (1024 * 1024) 2 overrunRun s hrun true
  omega

end LogSteps

end TcpServer
