import TcpServer.LogSteps
import Mathlib.Logic.Relation

/-! # When `WriteLog` blocks on itself

A call that overflows keeps the mutex of the buffer `b` it has locked, swaps, notifies the log
thread and then evaluates `active_buffer_` again for `lock2`.  Other threads may have swapped
since the call entered, and another call may hold the mutex of the buffer that is active now and
wait for `b` itself.

The buffer that is active flips with each `SwapBuffers`, so the buffer of `lock2` is the
buffer of `lock` exactly when an even number of swaps lies between the two evaluations.

`deadlockFree_iff`: a run is free of self-locking calls and of cycles of waiting calls *iff*
each evaluation for `lock2` comes after an odd number of swaps and finds no other call waiting
for its `lock2`. -/

namespace TcpServer

open Transition Relation

/-! ### Cycles of a relation -/

/-- A member of a cycle has a predecessor, and so has its successor, which has a successor too. -/
theorem exists_of_cycle {α : Type} {r : α → α → Prop} {a : α} (h : TransGen r a a) :
    ∃ b, r a b ∧ (∃ c, r b c) ∧ ∃ d, r d a := by
  obtain ⟨b, hab, hba⟩ := TransGen.head'_iff.mp h
  obtain ⟨d, _, hda⟩ := TransGen.tail'_iff.mp h
  refine ⟨b, hab, ?_, d, hda⟩
  rcases ReflTransGen.cases_head hba with rfl | ⟨c, hbc, _⟩
  · exact ⟨b, hab⟩
  · exact ⟨c, hbc⟩

namespace LogSteps

/-! ### What is asked of the mutexes -/

/-- Call `w` waits for a buffer mutex that call `v` holds. -/
def waitsFor (s : State) (w v : ℕ) : Prop := ∃ c, (s.writer w).wants = some c ∧ s.owner c = some v

/-- No call waits at `lock2` for a mutex it holds, and no calls wait for one another in a cycle. -/
def DeadlockFree (s : State) : Prop :=
  (∀ w l b c, s.writer w = .lock2 l b c → s.owner c ≠ some w) ∧ ∀ w, ¬ TransGen (waitsFor s) w w

/-- A call evaluates `active_buffer_` for `lock2` after an odd number of swaps since it did so
for `lock`, and while no other call waits for its `lock2`. -/
def secondRead (s : State) : Label → Prop
  | .caller w =>
      (s.writer w).rereads = true →
        (s.swaps - s.readAt w) % 2 = 1 ∧ ∀ v < s.callers, v ≠ w → (s.writer v).atLock2 = false
  | _ => True

instance decidableSecondRead (s : State) : ∀ l : Label, Decidable (secondRead s l)
  | .caller w =>
      inferInstanceAs (Decidable ((s.writer w).rereads = true →
        (s.swaps - s.readAt w) % 2 = 1 ∧ ∀ v < s.callers, v ≠ w → (s.writer v).atLock2 = false))
  | .call _ _ => isTrue trivial
  | .flush _ => isTrue trivial
  | .shutdown _ => isTrue trivial
  | .timeout => isTrue trivial
  | .log => isTrue trivial

/-! ### Owners of the buffer mutexes -/

/-- The mutexes are held by the calls that stand inside their scopes. -/
def Owned (s : State) : Prop := ∀ b w, s.owner b = some w ↔ (s.writer w).holds b = true

/-- A call inside the scope of `lock2` holds two different mutexes. -/
def Pc.Distinct : Pc → Prop
  | .check2 _ b c | .unlock2 _ b c _ => c ≠ b
  | _ => True

theorem Pc.distinct_of_second {p : Pc} (h : p.second = none) : p.Distinct := by
  cases p with
  | check2 _ _ _ => cases h
  | unlock2 _ _ _ _ => cases h
  | _ => exact trivial

theorem owned_init (capacity callers : ℕ) : Owned (init capacity callers) := by
  intro b w
  exact ⟨nofun, nofun⟩

theorem Owned.goto {s : State} (hs : Owned s) {w : ℕ} {p p' : Pc} (hw : s.writer w = p)
    (hh : p'.holds = p.holds) : Owned (s.goto w p') := by
  intro b v
  show s.owner b = some v ↔ _
  rw [hs b v, State.goto_writer]
  by_cases hv : v = w
  · rw [hv, Function.update_self, hh, hw]
  · rw [Function.update_of_ne hv]

/-- Acquiring or releasing a mutex that no other call holds. -/
theorem Owned.setOwner {s : State} (hs : Owned s) {w : ℕ} {p p' : Pc} {c : Bool} {o : Option ℕ} (hw : s.writer w = p)
    (hothers : ∀ v, v ≠ w → s.owner c ≠ some v ∧ o ≠ some v) (hc : o = some w ↔ p'.holds c = true)
    (hh : ∀ x, x ≠ c → p'.holds x = p.holds x) : Owned ((s.setOwner c o).goto w p') := by
  intro b v
  show Function.update s.owner c o b = some v ↔ (Function.update s.writer w p' v).holds b = true
  by_cases hv : v = w
  · subst hv
    rw [Function.update_self]
    by_cases hb : b = c
    · rw [hb, Function.update_self]
      exact hc
    · rw [Function.update_of_ne hb, hh b hb, hs b v, hw]
  · rw [Function.update_of_ne hv, ← hs b v]
    by_cases hb : b = c
    · rw [hb, Function.update_self]
      obtain ⟨h1, h2⟩ := hothers v hv
      exact iff_of_false h2 h1
    · rw [Function.update_of_ne hb]

theorem Owned.acquire {s : State} (hs : Owned s) {w : ℕ} {p p' : Pc} {c : Bool} (hw : s.writer w = p)
    (ho : s.owner c = none) (hc : p'.holds c = true) (hh : ∀ x, x ≠ c → p'.holds x = p.holds x) :
    Owned ((s.setOwner c (some w)).goto w p') := by
  refine hs.setOwner hw ?_ (iff_of_true rfl hc) hh
  intro v hv
  rw [ho]
  exact ⟨nofun, fun h => hv (Option.some.inj h).symm⟩

theorem Owned.release {s : State} (hs : Owned s) {w : ℕ} {p p' : Pc} {c : Bool} (hw : s.writer w = p)
    (ho : p.holds c = true) (hc : p'.holds c = false) (hh : ∀ x, x ≠ c → p'.holds x = p.holds x) :
    Owned ((s.setOwner c none).goto w p') := by
  have hwc : s.owner c = some w := by
    rw [hs c w, hw]
    exact ho
  refine hs.setOwner hw ?_ (iff_of_false nofun (by rw [hc]; nofun)) hh
  intro v hv
  rw [hwc]
  exact ⟨fun h => hv (Option.some.inj h).symm, nofun⟩

theorem holds_unlock (k : Line) (written x : Bool) :
    (if written && k.fatal then Pc.flushSwap false else Pc.idle).holds x = false := by
  split <;> rfl

theorem holds_unlock2 (k : Line) (b fits x : Bool) :
    (if fits then Pc.append k b else Pc.unlock k b false).holds x = (x == b) := by
  split <;> rfl

/-- What is known about the mutexes in every reachable state. -/
def Locked (s : State) : Prop := Owned s ∧ ∀ w, (s.writer w).Distinct

theorem locked_init (capacity callers : ℕ) : Locked (init capacity callers) :=
  ⟨owned_init capacity callers, fun _ => trivial⟩

theorem distinct_goto {s : State} (hs : ∀ w, (s.writer w).Distinct) {w : ℕ} {p : Pc} (hp : p.Distinct) (v : ℕ) :
    ((s.goto w p).writer v).Distinct := by
  rw [State.goto_writer]
  by_cases hv : v = w
  · rw [hv, Function.update_self]
    exact hp
  · rw [Function.update_of_ne hv]
    exact hs v

theorem locked_step {s s' : State} {l : Label} (hs : Locked s) (h : step s l = some s') : Locked s' := by
  obtain ⟨ho, hd⟩ := hs
  cases step_effect h with
  | env r cv q => exact ⟨ho, hd⟩
  | quiet r cv q w p p' hw hc hf hh hsec hdue =>
      exact ⟨Owned.goto (s := s.env r cv q) ho hw hh, distinct_goto hd (Pc.distinct_of_second hsec)⟩
  | read w k hw =>
      exact ⟨Owned.goto (s := { s with readAt := _ }) ho hw rfl, distinct_goto hd trivial⟩
  | lock w k b hw hfree =>
      refine ⟨ho.acquire hw hfree (beq_self_eq_true b) ?_, distinct_goto hd trivial⟩
      intro x hx
      exact beq_false_of_ne hx
  | check w k b hw hroom => exact ⟨ho.goto hw rfl, distinct_goto hd trivial⟩
  | swap w p p' hw hc hf hh hsec hdue =>
      exact ⟨Owned.goto (s := s.swapBuffers) ho hw hh, distinct_goto hd (Pc.distinct_of_second hsec)⟩
  | reread w k b hl hw => exact ⟨ho.goto hw rfl, distinct_goto hd trivial⟩
  | lock2 w k b c hw hfree =>
      refine ⟨ho.acquire hw hfree (by simp [Pc.holds]) ?_, distinct_goto hd ?_⟩
      · intro x hx
        simp [Pc.holds, hx]
      · -- the mutex of `lock` is not free, the one of `lock2` was
        have hb : s.owner b = some w := by
          rw [ho b w, hw]
          exact beq_self_eq_true b
        intro hcb
        rw [hcb, hb] at hfree
        cases hfree
  | check2 w k b c fits hw hroom =>
      have hne : c ≠ b := by simpa [hw, Pc.Distinct] using hd w
      exact ⟨ho.goto hw rfl, distinct_goto hd hne⟩
  | unlock2 w k b c fits hw =>
      have hne : c ≠ b := by simpa [hw, Pc.Distinct] using hd w
      refine ⟨ho.release hw (by simp [Pc.holds]) ?_ ?_, distinct_goto hd ?_⟩
      · rw [holds_unlock2]
        exact beq_false_of_ne hne
      · intro x hx
        rw [holds_unlock2]
        simp [Pc.holds, hx]
      · split <;> exact trivial
  | append w k b hl hw => exact ⟨Owned.goto (s := s.append k) ho hw rfl, distinct_goto hd trivial⟩
  | unlock w k b written hw =>
      refine ⟨ho.release hw (beq_self_eq_true b) (holds_unlock k written b) ?_, distinct_goto hd ?_⟩
      · intro x hx
        rw [holds_unlock]
        exact (beq_false_of_ne hx).symm
      · split <;> exact trivial
  | logSwap r cv q => exact ⟨ho, hd⟩
  | clear r cv q => exact ⟨ho, hd⟩

/-! ### The number of swaps tells the active buffer -/

/-- `active_buffer_` flips with every swap, and the buffer of `lock` is the one that was active
when the call evaluated `active_buffer_` for it. -/
def Parity (s : State) : Prop :=
  s.active = decide (s.swaps % 2 = 1) ∧
    ∀ w b, (s.writer w).first = some b → b = decide (s.readAt w % 2 = 1) ∧ s.readAt w ≤ s.swaps

theorem parity_init (capacity callers : ℕ) : Parity (init capacity callers) :=
  ⟨rfl, nofun⟩

theorem Parity.goto {s : State} (hs : Parity s) {w : ℕ} {p p' : Pc} (hw : s.writer w = p)
    (hf : ∀ b, p'.first = some b → p.first = some b) : Parity (s.goto w p') := by
  refine ⟨hs.1, ?_⟩
  intro v b hb
  rw [State.goto_writer] at hb
  by_cases hv : v = w
  · rw [hv, Function.update_self] at hb
    rw [hv]
    apply hs.2 w b
    rw [hw]
    exact hf b hb
  · rw [Function.update_of_ne hv] at hb
    exact hs.2 v b hb

theorem Parity.goto_same {s : State} (hs : Parity s) {w : ℕ} {p p' : Pc} (hw : s.writer w = p)
    (hf : p'.first = p.first) : Parity (s.goto w p') :=
  hs.goto hw fun _ hb => hf ▸ hb

theorem Parity.swapBuffers {s : State} (hs : Parity s) : Parity s.swapBuffers := by
  constructor
  · show (!s.active) = decide ((s.swaps + 1) % 2 = 1)
    rw [hs.1, ← decide_not, decide_eq_decide]
    omega
  · intro w b hb
    obtain ⟨h1, h2⟩ := hs.2 w b hb
    exact ⟨h1, Nat.le_succ_of_le h2⟩

theorem Parity.read {s : State} (hs : Parity s) (w : ℕ) (k : Line) :
    Parity ({ s with readAt := Function.update s.readAt w s.swaps }.goto w (.lock k s.active)) := by
  refine ⟨hs.1, ?_⟩
  intro v b hb
  rw [State.goto_writer] at hb
  show b = decide (Function.update s.readAt w s.swaps v % 2 = 1) ∧ Function.update s.readAt w s.swaps v ≤ s.swaps
  by_cases hv : v = w
  · rw [hv, Function.update_self] at hb ⊢
    cases hb
    exact ⟨hs.1, Nat.le_refl _⟩
  · rw [Function.update_of_ne hv] at hb ⊢
    exact hs.2 v b hb

theorem first_unlock2 (k : Line) (b c fits : Bool) :
    (if fits then Pc.append k b else Pc.unlock k b false).first = (Pc.unlock2 k b c fits).first := by
  split <;> rfl

theorem parity_step {s s' : State} {l : Label} (hs : Parity s) (h : step s l = some s') : Parity s' := by
  cases step_effect h with
  | env r cv q => exact hs
  | quiet r cv q w p p' hw hc hf hh hsec hdue => exact Parity.goto_same (s := s.env r cv q) hs hw hf
  | read w k hw => exact hs.read w k
  | lock w k b hw hfree => exact Parity.goto_same (s := s.setOwner b _) hs hw rfl
  | check w k b hw hroom => exact hs.goto_same hw rfl
  | swap w p p' hw hc hf hh hsec hdue => exact hs.swapBuffers.goto_same hw hf
  | reread w k b hl hw => exact hs.goto_same hw rfl
  | lock2 w k b c hw hfree => exact Parity.goto_same (s := s.setOwner c _) hs hw rfl
  | check2 w k b c fits hw hroom => exact hs.goto_same hw rfl
  | unlock2 w k b c fits hw => exact Parity.goto_same (s := s.setOwner c none) hs hw (first_unlock2 k b c fits)
  | append w k b hl hw => exact Parity.goto_same (s := s.append k) hs hw rfl
  | unlock w k b written hw =>
      apply Parity.goto (s := s.setOwner b none) hs hw
      intro x hx
      split at hx <;> cases hx
  | logSwap r cv q => exact hs.swapBuffers
  | clear r cv q => exact hs

/-- The second evaluation yields another buffer exactly after an odd number of swaps. -/
theorem Parity.active_ne_iff {s : State} (hs : Parity s) {w : ℕ} {b : Bool} (hb : (s.writer w).first = some b) :
    s.active ≠ b ↔ (s.swaps - s.readAt w) % 2 = 1 := by
  obtain ⟨h1, h2⟩ := hs.2 w b hb
  rw [hs.1, h1, ne_eq, decide_eq_decide]
  omega

/-! ### Calls at `lock2` -/

/-- No call waits at `lock2` for the buffer of its `lock`, and at most one call waits there. -/
def Alone (s : State) : Prop :=
  (∀ w l b c, s.writer w = .lock2 l b c → c ≠ b) ∧
    ∀ w v, (s.writer w).atLock2 = true → (s.writer v).atLock2 = true → w = v

theorem atLock2_eq {p : Pc} (h : p.atLock2 = true) : ∃ l b c, p = .lock2 l b c := by
  cases p with
  | lock2 l b c => exact ⟨l, b, c, rfl⟩
  | _ => cases h

theorem Owned.owner_lock2 {s : State} (hs : Owned s) {w : ℕ} {l : Line} {b c : Bool} (hw : s.writer w = .lock2 l b c) :
    s.owner b = some w := by
  rw [hs b w, hw]
  exact beq_self_eq_true b

/-- A call that waits for a buffer mutex and holds one stands at `lock2`. -/
theorem Owned.atLock2 {s : State} (hs : Owned s) {w : ℕ} {c x : Bool} (hwants : (s.writer w).wants = some c)
    (hx : s.owner x = some w) : ∃ l, s.writer w = .lock2 l x c := by
  rw [hs x w] at hx
  cases hp : s.writer w with
  | lock2 l b c' =>
      rw [hp] at hwants hx
      cases hwants
      rw [eq_of_beq hx]
      exact ⟨l, rfl⟩
  | lock l b =>
      rw [hp] at hx
      cases hx
  | _ =>
      rw [hp] at hwants
      cases hwants

theorem deadlockFree_iff_alone {s : State} (hs : Owned s) : DeadlockFree s ↔ Alone s := by
  constructor
  · intro ⟨hself, hcycle⟩
    have hne : ∀ w l b c, s.writer w = .lock2 l b c → c ≠ b := by
      intro w l b c hw hcb
      rw [hcb] at hw
      exact hself w l b b hw (hs.owner_lock2 hw)
    refine ⟨hne, ?_⟩
    intro w v hw hv
    obtain ⟨l, b, c, hw⟩ := atLock2_eq hw
    obtain ⟨k, b', c', hv⟩ := atLock2_eq hv
    have hwb := hs.owner_lock2 hw
    have hvb := hs.owner_lock2 hv
    by_contra hwv
    -- the two calls hold one buffer each and wait for the other one
    have hbb : b ≠ b' := by
      rintro rfl
      rw [hwb] at hvb
      exact hwv (Option.some.inj hvb)
    have hb' : b' = !b := Bool.eq_not.mpr hbb.symm
    have hc : c = b' := by
      rw [hb']
      exact Bool.eq_not.mpr (hne w l b c hw)
    have hc' : c' = b := by
      rw [Bool.eq_not.mpr (hne v k b' c' hv), hb', Bool.not_not]
    have h1 : waitsFor s w v := ⟨c, by rw [hw]; rfl, by rw [hc]; exact hvb⟩
    have h2 : waitsFor s v w := ⟨c', by rw [hv]; rfl, by rw [hc']; exact hwb⟩
    exact hcycle w (TransGen.tail (TransGen.single h1) h2)
  · intro ⟨hne, hunique⟩
    constructor
    · intro w l b c hw hc
      obtain ⟨k, hk⟩ := hs.atLock2 (by rw [hw]; rfl) hc
      rw [hw] at hk
      cases hk
      exact hne w l b b hw rfl
    · intro w hcycle
      obtain ⟨v, ⟨c, hc, hcv⟩, ⟨_, d, hd, _⟩, _, x, _, hx⟩ := exists_of_cycle hcycle
      obtain ⟨l, hw⟩ := hs.atLock2 hc hx
      obtain ⟨k, hv⟩ := hs.atLock2 hd hcv
      -- both the call and the one it waits for stand at `lock2`, so they are the same
      have hwv : w = v := hunique w v (by rw [hw]; rfl) (by rw [hv]; rfl)
      rw [← hwv, hw] at hv
      cases hv
      exact hne w l c c hw rfl

theorem Alone.goto {s : State} (hs : Alone s) {w : ℕ} {p : Pc} (hp : p.atLock2 = false) : Alone (s.goto w p) := by
  have hstay : ∀ v, ((s.goto w p).writer v).atLock2 = true → (s.goto w p).writer v = s.writer v := by
    intro v hv
    rw [State.goto_writer] at hv ⊢
    apply Function.update_of_ne
    rintro rfl
    rw [Function.update_self, hp] at hv
    cases hv
  constructor
  · intro v l b c hv
    apply hs.1 v l b c
    rw [← hstay v (by rw [hv]; rfl)]
    exact hv
  · intro v u hv hu
    apply hs.2 v u
    · rw [← hstay v hv]
      exact hv
    · rw [← hstay u hu]
      exact hu

theorem atLock2_of_second {p : Pc} (h : p.second = none) : p.atLock2 = false := by
  cases p with
  | lock2 _ _ _ => cases h
  | _ => rfl

/-- The second evaluation of `active_buffer_` brings the call to `lock2`. -/
theorem Alone.reread {s : State} (hb : Bounded s) (hpar : Parity s) {w : ℕ} {k : Line} {b : Bool}
    (hw : s.writer w = .reread k b) (hok : secondRead s (.caller w)) : Alone (s.goto w (.lock2 k b s.active)) := by
  obtain ⟨hodd, hothers⟩ := hok (by rw [hw]; rfl)
  have hact : s.active ≠ b := (hpar.active_ne_iff (by rw [hw]; rfl)).mpr hodd
  have honly : ∀ v, ((s.goto w (.lock2 k b s.active)).writer v).atLock2 = true → v = w := by
    intro v hv
    by_contra hne
    rw [State.goto_writer, Function.update_of_ne hne] at hv
    rcases Nat.lt_or_ge v s.callers with hlt | hge
    · rw [hothers v hlt hne] at hv
      cases hv
    · rw [hb v hge] at hv
      cases hv
  constructor
  · intro v l x c hv
    have hvw := honly v (by rw [hv]; rfl)
    rw [hvw, State.goto_writer, Function.update_self] at hv
    cases hv
    exact hact
  · intro v u hv hu
    rw [honly v hv, honly u hu]

theorem alone_step {s s' : State} {l : Label} (hb : Bounded s) (hpar : Parity s) (hs : Alone s)
    (hok : secondRead s l) (h : step s l = some s') : Alone s' := by
  cases step_effect h with
  | env r cv q => exact hs
  | quiet r cv q w p p' hw hc hf hh hsec hdue =>
      exact Alone.goto (s := s.env r cv q) hs (atLock2_of_second hsec)
  | read w k hw => exact Alone.goto (s := { s with readAt := _ }) hs rfl
  | lock w k b hw hfree => exact Alone.goto (s := s.setOwner b _) hs rfl
  | check w k b hw hroom => exact hs.goto rfl
  | swap w p p' hw hc hf hh hsec hdue => exact Alone.goto (s := s.swapBuffers) hs (atLock2_of_second hsec)
  | reread w k b hl hw =>
      subst hl
      exact Alone.reread hb hpar hw hok
  | lock2 w k b c hw hfree => exact Alone.goto (s := s.setOwner c _) hs rfl
  | check2 w k b c fits hw hroom => exact hs.goto rfl
  | unlock2 w k b c fits hw =>
      apply Alone.goto (s := s.setOwner c none) hs
      split <;> rfl
  | append w k b hl hw => exact Alone.goto (s := s.append k) hs rfl
  | unlock w k b written hw =>
      apply Alone.goto (s := s.setOwner b none) hs
      split <;> rfl
  | logSwap r cv q => exact hs
  | clear r cv q => exact hs

theorem rereads_eq {p : Pc} (h : p.rereads = true) : ∃ l b, p = .reread l b := by
  cases p with
  | reread l b => exact ⟨l, b, rfl⟩
  | _ => cases h

theorem not_alone_of_reread {s s' : State} {l : Label} (hpar : Parity s) (hok : ¬ secondRead s l)
    (h : step s l = some s') : ¬ Alone s' := by
  cases l with
  | caller w =>
      obtain ⟨hr, hok⟩ := Classical.not_imp.mp hok
      obtain ⟨k, b, hw⟩ := rereads_eq hr
      simp only [step, callerStep, hw, Option.some.injEq] at h
      subst h
      intro hal
      have hwl : (s.goto w (.lock2 k b s.active)).writer w = .lock2 k b s.active := Function.update_self ..
      apply hok
      constructor
      · exact (hpar.active_ne_iff (by rw [hw]; rfl)).mp (hal.1 w k b s.active hwl)
      · intro v _ hv
        by_contra hat
        apply hv
        refine hal.2 v w ?_ (by rw [hwl]; rfl)
        rw [State.goto_writer, Function.update_of_ne hv]
        exact eq_true_of_ne_false hat
  | _ => exact absurd trivial hok

/-! ### Whole runs -/

/-- What holds in every reachable state, whatever the order of the steps. -/
def LockInv (s : State) : Prop := Bounded s ∧ Locked s ∧ Parity s

theorem lockInv_init (capacity callers : ℕ) : LockInv (init capacity callers) :=
  ⟨bounded_init capacity callers, locked_init capacity callers, parity_init capacity callers⟩

theorem lockInv_step {s s' : State} {l : Label} (hs : LockInv s) (h : step s l = some s') : LockInv s' :=
  ⟨bounded_step hs.1 h, locked_step hs.2.1 h, parity_step hs.2.2 h⟩

theorem alone_init (capacity callers : ℕ) : Alone (init capacity callers) :=
  ⟨nofun, nofun⟩

/-- **When `WriteLog` blocks on itself.**  For every capacity, every number of calling threads and
every interleaving: in all states of the run no call waits at `lock2` for a mutex it holds and no
calls wait for one another in a cycle, if and only if each call of the run that evaluates
`active_buffer_` for `lock2` does so after an odd number of swaps since its first evaluation,
and while no other call waits for its `lock2`. -/
theorem deadlockFree_iff (capacity callers : ℕ) (ls : List Label) (s : State)
    (h : run step (init capacity callers) ls = some s) :
    (∀ ls₁ s₁, ls₁ <+: ls → run step (init capacity callers) ls₁ = some s₁ → DeadlockFree s₁) ↔
      Along step secondRead (init capacity callers) ls := by
  refine always_iff_along (I := LockInv) ?_ ?_ ?_ (lockInv_init capacity callers) ?_ h
  · intro s l s' hI hs
    exact lockInv_step hI hs
  · intro s l s' hI hfree hok hs
    have hal := (deadlockFree_iff_alone hI.2.1.1).mp hfree
    exact (deadlockFree_iff_alone (lockInv_step hI hs).2.1.1).mpr (alone_step hI.1 hI.2.2 hal hok hs)
  · intro s l s' hI hok hs hfree
    have hal := (deadlockFree_iff_alone (lockInv_step hI hs).2.1.1).mp hfree
    exact not_alone_of_reread hI.2.2 hok hs hal
  · exact (deadlockFree_iff_alone (owned_init capacity callers)).mpr (alone_init capacity callers)

/-- The second line of the first thread overflows; the second thread waits for the mutex of the
buffer that was active when it entered. -/
def overflowRun : List Label :=
  [.call 0 ⟨600000, false⟩, .caller 0, .caller 0, .caller 0, .caller 0, .caller 0,
    .call 0 ⟨600000, false⟩, .caller 0, .caller 0, .call 1 ⟨80, false⟩, .caller 1, .caller 0, .caller 0, .caller 0,
    .caller 0, .caller 0, .caller 0]

theorem deadlockFree_overflowRun : ∃ s, run step (init (1024 * 1024) 2) overflowRun = some s ∧
    s.writer 0 = .lock2 ⟨600000, false⟩ false true ∧ waitsFor s 1 0 ∧ DeadlockFree s := by
  obtain ⟨s, hrun, h1, h2, h3⟩ := exists_of_any (o := run step (init (1024 * 1024) 2) overflowRun)
    (fun s => s.writer 0 = .lock2 ⟨600000, false⟩ false true ∧ (s.writer 1).wants = some false ∧
      s.owner false = some 0) (by decide +kernel)
  have hall := (deadlockFree_iff (1024 * 1024) 2 overflowRun s hrun).mpr (by decide +kernel)
  exact ⟨s, hrun, h1, ⟨false, h2, h3⟩, hall overflowRun s (List.prefix_refl _) hrun⟩

/-- One thread; its second line overflows, and the log thread that it has notified swaps before it
evaluates `active_buffer_` again. -/
def selfLockRun : List Label :=
  [.call 0 ⟨600000, false⟩, .caller 0, .caller 0, .caller 0, .caller 0, .caller 0, .log, .log, .log,
    .call 0 ⟨600000, false⟩, .caller 0, .caller 0, .caller 0, .caller 0, .caller 0, .caller 0, .caller 0,
    .log, .log, .caller 0]

/-- Two threads that overflow; the log thread has swapped between their entries. -/
def cycleRun : List Label :=
  [.call 0 ⟨600000, false⟩, .caller 0, .caller 0, .caller 0, .caller 0, .caller 0,
    .call 0 ⟨600000, false⟩, .caller 0, .caller 0, .caller 0,
    .log, .log, .log, .timeout, .log, .log, .log, .log, .log,
    .call 1 ⟨1100000, false⟩, .caller 1, .caller 1, .caller 1, .caller 1, .caller 1, .caller 1, .caller 1, .caller 1,
    .caller 0, .caller 0, .caller 0, .caller 0, .caller 0]

/-- A call waits for the mutex it holds, and two calls wait for each other. -/
theorem blocks_on_itself :
    (¬ ∀ (capacity callers : ℕ) (ls : List Label) (s : State),
      run step (init capacity callers) ls = some s → DeadlockFree s) ∧
    ∃ s, run step (init (1024 * 1024) 2) cycleRun = some s ∧ waitsFor s 0 1 ∧ waitsFor s 1 0 := by
  constructor
  · intro hall
    obtain ⟨s, hrun, hw, ho⟩ := exists_of_any (o := run step (init (1024 * 1024) 1) selfLockRun)
      (fun s => s.writer 0 = .lock2 ⟨600000, false⟩ false false ∧ s.owner false = some 0) (by decide +kernel)
    exact (hall (1024 * 1024) 1 selfLockRun s hrun).1 0 _ _ _ hw ho
  · obtain ⟨s, hrun, h1, h2, h3, h4⟩ := exists_of_any (o := run step (init (1024 * 1024) 2) cycleRun)
      (fun s => (s.writer 0).wants = some true ∧ s.owner true = some 1 ∧
        (s.writer 1).wants = some false ∧ s.owner false = some 0) (by decide +kernel)
    exact ⟨s, hrun, ⟨true, h1, h2⟩, ⟨false, h3, h4⟩⟩

end LogSteps

end TcpServer
