import TcpServer.Lifecycle
import Mathlib.Data.Int.CardIntervalMod

/-! # How connections are dealt out to the loops

`GetNextEventLoop` hands out the loops in turn.  Only an `AddConnection` that succeeds is followed by
it, so rejected clients do not shift the turn, and `next_loop_idx_` is used by the main thread alone.

`balanced_of_reach`: whatever is accepted, rejected, timed out or closed in between, the client admitted
after `k` others belongs to loop `k mod loops`, so each loop has been given its exact share of all
clients admitted so far, and no loop has been given two more than another. -/

namespace TcpServer

namespace Sys

open World Transition

/-- The clients admitted among the first `n` accepted ones. -/
def admissions (s : Sys) (n : ℕ) : ℕ := Nat.count (fun x => s.admitted x = true) n

/-- The clients given to loop `i`, among all accepted ones. -/
def share (s : Sys) (i : ℕ) : ℕ := Nat.count (fun x => s.admitted x = true ∧ s.owner x = i) s.world.accepted

/-- Loops are handed out in turn. -/
structure Dealt (s : Sys) : Prop where
  next : s.nextLoopIdx = s.admissions s.world.accepted % s.loops
  owner : ∀ x, s.admitted x = true → s.owner x = s.admissions x % s.loops
  loops : 0 < s.loops

section dealt

variable {s s' : Sys} {l : Label}

theorem dealt_init (maxConnections : ℕ) (heartbeatTimeoutMs : ℤ) (threadNum : ℕ) :
    Dealt (init maxConnections heartbeatTimeoutMs threadNum) := by
  refine ⟨?_, ?_, ?_⟩
  · exact (Nat.zero_mod _).symm
  · intro x hx
    cases hx
  · unfold init
    simp only []
    split_ifs with h
    · exact Nat.one_pos
    · exact Nat.pos_of_ne_zero h

/-- Steps that neither accept nor admit. -/
theorem Dealt.keeps (h : Dealt s) (hacc : s'.world.accepted = s.world.accepted) (hadm : s'.admitted = s.admitted)
    (hown : s'.owner = s.owner) (hnext : s'.nextLoopIdx = s.nextLoopIdx) (hl : s'.loops = s.loops) : Dealt s' := by
  have hcount : s'.admissions = s.admissions := by
    funext n
    unfold admissions
    rw [hadm]
  refine ⟨?_, ?_, ?_⟩
  · rw [hcount, hacc, hnext, hl]
    exact h.next
  · intro x hx
    rw [hadm] at hx
    rw [hcount, hown, hl]
    exact h.owner x hx
  · rw [hl]
    exact h.loops

/-- A client just accepted is not admitted yet. -/
theorem dealt_accept {n : ℤ} (hc : Core s) (h : Dealt s) :
    Dealt ((s.setWorld (s.world.newClient n)).goto .main (.add n s.world.accepted)) := by
  have hnew : s.admitted s.world.accepted = false := by
    by_contra hadm
    exact absurd (hc.life _ (by simpa using hadm)).1 (Nat.lt_irrefl _)
  refine ⟨?_, h.owner, h.loops⟩
  show s.nextLoopIdx = Nat.count (fun x => s.admitted x = true) (s.world.accepted + 1) % s.loops
  rw [Nat.count_succ, if_neg (by rw [hnew]; decide)]
  exact h.next

/-- `AddConnection` takes in the client accepted last, and `GetNextEventLoop` goes on by one. -/
theorem dealt_add {n : ℤ} {x : ℕ} {pool : ConnectionPool} (hc : Core s) (h : Dealt s)
    (hpc : s.pc .main = .add n x) : Dealt (s.addStep n x pool) := by
  obtain ⟨-, hnewest, hout, -⟩ := hc.pcAt hpc
  have hlast : x + 1 = s.world.accepted := hnewest.last
  have hbelow : ∀ m : ℕ, m ≤ x → (s.addStep n x pool).admissions m = s.admissions m := by
    intro m hm
    unfold admissions
    induction m with
    | zero => rfl
    | succ m ih =>
        have hne : m ≠ x := by omega
        rw [Nat.count_succ, Nat.count_succ, ih (by omega)]
        simp [hne]
  have htop : s.admissions s.world.accepted = s.admissions x := by
    unfold admissions
    rw [← hlast, Nat.count_succ, if_neg (by rw [hout]; decide), Nat.add_zero]
  refine ⟨?_, ?_, h.loops⟩
  · have hsucc : (s.addStep n x pool).admissions s.world.accepted = s.admissions x + 1 := by
      rw [← hlast]
      unfold admissions at hbelow ⊢
      rw [Nat.count_succ, hbelow x (Nat.le_refl x)]
      simp
    show (s.nextLoopIdx + 1) % s.loops = (s.addStep n x pool).admissions s.world.accepted % s.loops
    rw [hsucc, h.next, htop, Nat.mod_add_mod]
  · intro (y : ℕ) hy
    show Function.update s.owner x s.nextLoopIdx y = (s.addStep n x pool).admissions y % s.loops
    by_cases hyx : y = x
    · subst hyx
      rw [Function.update_self, hbelow y (Nat.le_refl y), h.next, htop]
    · have hadm : s.admitted y = true := by simpa [hyx] using hy
      have hlt : y < s.world.accepted := (hc.life y hadm).1
      rw [Function.update_of_ne hyx, hbelow y (by omega)]
      exact h.owner y hadm

theorem dealt_step (hc : Core s) (h : Dealt s) (hs : step s l = some s') : Dealt s' := by
  obtain ⟨-, -, he⟩ := step_effect hs
  cases he with
  | accept hl hpc hn hfree => exact dealt_accept hc h
  | add hl hpc hlock hadd => exact dealt_add hc h hpc
  | quiet hi ht hq => exact h.keeps hq.core.accepted rfl rfl rfl rfl
  | rejectDrop hpc => exact h.keeps (closeConn_accepted _ _) rfl rfl rfl rfl
  | shutdown hpc hj hlock => exact h.keeps hc.closesAll.1.accepted rfl rfl rfl rfl
  | _ => exact h.keeps rfl rfl rfl rfl rfl

/-- Counting the clients of one loop is counting turns. -/
theorem count_turns (p : ℕ → Prop) [DecidablePred p] (L i n : ℕ) :
    Nat.count (fun x => p x ∧ Nat.count p x % L = i) n = Nat.count (fun k => k % L = i) (Nat.count p n) := by
  induction n with
  | zero => rfl
  | succ n ih =>
      rw [Nat.count_succ, Nat.count_succ p, ih]
      by_cases hp : p n
      · rw [if_pos hp, Nat.count_succ]
        simp [hp]
      · simp [hp]

theorem Dealt.share_eq (h : Dealt s) {i : ℕ} (hi : i < s.loops) :
    s.share i = s.admissions s.world.accepted / s.loops +
      if i < s.admissions s.world.accepted % s.loops then 1 else 0 := by
  have hown : s.share i = Nat.count (fun x => s.admitted x = true ∧
      Nat.count (fun y => s.admitted y = true) x % s.loops = i) s.world.accepted := by
    unfold share
    congr 1
    funext x
    refine propext (and_congr_right fun hx => ?_)
    rw [h.owner x hx]
    rfl
  have hturns := Nat.count_modEq_card (s.admissions s.world.accepted) h.loops i
  rw [Nat.mod_eq_of_lt hi] at hturns
  rw [hown, count_turns, ← hturns]
  congr 1
  funext k
  unfold Nat.ModEq
  rw [Nat.mod_eq_of_lt hi]

/-- **Connections are dealt out evenly.**  In every state of every run, the client admitted after `k`
others belongs to loop `k mod loops`, and the shares of the loops differ by one at most. -/
theorem balanced_of_reach {maxConnections threadNum : ℕ} {heartbeatTimeoutMs : ℤ}
    (h : Reach step always (init maxConnections heartbeatTimeoutMs threadNum) s) :
    (∀ x, s.admitted x = true → s.owner x = s.admissions x % s.loops) ∧
      (∀ i < s.loops, s.share i = s.admissions s.world.accepted / s.loops +
        if i < s.admissions s.world.accepted % s.loops then 1 else 0) ∧
      ∀ i < s.loops, ∀ j < s.loops, s.share i ≤ s.share j + 1 := by
  have hinv := h.invariant (fun s => Core s ∧ Dealt s) ⟨core_init _ _ _, dealt_init _ _ _⟩
    (fun _ _ _ hI _ hs => ⟨core_step hI.1 hs, dealt_step hI.1 hI.2 hs⟩)
  refine ⟨hinv.2.owner, fun i hi => hinv.2.share_eq hi, ?_⟩
  intro i hi j hj
  rw [hinv.2.share_eq hi, hinv.2.share_eq hj]
  split_ifs <;> omega

end dealt

/-- Four clients on two loops and room for two: the third is rejected, and the second has been removed
before the fourth comes under its number. -/
def dealtRun : List Label :=
  [.accept 5, .main, .main, .accept 6, .main, .main, .accept 7, .main, .main, .main, .tick 60001, .scan [6, 5],
    .heartbeat, .heartbeat, .heartbeat, .heartbeat, .heartbeat, .heartbeat, .heartbeat, .accept 6, .main, .main]

theorem dealtRun_balanced :
    ∃ s, run step (init 2 60000 2) dealtRun = some s ∧ s.admissions 4 = 3 ∧ s.owner 3 = 0 ∧
      ∀ i < s.loops, ∀ j < s.loops, s.share i ≤ s.share j + 1 := by
  obtain ⟨s, hs, hadm, hown⟩ := exists_of_any (o := run step (init 2 60000 2) dealtRun)
    (fun s => s.admissions 4 = 3 ∧ s.owner 3 = 0) (by decide +kernel)
  exact ⟨s, hs, hadm, hown, (balanced_of_reach (reach_of_run hs)).2.2⟩

end Sys

end TcpServer
