import TcpServer.Lifecycle
import TcpServer.Potential

/-! # The threads get their work done

The main thread in `HandleAccept`, the IO loops in `HandleEvents` and the heartbeat thread in a sweep
work without waiting for one another, except for the mutex of the pool.  `rank` counts the steps a
thread has at most before it stands between two iterations again, whatever the others do in the
meantime; only a `recv` that returns data sets a handler back, by two steps.

`works_off`: from every state the server reaches, whatever the scheduler does, the threads make at
most `remaining` steps and three for every `recv` with data before something new has to come from outside; and
where no thread can move, no thread is in the middle of anything, the batches and the sweep are empty
and the mutex is free.  So nobody waits for the mutex for ever, and `IOThreadPool::Stop` and
`StopHeartbeatCheck` join threads that come to the end of their iterations. -/

namespace TcpServer

namespace Pc

/-- The steps a thread has at most to the end of its iteration, when no more data comes. -/
def rank : Pc → ℕ
  | .idle => 0
  | .add _ _ => 3
  | .rejectClose _ _ => 2
  | .rejectDrop _ _ => 1
  | .addFd _ _ _ => 1
  | .recvState _ _ => 17
  | .recvFd _ _ => 16
  | .recvSys _ _ _ => 15
  | .recvMark _ _ => 10
  | .echo _ _ => 14
  | .sendState _ _ _ => 13
  | .sendFd _ _ _ => 12
  | .sendSys _ _ _ _ => 11
  | .sendMark _ _ _ _ => 10
  | .touch _ _ => 2
  | .rearm _ _ => 1
  | .errorLookup _ => 9
  | .errorDel _ => 8
  | .remove _ => 7
  | .closing _ _ .load => 6
  | .closing _ _ .store => 5
  | .closing _ _ .fd => 4
  | .closing _ _ (.sys _) => 3
  | .closing _ _ .clear => 2
  | .erase _ _ => 1

/-- Points of `HandleAccept`. -/
def accepting : Pc → Bool
  | .idle | .add _ _ | .rejectClose _ _ | .rejectDrop _ _ | .addFd _ _ _ => true
  | _ => false

/-- Points of a sweep. -/
def sweeping : Pc → Bool
  | .idle | .closing _ _ _ | .erase _ _ => true
  | _ => false

end Pc

/-- Steps of the threads themselves; the others bring in new clients, events and sweeps. -/
def Label.internal : Label → Bool
  | .main | .loop _ | .recv _ _ | .send _ _ | .heartbeat => true
  | _ => false

/-- `recv` returns data. -/
def Label.receives : Label → Bool
  | .recv _ (.data _) => true
  | _ => false

namespace Sys

open World Transition

/-- What thread `t` has still to do. -/
def load (s : Sys) : Thread → ℕ
  | .main => (s.pc .main).rank
  | .loop i => (s.pc (.loop i)).rank + 18 * (s.batch i).length
  | .heartbeat => (s.pc .heartbeat).rank + 7 * s.sweep.length

/-- The process can still end by an exception. -/
def alive (s : Sys) : ℕ := if s.world.crashed then 0 else 1

/-- What all threads have still to do. -/
def remaining (s : Sys) : ℕ :=
  s.load .main + s.load .heartbeat + ∑ i ∈ Finset.range s.loops, s.load (.loop i) + s.alive

/-- No thread is in the middle of anything. -/
def Settled (s : Sys) : Prop := s.lock = none ∧ s.pc .main = .idle ∧ s.joined

/-! ### What a step brings down -/

/-- Thread `t` moves by itself, and its load goes down, up to `c`; or the process ends. -/
inductive Moves (s : Sys) (t : Thread) (c : ℕ) (s' : Sys) : Prop
  | work : s'.loops = s.loops → (∀ u, u ≠ t → s'.load u = s.load u) → s'.load t + 1 ≤ s.load t + c →
      Moves s t c s'
  | crash : s'.loops = s.loops → s'.load = s.load → s'.world.crashed = true → Moves s t c s'

section moves

variable {s s' : Sys} {t : Thread} {i c : ℕ} {p : Pc}

/-- The load of a thread is made of its place, its batch and, for the heartbeat, the sweep. -/
theorem load_congr {u : Thread} (hpc : s'.pc u = s.pc u) (hb : s'.batch = s.batch) (hsw : s'.sweep = s.sweep) :
    s'.load u = s.load u := by
  cases u with
  | main => rw [load, load, hpc]
  | loop i => rw [load, load, hpc, hb]
  | heartbeat => rw [load, load, hpc, hsw]

/-- A thread goes on to a place of lower rank. -/
theorem moves_goto (hl : s'.loops = s.loops) (hpc : s'.pc = Function.update s.pc t p)
    (hb : s'.batch = s.batch) (hsw : s'.sweep = s.sweep) (hrank : p.rank + 1 ≤ (s.pc t).rank + c) :
    Moves s t c s' := by
  refine .work hl ?_ ?_
  · intro u hu
    exact load_congr (by rw [hpc, Function.update_of_ne hu]) hb hsw
  · cases t with
    | main =>
        rw [load, load, hpc, Function.update_self]
        exact hrank
    | loop i =>
        rw [load, load, hpc, Function.update_self, hb]
        omega
    | heartbeat =>
        rw [load, load, hpc, Function.update_self, hsw]
        omega

theorem moves_down {q : Pc} (hq : s.pc t = q) (hl : s'.loops = s.loops) (hpc : s'.pc = Function.update s.pc t p)
    (hb : s'.batch = s.batch) (hsw : s'.sweep = s.sweep) (hrank : p.rank < q.rank) : Moves s t c s' := by
  apply moves_goto hl hpc hb hsw
  rw [hq]
  omega

theorem moves_crash : Moves s t c (s.setWorld s.world.crash) := by
  refine .crash rfl ?_ rfl
  funext u
  exact load_congr rfl rfl rfl

/-- The next event of the batch is taken, and its handler has at most seventeen steps to go. -/
theorem moves_event {n : ℤ} {ev : Events} {rest : List (ℤ × Events)} (hl : s'.loops = s.loops)
    (hb : s.batch i = (n, ev) :: rest) (hb' : s'.batch = Function.update s.batch i rest)
    (hpc : s'.pc = Function.update s.pc (.loop i) p) (hsw : s'.sweep = s.sweep) (hrank : p.rank ≤ 17) :
    Moves s (.loop i) c s' := by
  refine .work hl ?_ ?_
  · intro u hu
    cases u with
    | main => rw [load, load, hpc, Function.update_of_ne hu]
    | loop j =>
        have hj : j ≠ i := fun h => hu (by rw [h])
        rw [load, load, hpc, Function.update_of_ne hu, hb', Function.update_of_ne hj]
    | heartbeat => rw [load, load, hpc, Function.update_of_ne hu, hsw]
  · rw [load, load, hpc, Function.update_self, hb', Function.update_self, hb, List.length_cons]
    omega

theorem moves_mainStep (h : s.mainStep = some s') : Moves s .main c s' := by
  unfold mainStep at h
  split at h
  · next n x hpc =>
      split_ifs at h
      split at h
      · cases h
        exact moves_down hpc rfl rfl rfl rfl (by simp [Pc.rank])
      · cases h
        exact moves_down hpc rfl rfl rfl rfl (by simp [Pc.rank])
  · next n x hpc =>
      cases h
      exact moves_down hpc rfl rfl rfl rfl (by simp [Pc.rank])
  · next n x hpc =>
      cases h
      exact moves_down hpc rfl rfl rfl rfl (by simp [Pc.rank])
  · next n x j hpc =>
      split at h
      · cases h
        exact moves_down hpc rfl rfl rfl rfl (by simp [Pc.rank])
      · cases h
        exact moves_crash
  · cases h

theorem moves_closeStep {n : ℤ} {x : Client} {k : ClosePoint} (hpc : s.pc t = .closing n x k) :
    Moves s t c (s.closeStep t n x k) := by
  unfold closeStep
  cases k with
  | load =>
      simp only []
      split_ifs
      · exact moves_down hpc rfl rfl rfl rfl (by simp [Pc.rank])
      · exact moves_down hpc rfl rfl rfl rfl (by simp [Pc.rank])
  | store => exact moves_down hpc rfl rfl rfl rfl (by simp [Pc.rank])
  | fd =>
      simp only []
      split_ifs
      · exact moves_down hpc rfl rfl rfl rfl (by simp [Pc.rank])
      · exact moves_down hpc rfl rfl rfl rfl (by simp [Pc.rank])
  | sys m => exact moves_down hpc rfl rfl rfl rfl (by simp [Pc.rank])
  | clear => exact moves_down hpc rfl rfl rfl rfl (by simp [Pc.rank])

theorem moves_eraseStep {n : ℤ} {x : Client} (hpc : s.pc t = .erase n x) : Moves s t c (s.eraseStep t n x) :=
  moves_down hpc rfl rfl rfl rfl (by simp [Pc.rank])

theorem moves_heartbeatStep (h : s.heartbeatStep = some s') : Moves s .heartbeat c s' := by
  unfold heartbeatStep at h
  split at h
  · next hpc =>
      split at h
      · cases h
      · next n rest hsw =>
          have hload : ∀ (q : Pc) (s'' : Sys), q.rank ≤ 6 → s''.loops = s.loops → s''.batch = s.batch →
              s''.pc = Function.update s.pc .heartbeat q → s''.sweep = rest → Moves s .heartbeat c s'' := by
            intro q s'' hq hl hb hpc' hsw'
            refine .work hl ?_ ?_
            · intro u hu
              cases u with
              | main => rw [load, load, hpc', Function.update_of_ne hu]
              | loop j => rw [load, load, hpc', Function.update_of_ne hu, hb]
              | heartbeat => exact absurd rfl hu
            · rw [load, load, hpc', Function.update_self, hsw', hsw, List.length_cons]
              omega
          unfold beginRemove at h
          split_ifs at h
          split at h
          · cases h
            exact hload .idle _ (by simp [Pc.rank]) rfl rfl rfl rfl
          · next x hx =>
              cases h
              exact hload (.closing n x .load) _ (by simp [Pc.rank]) rfl rfl rfl rfl
  · next n x k hpc =>
      cases h
      exact moves_closeStep hpc
  · next n x hpc =>
      cases h
      exact moves_eraseStep hpc
  · cases h

/-! ### The loops -/

theorem rank_afterSend (n : ℤ) (x : Client) (k : Handler) : (afterSend n x k).rank ≤ 2 := by
  cases k with
  | read => simp [afterSend, Pc.rank]
  | write => simp [afterSend, Pc.rank]

theorem rank_afterSendError (n : ℤ) (x : Client) (e : Errno) (k : Handler) :
    (afterSendError n x e k).rank ≤ 9 := by
  cases k with
  | read =>
      unfold afterSendError
      split_ifs <;> simp [Pc.rank]
  | write =>
      unfold afterSendError
      split_ifs <;> simp [Pc.rank]

theorem moves_eventStep (hpc : s.pc (.loop i) = .idle) (h : s.eventStep i = some s') :
    Moves s (.loop i) c s' := by
  have hstay : s.pc = Function.update s.pc (.loop i) .idle := by rw [← hpc, Function.update_eq_self]
  unfold eventStep at h
  split at h
  · cases h
  · next n ev rest hb =>
      simp only [] at h
      split_ifs at h with herr hio hlock hin
      · cases h
        exact moves_event rfl hb rfl rfl rfl (by simp [Pc.rank])
      · split at h
        · cases h
          exact moves_event rfl hb rfl hstay rfl (by simp [Pc.rank])
        · cases h
          exact moves_event rfl hb rfl rfl rfl (by simp [Pc.rank])
      · split at h
        · cases h
          exact moves_event rfl hb rfl hstay rfl (by simp [Pc.rank])
        · cases h
          exact moves_event rfl hb rfl rfl rfl (by simp [Pc.rank])
      · cases h
        exact moves_event rfl hb rfl hstay rfl (by simp [Pc.rank])

theorem moves_beginRemove {n : ℤ} (hpc : s.pc t = .remove n) (h : s.beginRemove t n = some s') :
    Moves s t c s' := by
  unfold beginRemove at h
  split_ifs at h
  split at h
  · cases h
    exact moves_down hpc rfl rfl rfl rfl (by simp [Pc.rank])
  · cases h
    exact moves_down hpc rfl rfl rfl rfl (by simp [Pc.rank])

theorem moves_loopStep (h : s.loopStep i = some s') : Moves s (.loop i) c s' := by
  cases hpc : s.pc (.loop i) with
  | idle =>
      simp only [loopStep, hpc] at h
      exact moves_eventStep hpc h
  | recvState n x =>
      simp only [loopStep, hpc] at h
      split_ifs at h
      · cases h
        exact moves_down hpc rfl rfl rfl rfl (by simp [Pc.rank])
      · cases h
        exact moves_down hpc rfl rfl rfl rfl (by simp [Pc.rank])
      · cases h
        exact moves_down hpc rfl rfl rfl rfl (by simp [Pc.rank])
  | recvFd n x =>
      simp only [loopStep, hpc] at h
      cases h
      exact moves_down hpc rfl rfl rfl rfl (by simp [Pc.rank])
  | recvMark n x =>
      simp only [loopStep, hpc] at h
      cases h
      exact moves_down hpc rfl rfl rfl rfl (by simp [Pc.rank])
  | echo n x =>
      simp only [loopStep, hpc] at h
      split_ifs at h
      · cases h
        exact moves_down hpc rfl rfl rfl rfl (by simp [Pc.rank])
      · cases h
        exact moves_down hpc rfl rfl rfl rfl (by simp [Pc.rank])
  | sendState k n x =>
      simp only [loopStep, hpc] at h
      split_ifs at h
      · cases h
        refine moves_down hpc rfl rfl rfl rfl ?_
        exact Nat.lt_of_le_of_lt (rank_afterSendError n x _ k) (by simp [Pc.rank])
      · cases h
        refine moves_down hpc rfl rfl rfl rfl ?_
        exact Nat.lt_of_le_of_lt (rank_afterSend n x k) (by simp [Pc.rank])
      · cases h
        exact moves_down hpc rfl rfl rfl rfl (by simp [Pc.rank])
  | sendFd k n x =>
      simp only [loopStep, hpc] at h
      cases h
      exact moves_down hpc rfl rfl rfl rfl (by simp [Pc.rank])
  | sendMark k n x zero =>
      simp only [loopStep, hpc] at h
      cases h
      refine moves_down hpc rfl rfl rfl rfl ?_
      split_ifs
      · exact Nat.lt_of_le_of_lt (rank_afterSend n x k) (by simp [Pc.rank])
      · simp [Pc.rank]
  | touch n x =>
      simp only [loopStep, hpc] at h
      cases h
      exact moves_down hpc rfl rfl rfl rfl (by simp [Pc.rank])
  | rearm n x =>
      simp only [loopStep, hpc] at h
      split at h
      · cases h
        exact moves_down hpc rfl rfl rfl rfl (by simp [Pc.rank])
      · cases h
        exact moves_crash
  | errorLookup n =>
      simp only [loopStep, hpc] at h
      split_ifs at h
      cases h
      exact moves_down hpc rfl rfl rfl rfl (by simp [Pc.rank])
  | errorDel n =>
      simp only [loopStep, hpc] at h
      split at h
      · cases h
        exact moves_down hpc rfl rfl rfl rfl (by simp [Pc.rank])
      · cases h
        exact moves_crash
  | remove n =>
      simp only [loopStep, hpc] at h
      exact moves_beginRemove hpc h
  | closing n x k =>
      simp only [loopStep, hpc] at h
      cases h
      exact moves_closeStep hpc
  | erase n x =>
      simp only [loopStep, hpc] at h
      cases h
      exact moves_eraseStep hpc
  | _ =>
      simp only [loopStep, hpc] at h
      cases h

/-- A `recv` that returns data takes the handler back to the test of `state_`. -/
theorem moves_recvStep {r : RecvResult UInt8} (h : s.recvStep i r = some s') :
    Moves s (.loop i) (if Label.receives (.recv i r) then 3 else 0) s' := by
  unfold recvStep at h
  split at h
  · next n x m hpc =>
      simp only [] at h
      split at h
      · next bs hbs =>
          split_ifs at h
          cases h
          have hdata : Label.receives (.recv i r) = true := by
            cases r with
            | data bs => rfl
            | eof => unfold sysRecv tag at hbs; split_ifs at hbs
            | error e => unfold sysRecv tag at hbs; split_ifs at hbs
          refine moves_goto (p := .recvState n x) rfl rfl rfl rfl ?_
          rw [hpc, hdata]
          simp [Pc.rank]
      · cases h
        exact moves_down hpc rfl rfl rfl rfl (by simp [Pc.rank])
      · cases h
        refine moves_down hpc rfl rfl rfl rfl ?_
        split_ifs <;> simp [Pc.rank]
  · cases h

theorem moves_sendStep {r : SendResult} (h : s.sendStep i r = some s') : Moves s (.loop i) c s' := by
  unfold sendStep at h
  split at h
  · next k n x m hpc =>
      simp only [] at h
      split at h
      · split_ifs at h
        cases h
        refine moves_down hpc rfl rfl rfl rfl ?_
        exact Nat.lt_of_le_of_lt (rank_afterSend n x k) (by simp [Pc.rank])
      · cases h
        exact moves_down hpc rfl rfl rfl rfl (by simp [Pc.rank])
      · cases h
        refine moves_down hpc rfl rfl rfl rfl ?_
        split_ifs
        · exact Nat.lt_of_le_of_lt (rank_afterSendError n x _ k) (by simp [Pc.rank])
        · simp [Pc.rank]
  · cases h

end moves

section progress

variable {s s' : Sys} {l : Label} {t : Thread} {p : Pc}

/-- Every step of a thread brings its load down. -/
theorem step_moves (hl : l.internal = true) (h : step s l = some s') :
    s.world.crashed = false ∧ s.stopped = false ∧ ∃ t, (∀ i, t = .loop i → i < s.loops) ∧
      Moves s t (if l.receives then 3 else 0) s' := by
  unfold step at h
  split_ifs at h with hend
  simp only [Bool.or_eq_true, not_or, Bool.not_eq_true] at hend
  refine ⟨hend.1, hend.2, ?_⟩
  cases l with
  | main => exact ⟨.main, by simp, moves_mainStep h⟩
  | loop i =>
      simp only [] at h
      split_ifs at h with hi
      exact ⟨.loop i, by rintro j ⟨⟩; exact hi, moves_loopStep h⟩
  | recv i r =>
      simp only [] at h
      split_ifs at h with hi
      exact ⟨.loop i, by rintro j ⟨⟩; exact hi, moves_recvStep h⟩
  | send i r =>
      simp only [] at h
      split_ifs at h with hi
      exact ⟨.loop i, by rintro j ⟨⟩; exact hi, moves_sendStep h⟩
  | heartbeat => exact ⟨.heartbeat, by simp, moves_heartbeatStep h⟩
  | tick t => cases hl
  | accept n => cases hl
  | wait i evs => cases hl
  | scan fds => cases hl
  | shutdown => cases hl

theorem remaining_step (hl : l.internal = true) (h : step s l = some s') :
    s'.remaining + 1 ≤ s.remaining + if l.receives then 3 else 0 := by
  obtain ⟨halive, -, t, ht, hm⟩ := step_moves hl h
  have hone : s.alive = 1 := by rw [alive, halive, if_neg Bool.false_ne_true]
  have hle : s'.alive ≤ 1 := by
    unfold alive
    split_ifs <;> omega
  unfold remaining
  cases hm with
  | crash hloops hload hcrash =>
      have hzero : s'.alive = 0 := by rw [alive, hcrash, if_pos rfl]
      rw [hloops, hload]
      omega
  | work hloops hne hdrop =>
      rw [hloops]
      cases t with
      | main =>
          have hsum : ∑ i ∈ Finset.range s.loops, s'.load (.loop i) =
              ∑ i ∈ Finset.range s.loops, s.load (.loop i) :=
            Finset.sum_congr rfl fun i _ => hne (.loop i) (by simp)
          rw [hsum, hne .heartbeat (by simp)]
          omega
      | heartbeat =>
          have hsum : ∑ i ∈ Finset.range s.loops, s'.load (.loop i) =
              ∑ i ∈ Finset.range s.loops, s.load (.loop i) :=
            Finset.sum_congr rfl fun i _ => hne (.loop i) (by simp)
          rw [hsum, hne .main (by simp)]
          omega
      | loop i =>
          have hsum := sum_step_le (f := fun j => s.load (.loop j)) (g := fun j => s'.load (.loop j))
            (ht i rfl) (fun j hj => hne (.loop j) (by simpa using hj)) hdrop
          rw [hne .main (by simp), hne .heartbeat (by simp)]
          omega

/-! ### Where the threads can stand -/

/-- Every thread stands at a place of its own code, and who holds the mutex is in `RemoveConnection`. -/
structure Staffed (s : Sys) : Prop where
  main : (s.pc .main).accepting = true
  heartbeat : (s.pc .heartbeat).sweeping = true
  spare : ∀ i, s.loops ≤ i → s.pc (.loop i) = .idle ∧ s.batch i = []
  lock : ∀ t, s.lock = some t → (s.pc t).removes ≠ none

theorem staffed_init (maxConnections : ℕ) (heartbeatTimeoutMs : ℤ) (threadNum : ℕ) :
    Staffed (init maxConnections heartbeatTimeoutMs threadNum) :=
  ⟨rfl, rfl, fun _ _ => ⟨rfl, rfl⟩, fun _ h => by cases h⟩

/-- A loop that has something to do is one of the server's. -/
theorem Staffed.lt_loops {i : ℕ} (h : Staffed s) (hi : s.pc (.loop i) ≠ .idle ∨ s.batch i ≠ []) : i < s.loops := by
  by_contra hle
  obtain ⟨hidle, hempty⟩ := h.spare i (Nat.not_lt.mp hle)
  rcases hi with hi | hi
  · exact hi hidle
  · exact hi hempty

/-- A thread in `RemoveConnection` is a loop or the heartbeat thread. -/
theorem Staffed.removing (h : Staffed s) (hr : (s.pc t).removes ≠ none) :
    t ≠ .main ∧ ∀ i, t = .loop i → i < s.loops := by
  constructor
  · rintro rfl
    have hm := h.main
    revert hm hr
    cases s.pc .main <;> simp [Pc.removes, Pc.accepting]
  · rintro i rfl
    refine h.lt_loops (Or.inl ?_)
    intro hidle
    rw [hidle] at hr
    exact hr rfl

/-- Thread `t` goes on to a place of its own code. -/
theorem Staffed.moves (h : Staffed s) (hl : s'.loops = s.loops) (hpc : s'.pc = Function.update s.pc t p)
    (hb : ∀ i, s.batch i = [] → s'.batch i = [])
    (hlock : ∀ u, s'.lock = some u → s.lock = some u ∨ u = t) (hkeep : s'.lock = some t → p.removes ≠ none)
    (hmain : t = .main → p.accepting = true) (hheart : t = .heartbeat → p.sweeping = true)
    (hspare : ∀ i, t = .loop i → i < s.loops) : Staffed s' := by
  refine ⟨?_, ?_, ?_, ?_⟩
  · rcases pc_cases hpc .main with ⟨rfl, hm⟩ | ⟨-, hm⟩
    · rw [hm]
      exact hmain rfl
    · rw [hm]
      exact h.main
  · rcases pc_cases hpc .heartbeat with ⟨rfl, hm⟩ | ⟨-, hm⟩
    · rw [hm]
      exact hheart rfl
    · rw [hm]
      exact h.heartbeat
  · intro i hi
    rw [hl] at hi
    rcases pc_cases hpc (.loop i) with ⟨rfl, -⟩ | ⟨-, hm⟩
    · exact absurd (hspare i rfl) (Nat.not_lt.mpr hi)
    · rw [hm]
      exact ⟨(h.spare i hi).1, hb i (h.spare i hi).2⟩
  · intro u hu
    rcases pc_cases hpc u with ⟨rfl, hm⟩ | ⟨hne, hm⟩
    · rw [hm]
      exact hkeep hu
    · rw [hm]
      exact h.lock u ((hlock u hu).resolve_right hne)

/-- The same for a thread that does not hold the mutex and does not take it. -/
theorem Staffed.plain (h : Staffed s) (hl : s'.loops = s.loops) (hpc : s'.pc = Function.update s.pc t p)
    (hb : ∀ i, s.batch i = [] → s'.batch i = []) (hlock : s'.lock = s.lock) (hfree : (s.pc t).removes = none)
    (hmain : t = .main → p.accepting = true) (hheart : t = .heartbeat → p.sweeping = true)
    (hspare : ∀ i, t = .loop i → i < s.loops) : Staffed s' := by
  refine h.moves hl hpc hb (fun u hu => Or.inl (hlock ▸ hu)) ?_ hmain hheart hspare
  intro hu
  exact absurd hfree (h.lock t (hlock ▸ hu))

/-- A loop takes its next event. -/
theorem Staffed.event {i : ℕ} {n : ℤ} {ev : Events} {rest : List (ℤ × Events)} (h : Staffed s)
    (hpc : s.pc (.loop i) = .idle) (hb : s.batch i = (n, ev) :: rest) (hl : s'.loops = s.loops)
    (hpc' : s'.pc = Function.update s.pc (.loop i) p) (hb' : s'.batch = Function.update s.batch i rest)
    (hlock : s'.lock = s.lock) : Staffed s' := by
  refine h.plain hl hpc' ?_ hlock (by rw [hpc]; rfl) (by simp) (by simp) ?_
  · intro j hj
    rw [hb']
    by_cases hji : j = i
    · subst hji
      rw [hj] at hb
      cases hb
    · rw [Function.update_of_ne hji, hj]
  · rintro j ⟨⟩
    apply h.lt_loops
    right
    rw [hb]
    exact List.cons_ne_nil _ _

theorem staffed_step (h : Staffed s) (hs : step s l = some s') : Staffed s' := by
  obtain ⟨-, -, he⟩ := step_effect hs
  cases he with
  | tick _ | scan _ _ _ | crash _ => exact ⟨h.main, h.heartbeat, h.spare, h.lock⟩
  | shutdown _ _ _ => exact ⟨h.main, h.heartbeat, h.spare, h.lock⟩
  | @wait i evs hi hpc hb hd =>
      refine ⟨h.main, h.heartbeat, ?_, h.lock⟩
      intro j hj
      have hji : j ≠ i := by
        rintro rfl
        exact absurd hi (Nat.not_lt.mpr hj)
      rw [setBatch_batch, Function.update_of_ne hji]
      exact h.spare j hj
  | @skip i n ev rest hpc hb =>
      refine h.event (p := .idle) hpc hb rfl ?_ rfl rfl
      rw [← hpc, Function.update_eq_self]
      rfl
  | errorEvent hpc hb herr => exact h.event hpc hb rfl rfl rfl rfl
  | lookup hl hpc hb herr hlock hx hp => exact h.event hpc hb rfl rfl rfl rfl
  | quiet hi ht hq =>
      exact h.plain rfl rfl (fun _ => id) rfl (Pc.removes_of_not_busy hq.wasBusy) (by simp) (by simp)
        (by rintro j ⟨⟩; exact hi)
  | @mark i x p ht hm hh ho hcc hl hb =>
      refine h.plain rfl rfl (fun _ => id) rfl (Pc.removes_of_not_busy (Pc.busy_of_marks hm)) (by simp)
        (by simp) ?_
      rintro j ⟨⟩
      refine h.lt_loops (Or.inl ?_)
      intro hidle
      rw [hidle] at hm
      cases hm
  | del hpc =>
      refine h.plain rfl rfl (fun _ => id) rfl (by rw [hpc]; rfl) (by simp) (by simp) ?_
      rintro j ⟨⟩
      exact h.lt_loops (Or.inl (by rw [hpc]; simp))
  | @find t n x sweep ht hlock hx hb hsw =>
      refine h.moves rfl rfl (fun _ => id) (fun u hu => Or.inr (Option.some.inj hu).symm)
        (fun _ => by simp [Pc.removes]) ?_ (fun _ => rfl) ?_
      · rintro rfl
        rcases hsw with ⟨-, hpc, -⟩ | ⟨hne, -⟩
        · have hm := h.main
          rw [hpc] at hm
          cases hm
        · cases hne
      · rintro i rfl
        rcases hsw with ⟨-, hpc, -⟩ | ⟨hne, -⟩
        · exact h.lt_loops (Or.inl (by rw [hpc]; simp))
        · cases hne
  | sweepSkip hpc hsw hp =>
      exact h.plain rfl rfl (fun _ => id) rfl (by rw [hpc]; rfl) (by simp) (fun _ => rfl) (by simp)
  | closeSkip ht hpc _ | closeLoad ht hpc _ | closeNoFd ht hpc _ =>
      obtain ⟨hmain, hspare⟩ := h.removing (by rw [hpc]; simp [Pc.removes])
      exact h.moves rfl rfl (fun _ => id) (fun u hu => Or.inl hu) (fun _ => by simp [Pc.removes])
        (fun hm => absurd hm hmain) (fun _ => rfl) hspare
  | closeStore ht hpc | closeFd ht hpc | closeSys ht hpc | closeClear ht hpc =>
      obtain ⟨hmain, hspare⟩ := h.removing (by rw [hpc]; simp [Pc.removes])
      exact h.moves rfl rfl (fun _ => id) (fun u hu => Or.inl hu) (fun _ => by simp [Pc.removes])
        (fun hm => absurd hm hmain) (fun _ => rfl) hspare
  | erase ht hpc =>
      obtain ⟨hmain, hspare⟩ := h.removing (by rw [hpc]; simp [Pc.removes])
      refine h.moves rfl rfl (fun _ => id) ?_ ?_ (fun hm => absurd hm hmain) (fun _ => rfl) hspare
      · intro u hu
        cases hu
      · intro hu
        cases hu
  | accept _ hpc _ _ | add _ hpc _ _ =>
      exact h.plain rfl rfl (fun _ => id) rfl (by rw [hpc]; rfl) (fun _ => rfl) (by simp) (by simp)
  | reject hpc | rejectClose hpc | rejectDrop hpc | register hpc _ _ =>
      exact h.plain rfl rfl (fun _ => id) rfl (by rw [hpc]; rfl) (fun _ => rfl) (by simp) (by simp)

theorem staffed_reach {maxConnections threadNum : ℕ} {heartbeatTimeoutMs : ℤ}
    (hr : Reach step always (init maxConnections heartbeatTimeoutMs threadNum) s) : Staffed s :=
  hr.invariant Staffed (staffed_init _ _ _) fun _ _ _ h _ hs => staffed_step h hs

/-! ### Where no thread can move -/

/-- No thread can move by itself, unless with new data. -/
def Stuck (s : Sys) : Prop := ∀ l, l.internal = true → l.receives = false → step s l = none

theorem stuck_main (hst : Stuck s) (ha : s.world.crashed = false) (hs : s.stopped = false) : s.mainStep = none := by
  have h := hst .main rfl rfl
  unfold step at h
  rwa [ha, hs] at h

theorem stuck_heartbeat (hst : Stuck s) (ha : s.world.crashed = false) (hs : s.stopped = false) :
    s.heartbeatStep = none := by
  have h := hst .heartbeat rfl rfl
  unfold step at h
  rwa [ha, hs] at h

theorem stuck_loop {i : ℕ} (hst : Stuck s) (ha : s.world.crashed = false) (hs : s.stopped = false)
    (hi : i < s.loops) :
    s.loopStep i = none ∧ (∀ e, s.recvStep i (.error e) = none) ∧ ∀ r, s.sendStep i r = none := by
  refine ⟨?_, fun e => ?_, fun r => ?_⟩
  · have h := hst (.loop i) rfl rfl
    unfold step at h
    rw [ha, hs, if_neg (by decide)] at h
    simp only [] at h
    rwa [if_pos hi] at h
  · have h := hst (.recv i (.error e)) rfl rfl
    unfold step at h
    rw [ha, hs, if_neg (by decide)] at h
    simp only [] at h
    rwa [if_pos hi] at h
  · have h := hst (.send i r) rfl rfl
    unfold step at h
    rw [ha, hs, if_neg (by decide)] at h
    simp only [] at h
    rwa [if_pos hi] at h

/-- A thread inside `RemoveConnection` can move, so where none can the mutex is free. -/
theorem Stuck.unlocked (hst : Stuck s) (hstaff : Staffed s) (ha : s.world.crashed = false)
    (hs : s.stopped = false) : s.lock = none := by
  by_contra hlock
  obtain ⟨t, ht⟩ := Option.ne_none_iff_exists'.mp hlock
  have hr := hstaff.lock t ht
  obtain ⟨hmain, hspare⟩ := hstaff.removing hr
  cases t with
  | main => exact hmain rfl
  | loop i =>
      have h := (stuck_loop hst ha hs (hspare i rfl)).1
      unfold loopStep at h
      cases hpc : s.pc (.loop i) with
      | closing n x c => simp [hpc] at h
      | erase n x => simp [hpc] at h
      | _ => exact hr (by rw [hpc]; rfl)
  | heartbeat =>
      have h := stuck_heartbeat hst ha hs
      unfold heartbeatStep at h
      cases hpc : s.pc .heartbeat with
      | closing n x c => simp [hpc] at h
      | erase n x => simp [hpc] at h
      | _ => exact hr (by rw [hpc]; rfl)

theorem Stuck.main_idle (hst : Stuck s) (hstaff : Staffed s) (hlock : s.lock = none)
    (ha : s.world.crashed = false) (hs : s.stopped = false) : s.pc .main = .idle := by
  have h := stuck_main hst ha hs
  have hm := hstaff.main
  unfold mainStep at h
  cases hpc : s.pc .main with
  | idle => rfl
  | add n x =>
      rw [hpc] at h
      simp only [hlock, if_true] at h
      split at h <;> cases h
  | rejectClose n x => simp [hpc] at h
  | rejectDrop n x => simp [hpc] at h
  | addFd n x j =>
      rw [hpc] at h
      simp only [] at h
      split at h <;> cases h
  | _ =>
      rw [hpc] at hm
      cases hm

theorem Stuck.heartbeat_idle (hst : Stuck s) (hstaff : Staffed s) (hlock : s.lock = none)
    (ha : s.world.crashed = false) (hs : s.stopped = false) : s.pc .heartbeat = .idle ∧ s.sweep = [] := by
  have h := stuck_heartbeat hst ha hs
  have hh := hstaff.heartbeat
  unfold heartbeatStep at h
  cases hpc : s.pc .heartbeat with
  | idle =>
      refine ⟨rfl, ?_⟩
      rw [hpc] at h
      cases hsw : s.sweep with
      | nil => rfl
      | cons n rest =>
          rw [hsw] at h
          simp only [beginRemove, hlock, if_true] at h
          split at h <;> cases h
  | closing n x c => simp [hpc] at h
  | erase n x => simp [hpc] at h
  | _ =>
      rw [hpc] at hh
      cases hh

/-- The kernel can always answer `EAGAIN`, so a loop never stays at a system call either. -/
theorem Stuck.loop_idle {i : ℕ} (hst : Stuck s) (hcore : Core s) (hlock : s.lock = none)
    (ha : s.world.crashed = false) (hs : s.stopped = false) (hi : i < s.loops) :
    s.pc (.loop i) = .idle ∧ s.batch i = [] := by
  obtain ⟨hloop, hrecv, hsend⟩ := stuck_loop hst ha hs hi
  have hok := hcore.pcs (.loop i)
  unfold loopStep at hloop
  cases hpc : s.pc (.loop i) with
  | idle =>
      refine ⟨rfl, ?_⟩
      rw [hpc] at hloop
      simp only [] at hloop
      cases hb : s.batch i with
      | nil => rfl
      | cons e rest =>
          obtain ⟨n, ev⟩ := e
          unfold eventStep at hloop
          rw [hb] at hloop
          simp only [hlock, if_true] at hloop
          split_ifs at hloop
          all_goals split at hloop <;> cases hloop
  | recvSys n x m =>
      have h := hrecv EAGAIN
      unfold recvStep at h
      rw [hpc] at h
      have hans : s.world.sysRecv m (tag (s.world.files m) (.error EAGAIN)) = .error EAGAIN ∨
          s.world.sysRecv m (tag (s.world.files m) (.error EAGAIN)) = .error EBADF := by
        unfold sysRecv
        split_ifs
        · exact Or.inl rfl
        · exact Or.inr rfl
      rcases hans with hans | hans
      · simp [hans] at h
      · simp [hans] at h
  | sendSys k n x m =>
      have h := hsend (.error EAGAIN)
      unfold sendStep at h
      rw [hpc] at h
      have hans : s.world.sysSend m (.error EAGAIN) = .error EAGAIN ∨
          s.world.sysSend m (.error EAGAIN) = .error EBADF := by
        unfold sysSend
        split_ifs
        · exact Or.inl rfl
        · exact Or.inr rfl
      rcases hans with hans | hans
      · simp [hans] at h
      · simp [hans] at h
  | add n x | rejectClose n x | rejectDrop n x | addFd n x j =>
      rw [hpc] at hok
      cases hok.1
  | remove n =>
      rw [hpc] at hloop
      simp only [beginRemove, hlock, if_true] at hloop
      split at hloop <;> cases hloop
  | _ =>
      rw [hpc] at hloop
      simp only [hlock, if_true] at hloop
      first
        | cases hloop
        | (split at hloop <;> cases hloop)
        | (split_ifs at hloop)

theorem Stuck.settled (hst : Stuck s) (hstaff : Staffed s) (hcore : Core s) (ha : s.world.crashed = false)
    (hs : s.stopped = false) : Settled s := by
  have hlock := hst.unlocked hstaff ha hs
  exact ⟨hlock, hst.main_idle hstaff hlock ha hs,
    fun i hi => hst.loop_idle hcore hlock ha hs hi, hst.heartbeat_idle hstaff hlock ha hs⟩

/-- The process has ended, or no thread is in the middle of anything. -/
def Done (s : Sys) : Prop := s.world.crashed = true ∨ s.stopped = true ∨ Settled s

theorem exists_step_of_not_done (hstaff : Staffed s) (hcore : Core s) (hd : ¬ Done s) :
    ∃ l s', l.internal = true ∧ l.receives = false ∧ step s l = some s' := by
  by_contra hno
  apply hd
  by_cases ha : s.world.crashed = true
  · exact Or.inl ha
  by_cases hs : s.stopped = true
  · exact Or.inr (Or.inl hs)
  rw [Bool.not_eq_true] at ha hs
  refine Or.inr (Or.inr (Stuck.settled ?_ hstaff hcore ha hs))
  intro l hl hr
  cases hstep : step s l with
  | none => rfl
  | some s' => exact absurd ⟨l, s', hl, hr, hstep⟩ hno

theorem sum_map_receives (ls : List Label) :
    (ls.map fun l => if l.receives then 3 else 0).sum = 3 * ls.countP Label.receives := by
  induction ls with
  | nil => rfl
  | cons l ls ih =>
      rw [List.map_cons, List.sum_cons, List.countP_cons, ih]
      split_ifs <;> omega

end progress

/-- A client is being removed by the heartbeat thread while its loop is in `Recv` and a second client
waits for `AddConnection`. -/
def contendedRun : List Label :=
  [.accept 5, .main, .main, .wait 0 [(5, { epollin := true })], .loop 0, .loop 0, .loop 0, .tick 60001,
    .scan [5], .heartbeat, .heartbeat, .accept 6]

end Sys

end TcpServer
