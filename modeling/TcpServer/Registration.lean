import TcpServer.EpollCtl

/-! # The pool and the epoll sets agree

`HandleAccept` puts a connection into the pool and then registers its number with a loop;
`HandleError` takes the number out of the epoll set, closes it and then erases the entry.  In
between the number may be closed and accepted again.  `registration_agrees`: as long as no
heartbeat sweep finds an idle connection and the server is not stopped, a registered number has
an entry in the pool and is registered with exactly one loop, and an entry is registered unless a
thread is in the middle of `HandleAccept` or `HandleError` with its number.

Without the sweeps only the loop that a number is registered with ever closes it, in the course of
an event of that number, so that no event, handler or removal of the number is left over when
the number is accepted again (`Tidy`). -/

namespace TcpServer

/-- The number whose registration `HandleError` has removed and whose entry is still to go. -/
def Pc.drops : Pc → Option ℤ
  | .remove n | .closing n _ _ | .erase n _ => some n
  | _ => none

theorem Pc.drops_of_not_busy {p : Pc} (hb : p.busy = false) (hr : ∀ n, p ≠ .remove n) : p.drops = none := by
  cases p <;> simp_all [Pc.drops, Pc.busy]

namespace Sys

open World Transition

section inversion

variable {s s' : Sys} {l : Label} {i : ℕ} {n : ℤ}

theorem afterSend_ne_remove (k : Handler) (m : ℤ) (x : Client) : afterSend m x k ≠ .remove n := by
  cases k <;> simp [afterSend]

theorem afterSendError_ne_remove (k : Handler) (m : ℤ) (x : Client) (e : Errno) :
    afterSendError m x e k ≠ .remove n := by
  cases k <;> cases h : wouldBlock e <;> simp [afterSendError, h]

theorem recvStep_ne_remove {r : RecvResult UInt8} (h : s.recvStep i r = some s') : s'.pc (.loop i) ≠ .remove n := by
  unfold recvStep at h
  split at h
  · simp only at h
    split at h
    · split_ifs at h
      cases h
      simp
    · cases h
      simp
    · next e _ =>
        cases h
        cases hb : wouldBlock e <;> simp
  · cases h

theorem sendStep_ne_remove {r : SendResult} (h : s.sendStep i r = some s') : s'.pc (.loop i) ≠ .remove n := by
  unfold sendStep at h
  split at h
  · next k m x m' _ =>
      simp only at h
      split at h
      · split_ifs at h
        cases h
        simpa using afterSend_ne_remove k m x
      · cases h
        simp
      · next e _ =>
          cases h
          cases hb : wouldBlock e
          · simp
          · simpa [hb] using afterSendError_ne_remove k m x e
  · cases h

theorem eventStep_ne_remove (hpc : s.pc (.loop i) = .idle) (h : s.eventStep i = some s') :
    s'.pc (.loop i) ≠ .remove n := by
  unfold eventStep at h
  split at h
  · cases h
  · simp only at h
    split_ifs at h
    · cases h
      simp
    · split at h
      · cases h
        simp [hpc]
      · cases h
        simp
    · split at h
      · cases h
        simp [hpc]
      · cases h
        simp
    · cases h
      simp [hpc]

theorem closeStep_ne_remove {t : Thread} {m : ℤ} {x : Client} (c : ClosePoint) :
    (s.closeStep t m x c).pc t ≠ .remove n := by
  cases c with
  | load =>
      simp only [closeStep]
      split_ifs <;> simp
  | store => simp [closeStep]
  | fd =>
      simp only [closeStep]
      split_ifs <;> simp
  | sys m' => simp [closeStep]
  | clear => simp [closeStep]

/-- A loop gets to `RemoveConnection` only by removing the registration. -/
theorem loopStep_remove (h : s.loopStep i = some s') (hn : s'.pc (.loop i) = .remove n) :
    s.pc (.loop i) = .errorDel n ∧ (s.world.epoll i n).isSome = true ∧ s'.world.epoll i n = none := by
  cases hpc : s.pc (.loop i) with
  | idle =>
      simp only [loopStep, hpc] at h
      exact absurd hn (eventStep_ne_remove hpc h)
  | recvState m x =>
      simp only [loopStep, hpc] at h
      split_ifs at h
      · cases h
        simp at hn
      · cases h
        simp at hn
      · cases h
        simp at hn
  | recvFd m x =>
      simp only [loopStep, hpc] at h
      cases h
      simp at hn
  | recvMark m x =>
      simp only [loopStep, hpc] at h
      cases h
      simp at hn
  | echo m x =>
      simp only [loopStep, hpc] at h
      split_ifs at h <;> cases h <;> simp at hn
  | sendState k m x =>
      simp only [loopStep, hpc] at h
      split_ifs at h
      · cases h
        exact absurd (by simpa using hn) (afterSendError_ne_remove k m x (s.errno i))
      · cases h
        exact absurd (by simpa using hn) (afterSend_ne_remove k m x)
      · cases h
        simp at hn
  | sendFd k m x =>
      simp only [loopStep, hpc] at h
      cases h
      simp at hn
  | sendMark k m x zero =>
      simp only [loopStep, hpc] at h
      cases h
      cases zero with
      | true => exact absurd (by simpa using hn) (afterSend_ne_remove k m x)
      | false => simp at hn
  | touch m x =>
      simp only [loopStep, hpc] at h
      cases h
      simp at hn
  | rearm m x =>
      simp only [loopStep, hpc] at h
      split at h
      · cases h
        simp at hn
      · cases h
        simp [hpc] at hn
  | errorLookup m =>
      simp only [loopStep, hpc] at h
      split_ifs at h
      cases h
      simp at hn
  | errorDel m =>
      simp only [loopStep, hpc] at h
      unfold removeFd at h
      split_ifs at h with hreg
      · cases h
        have hm : m = n := by simpa using hn
        subst hm
        exact ⟨rfl, hreg.2, epoll_setInterest_self i m none s.world⟩
      · cases h
        simp [hpc] at hn
  | remove m =>
      simp only [loopStep, hpc] at h
      unfold beginRemove at h
      split_ifs at h
      split at h
      · cases h
        simp at hn
      · cases h
        simp at hn
  | closing m x c =>
      simp only [loopStep, hpc] at h
      cases h
      exact absurd hn (closeStep_ne_remove c)
  | erase m x =>
      simp only [loopStep, hpc] at h
      cases h
      simp at hn
  | _ =>
      simp only [loopStep, hpc] at h
      cases h

theorem step_remove (h : step s l = some s') (ht : l.thread = some (.loop i)) (hn : s'.pc (.loop i) = .remove n) :
    s.pc (.loop i) = .errorDel n ∧ (s.world.epoll i n).isSome = true ∧ s'.world.epoll i n = none := by
  unfold step at h
  split_ifs at h
  cases l with
  | wait j evs =>
      cases ht
      simp only [waitStep] at h
      split_ifs at h with _ hw
      cases h
      rw [setBatch_pc, setWorld_pc, hw.1] at hn
      cases hn
  | loop j =>
      cases ht
      simp only at h
      split_ifs at h
      exact loopStep_remove h hn
  | recv j r =>
      cases ht
      simp only at h
      split_ifs at h
      exact absurd hn (recvStep_ne_remove h)
  | send j r =>
      cases ht
      simp only at h
      split_ifs at h
      exact absurd hn (sendStep_ne_remove h)
  | _ => cases ht

/-! Only the scan fills the sweep, and only the shutdown stops the server. -/

theorem closeStep_sweep {t : Thread} {m : ℤ} {x : Client} (c : ClosePoint) :
    (s.closeStep t m x c).sweep = s.sweep ∧ (s.closeStep t m x c).stopped = s.stopped := by
  cases c with
  | load =>
      simp only [closeStep]
      split_ifs <;> exact ⟨rfl, rfl⟩
  | fd =>
      simp only [closeStep]
      split_ifs <;> exact ⟨rfl, rfl⟩
  | _ => exact ⟨rfl, rfl⟩

theorem eventStep_sweep (h : s.eventStep i = some s') :
    s'.sweep = s.sweep ∧ s'.stopped = s.stopped := by
  unfold eventStep at h
  repeat' split at h
  all_goals cases h
  all_goals exact ⟨rfl, rfl⟩

theorem beginRemove_sweep {t : Thread} (h : s.beginRemove t n = some s') :
    s'.sweep = s.sweep ∧ s'.stopped = s.stopped := by
  unfold beginRemove at h
  repeat' split at h
  all_goals cases h
  all_goals exact ⟨rfl, rfl⟩

theorem loopStep_sweep (h : s.loopStep i = some s') :
    s'.sweep = s.sweep ∧ s'.stopped = s.stopped := by
  unfold loopStep at h
  split at h
  case h_1 => exact eventStep_sweep h
  case h_13 => exact beginRemove_sweep h
  case h_14 =>
      cases h
      exact closeStep_sweep _
  all_goals repeat' split at h
  all_goals cases h
  all_goals exact ⟨rfl, rfl⟩

theorem recvStep_sweep {r : RecvResult UInt8} (h : s.recvStep i r = some s') :
    s'.sweep = s.sweep ∧ s'.stopped = s.stopped := by
  unfold recvStep at h
  split at h
  · simp only at h
    repeat' split at h
    all_goals cases h
    all_goals exact ⟨rfl, rfl⟩
  · cases h

theorem sendStep_sweep {r : SendResult} (h : s.sendStep i r = some s') :
    s'.sweep = s.sweep ∧ s'.stopped = s.stopped := by
  unfold sendStep at h
  split at h
  · simp only at h
    repeat' split at h
    all_goals cases h
    all_goals exact ⟨rfl, rfl⟩
  · cases h

theorem mainStep_sweep (h : s.mainStep = some s') :
    s'.sweep = s.sweep ∧ s'.stopped = s.stopped := by
  unfold mainStep at h
  repeat' split at h
  all_goals cases h
  all_goals exact ⟨rfl, rfl⟩

end inversion

/-! ### The runs and the invariant -/

/-- The heartbeat finds nothing to remove, and the server is not stopped. -/
def undisturbed (_ : Sys) : Label → Prop
  | .scan fds => fds = []
  | .shutdown => False
  | _ => True

instance decidableUndisturbed (s : Sys) : ∀ l : Label, Decidable (undisturbed s l)
  | .scan fds => inferInstanceAs (Decidable (fds = []))
  | .shutdown => isFalse id
  | .tick _ => isTrue trivial
  | .accept _ => isTrue trivial
  | .main => isTrue trivial
  | .wait _ _ => isTrue trivial
  | .loop _ => isTrue trivial
  | .recv _ _ => isTrue trivial
  | .send _ _ => isTrue trivial
  | .heartbeat => isTrue trivial

/-- In these runs nothing is ever swept. -/
theorem step_sweep {s s' : Sys} {l : Label} (h : step s l = some s') (hok : undisturbed s l) (hidle : s.pc .heartbeat = .idle)
    (hnil : s.sweep = []) : s'.sweep = [] ∧ s'.stopped = s.stopped := by
  unfold step at h
  split_ifs at h
  cases l with
  | tick t =>
      cases h
      exact ⟨hnil, rfl⟩
  | accept n =>
      simp only [acceptStep] at h
      split_ifs at h
      obtain ⟨w, -, rfl⟩ := Option.map_eq_some_iff.mp h
      exact ⟨hnil, rfl⟩
  | main =>
      rw [← hnil]
      exact mainStep_sweep h
  | wait i evs =>
      simp only [waitStep] at h
      split_ifs at h
      cases h
      exact ⟨hnil, rfl⟩
  | loop i =>
      simp only at h
      split_ifs at h
      rw [← hnil]
      exact loopStep_sweep h
  | recv i r =>
      simp only at h
      split_ifs at h
      rw [← hnil]
      exact recvStep_sweep h
  | send i r =>
      simp only at h
      split_ifs at h
      rw [← hnil]
      exact sendStep_sweep h
  | scan fds =>
      simp only [scanStep] at h
      split_ifs at h
      cases h
      exact ⟨hok, rfl⟩
  | heartbeat =>
      simp only [heartbeatStep, hidle, hnil] at h
      cases h
  | shutdown => exact hok.elim

/-- The invariant.  `owed`: what a loop has to handle is registered with it; `dropping`: between
the removal of a registration and that of the entry, the number is in no epoll set and
`HandleAccept` is not about to register it. -/
structure Tidy (s : Sys) : Prop where
  heartbeat : s.pc .heartbeat = .idle ∧ s.sweep = []
  main : (s.pc .main).drops = none
  owed : ∀ i n, (s.pc (.loop i)).owes = some n ∨ n ∈ (s.batch i).map Prod.fst → (s.world.epoll i n).isSome = true
  distinct : ∀ i, ((s.pc (.loop i)).owes.toList ++ (s.batch i).map Prod.fst).Nodup
  entry : ∀ i n, (s.world.epoll i n).isSome = true → (s.world.pool.getConnection n).isSome = true
  dropping : ∀ i n, (s.pc (.loop i)).drops = some n →
    (s.world.pool.getConnection n).isSome = true ∧ (∀ j, s.world.epoll j n = none) ∧
      ∀ x j, s.pc .main ≠ .addFd n x j
  alone : ∀ i j n, (s.pc (.loop i)).drops = some n → (s.pc (.loop j)).drops = some n → i = j
  adding : ∀ n x j, s.pc .main = .addFd n x j → s.world.pool.getConnection n = some x
  pooled : ∀ n x, s.world.pool.getConnection n = some x →
    (s.world.epoll (s.owner x) n).isSome = true ∨ (∃ j, s.pc .main = .addFd n x j) ∨
      ∃ i, (s.pc (.loop i)).drops = some n

theorem tidy_init (maxConnections : ℕ) (heartbeatTimeoutMs : ℤ) (threadNum : ℕ) :
    Tidy (init maxConnections heartbeatTimeoutMs threadNum) where
  heartbeat := ⟨rfl, rfl⟩
  main := rfl
  owed := by simp [init, Pc.owes]
  distinct := by simp [init, Pc.owes]
  entry := by simp [init, World.init]
  dropping := by simp [init, Pc.drops]
  alone := by simp [init, Pc.drops]
  adding := by simp [init]
  pooled := by
    intro n x h
    cases h

section steps

variable {s s' : Sys} {l : Label} {t : Thread} {p : Pc} {n : ℤ} {x : Client}

/-- Forgetting the number a loop works on keeps its numbers distinct. -/
theorem Tidy.nodup_owes (h : Tidy s) {i : ℕ} {o : Option ℤ} (ho : o = none ∨ o = (s.pc (.loop i)).owes) :
    (o.toList ++ (s.batch i).map Prod.fst).Nodup := by
  rcases ho with rfl | rfl
  · exact (h.distinct i).sublist (List.sublist_append_right _ _)
  · exact h.distinct i

/-- The number a loop works on is not among those it has yet to handle. -/
theorem Tidy.ne_of_owes (h : Tidy s) {i : ℕ} {m : ℤ} (ho : (s.pc (.loop i)).owes = some n)
    (hm : m ∈ (s.batch i).map Prod.fst) : m ≠ n := by
  rintro rfl
  have hdist := h.distinct i
  rw [ho] at hdist
  exact (List.nodup_cons.mp hdist).1 hm

/-- A registered number is not being dropped. -/
theorem Tidy.ne_of_drops (h : Tidy s) {i j : ℕ} {m : ℤ} (hreg : (s.world.epoll i n).isSome = true)
    (hm : (s.pc (.loop j)).drops = some m) : m ≠ n := by
  rintro rfl
  rw [(h.dropping j m hm).2.1 i] at hreg
  cases hreg

/-- Steps that change neither registrations nor the pool, and in which the thread that moves
neither begins nor ends anything. -/
theorem Tidy.keeps (h : Tidy s) (hpc : s'.pc = Function.update s.pc t p) (ht : t ≠ .heartbeat)
    (he : ∀ i m, (s'.world.epoll i m).isSome = (s.world.epoll i m).isSome)
    (hpool : s'.world.pool = s.world.pool) (ho : s'.owner = s.owner)
    (hb : ∀ i, (s'.batch i).Sublist (s.batch i)) (hsweep : s'.sweep = [])
    (howes : p.owes = none ∨ p.owes = (s.pc t).owes) (hdrops : p.drops = (s.pc t).drops)
    (hadd : ∀ m y j, p = .addFd m y j ↔ s.pc t = .addFd m y j) : Tidy s' := by
  have hd : ∀ u, (s'.pc u).drops = (s.pc u).drops := by
    intro u
    rcases pc_cases hpc u with ⟨rfl, hu⟩ | ⟨-, hu⟩
    · rw [hu, hdrops]
    · rw [hu]
  have ha : ∀ m y j, s'.pc .main = .addFd m y j ↔ s.pc .main = .addFd m y j := by
    intro m y j
    rcases pc_cases hpc .main with ⟨rfl, hu⟩ | ⟨-, hu⟩
    · rw [hu]
      exact hadd m y j
    · rw [hu]
  have how : ∀ i, (s'.pc (.loop i)).owes = none ∨ (s'.pc (.loop i)).owes = (s.pc (.loop i)).owes := by
    intro i
    rcases pc_cases hpc (.loop i) with ⟨rfl, hu⟩ | ⟨-, hu⟩
    · rw [hu]
      exact howes
    · rw [hu]
      exact Or.inr rfl
  have hnone : ∀ i m, s'.world.epoll i m = none ↔ s.world.epoll i m = none := by
    intro i m
    rw [← Option.not_isSome_iff_eq_none, ← Option.not_isSome_iff_eq_none, he i m]
  refine ⟨⟨?_, hsweep⟩, by rw [hd]; exact h.main, ?_, ?_, ?_, ?_, ?_, ?_, ?_⟩
  · rcases pc_cases hpc .heartbeat with ⟨hu, -⟩ | ⟨-, hu⟩
    · exact absurd hu.symm ht
    · rw [hu]
      exact h.heartbeat.1
  · intro i m hm
    rw [he]
    apply h.owed i m
    rcases hm with hm | hm
    · rcases how i with hi | hi
      · rw [hi] at hm
        cases hm
      · rw [hi] at hm
        exact Or.inl hm
    · exact Or.inr (((hb i).map Prod.fst).subset hm)
  · intro i
    exact (h.nodup_owes (how i)).sublist (List.Sublist.append (List.Sublist.refl _) ((hb i).map Prod.fst))
  · intro i m hm
    rw [he] at hm
    rw [hpool]
    exact h.entry i m hm
  · intro i m hm
    rw [hd] at hm
    obtain ⟨h1, h2, h3⟩ := h.dropping i m hm
    exact ⟨by rw [hpool]; exact h1, fun j => (hnone j m).mpr (h2 j), fun y j hy => h3 y j ((ha m y j).mp hy)⟩
  · intro i j m hi hj
    rw [hd] at hi hj
    exact h.alone i j m hi hj
  · intro m y j hm
    rw [hpool]
    exact h.adding m y j ((ha m y j).mp hm)
  · intro m y hy
    rw [hpool] at hy
    rw [ho, he]
    rcases h.pooled m y hy with hr | ⟨j, hj⟩ | ⟨i, hi⟩
    · exact Or.inl hr
    · exact Or.inr (Or.inl ⟨j, (ha m y j).mpr hj⟩)
    · exact Or.inr (Or.inr ⟨i, by rw [hd]; exact hi⟩)

/-- Loop `i` takes an event and enters its handler. -/
theorem Tidy.enter {i : ℕ} {ev : Events} {rest : List (ℤ × Events)} (h : Tidy s) (hpc : s.pc (.loop i) = .idle)
    (hb : s.batch i = (n, ev) :: rest) (howes : p.owes = some n) (hdrops : p.drops = none) :
    Tidy ((s.setBatch i rest).goto (.loop i) p) := by
  have hself : ((s.setBatch i rest).goto (.loop i) p).pc (.loop i) = p := by simp
  have hother : ∀ j, j ≠ i → ((s.setBatch i rest).goto (.loop i) p).pc (.loop j) = s.pc (.loop j) := by
    intro j hj
    simp [hj]
  have hd : ∀ j, (((s.setBatch i rest).goto (.loop i) p).pc (.loop j)).drops = (s.pc (.loop j)).drops := by
    intro j
    by_cases hj : j = i
    · rw [hj, hself, hdrops, hpc]
      rfl
    · rw [hother j hj]
  have hmain : ((s.setBatch i rest).goto (.loop i) p).pc .main = s.pc .main := by simp
  refine ⟨?_, by rw [hmain]; exact h.main, ?_, ?_, h.entry, ?_, ?_, ?_, ?_⟩
  · simpa using h.heartbeat
  · intro j m hm
    by_cases hj : j = i
    · subst hj
      rw [hself, howes, goto_batch, setBatch_batch, Function.update_self] at hm
      apply h.owed j m
      right
      rw [hb, List.map_cons]
      rcases hm with hm | hm
      · cases hm
        exact List.mem_cons_self
      · exact List.mem_cons_of_mem _ hm
    · rw [hother j hj, goto_batch, setBatch_batch, Function.update_of_ne hj] at hm
      exact h.owed j m hm
  · intro j
    by_cases hj : j = i
    · subst hj
      have hdist := h.distinct j
      rw [hpc, hb] at hdist
      rw [hself, howes, goto_batch, setBatch_batch, Function.update_self]
      exact hdist
    · rw [hother j hj, goto_batch, setBatch_batch, Function.update_of_ne hj]
      exact h.distinct j
  · intro j m hm
    rw [hd] at hm
    rw [hmain]
    exact h.dropping j m hm
  · intro j k m hj hk
    rw [hd] at hj hk
    exact h.alone j k m hj hk
  · rw [hmain]
    exact h.adding
  · intro m y hy
    rw [hmain]
    rcases h.pooled m y hy with hr | hr | ⟨k, hk⟩
    · exact Or.inl hr
    · exact Or.inr (Or.inl hr)
    · exact Or.inr (Or.inr ⟨k, by rw [hd]; exact hk⟩)

/-- `epoll_wait` reports registered numbers, each once. -/
theorem tidy_wait {i : ℕ} {evs : List (ℤ × Events)} (h : Tidy s) (hpc : s.pc (.loop i) = .idle)
    (hd : s.world.deliverable i evs = true) : Tidy ((s.setWorld (s.world.deliver i evs)).setBatch i evs) := by
  have he : ∀ j m, ((s.world.deliver i evs).epoll j m).isSome = (s.world.epoll j m).isSome :=
    isSome_epoll_deliver
  refine ⟨h.heartbeat, h.main, ?_, ?_, ?_, ?_, h.alone, h.adding, ?_⟩
  · intro j m hm
    rw [setBatch_world, setWorld_world, he]
    by_cases hj : j = i
    · subst hj
      rw [setBatch_batch, Function.update_self, setBatch_pc, setWorld_pc, hpc] at hm
      rcases hm with hm | hm
      · cases hm
      · obtain ⟨⟨m', ev⟩, hmem, rfl⟩ := List.mem_map.mp hm
        exact isSome_of_deliverable hd hmem
    · rw [setBatch_batch, Function.update_of_ne hj] at hm
      exact h.owed j m hm
  · intro j
    by_cases hj : j = i
    · subst hj
      rw [setBatch_batch, Function.update_self, setBatch_pc, setWorld_pc, hpc]
      exact nodup_of_deliverable hd
    · rw [setBatch_batch, Function.update_of_ne hj]
      exact h.distinct j
  · intro j m hm
    rw [setBatch_world, setWorld_world, he] at hm
    exact h.entry j m hm
  · intro j m hm
    obtain ⟨h1, h2, h3⟩ := h.dropping j m hm
    refine ⟨h1, ?_, h3⟩
    intro k
    rw [setBatch_world, setWorld_world, ← Option.not_isSome_iff_eq_none, he, h2 k]
    simp
  · intro m y hy
    rw [setBatch_world, setWorld_world, he]
    exact h.pooled m y hy

/-- Only one loop knows a number. -/
theorem Core.registered_once (hc : Core s) {i j : ℕ} (hi : (s.world.epoll i n).isSome = true)
    (hj : (s.world.epoll j n).isSome = true) : j = i := by
  obtain ⟨y, hy, hown, -⟩ := hc.epoll i n hi
  obtain ⟨z, hz, hown', -⟩ := hc.epoll j n hj
  have hyz : y = z := Option.some.inj (hy.symm.trans hz)
  rw [← hown, ← hown', hyz]

/-- `RemoveFd` takes the number out of the only epoll set that knows it. -/
theorem Core.epoll_removed (hc : Core s) {i : ℕ} (hreg : (s.world.epoll i n).isSome = true) (j : ℕ) :
    (s.world.setInterest i n none).epoll j n = none := by
  by_cases hj : j = i
  · rw [hj, epoll_setInterest_self]
  · rw [← Option.not_isSome_iff_eq_none]
    intro hsome
    have hsome' : (s.world.epoll j n).isSome = true := by simpa [setInterest, hj] using hsome
    exact hj (hc.registered_once hreg hsome')

/-- `RemoveFd`: from here on the number is in no epoll set. -/
theorem tidy_del {i : ℕ} (hc : Core s) (h : Tidy s) (hpc : s.pc (.loop i) = .errorDel n) :
    Tidy ((s.setWorld (s.world.setInterest i n none)).goto (.loop i) (.remove n)) := by
  have howes : (s.pc (.loop i)).owes = some n := by
    rw [hpc]
    rfl
  have hreg : (s.world.epoll i n).isSome = true := h.owed i n (Or.inl howes)
  have hfree : ∀ j m, (s.pc (.loop j)).drops = some m → m ≠ n := fun _ _ => h.ne_of_drops hreg
  have hself : ((s.setWorld (s.world.setInterest i n none)).goto (.loop i) (.remove n)).pc (.loop i) = .remove n := by
    simp
  have hother : ∀ j, j ≠ i →
      ((s.setWorld (s.world.setInterest i n none)).goto (.loop i) (.remove n)).pc (.loop j) = s.pc (.loop j) := by
    intro j hj
    simp [hj]
  have hmain : ((s.setWorld (s.world.setInterest i n none)).goto (.loop i) (.remove n)).pc .main = s.pc .main := by
    simp
  refine ⟨?_, by rw [hmain]; exact h.main, ?_, ?_, ?_, ?_, ?_, ?_, ?_⟩
  · simpa using h.heartbeat
  · intro j m hm
    by_cases hj : j = i
    · subst hj
      rw [hself] at hm
      have hmem : m ∈ (s.batch j).map Prod.fst := by
        rcases hm with hm | hm
        · cases hm
        · exact hm
      have hmn : m ≠ n := h.ne_of_owes howes hmem
      show ((s.world.setInterest j n none).epoll j m).isSome = true
      rw [epoll_setInterest_ne none s.world hmn]
      exact h.owed j m (Or.inr hmem)
    · rw [hother j hj] at hm
      show ((s.world.setInterest i n none).epoll j m).isSome = true
      have hold : (s.world.setInterest i n none).epoll j m = s.world.epoll j m := by simp [setInterest, hj]
      rw [hold]
      exact h.owed j m hm
  · intro j
    by_cases hj : j = i
    · subst hj
      rw [hself]
      exact h.nodup_owes (Or.inl rfl)
    · rw [hother j hj]
      exact h.distinct j
  · intro j m hm
    exact h.entry j m ((calm_removeInterest i n s.world).epoll j m hm)
  · intro j m hm
    rw [hmain]
    by_cases hj : j = i
    · rw [hj, hself] at hm
      cases hm
      refine ⟨h.entry i n hreg, hc.epoll_removed hreg, ?_⟩
      intro y k hy
      obtain ⟨-, hnew, -⟩ := hc.pcAt hy
      rw [hnew.unregistered i] at hreg
      cases hreg
    · rw [hother j hj] at hm
      obtain ⟨h1, h2, h3⟩ := h.dropping j m hm
      refine ⟨h1, ?_, h3⟩
      intro k
      show (s.world.setInterest i n none).epoll k m = none
      rw [epoll_setInterest_ne none s.world (hfree j m hm)]
      exact h2 k
  · intro j k m hj hk
    by_cases hji : j = i
    · by_cases hki : k = i
      · rw [hji, hki]
      · rw [hji, hself] at hj
        cases hj
        rw [hother k hki] at hk
        exact absurd rfl (hfree k n hk)
    · rw [hother j hji] at hj
      by_cases hki : k = i
      · rw [hki, hself] at hk
        cases hk
        exact absurd rfl (hfree j n hj)
      · rw [hother k hki] at hk
        exact h.alone j k m hj hk
  · rw [hmain]
    exact h.adding
  · intro m y hy
    rw [hmain]
    by_cases hm : m = n
    · rw [hm]
      exact Or.inr (Or.inr ⟨i, by rw [hself]; rfl⟩)
    · rcases h.pooled m y hy with hr | hr | ⟨k, hk⟩
      · left
        show ((s.world.setInterest i n none).epoll (s.owner y) m).isSome = true
        rw [epoll_setInterest_ne none s.world hm]
        exact hr
      · exact Or.inr (Or.inl hr)
      · refine Or.inr (Or.inr ⟨k, ?_⟩)
        have hki : k ≠ i := by
          rintro rfl
          rw [hpc] at hk
          cases hk
        rw [hother k hki]
        exact hk

/-- The entry of a number that is in no epoll set goes. -/
theorem tidy_erase {i : ℕ} (h : Tidy s) (hpc : s.pc (.loop i) = .erase n x) : Tidy (s.eraseStep (.loop i) n x) := by
  have hi : (s.pc (.loop i)).drops = some n := by
    rw [hpc]
    rfl
  obtain ⟨-, hgone, hmain⟩ := h.dropping i n hi
  have hself : (s.eraseStep (.loop i) n x).pc (.loop i) = .idle := by simp
  have hother : ∀ j, j ≠ i → (s.eraseStep (.loop i) n x).pc (.loop j) = s.pc (.loop j) := by
    intro j hj
    simp [hj]
  have hmainpc : (s.eraseStep (.loop i) n x).pc .main = s.pc .main := by simp
  have hpool : ∀ m, m ≠ n → (s.eraseStep (.loop i) n x).world.pool.getConnection m = s.world.pool.getConnection m :=
    fun m hm => ConnectionPool.getConnection_erase_ne _ hm
  have hdrops : ∀ j m, ((s.eraseStep (.loop i) n x).pc (.loop j)).drops = some m →
      (s.pc (.loop j)).drops = some m ∧ m ≠ n := by
    intro j m hm
    have hj : j ≠ i := by
      rintro rfl
      rw [hself] at hm
      cases hm
    rw [hother j hj] at hm
    refine ⟨hm, ?_⟩
    rintro rfl
    exact hj (h.alone j i m hm hi)
  refine ⟨?_, by rw [hmainpc]; exact h.main, ?_, ?_, ?_, ?_, ?_, ?_, ?_⟩
  · simpa using h.heartbeat
  · intro j m hm
    apply h.owed j m
    by_cases hj : j = i
    · subst hj
      rw [hself] at hm
      rcases hm with hm | hm
      · cases hm
      · exact Or.inr hm
    · rwa [hother j hj] at hm
  · intro j
    by_cases hj : j = i
    · subst hj
      rw [hself]
      exact h.nodup_owes (Or.inl rfl)
    · rw [hother j hj]
      exact h.distinct j
  · intro j m hm
    have hmn : m ≠ n := by
      rintro rfl
      have hm' : (s.world.epoll j m).isSome = true := hm
      rw [hgone j] at hm'
      cases hm'
    rw [hpool m hmn]
    exact h.entry j m hm
  · intro j m hm
    obtain ⟨hm, hmn⟩ := hdrops j m hm
    obtain ⟨h1, h2, h3⟩ := h.dropping j m hm
    rw [hpool m hmn, hmainpc]
    exact ⟨h1, h2, h3⟩
  · intro j k m hj hk
    exact h.alone j k m (hdrops j m hj).1 (hdrops k m hk).1
  · intro m y j hm
    rw [hmainpc] at hm
    have hmn : m ≠ n := by
      rintro rfl
      exact hmain y j hm
    rw [hpool m hmn]
    exact h.adding m y j hm
  · intro m y hy
    have hmn : m ≠ n := by
      rintro rfl
      have hy' : (s.world.pool.erase m).getConnection m = some y := hy
      rw [ConnectionPool.getConnection_erase_self] at hy'
      cases hy'
    rw [hpool m hmn] at hy
    rw [hmainpc]
    rcases h.pooled m y hy with hr | hr | ⟨k, hk⟩
    · exact Or.inl hr
    · exact Or.inr (Or.inl hr)
    · refine Or.inr (Or.inr ⟨k, ?_⟩)
      have hki : k ≠ i := by
        rintro rfl
        rw [hi] at hk
        cases hk
        exact hmn rfl
      rw [hother k hki]
      exact hk

/-- `AddConnection`: nobody is still dropping an entry under the number. -/
theorem tidy_add {pool : ConnectionPool} (hc : Core s) (h : Tidy s) (hpc : s.pc .main = .add n x)
    (hadd : s.world.pool.addConnection (s.world.conns x).fd x = (pool, true)) : Tidy (s.addStep n x pool) := by
  obtain ⟨-, hnew, hadm, hopen⟩ := hc.pcAt hpc
  have hfd : (s.world.conns x).fd = n := hopen.fd.trans hnew.num
  rw [hfd] at hadd
  obtain ⟨hnone, hself, hne⟩ := ConnectionPool.addConnection_true hadd
  have hloop : ∀ i, (s.addStep n x pool).pc (.loop i) = s.pc (.loop i) := by
    intro i
    simp
  have hmain : (s.addStep n x pool).pc .main = .addFd n x s.nextLoopIdx := by simp
  have hmono : ∀ m, (s.world.pool.getConnection m).isSome = true → (pool.getConnection m).isSome = true := by
    intro m hm
    have hmn : m ≠ n := by
      rintro rfl
      rw [hnone] at hm
      cases hm
    rw [hne m hmn]
    exact hm
  refine ⟨?_, by rw [hmain]; rfl, ?_, ?_, ?_, ?_, ?_, ?_, ?_⟩
  · simpa using h.heartbeat
  · intro i m hm
    rw [hloop] at hm
    exact h.owed i m hm
  · intro i
    rw [hloop]
    exact h.distinct i
  · intro i m hm
    exact hmono m (h.entry i m hm)
  · intro i m hm
    rw [hloop] at hm
    obtain ⟨h1, h2, -⟩ := h.dropping i m hm
    refine ⟨hmono m h1, h2, ?_⟩
    intro y j hy
    rw [hmain] at hy
    cases hy
    rw [hnone] at h1
    cases h1
  · intro i j m hi hj
    rw [hloop] at hi hj
    exact h.alone i j m hi hj
  · intro m y j hm
    rw [hmain] at hm
    cases hm
    exact hself
  · intro m y hy
    have hy' : pool.getConnection m = some y := hy
    by_cases hm : m = n
    · rw [hm, hself] at hy'
      cases hy'
      rw [hm]
      exact Or.inr (Or.inl ⟨_, hmain⟩)
    · rw [hne m hm] at hy'
      have hyx : y ≠ x := by
        rintro rfl
        rw [(hc.pooled m y hy').2.1] at hadm
        cases hadm
      rcases h.pooled m y hy' with hr | ⟨j, hj⟩ | ⟨k, hk⟩
      · left
        rw [addStep_owner, Function.update_of_ne hyx]
        exact hr
      · rw [hpc] at hj
        cases hj
      · exact Or.inr (Or.inr ⟨k, by rw [hloop]; exact hk⟩)

/-- `AddFd`: the number joins the epoll set of the loop its connection was assigned to. -/
theorem tidy_register {j : ℕ} (hc : Core s) (h : Tidy s) (hpc : s.pc .main = .addFd n x j) :
    Tidy ((s.setWorld (s.world.setInterest j n (some ⟨inOutMask, true⟩))).goto .main .idle) := by
  obtain ⟨-, -, -, hown, -⟩ := hc.pcAt hpc
  have hentry := h.adding n x j hpc
  have hfree : ∀ i m, (s.pc (.loop i)).drops = some m → m ≠ n := by
    rintro i m hm rfl
    exact (h.dropping i m hm).2.2 x j hpc
  have hloop : ∀ i, ((s.setWorld (s.world.setInterest j n (some ⟨inOutMask, true⟩))).goto .main .idle).pc (.loop i) =
      s.pc (.loop i) := by
    intro i
    simp
  have hmain : ((s.setWorld (s.world.setInterest j n (some ⟨inOutMask, true⟩))).goto .main .idle).pc .main = .idle := by
    simp
  refine ⟨?_, by rw [hmain]; rfl, ?_, ?_, ?_, ?_, ?_, ?_, ?_⟩
  · simpa using h.heartbeat
  · intro i m hm
    rw [hloop] at hm
    exact isSome_setInterest (h.owed i m hm)
  · intro i
    rw [hloop]
    exact h.distinct i
  · intro i m hm
    by_cases hmn : m = n
    · rw [hmn]
      show (s.world.pool.getConnection n).isSome = true
      rw [hentry]
      rfl
    · apply h.entry i m
      have hm' : ((s.world.setInterest j n (some ⟨inOutMask, true⟩)).epoll i m).isSome = true := hm
      rwa [epoll_setInterest_ne _ s.world hmn] at hm'
  · intro i m hm
    rw [hloop] at hm
    obtain ⟨h1, h2, -⟩ := h.dropping i m hm
    refine ⟨h1, ?_, ?_⟩
    · intro k
      show (s.world.setInterest j n (some ⟨inOutMask, true⟩)).epoll k m = none
      rw [epoll_setInterest_ne _ s.world (hfree i m hm)]
      exact h2 k
    · intro y k hy
      rw [hmain] at hy
      cases hy
  · intro i k m hi hk
    rw [hloop] at hi hk
    exact h.alone i k m hi hk
  · intro m y k hm
    rw [hmain] at hm
    cases hm
  · intro m y hy
    have hy' : s.world.pool.getConnection m = some y := hy
    rcases h.pooled m y hy' with hr | ⟨k, hk⟩ | ⟨k, hk⟩
    · exact Or.inl (isSome_setInterest hr)
    · rw [hpc] at hk
      cases hk
      left
      show ((s.world.setInterest j n (some ⟨inOutMask, true⟩)).epoll (s.owner x) n).isSome = true
      rw [hown, epoll_setInterest_self]
      rfl
    · exact Or.inr (Or.inr ⟨k, by rw [hloop]; exact hk⟩)

/-- Without sweeps, only the loops remove connections. -/
theorem Tidy.loop_of_drops (h : Tidy s) (hd : (s.pc t).drops = some n) : ∃ i, t = .loop i := by
  cases t with
  | main =>
      rw [h.main] at hd
      cases hd
  | loop i => exact ⟨i, rfl⟩
  | heartbeat =>
      rw [h.heartbeat.1] at hd
      cases hd

/-- A step inside `RemoveConnection` that touches no registration. -/
theorem Tidy.drops (h : Tidy s) (hpc : s'.pc = Function.update s.pc t p) (hd : (s.pc t).drops = some n)
    (hd' : p.drops = some n) (he : ∀ i m, (s'.world.epoll i m).isSome = (s.world.epoll i m).isSome)
    (hpool : s'.world.pool = s.world.pool) (ho : s'.owner = s.owner) (hb : s'.batch = s.batch)
    (hsweep : s'.sweep = s.sweep) : Tidy s' := by
  obtain ⟨i, rfl⟩ := h.loop_of_drops hd
  refine h.keeps hpc (by simp) he hpool ho ?_ (hsweep.trans h.heartbeat.2) ?_ (hd'.trans hd.symm) ?_
  · intro j
    rw [hb]
  · left
    cases p <;> simp_all [Pc.drops, Pc.owes]
  · intro m y j
    constructor
    · rintro rfl
      cases hd'
    · intro hadd
      rw [hadd] at hd
      cases hd

/-- `close` of a number that is in no epoll set. -/
theorem isSome_epoll_close {w : World Byte} {y : Client} {m : ℤ} (hm : ∀ j, w.epoll j m = none) (i : ℕ) (k : ℤ) :
    ((w.close y m).epoll i k).isSome = (w.epoll i k).isSome := by
  by_cases hk : k = m
  · rw [hk, hm i]
    simp [close]
  · rw [epoll_close_ne y w hk]

/-- A loop outside `RemoveConnection` goes on outside of it. -/
theorem Tidy.moves {i : ℕ} (h : Tidy s) (hpc : s'.pc = Function.update s.pc (.loop i) p)
    (he : ∀ j m, (s'.world.epoll j m).isSome = (s.world.epoll j m).isSome)
    (hpool : s'.world.pool = s.world.pool) (ho : s'.owner = s.owner) (hb : s'.batch = s.batch)
    (hsweep : s'.sweep = s.sweep) (howes : p.owes = none ∨ p.owes = (s.pc (.loop i)).owes)
    (hdrops : (s.pc (.loop i)).drops = none) (hwas : (s.pc (.loop i)).busy = false) (hbusy : p.busy = false)
    (hrem : ∀ m, p ≠ .remove m) : Tidy s' := by
  refine h.keeps hpc (by simp) he hpool ho ?_ (hsweep.trans h.heartbeat.2) howes ?_
    (Pc.addFd_iff_of_not_busy hbusy hwas)
  · intro j
    rw [hb]
  · rw [hdrops, Pc.drops_of_not_busy hbusy hrem]

/-- A step of `HandleAccept` that touches no registration and not the pool. -/
theorem Tidy.accepting (h : Tidy s) (hpc : s'.pc = Function.update s.pc .main p)
    (he : ∀ i m, (s'.world.epoll i m).isSome = (s.world.epoll i m).isSome)
    (hpool : s'.world.pool = s.world.pool) (ho : s'.owner = s.owner) (hb : s'.batch = s.batch)
    (hsweep : s'.sweep = s.sweep) (howes : p.owes = none) (hdrops : p.drops = none)
    (hadd : ∀ m y j, p = .addFd m y j ↔ s.pc .main = .addFd m y j) : Tidy s' := by
  refine h.keeps hpc (by simp) he hpool ho ?_ (hsweep.trans h.heartbeat.2) (Or.inl howes)
    (hdrops.trans h.main.symm) hadd
  intro j
  rw [hb]

/-- **The step lemma.** -/
theorem tidy_step (hc : Core s) (h : Tidy s) (hok : undisturbed s l) (hs : step s l = some s') : Tidy s' := by
  obtain ⟨-, hrun, he⟩ := step_effect hs
  have hsame : Function.update s.pc Thread.main (s.pc .main) = s.pc := Function.update_eq_self _ _
  cases he with
  | tick _ | crash _ =>
      exact h.keeps (t := .main) hsame.symm (by simp) (fun _ _ => rfl) rfl rfl (fun _ => List.Sublist.refl _)
        h.heartbeat.2 (Or.inr rfl) rfl (fun _ _ _ => Iff.rfl)
  | @scan fds hpc hlock hperm =>
      have hfds : fds = [] := (step_sweep hs hok h.heartbeat.1 h.heartbeat.2).1
      exact h.keeps (t := .main) hsame.symm (by simp) (fun _ _ => rfl) rfl rfl (fun _ => List.Sublist.refl _)
        hfds (Or.inr rfl) rfl (fun _ _ _ => Iff.rfl)
  | skip hpc hb =>
      exact h.keeps (t := .main) hsame.symm (by simp) (fun _ _ => rfl) rfl rfl (batch_update_sublist hb)
        h.heartbeat.2 (Or.inr rfl) rfl (fun _ _ _ => Iff.rfl)
  | @quiet i p w errno hi ht hq =>
      have hdrops : (s.pc (.loop i)).drops = none := by
        apply Pc.drops_of_not_busy hq.wasBusy
        intro m hm
        have hentry := (h.dropping i m (by rw [hm]; rfl)).1
        rw [hq.left m hm] at hentry
        cases hentry
      refine h.moves rfl hq.core.epoll hq.core.pool rfl rfl rfl hq.owes hdrops hq.wasBusy hq.busy ?_
      rintro m rfl
      obtain ⟨-, hreg, hgone⟩ := step_remove hs ht (Function.update_self _ _ _)
      have hkeep := hq.core.epoll i m
      rw [hgone, hreg] at hkeep
      cases hkeep
  | @mark i x p ht hm hh ho hcc hl hb =>
      have hwas := Pc.busy_of_marks hm
      have hnot : ∀ m, s.pc (.loop i) ≠ .remove m := by
        intro m hpc
        rw [hpc] at hm
        cases hm
      refine h.moves rfl (fun _ _ => rfl) rfl rfl rfl rfl ho (Pc.drops_of_not_busy hwas hnot) hwas hb ?_
      rintro m rfl
      obtain ⟨hpc, -, -⟩ := step_remove hs ht (Function.update_self _ _ _)
      rw [hpc] at hm
      cases hm
  | wait hi hpc hb hd => exact tidy_wait h hpc hd
  | errorEvent hpc hb herr => exact h.enter hpc hb rfl rfl
  | lookup hl hpc hb herr hlock hx hp =>
      rcases hp with rfl | rfl
      · exact h.enter hpc hb rfl rfl
      · exact h.enter hpc hb rfl rfl
  | del hpc => exact tidy_del hc h hpc
  | find ht hlock hx hb hwho =>
      rcases hwho with ⟨-, hpc, rfl⟩ | ⟨-, -, hsweep⟩
      · exact h.drops rfl (by rw [hpc]; rfl) rfl (fun _ _ => rfl) rfl rfl rfl rfl
      · rw [h.heartbeat.2] at hsweep
        cases hsweep
  | sweepSkip hpc hsweep hx =>
      rw [h.heartbeat.2] at hsweep
      cases hsweep
  | closeSkip ht hpc _ | closeLoad ht hpc _ | closeNoFd ht hpc _ | closeStore ht hpc | closeFd ht hpc
  | closeClear ht hpc =>
      exact h.drops rfl (by rw [hpc]; rfl) rfl (fun _ _ => rfl) rfl rfl rfl rfl
  | @closeSys t n x m ht hpc =>
      have hd : (s.pc t).drops = some n := by
        rw [hpc]
        rfl
      obtain ⟨i, rfl⟩ := h.loop_of_drops hd
      obtain ⟨-, hx, -, -, hm⟩ := hc.pcAt hpc
      have hmn : m = n := hm.trans (hc.pooled n x hx).1
      refine h.drops rfl hd rfl ?_ rfl rfl rfl rfl
      rw [hmn]
      exact isSome_epoll_close (h.dropping i n hd).2.1
  | erase ht hpc =>
      obtain ⟨i, rfl⟩ := h.loop_of_drops (t := _) (n := _) (by rw [hpc]; rfl)
      exact tidy_erase h hpc
  | accept hl hpc hn hf =>
      exact h.accepting rfl (fun _ _ => rfl) rfl rfl rfl rfl rfl rfl (by simp [hpc])
  | add hl hpc hlock hadd => exact tidy_add hc h hpc hadd
  | reject hpc => exact h.accepting rfl (fun _ _ => rfl) rfl rfl rfl rfl rfl rfl (by simp [hpc])
  | rejectClose hpc =>
      obtain ⟨-, hnew, -, -⟩ := hc.pcAt hpc
      exact h.accepting rfl (isSome_epoll_close hnew.unregistered) rfl rfl rfl rfl rfl rfl (by simp [hpc])
  | @rejectDrop n x hpc =>
      obtain ⟨-, hnew, -, hfd, -⟩ := hc.pcAt hpc
      refine h.accepting rfl ?_ (closeConn_pool _ _) rfl rfl rfl rfl rfl (by simp [hpc])
      intro i m
      show ((s.world.closeConn x).epoll i m).isSome = _
      obtain ⟨-, hepoll⟩ | ⟨-, hepoll⟩ := closeConn_kernel x s.world
      · rw [hepoll]
      · rw [hepoll, hfd]
        exact isSome_epoll_close (y := x) hnew.unregistered i m
  | register hpc hf he => exact tidy_register hc h hpc
  | shutdown hpc hj hlock =>
      have hstop := (step_sweep hs hok h.heartbeat.1 h.heartbeat.2).2
      rw [hrun] at hstop
      cases hstop

/-- `HandleAccept` is in the middle of the iteration for number `n`. -/
def accepting (s : Sys) (n : ℤ) : Prop :=
  match s.pc .main with
  | .add m _ | .rejectClose m _ | .rejectDrop m _ | .addFd m _ _ => m = n
  | _ => False

/-- Loop `i` is in the middle of `HandleError(n)`. -/
def failing (s : Sys) (i : ℕ) (n : ℤ) : Prop :=
  match s.pc (.loop i) with
  | .errorLookup m | .errorDel m | .remove m | .closing m _ _ | .erase m _ => m = n
  | _ => False

theorem failing_of_drops {i : ℕ} (h : (s.pc (.loop i)).drops = some n) : failing s i n := by
  unfold failing
  cases hpc : s.pc (.loop i) with
  | remove m =>
      rw [hpc] at h
      exact Option.some.inj h
  | closing m y c =>
      rw [hpc] at h
      exact Option.some.inj h
  | erase m y =>
      rw [hpc] at h
      exact Option.some.inj h
  | _ =>
      rw [hpc] at h
      cases h

/-- **The pool and the epoll sets agree.**  In every state of every run in which no sweep finds an
idle connection and the server is not stopped: a registered number has an entry in the pool and
is registered with no other loop; an entry is registered unless `HandleAccept` or a
`HandleError` is in the middle of its number. -/
theorem registration_agrees (maxConnections threadNum : ℕ) (heartbeatTimeoutMs : ℤ) (s : Sys)
    (h : Reach step undisturbed (init maxConnections heartbeatTimeoutMs threadNum) s) :
    (∀ i n, (s.world.epoll i n).isSome = true → (s.world.pool.getConnection n).isSome = true ∧
        ∀ j, (s.world.epoll j n).isSome = true → j = i) ∧
      ∀ n x, s.world.pool.getConnection n = some x → ¬ accepting s n → (∀ i, ¬ failing s i n) →
        ∃ i, (s.world.epoll i n).isSome = true := by
  have hc : Core s := core_reach h
  have ht : Tidy s := by
    refine (h.invariant (fun s => Core s ∧ Tidy s) ⟨core_init _ _ _, tidy_init _ _ _⟩ ?_).2
    rintro s l s' ⟨hc, ht⟩ hok hs
    exact ⟨core_step hc hs, tidy_step hc ht hok hs⟩
  constructor
  · intro i n hi
    exact ⟨ht.entry i n hi, fun j hj => hc.registered_once hi hj⟩
  · intro n x hx hacc hfail
    rcases ht.pooled n x hx with hr | ⟨j, hj⟩ | ⟨i, hi⟩
    · exact ⟨_, hr⟩
    · apply absurd _ hacc
      unfold accepting
      rw [hj]
    · exact absurd (failing_of_drops hi) (hfail i)

/-- A connection fails; its number is accepted again between the `close` and the erasure of the
entry, and the new connection goes to the other loop. -/
def reusedNumber : List Label :=
  [.accept 5, .main, .main, .wait 0 [(5, { epollhup := true })], .loop 0, .loop 0, .loop 0, .scan [], .loop 0,
    .loop 0, .loop 0, .loop 0, .loop 0, .accept 5, .loop 0, .loop 0, .main, .main]

theorem registration_agrees_reused :
    ∃ s, run step (init 8 1000 2) reusedNumber = some s ∧ s.world.pool.getConnection 5 = some 1 ∧
      (s.world.epoll 1 5).isSome = true ∧ ∀ j, (s.world.epoll j 5).isSome = true → j = 1 := by
  obtain ⟨s, hr, hpool, hreg⟩ := exists_of_any (o := run step (init 8 1000 2) reusedNumber)
    (fun s => s.world.pool.getConnection 5 = some 1 ∧ (s.world.epoll 1 5).isSome = true) (by decide +kernel)
  have hok : Along step undisturbed (init 8 1000 2) reusedNumber := by decide +kernel
  exact ⟨s, hr, hpool, hreg, ((registration_agrees 8 2 1000 s (hok.reach hr)).1 1 5 hreg).2⟩

end steps

end Sys

end TcpServer
