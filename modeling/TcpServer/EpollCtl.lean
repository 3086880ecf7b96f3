import TcpServer.Confinement

/-! # No `epoll_ctl` fails

`Epoll::AddFd`, `ModifyFd` and `RemoveFd` throw when `epoll_ctl` fails, and no thread catches
the exception.  `CtlSafe` asks that the process has not died of it and that no thread is about
to issue an `epoll_ctl` that fails.

The loops keep their side: a loop removes its own registration only when it is done with the
number.  What can go wrong is a `close` behind a loop's back.  `ctlSafe_of_reach` asks for
three things:

* no `close(m)` runs while a loop is in a handler of `m` or has `EPOLLERR` or `EPOLLHUP` for
  `m` in its batch, or while `HandleAccept` is about to register `m` (`pulls`);
* no connection is admitted under a number for which another loop has an event waiting
  (`misdirects`);
* no loop takes a read or write event of a number that `HandleAccept` has put into the pool but
  not yet registered (`overtakes`). -/

namespace TcpServer

namespace World

variable {α : Type}

theorem isSome_setInterest {i j : ℕ} {n m : ℤ} {it : Interest} {w : World α} (h : (w.epoll j m).isSome) :
    ((w.setInterest i n (some it)).epoll j m).isSome := by
  by_cases hm : m = n
  · subst hm
    by_cases hj : j = i
    · subst hj
      rw [epoll_setInterest_self]
      rfl
    · simpa [setInterest, hj] using h
  · rw [epoll_setInterest_ne _ w hm]
    exact h

end World

namespace Sys

open World Transition

/-- The process is alive and the next `epoll_ctl` of every thread succeeds. -/
def CtlSafe (s : Sys) : Prop := s.world.crashed = false ∧ ¬ CtlFails s

/-- `HandleAccept` is about to register `m`. -/
def registering (s : Sys) (m : ℤ) : Bool :=
  match s.pc .main with
  | .addFd n _ _ => decide (n = m)
  | _ => false

/-- An event that `HandleEvents` passes to `HandleError`. -/
def failureEvent (n : ℤ) (p : ℤ × Events) : Bool := decide (p.1 = n) && (p.2.epollerr || p.2.epollhup)

/-- `RemoveConnection` is going to close a number that a handler still works with, that has an
error event waiting, or that is about to be registered. -/
def pulls (s : Sys) (l : Label) : Bool :=
  match l.thread.map s.pc with
  | some (.closing _ _ (.sys m)) =>
      decide (∃ i < s.loops, (s.pc (.loop i)).owes = some m ∨ (s.batch i).any (failureEvent m) = true) ||
        s.registering m
  | _ => false

/-- A loop is going to look up the connection for an event of a number that `HandleAccept` is
about to register. -/
def overtakes (s : Sys) : Label → Bool
  | .loop i =>
      match s.pc (.loop i), s.batch i with
      | .idle, (n, ev) :: _ => !(ev.epollerr || ev.epollhup) && s.registering n
      | _, _ => false
  | _ => false

/-- The step takes none of the three ways a registration goes missing. -/
def ctlOrder (s : Sys) (l : Label) : Prop :=
  pulls s l = false ∧ misdirects s l = false ∧ overtakes s l = false

instance (s : Sys) (l : Label) : Decidable (ctlOrder s l) :=
  inferInstanceAs (Decidable (pulls s l = false ∧ misdirects s l = false ∧ overtakes s l = false))

/-- The pooled connection `x` has no registration because its registration is to come or its
removal is under way. -/
def Settling (s : Sys) (n : ℤ) (x : Client) : Prop :=
  (∃ j, s.pc .main = .addFd n x j) ∨ s.pc (.loop (s.owner x)) = .remove n ∨ ∃ t, (s.pc t).removes = some x

/-- The invariant: what a thread is going to change is registered. -/
structure Registered (s : Sys) : Prop where
  owed : ∀ i < s.loops, ∀ n, (s.pc (.loop i)).owes = some n → (s.world.epoll i n).isSome
  errors : ∀ i < s.loops, ∀ n ev, (n, ev) ∈ s.batch i → (ev.epollerr || ev.epollhup) = true →
    (s.world.epoll i n).isSome
  distinct : ∀ i, ((s.pc (.loop i)).owes.toList ++ (s.batch i).map Prod.fst).Nodup
  adding : ∀ n x j, s.pc .main = .addFd n x j → (s.world.files n).isSome
  pooled : ∀ n x, s.world.pool.getConnection n = some x →
    (s.world.epoll (s.owner x) n).isSome ∨ Settling s n x

section steps

variable {s s' : Sys} {l : Label} {t : Thread} {p : Pc} {n : ℤ} {x : Client}

theorem Registered.not_ctlFails (h : Registered s) (hc : Core s) : ¬ CtlFails s := by
  rintro (⟨n, x, j, hpc, hbad⟩ | ⟨i, n, hi, hpc, hbad⟩)
  · obtain ⟨-, hnew, -⟩ := hc.pcAt hpc
    exact hbad ⟨h.adding n x j hpc, hnew.unregistered j⟩
  · have howes : (s.pc (.loop i)).owes = some n := by
      rcases hpc with ⟨x, hpc⟩ | hpc
      · rw [hpc]
        rfl
      · rw [hpc]
        rfl
    have hreg := h.owed i hi n howes
    obtain ⟨y, hy, -⟩ := hc.epoll i n hreg
    exact hbad ⟨by rw [hy]; rfl, hreg⟩

/-- A connection keeps its excuse when the thread that moves keeps giving it. -/
theorem Settling.move (h : Settling s n x) (hpc : s'.pc = Function.update s.pc t p) (ho : s'.owner x = s.owner x)
    (hadd : ∀ j, s.pc t = .addFd n x j → p = .addFd n x j) (hrem : s.pc t = .remove n → p = .remove n)
    (hcl : (s.pc t).removes = some x → p.removes = some x) : Settling s' n x := by
  have hmove : ∀ (P : Pc → Prop) (u : Thread), (P (s.pc t) → P p) → P (s.pc u) → P (s'.pc u) := by
    intro P u hP hu
    rcases pc_cases hpc u with ⟨rfl, hu'⟩ | ⟨-, hu'⟩
    · rw [hu']
      exact hP hu
    · rw [hu']
      exact hu
  rcases h with ⟨j, hj⟩ | hr | ⟨u, hu⟩
  · exact Or.inl ⟨j, hmove (· = .addFd n x j) .main (hadd j) hj⟩
  · right
    left
    rw [ho]
    exact hmove (· = .remove n) _ hrem hr
  · exact Or.inr (Or.inr ⟨u, hmove (fun q => q.removes = some x) u hcl hu⟩)

/-- Steps that keep every registration and bring no new event. -/
theorem Registered.keeps (h : Registered s) (hpc : s'.pc = Function.update s.pc t p)
    (he : ∀ i m, (s.world.epoll i m).isSome → (s'.world.epoll i m).isSome)
    (hb : ∀ i, (s'.batch i).Sublist (s.batch i)) (hl : s'.loops = s.loops)
    (hpool : ∀ m y, s'.world.pool.getConnection m = some y → s.world.pool.getConnection m = some y)
    (ho : s'.owner = s.owner) (howes : p.owes = none ∨ p.owes = (s.pc t).owes)
    (hnew : ∀ m y j, p = .addFd m y j → s.pc t = .addFd m y j)
    (hfiles : ∀ m y j, s'.pc .main = .addFd m y j → (s.world.files m).isSome → (s'.world.files m).isSome)
    (hset : ∀ m y, s'.world.pool.getConnection m = some y → Settling s m y →
      (s'.world.epoll (s.owner y) m).isSome ∨ Settling s' m y) : Registered s' := by
  have hsub : ∀ i, (s'.pc (.loop i)).owes = none ∨ (s'.pc (.loop i)).owes = (s.pc (.loop i)).owes := by
    intro i
    rcases pc_cases hpc (.loop i) with ⟨rfl, hi⟩ | ⟨-, hi⟩
    · rw [hi]
      exact howes
    · rw [hi]
      exact Or.inr rfl
  refine ⟨?_, ?_, ?_, ?_, ?_⟩
  · intro i hi m hm
    rw [hl] at hi
    rcases hsub i with hs | hs
    · rw [hs] at hm
      cases hm
    · rw [hs] at hm
      exact he i m (h.owed i hi m hm)
  · intro i hi m ev hev herr
    rw [hl] at hi
    exact he i m (h.errors i hi m ev ((hb i).subset hev) herr)
  · intro i
    refine (h.distinct i).sublist (List.Sublist.append ?_ ((hb i).map Prod.fst))
    rcases hsub i with hs | hs
    · rw [hs]
      exact List.nil_sublist _
    · rw [hs]
  · intro m y j hm
    refine hfiles m y j hm (h.adding m y j ?_)
    rcases pc_cases hpc .main with ⟨rfl, hi⟩ | ⟨-, hi⟩
    · rw [hi] at hm
      exact hnew m y j hm
    · rwa [hi] at hm
  · intro m y hy
    rw [ho]
    rcases h.pooled m y (hpool m y hy) with hr | hr
    · exact Or.inl (he _ m hr)
    · exact hset m y hy hr

/-- Steps of a thread that does not register, and that removes what it removed before. -/
theorem Registered.moves (h : Registered s) (hpc : s'.pc = Function.update s.pc t p)
    (he : ∀ i m, (s.world.epoll i m).isSome → (s'.world.epoll i m).isSome)
    (hb : ∀ i, (s'.batch i).Sublist (s.batch i)) (hl : s'.loops = s.loops)
    (hpool : ∀ m y, s'.world.pool.getConnection m = some y → s.world.pool.getConnection m = some y)
    (ho : s'.owner = s.owner) (howes : p.owes = none ∨ p.owes = (s.pc t).owes)
    (hf : ∀ m, (s.world.files m).isSome → (s'.world.files m).isSome)
    (hadd : ∀ m y j, p = .addFd m y j ↔ s.pc t = .addFd m y j)
    (hrem : ∀ m y, s'.world.pool.getConnection m = some y → s.pc t = .remove m → p = .remove m)
    (hcl : ∀ m y, s'.world.pool.getConnection m = some y → (s.pc t).removes = some y → p.removes = some y) :
    Registered s' := by
  refine h.keeps hpc he hb hl hpool ho howes (fun m y j => (hadd m y j).mp) (fun m _ _ _ => hf m) ?_
  intro m y hy hs
  right
  exact hs.move hpc (by rw [ho]) (fun j hj => (hadd m y j).mpr hj) (hrem m y hy) (hcl m y hy)

/-- Loop `i` takes an event of a registered number and enters its handler. -/
theorem Registered.enter {i : ℕ} {ev : Events} {rest : List (ℤ × Events)} (h : Registered s)
    (hpc : s.pc (.loop i) = .idle) (hb : s.batch i = (n, ev) :: rest) (hp : p.owes = some n)
    (hreg : i < s.loops → (s.world.epoll i n).isSome) : Registered ((s.setBatch i rest).goto (.loop i) p) := by
  refine ⟨?_, ?_, ?_, ?_, ?_⟩
  · intro j hj m hm
    by_cases hji : j = i
    · subst hji
      rw [goto_pc, Function.update_self, hp] at hm
      cases hm
      exact hreg hj
    · rw [goto_pc, Function.update_of_ne (by simpa using hji)] at hm
      exact h.owed j hj m hm
  · intro j hj m e hev herr
    exact h.errors j hj m e ((batch_update_sublist hb j).subset hev) herr
  · intro j
    by_cases hji : j = i
    · subst hji
      have hd := h.distinct j
      rw [hpc, hb] at hd
      rw [goto_pc, Function.update_self, hp, goto_batch, setBatch_batch, Function.update_self]
      exact hd
    · rw [goto_pc, Function.update_of_ne (by simpa using hji), goto_batch, setBatch_batch,
        Function.update_of_ne hji]
      exact h.distinct j
  · intro m y j hm
    rw [goto_pc, Function.update_of_ne (by simp)] at hm
    exact h.adding m y j hm
  · intro m y hy
    rcases h.pooled m y hy with hr | hr
    · exact Or.inl hr
    · right
      refine hr.move (t := .loop i) (p := p) rfl rfl ?_ ?_ ?_
      · simp [hpc]
      · simp [hpc]
      · simp [hpc, Pc.removes]

/-- `close` takes the number from every epoll set, and nobody needs the number any more. -/
theorem registered_closeSys {m : ℤ} (hc : Core s) (h : Registered s) (ht : l.thread = some t)
    (hpc : s.pc t = .closing n x (.sys m)) (hok : pulls s l = false) :
    Registered ((s.setWorld (s.world.close x m)).goto t (.closing n x .clear)) := by
  obtain ⟨-, hx, -, -, rfl⟩ := hc.pcAt hpc
  have hn := (hc.pooled n x hx).1
  rw [hn] at hpc ⊢
  simp only [pulls, ht, Option.map_some, hpc, Bool.or_eq_false_iff, decide_eq_false_iff_not, not_exists,
    not_and, not_or, Bool.not_eq_true] at hok
  obtain ⟨hloops, hreg⟩ := hok
  obtain ⟨s', hs'⟩ : ∃ s', s' = (s.setWorld (s.world.close x n)).goto t (.closing n x .clear) := ⟨_, rfl⟩
  have hpc' : s'.pc = Function.update s.pc t (.closing n x .clear) := by rw [hs']; rfl
  have hworld : s'.world = s.world.close x n := by rw [hs']; rfl
  have howes : ∀ i, (s'.pc (.loop i)).owes = none ∨ s'.pc (.loop i) = s.pc (.loop i) := by
    intro i
    rcases pc_cases hpc' (.loop i) with ⟨-, hi⟩ | ⟨-, hi⟩
    · rw [hi]
      exact Or.inl rfl
    · exact Or.inr hi
  have hbatch : s'.batch = s.batch := by rw [hs']; rfl
  have hlen : s'.loops = s.loops := by rw [hs']; rfl
  rw [← hs']
  refine ⟨?_, ?_, ?_, ?_, ?_⟩
  · intro i hi k hk
    rw [hlen] at hi
    rcases howes i with ho | ho
    · rw [ho] at hk
      cases hk
    · rw [ho] at hk
      rw [hworld, epoll_close_ne]
      · exact h.owed i hi k hk
      · rintro rfl
        exact (hloops i hi).1 hk
  · intro i hi k ev hev herr
    rw [hlen] at hi
    rw [hbatch] at hev
    rw [hworld, epoll_close_ne]
    · exact h.errors i hi k ev hev herr
    · rintro rfl
      have hany := (hloops i hi).2
      rw [List.any_eq_false] at hany
      apply hany (k, ev) hev
      simp only [failureEvent, herr, decide_true, Bool.and_self]
  · intro i
    rw [hbatch]
    rcases howes i with ho | ho
    · rw [ho]
      exact (h.distinct i).sublist (List.sublist_append_right _ _)
    · rw [ho]
      exact h.distinct i
  · intro k y j hk
    rcases pc_cases hpc' .main with ⟨-, hi⟩ | ⟨-, hi⟩
    · rw [hi] at hk
      cases hk
    · rw [hi] at hk
      rw [hworld, files_close_ne]
      · exact h.adding k y j hk
      · rintro rfl
        simp only [registering, hk, decide_true] at hreg
        cases hreg
  · intro k y hy
    rw [hworld] at hy ⊢
    have howner : s'.owner = s.owner := by rw [hs']; rfl
    rw [howner]
    by_cases hk : k = n
    · subst hk
      have hyx : y = x := Option.some.inj (hy.symm.trans hx)
      subst hyx
      refine Or.inr (Or.inr (Or.inr ⟨t, ?_⟩))
      rw [hpc', Function.update_self]
      rfl
    · rw [epoll_close_ne _ _ hk]
      rcases h.pooled k y hy with hr | hr
      · exact Or.inl hr
      · right
        exact hr.move (t := t) hpc' (by rw [howner]) (by simp [hpc]) (by simp [hpc])
          (by simp [hpc, Pc.removes])

theorem registered_wait {i : ℕ} {evs : List (ℤ × Events)} (h : Registered s) (hpc : s.pc (.loop i) = .idle)
    (hd : s.world.deliverable i evs = true) :
    Registered ((s.setWorld (s.world.deliver i evs)).setBatch i evs) := by
  have hreg : ∀ j m, (s.world.epoll j m).isSome → ((s.world.deliver i evs).epoll j m).isSome := by
    intro j m hm
    rw [isSome_epoll_deliver]
    exact hm
  refine ⟨fun j hj m hm => hreg j m (h.owed j hj m hm), ?_, ?_, h.adding, ?_⟩
  · intro j hj m ev hev herr
    by_cases hji : j = i
    · subst hji
      rw [setBatch_batch, Function.update_self] at hev
      exact hreg j m (isSome_of_deliverable hd hev)
    · rw [setBatch_batch, Function.update_of_ne hji] at hev
      exact hreg j m (h.errors j hj m ev hev herr)
  · intro j
    by_cases hji : j = i
    · subst hji
      rw [setBatch_batch, Function.update_self, setBatch_pc, setWorld_pc, hpc]
      exact nodup_of_deliverable hd
    · rw [setBatch_batch, Function.update_of_ne hji]
      exact h.distinct j
  · intro m y hy
    exact (h.pooled m y hy).imp (hreg _ m) id

/-- A number a loop looks up successfully is registered with the loop: its connection belongs to
the loop, `HandleAccept` has registered it, and nobody is removing it. -/
theorem registered_of_lookup {i : ℕ} {ev : Events} {rest : List (ℤ × Events)} (hc : Core s) (hown : Confining s)
    (h : Registered s) (hok : overtakes s (.loop i) = false) (hpc : s.pc (.loop i) = .idle)
    (hb : s.batch i = (n, ev) :: rest) (herr : (ev.epollerr || ev.epollhup) = false) (hlock : s.lock = none)
    (hx : s.world.pool.getConnection n = some x) : (s.world.epoll i n).isSome := by
  have howner := hown.pending i n ev (by rw [hb]; exact List.mem_cons_self) herr x hx
  rcases h.pooled n x hx with hr | ⟨j, hj⟩ | hr | ⟨u, hu⟩
  · rwa [howner] at hr
  · simp only [overtakes, registering, hpc, hb, hj, herr, decide_true] at hok
    cases hok
  · rw [howner, hpc] at hr
    cases hr
  · rw [hc.locked_of_removes hu] at hlock
    cases hlock

/-- `RemoveFd` in `HandleError`: the loop itself goes on to remove the connection. -/
theorem registered_del {i : ℕ} (h : Registered s) (hpc : s.pc (.loop i) = .errorDel n) :
    Registered ((s.setWorld (s.world.setInterest i n none)).goto (.loop i) (.remove n)) := by
  have hne : ∀ j m, (j = i → m ≠ n) → (s.world.epoll j m).isSome →
      ((s.world.setInterest i n none).epoll j m).isSome := by
    intro j m hjm hm
    by_cases hmn : m = n
    · have hji : j ≠ i := fun hji => hjm hji hmn
      simpa [setInterest, hji] using hm
    · rw [epoll_setInterest_ne none s.world hmn]
      exact hm
  have howes : (s.pc (.loop i)).owes = some n := by
    rw [hpc]
    rfl
  refine ⟨?_, ?_, ?_, ?_, ?_⟩
  · intro j hj m hm
    by_cases hji : j = i
    · subst hji
      rw [goto_pc, Function.update_self] at hm
      cases hm
    · rw [goto_pc, Function.update_of_ne (by simpa using hji)] at hm
      exact hne j m (fun h => absurd h hji) (h.owed j hj m hm)
  · intro j hj m ev hev herr
    refine hne j m ?_ (h.errors j hj m ev hev herr)
    rintro rfl rfl
    have hd := h.distinct j
    rw [howes] at hd
    exact (List.nodup_cons.mp hd).1 (List.mem_map_of_mem (f := Prod.fst) hev)
  · intro j
    by_cases hji : j = i
    · subst hji
      rw [goto_pc, Function.update_self]
      exact (h.distinct j).sublist (List.sublist_append_right _ _)
    · rw [goto_pc, Function.update_of_ne (by simpa using hji)]
      exact h.distinct j
  · intro m y j hm
    rw [goto_pc, Function.update_of_ne (by simp)] at hm
    exact h.adding m y j hm
  · intro m y hy
    by_cases hm : m = n ∧ s.owner y = i
    · obtain ⟨rfl, rfl⟩ := hm
      right
      right
      left
      rw [goto_pc]
      exact Function.update_self _ _ _
    · rcases h.pooled m y hy with hr | hr
      · exact Or.inl (hne _ m (fun hi hmn => hm ⟨hmn, hi⟩) hr)
      · right
        exact hr.move (t := .loop i) (p := .remove n) rfl rfl (by simp [hpc]) (by simp [hpc])
          (by simp [hpc, Pc.removes])

theorem registered_find {sweep : List ℤ} (h : Registered s) (hx : s.world.pool.getConnection n = some x)
    (hb : (s.pc t).busy = false) (hrem : ∀ m, s.pc t = .remove m → m = n) :
    Registered { s with lock := some t, sweep := sweep, pc := Function.update s.pc t (.closing n x .load) } := by
  refine h.keeps (t := t) (p := .closing n x .load) rfl (fun _ _ => id) (fun _ => List.Sublist.refl _) rfl
    (fun _ _ => id) rfl
    (Or.inl rfl) (by simp) (fun _ _ _ _ => id) ?_
  intro m y hy hset
  right
  by_cases hmn : m = n
  · subst hmn
    have hyx : y = x := Option.some.inj (hy.symm.trans hx)
    subst hyx
    exact Or.inr (Or.inr ⟨t, by simp only [Function.update_self]; rfl⟩)
  · refine hset.move (t := t) (p := .closing n x .load) rfl rfl ?_ ?_ ?_
    · intro j hj
      rw [hj] at hb
      cases hb
    · intro hr
      exact absurd (hrem m hr) hmn
    · intro hr
      rw [Pc.removes_of_not_busy hb] at hr
      cases hr

/-- The new connection is in the pool, and `HandleAccept` is about to register it. -/
theorem registered_add {pool : ConnectionPool} (hc : Core s) (h : Registered s) (hpc : s.pc .main = .add n x)
    (hadd : s.world.pool.addConnection (s.world.conns x).fd x = (pool, true)) :
    Registered (s.addStep n x pool) := by
  obtain ⟨-, hnew, hadm, hopen⟩ := hc.pcAt hpc
  obtain ⟨-, hself, hne⟩ := ConnectionPool.addConnection_true hadd
  have hfd : (s.world.conns x).fd = n := hopen.fd.trans hnew.num
  have hloop : ∀ i, (s.addStep n x pool).pc (.loop i) = s.pc (.loop i) := by
    intro i
    rw [addStep_pc, Function.update_of_ne (by simp)]
  refine ⟨?_, h.errors, ?_, ?_, ?_⟩
  · intro i hi m hm
    rw [hloop] at hm
    exact h.owed i hi m hm
  · intro i
    rw [hloop]
    exact h.distinct i
  · intro m y j hm
    rw [addStep_pc, Function.update_self] at hm
    cases hm
    have hfile := hopen.file
    rw [hnew.num] at hfile
    rw [addStep_world, setPool_files, hfile]
    rfl
  · intro m y hy
    by_cases hm : m = n
    · have hyx : y = x := by
        have hy' : pool.getConnection m = some y := hy
        rw [hm, ← hfd, hself] at hy'
        exact (Option.some.inj hy').symm
      rw [hm, hyx]
      right
      left
      exact ⟨s.nextLoopIdx, by rw [addStep_pc, Function.update_self]⟩
    · have hy' : s.world.pool.getConnection m = some y := (hne m (by rw [hfd]; exact hm)).symm.trans hy
      have hyx : y ≠ x := by
        rintro rfl
        rw [(hc.pooled m y hy').2.1] at hadm
        cases hadm
      have hkeep : (s.addStep n x pool).owner y = s.owner y := by
        rw [addStep_owner, Function.update_of_ne hyx]
      rcases h.pooled m y hy' with hr | hr
      · left
        rw [hkeep]
        exact hr
      · right
        exact hr.move (t := .main) rfl hkeep (by simp [hpc]) (by simp [hpc]) (by simp [hpc, Pc.removes])

/-- Steps of a loop outside `RemoveConnection`. -/
theorem Registered.outside (h : Registered s) (hpc : s'.pc = Function.update s.pc t p)
    (he : ∀ i m, (s.world.epoll i m).isSome → (s'.world.epoll i m).isSome) (hb : s'.batch = s.batch)
    (hl : s'.loops = s.loops)
    (hpool : ∀ m y, s'.world.pool.getConnection m = some y → s.world.pool.getConnection m = some y)
    (ho : s'.owner = s.owner) (howes : p.owes = none ∨ p.owes = (s.pc t).owes)
    (hf : ∀ m, (s.world.files m).isSome → (s'.world.files m).isSome)
    (hwas : (s.pc t).busy = false) (hbusy : p.busy = false)
    (hleft : ∀ m, s.pc t = .remove m → s'.world.pool.getConnection m = none) : Registered s' := by
  refine h.moves hpc he (fun i => by rw [hb]) hl hpool ho howes hf (Pc.addFd_iff_of_not_busy hbusy hwas) ?_ ?_
  · intro m y hy hm
    rw [hleft m hm] at hy
    cases hy
  · intro m y hy hr
    rw [Pc.removes_of_not_busy hwas] at hr
    cases hr

theorem registered_erase (hc : Core s) (h : Registered s) (hpc : s.pc t = .erase n x) :
    Registered (s.eraseStep t n x) := by
  obtain ⟨-, hx, -⟩ := hc.pcAt hpc
  refine h.moves rfl (fun _ _ => id) (fun _ => List.Sublist.refl _) rfl
    (fun _ _ => ConnectionPool.getConnection_of_erase) rfl (Or.inl rfl) (fun _ => id) (by simp [hpc])
    (by simp [hpc]) ?_
  intro m y hy hr
  -- the erased object has no other entry
  have hyx : y = x := by
    rw [hpc] at hr
    exact (Option.some.inj hr).symm
  subst hyx
  have hm := (hc.pooled m y (ConnectionPool.getConnection_of_erase hy)).1
  rw [(hc.pooled n y hx).1] at hm
  subst hm
  rw [eraseStep_world, setPool_pool, ConnectionPool.getConnection_erase_self] at hy
  cases hy

theorem registered_accept (h : Registered s) (hpc : s.pc .main = .idle) (hfree : s.world.files n = none) :
    Registered ((s.setWorld (s.world.newClient n)).goto .main (.add n s.world.accepted)) := by
  refine h.moves rfl (fun _ _ => id) (fun _ => List.Sublist.refl _) rfl (fun _ _ => id) rfl (Or.inl rfl) ?_
    (by simp [hpc]) (by simp [hpc]) (by simp [hpc, Pc.removes])
  intro m hm
  rw [goto_world, setWorld_world, files_newClient_ne]
  · exact hm
  · rintro rfl
    rw [hfree] at hm
    cases hm

theorem registered_rejectClose (hc : Core s) (h : Registered s) (hpc : s.pc .main = .rejectClose n x) :
    Registered ((s.setWorld (s.world.close x n)).goto .main (.rejectDrop n x)) := by
  obtain ⟨-, hnew, -⟩ := hc.pcAt hpc
  refine h.keeps (t := .main) (p := .rejectDrop n x) rfl ?_ (fun _ => List.Sublist.refl _) rfl (fun _ _ => id)
    rfl (Or.inl rfl) (by simp) ?_ ?_
  · intro i m hm
    rw [goto_world, setWorld_world, epoll_close_ne]
    · exact hm
    · rintro rfl
      rw [hnew.unregistered] at hm
      cases hm
  · intro m y j hm
    rw [goto_pc, Function.update_self] at hm
    cases hm
  · intro m y hy hset
    right
    exact hset.move (t := .main) (p := .rejectDrop n x) rfl rfl (by simp [hpc]) (by simp [hpc])
      (by simp [hpc, Pc.removes])

theorem registered_rejectDrop (hc : Core s) (h : Registered s) (hpc : s.pc .main = .rejectDrop n x) :
    Registered ((s.setWorld (s.world.closeConn x)).goto .main .idle) := by
  obtain ⟨-, -, -, hfd, hfree⟩ := hc.pcAt hpc
  refine h.moves rfl ?_ (fun _ => List.Sublist.refl _) rfl ?_ rfl (Or.inl rfl) ?_ (by simp [hpc]) (by simp [hpc])
    (by simp [hpc, Pc.removes])
  · intro i m hm
    rw [goto_world, setWorld_world, (closeConn_kernel_ne _).2]
    · exact hm
    · rintro rfl
      obtain ⟨y, hy, -⟩ := hc.epoll i _ hm
      rw [hfd, hfree] at hy
      cases hy
  · intro m y hy
    rwa [goto_world, setWorld_world, closeConn_pool] at hy
  · intro m hm
    rw [goto_world, setWorld_world, (closeConn_kernel_ne _).1]
    · exact hm
    · rintro rfl
      rw [hfd, hfree] at hm
      cases hm

theorem registered_register {j : ℕ} (hc : Core s) (h : Registered s) (hpc : s.pc .main = .addFd n x j) :
    Registered ((s.setWorld (s.world.setInterest j n (some ⟨inOutMask, true⟩))).goto .main .idle) := by
  obtain ⟨-, -, -, hj, -⟩ := hc.pcAt hpc
  refine h.keeps (t := .main) (p := .idle) rfl ?_ (fun _ => List.Sublist.refl _) rfl (fun _ _ => id) rfl
    (Or.inl rfl) (by simp) (fun _ _ _ _ => id) ?_
  · intro i m hm
    exact isSome_setInterest hm
  · intro m y hy hset
    by_cases hm : m = n ∧ y = x
    · left
      obtain ⟨rfl, rfl⟩ := hm
      rw [hj, goto_world, setWorld_world, epoll_setInterest_self]
      rfl
    · right
      refine hset.move (t := .main) (p := .idle) rfl rfl ?_ (by simp [hpc]) (by simp [hpc, Pc.removes])
      intro k hk
      rw [hpc] at hk
      cases hk
      exact absurd ⟨rfl, rfl⟩ hm

/-- `Shutdown` runs when the loops have been joined. -/
theorem registered_shutdown (h : Registered s) (hpc : s.pc .main = .idle) (hj : s.joined) :
    Registered { s with world := shutdownWorld s.world, stopped := true } := by
  refine ⟨?_, ?_, h.distinct, ?_, ?_⟩
  · intro i hi m hm
    have hm' : (s.pc (.loop i)).owes = some m := hm
    rw [(hj.1 i hi).1] at hm'
    cases hm'
  · intro i hi m ev hev
    have hev' : (m, ev) ∈ s.batch i := hev
    rw [(hj.1 i hi).2] at hev'
    cases hev'
  · intro m y j hm
    have hm' : s.pc .main = .addFd m y j := hm
    rw [hpc] at hm'
    cases hm'
  · intro m y hy
    cases hy

theorem registered_step (hc : Core s) (hown : Confining s) (h : Registered s) (hok : ctlOrder s l)
    (hs : step s l = some s') : Registered s' := by
  obtain ⟨-, -, he⟩ := step_effect hs
  have hrefl : ∀ i, (s.batch i).Sublist (s.batch i) := fun i => List.Sublist.refl _
  have hsame : Function.update s.pc Thread.main (s.pc .main) = s.pc := Function.update_eq_self _ _
  cases he with
  | tick _ | scan _ _ _ =>
      exact h.moves hsame.symm (fun _ _ => id) hrefl rfl (fun _ _ => id) rfl (Or.inr rfl) (fun _ => id)
        (fun _ _ _ => Iff.rfl) (fun _ _ _ => id) (fun _ _ _ => id)
  | skip hpc hb =>
      refine h.moves hsame.symm (fun _ _ => id) ?_ rfl (fun _ _ => id) rfl (Or.inr rfl) (fun _ => id)
        (fun _ _ _ => Iff.rfl) (fun _ _ _ => id) (fun _ _ _ => id)
      intro j
      exact batch_update_sublist hb j
  | closeSkip _ hpc _ | closeLoad _ hpc _ | closeNoFd _ hpc _ | closeStore _ hpc | closeFd _ hpc
  | closeClear _ hpc | reject hpc | sweepSkip hpc _ _ =>
      exact h.moves rfl (fun _ _ => id) hrefl rfl (fun _ _ => id) rfl (Or.inl rfl) (fun _ => id)
        (by simp [hpc]) (by simp [hpc]) (by simp [hpc, Pc.removes])
  | crash hf => exact absurd hf (h.not_ctlFails hc)
  | quiet hi ht hq =>
      refine h.outside rfl ?_ rfl rfl ?_ rfl hq.owes ?_ hq.wasBusy hq.busy ?_
      · intro i m hm
        rw [hq.core.epoll]
        exact hm
      · intro m y hy
        rwa [hq.core.pool] at hy
      · intro m hm
        rw [hq.core.files]
        exact hm
      · intro m hpc
        rw [hq.core.pool, hq.left m hpc]
  | mark ht hm hh ho hcc hl hb =>
      refine h.outside rfl (fun _ _ => id) rfl rfl (fun _ _ => id) rfl ho (fun _ => id) (Pc.busy_of_marks hm)
        hb ?_
      intro m hpc
      rw [hpc] at hm
      cases hm
  | wait hi hpc hb hd => exact registered_wait h hpc hd
  | @errorEvent i n ev rest hpc hb herr =>
      refine h.enter hpc hb rfl ?_
      intro hi
      exact h.errors i hi n ev (by rw [hb]; exact List.mem_cons_self) herr
  | @lookup i n ev rest x p hl hpc hb herr hlock hx hp =>
      subst hl
      have hreg := registered_of_lookup hc hown h hok.2.2 hpc hb herr hlock hx
      rcases hp with rfl | rfl
      · exact h.enter hpc hb rfl (fun _ => hreg)
      · exact h.enter hpc hb rfl (fun _ => hreg)
  | del hpc => exact registered_del h hpc
  | find ht hlock hx hb hsw =>
      refine registered_find h hx hb ?_
      intro m hm
      rcases hsw with ⟨-, hpc, -⟩ | ⟨-, hpc, -⟩
      · rw [hpc] at hm
        exact (Pc.remove.inj hm).symm
      · rw [hpc] at hm
        cases hm
  | erase ht hpc => exact registered_erase hc h hpc
  | accept hl hpc hn hfree => exact registered_accept h hpc hfree
  | rejectClose hpc => exact registered_rejectClose hc h hpc
  | rejectDrop hpc => exact registered_rejectDrop hc h hpc
  | register hpc hopen hnone => exact registered_register hc h hpc
  | add hl hpc hlock hadd => exact registered_add hc h hpc hadd
  | closeSys ht hpc => exact registered_closeSys hc h ht hpc hok.1
  | shutdown hpc hj hlock => exact registered_shutdown h hpc hj

theorem crashed_foldl_closeConn (es : List (Sigma fun _ : ℤ => Client)) (w : World Byte) :
    (es.foldl (fun w e => w.closeConn e.2) w).crashed = w.crashed := by
  induction es generalizing w with
  | nil => rfl
  | cons e es ih =>
      rw [List.foldl_cons, ih]
      exact closeConn_crashed e.2 w

/-- Only a failing `epoll_ctl` ends the process. -/
theorem crashed_step (hf : ¬ CtlFails s) (hs : step s l = some s') : s'.world.crashed = false := by
  obtain ⟨hcr, -, he⟩ := step_effect hs
  cases he with
  | quiet hi ht hq => exact hq.core.crashed.trans hcr
  | crash h => exact absurd h hf
  | rejectDrop hpc => exact (closeConn_crashed _ _).trans hcr
  | shutdown hpc hj hlock => exact (crashed_foldl_closeConn _ _).trans hcr
  | _ => exact hcr

/-- **No `epoll_ctl` fails.**  Every state of a run that keeps to `ctlOrder` is `CtlSafe`: each
`MOD` and `DEL` of a handler targets an open number registered with its loop, each `ADD` of
`HandleAccept` an open number not yet registered, and no exception leaves a thread. -/
theorem ctlSafe_of_reach {maxConnections threadNum : ℕ} {heartbeatTimeoutMs : ℤ}
    (h : Reach step ctlOrder (init maxConnections heartbeatTimeoutMs threadNum) s) : CtlSafe s := by
  have hinit : Registered (init maxConnections heartbeatTimeoutMs threadNum) := by
    refine ⟨?_, ?_, ?_, ?_, ?_⟩
    · intro i hi n hn
      cases hn
    · intro i hi n ev hev
      cases hev
    · intro i
      exact List.nodup_nil
    · intro n x j hpc
      cases hpc
    · intro n x hx
      cases hx
  have hinv := h.invariant (fun s => (Core s ∧ Confining s ∧ Registered s) ∧ s.world.crashed = false)
    ⟨⟨core_init _ _ _, confining_init _ _ _, hinit⟩, rfl⟩ ?_
  · exact ⟨hinv.2, hinv.1.2.2.not_ctlFails hinv.1.1⟩
  · rintro s l s' ⟨⟨hc, hown, hreg⟩, -⟩ hok hs
    exact ⟨⟨core_step hc hs, confining_step hc hown hok.2.1 hs, registered_step hc hown hreg hok hs⟩,
      crashed_step (hreg.not_ctlFails hc) hs⟩

end steps

/-- A client whose event its loop has begun to handle. -/
def handlingRun : List Label := [.accept 5, .main, .main, .wait 0 [(5, { epollin := true })], .loop 0]

/-- `Recv` finds nothing to read, and `HandleRead` re-arms the connection. -/
def rearmingRun : List Label := handlingRun ++ [.loop 0, .loop 0, .recv 0 (.error EAGAIN), .loop 0, .loop 0]

/-- The heartbeat removes the client first; `Recv` then returns `-1` and `HandleError` removes the
registration that `close` has removed. -/
def pulledRun : List Label :=
  handlingRun ++ [.tick 60001, .scan [5]] ++ List.replicate 7 .heartbeat ++ List.replicate 3 (.loop 0)

theorem rearmingRun_ctlSafe :
    ∃ s, run step (init 100000 60000 1) rearmingRun = some s ∧
      s.world.epoll 0 5 = some ⟨inMask, true⟩ ∧ CtlSafe s := by
  obtain ⟨s, hs, hreg⟩ := exists_of_any (o := run step (init 100000 60000 1) rearmingRun)
    (fun s => s.world.epoll 0 5 = some ⟨inMask, true⟩) (by decide +kernel)
  have hok : Along step ctlOrder (init 100000 60000 1) rearmingRun := by
    decide +kernel
  exact ⟨s, hs, hreg, ctlSafe_of_reach (hok.reach hs)⟩

/-- `epoll_ctl` fails with a closed number, and the process ends. -/
theorem pulledRun_crashes :
    ∃ s, run step (init 100000 60000 1) pulledRun = some s ∧ s.world.files 5 = none ∧
      s.world.crashed = true ∧ ¬ CtlSafe s := by
  obtain ⟨s, hs, hfree, hcr⟩ := exists_of_any (o := run step (init 100000 60000 1) pulledRun)
    (fun s => s.world.files 5 = none ∧ s.world.crashed = true) (by decide +kernel)
  refine ⟨s, hs, hfree, hcr, ?_⟩
  rintro ⟨halive, -⟩
  rw [hcr] at halive
  cases halive

end Sys

end TcpServer
