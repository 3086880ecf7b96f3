import TcpServer.Lifecycle

/-! # Descriptor leaks

A client whose connection was admitted to the pool, has left it and is not referenced any more
has been destroyed; `~Connection` calls `Close` once more.  `ClosedOnce` asks that by then
`close` was called exactly once for its object, on its own socket, and by nobody else.

`Close` tests `state_` before it closes, and `Recv` and `Send` store `CLOSED` on end of file
and on errors without closing.  `closedOnce_iff`: over every run, and for every client, the
descriptor is closed exactly once *iff* no `Recv` or `Send` stored `CLOSED` into the client's
connection before its `Close` had found it open.  The proof follows one client:
`step_fate` says all that a step can do to it. -/

namespace TcpServer

namespace Pc

/-- `Close` of the object has found it open and has not called `close` yet. -/
def shuts : Pc → Option Client
  | .closing _ x .store | .closing _ x .fd | .closing _ x (.sys _) => some x
  | _ => none

/-- The object a thread keeps a `shared_ptr` to. -/
def holds : Pc → Option Client
  | .add _ x | .rejectClose _ x | .rejectDrop _ x | .addFd _ x _ | .closing _ x _ | .erase _ x => some x
  | p => p.handles.map Prod.snd

theorem shuts_of_not_busy {p : Pc} (hb : p.busy = false) : p.shuts = none := by
  cases p <;> first | rfl | cases hb

end Pc

namespace Sys

open World Transition

/-- `x` was admitted, has left the pool, and no thread refers to it. -/
def Gone (x : Client) (s : Sys) : Prop :=
  s.admitted x = true ∧ s.world.pool.getConnection (s.world.num x) ≠ some x ∧
    (s.pc .main).holds ≠ some x ∧ (s.pc .heartbeat).holds ≠ some x ∧
    ∀ i < s.loops, (s.pc (.loop i)).holds ≠ some x

instance decidableGone (x : Client) (s : Sys) : Decidable (Gone x s) :=
  inferInstanceAs (Decidable (_ ∧ _ ∧ _ ∧ _ ∧ ∀ i < s.loops, _))

/-- After `~Connection` of `x` has run, `close` has been called exactly once for `x`. -/
def ClosedOnce (x : Client) (s : Sys) : Prop := (s.world.closeConn x).closesOf x = [(x, some x)]

instance decidableClosedOnce (x : Client) (s : Sys) : Decidable (ClosedOnce x s) :=
  inferInstanceAs (Decidable ((s.world.closeConn x).closesOf x = [(x, some x)]))

/-- `Close` of `x` stands between the load of `state_` and its store. -/
def storing (x : Client) (s : Sys) : Bool :=
  match s.lock with
  | some t =>
      match s.pc t with
      | .closing _ y .store => decide (y = x)
      | _ => false
  | none => false

/-- The step stores `CLOSED` into `x` from `Recv` or `Send`, and `Close` of `x` has not yet
found it open. -/
def leaks (x : Client) (s : Sys) (l : Label) : Bool :=
  match l.thread with
  | some t =>
      decide ((s.pc t).marks = some x) && decide ((s.world.conns x).state ≠ .closed) && !s.storing x
  | none => false

/-- Some thread is going to close `x`. -/
def Shutting (x : Client) (s : Sys) : Prop := ∃ t, (s.pc t).shuts = some x

section client

variable {s s' : Sys} {l : Label} {t : Thread} {p : Pc} {x : Client}

/-! ### What a step can do to a client -/

/-- What a step can do to an admitted client. -/
inductive Fate (x : Client) (s : Sys) (l : Label) (s' : Sys) : Prop
  /-- Nothing. -/
  | same : (s'.world.conns x).state = (s.world.conns x).state → s'.world.closesOf x = s.world.closesOf x →
      (Shutting x s' ↔ Shutting x s) → Fate x s l s'
  /-- `Recv` or `Send` stores `CLOSED`. -/
  | mark (t : Thread) : l.thread = some t → (s.pc t).marks = some x → (s'.world.conns x).state = .closed →
      s'.world.closesOf x = s.world.closesOf x → (Shutting x s' ↔ Shutting x s) → Fate x s l s'
  /-- `Close` finds it open. -/
  | found : (s.world.conns x).state ≠ .closed → (s'.world.conns x).state = (s.world.conns x).state →
      s'.world.closesOf x = s.world.closesOf x → Shutting x s' → Fate x s l s'
  /-- `Close` stores `CLOSED`. -/
  | store : Shutting x s → Shutting x s' → s'.world.closesOf x = s.world.closesOf x → Fate x s l s'
  /-- `Close` calls `close`. -/
  | close : Shutting x s → s'.world.closesOf x = [(x, some x)] → Fate x s l s'
  /-- `Shutdown` closes it. -/
  | shutdown : (s.world.conns x).state ≠ .closed → s'.world.closesOf x = [(x, some x)] → Fate x s l s'

/-- Only the pc of thread `t` changes, and neither the old nor the new one is about to close `x`. -/
theorem shutting_iff (hpc : s'.pc = Function.update s.pc t p) (h : (s.pc t).shuts ≠ some x)
    (h' : p.shuts ≠ some x) : Shutting x s' ↔ Shutting x s := by
  constructor
  · rintro ⟨u, hu⟩
    rcases pc_cases hpc u with ⟨rfl, hu'⟩ | ⟨-, hu'⟩
    · rw [hu'] at hu
      exact absurd hu h'
    · rw [hu'] at hu
      exact ⟨u, hu⟩
  · rintro ⟨u, hu⟩
    rcases pc_cases hpc u with ⟨rfl, -⟩ | ⟨-, hu'⟩
    · exact absurd hu h
    · exact ⟨u, by rw [hu']; exact hu⟩

/-- Only the pc of thread `t` changes, between places where nothing is about to be closed. -/
theorem shutting_of_none (hpc : s'.pc = Function.update s.pc t p) (h : (s.pc t).shuts = none)
    (h' : p.shuts = none) : Shutting x s' ↔ Shutting x s := by
  refine shutting_iff hpc ?_ ?_
  · rw [h]
    exact (Option.some_ne_none x).symm
  · rw [h']
    exact (Option.some_ne_none x).symm

theorem shutting_of_pc (hpc : s.pc t = p) (h : p.shuts = some x) : Shutting x s := ⟨t, by rw [hpc]; exact h⟩

theorem step_fate (h : Core s) (hx : s.admitted x = true) (hs : step s l = some s') :
    s'.admitted x = true ∧ Fate x s l s' := by
  obtain ⟨-, -, he⟩ := step_effect hs
  cases he with
  | tick _ | wait _ _ _ _ | skip _ _ | crash _ | scan _ _ _ => exact ⟨hx, .same rfl rfl Iff.rfl⟩
  | errorEvent hpc _ _ | del hpc | reject hpc | register hpc _ _ | sweepSkip hpc _ _ =>
      exact ⟨hx, .same rfl rfl (shutting_of_none rfl (by rw [hpc]; rfl) rfl)⟩
  | closeSkip _ hpc _ | erase _ hpc =>
      exact ⟨hx, .same rfl rfl (shutting_of_none rfl (by rw [hpc]; rfl) rfl)⟩
  | quiet hi ht hq =>
      exact ⟨hx, .same (hq.core.state x) (hq.core.calm.frame x).closes
        (shutting_of_none rfl (Pc.shuts_of_not_busy hq.wasBusy) (Pc.shuts_of_not_busy hq.busy))⟩
  | lookup hl hpc hb herr hlock hp hpc' =>
      refine ⟨hx, .same rfl rfl (shutting_of_none rfl (by rw [hpc]; rfl) ?_)⟩
      rcases hpc' with rfl | rfl
      · rfl
      · rfl
  | @mark i y p ht hm hh ho hc hl hb =>
      have hiff : Shutting x ((s.setWorld (s.world.setConn y (s.world.conns y).markClosed)).goto (.loop i) p) ↔
          Shutting x s :=
        shutting_of_none rfl (Pc.shuts_of_not_busy (Pc.busy_of_marks hm)) (Pc.shuts_of_not_busy hb)
      refine ⟨hx, ?_⟩
      by_cases hxy : x = y
      · subst hxy
        refine .mark (.loop i) ht hm ?_ rfl hiff
        rw [goto_world, setWorld_world, conns_setConn_self]
        rfl
      · refine .same ?_ rfl hiff
        rw [goto_world, setWorld_world, conns_setConn_ne _ _ hxy]
  | find ht hlock hp hb hsw =>
      exact ⟨hx, .same rfl rfl (shutting_of_none rfl (Pc.shuts_of_not_busy hb) rfl)⟩
  | @closeLoad t n y ht hpc hc =>
      refine ⟨hx, ?_⟩
      by_cases hxy : x = y
      · subst hxy
        exact .found hc rfl rfl ⟨t, by rw [goto_pc, Function.update_self]; rfl⟩
      · exact .same rfl rfl (shutting_iff rfl (by rw [hpc]; simp [Pc.shuts])
          (by simpa [Pc.shuts] using Ne.symm hxy))
  | @closeStore t n y ht hpc =>
      refine ⟨hx, ?_⟩
      by_cases hxy : x = y
      · subst hxy
        exact .store (shutting_of_pc hpc rfl) ⟨t, by rw [goto_pc, Function.update_self]; rfl⟩ rfl
      · refine .same ?_ rfl (shutting_iff rfl (by rw [hpc]; simpa [Pc.shuts] using Ne.symm hxy)
          (by simpa [Pc.shuts] using Ne.symm hxy))
        rw [goto_world, setWorld_world, conns_setConn_ne _ _ hxy]
  | closeNoFd ht hpc hfd =>
      obtain ⟨-, -, hopen, -⟩ := h.pcAt hpc
      have := (h.files _ _ hopen.file).1
      rw [← hopen.fd, hfd] at this
      omega
  | @closeFd t n y ht hpc =>
      refine ⟨hx, ?_⟩
      by_cases hxy : x = y
      · subst hxy
        exact .store (shutting_of_pc hpc rfl) ⟨t, by rw [goto_pc, Function.update_self]; rfl⟩ rfl
      · exact .same rfl rfl (shutting_iff rfl (by rw [hpc]; simpa [Pc.shuts] using Ne.symm hxy)
          (by simpa [Pc.shuts] using Ne.symm hxy))
  | @closeSys t n y m ht hpc =>
      obtain ⟨-, -, hopen, hst, rfl⟩ := h.pcAt hpc
      refine ⟨hx, ?_⟩
      by_cases hxy : x = y
      · subst hxy
        exact .close (shutting_of_pc hpc rfl) (hopen.shut_close hst).closes
      · refine .same rfl (frame_close (Ne.symm hxy) ?_).closes
          (shutting_iff rfl (by rw [hpc]; simpa [Pc.shuts] using Ne.symm hxy) (by simp [Pc.shuts]))
        rw [hopen.file]
        simpa using Ne.symm hxy
  | @closeClear t n y ht hpc =>
      refine ⟨hx, .same ?_ rfl (shutting_of_none rfl (by rw [hpc]; rfl) rfl)⟩
      rw [goto_world, setWorld_world]
      by_cases hxy : x = y
      · subst hxy
        rw [conns_setConn_self]
        rfl
      · rw [conns_setConn_ne _ _ hxy]
  | accept hl hpc hn hfree =>
      have hlt := (h.life x hx).1
      refine ⟨hx, .same ?_ (frame_newClient hlt hfree).closes
        (shutting_of_none rfl (by rw [hpc]; rfl) rfl)⟩
      rw [goto_world, setWorld_world, conns_newClient_ne _ _ (Nat.ne_of_lt hlt)]
  | @add n y pool ht hpc hlock hadd =>
      obtain ⟨-, -, hadm, -⟩ := h.pcAt hpc
      have hxy : x ≠ y := by
        rintro rfl
        rw [hadm] at hx
        cases hx
      refine ⟨?_, .same rfl rfl (shutting_of_none rfl (by rw [hpc]; rfl) rfl)⟩
      rw [addStep_admitted, Function.update_of_ne hxy]
      exact hx
  | @rejectClose n y hpc =>
      obtain ⟨-, hnew, hadm, hopen⟩ := h.pcAt hpc
      have hxy : y ≠ x := by
        rintro rfl
        rw [hadm] at hx
        cases hx
      refine ⟨hx, .same rfl (frame_close hxy ?_).closes
        (shutting_of_none rfl (by rw [hpc]; rfl) rfl)⟩
      rw [← hnew.num, hopen.file]
      simpa using hxy
  | @rejectDrop n y hpc =>
      obtain ⟨-, -, hadm, hfd, hfree⟩ := h.pcAt hpc
      have hxy : x ≠ y := by
        rintro rfl
        rw [hadm] at hx
        cases hx
      have hcl : Closes y s.world (s.world.closeConn y) := by
        apply closes_closeConn
        intro z hz
        rw [hfd, hfree] at hz
        cases hz
      refine ⟨hx, .same ?_ (hcl.frame x hxy).closes
        (shutting_of_none rfl (by rw [hpc]; rfl) rfl)⟩
      rw [goto_world, setWorld_world, closeConn_conns_ne _ hxy]
  | shutdown hpc hj hlock =>
      refine ⟨hx, ?_⟩
      obtain ⟨hs, hc⟩ | ⟨hopen, -, hc⟩ := h.closesAll.1.fate x
      · exact .same hs hc Iff.rfl
      · exact .shutdown hopen hc

/-! ### Runs without a leak -/

/-- A fresh connection is open when it reaches `AddConnection`. -/
def FreshOpen (s : Sys) : Prop := ∀ n x, s.pc .main = .add n x → (s.world.conns x).state ≠ .closed

/-- A client that is `CLOSED` has been closed, or is about to be. -/
def Safe (x : Client) (s : Sys) : Prop :=
  s.admitted x = true → (s.world.conns x).state = .closed →
    s.world.closesOf x = [(x, some x)] ∨ Shutting x s

theorem leaks_eq_false (ht : l.thread = some t) (hm : (s.pc t).marks = some x) (hl : leaks x s l = false) :
    (s.world.conns x).state = .closed ∨ s.storing x = true := by
  simp only [leaks, ht, hm, decide_true, Bool.true_and, Bool.and_eq_false_iff, decide_eq_false_iff_not,
    not_not, Bool.not_eq_false'] at hl
  exact hl

theorem shutting_of_storing (h : s.storing x = true) : Shutting x s := by
  unfold storing at h
  split at h
  · rename_i t _
    split at h
    · rename_i n y hpc
      rw [decide_eq_true_eq] at h
      subst h
      exact shutting_of_pc hpc rfl
    · cases h
  · cases h

theorem safe_of_fate (h : Safe x s) (hx : s.admitted x = true) (hf : Fate x s l s') (hl : leaks x s l = false) :
    Safe x s' := by
  intro _ hc
  cases hf with
  | same hs hcl hsh =>
      rw [hs] at hc
      rw [hcl, hsh]
      exact h hx hc
  | mark t ht hm hs hcl hsh =>
      rw [hcl, hsh]
      rcases leaks_eq_false ht hm hl with hst | hst
      · exact h hx hst
      · exact Or.inr (shutting_of_storing hst)
  | found ho hs hcl hsh => exact Or.inr hsh
  | store hsh hsh' hcl => exact Or.inr hsh'
  | close hsh hcl => exact Or.inl hcl
  | shutdown ho hcl => exact Or.inl hcl

/-- Only `accept` brings the main thread to `AddConnection`, and meanwhile nobody stores to the
connection it is about to add. -/
theorem freshOpen_step (h : Core s) (hf : FreshOpen s) (hs : step s l = some s') : FreshOpen s' := by
  obtain ⟨-, -, he⟩ := step_effect hs
  have hold : ∀ {s' : Sys} {t : Thread} {p : Pc}, s'.pc = Function.update s.pc t p → (∀ n x, p ≠ .add n x) →
      (∀ x, s.admitted x = false → (s'.world.conns x).state = (s.world.conns x).state) → FreshOpen s' := by
    intro s' t p hpc hp hst n x hadd
    have hmain : s.pc .main = .add n x := by
      rw [hpc] at hadd
      by_cases ht : Thread.main = t
      · subst ht
        rw [Function.update_self] at hadd
        exact absurd hadd (hp n x)
      · rwa [Function.update_of_ne ht] at hadd
    rw [hst x (h.pcAt hmain).2.2.1]
    exact hf n x hmain
  -- stores go to admitted connections only
  have hstore : ∀ {y : Client} {c : Connection Byte}, s.admitted y = true → ∀ x, s.admitted x = false →
      ((s.world.setConn y c).conns x).state = (s.world.conns x).state := by
    intro y c hy x hx
    have hxy : x ≠ y := by
      rintro rfl
      rw [hx] at hy
      cases hy
    rw [conns_setConn_ne _ _ hxy]
  cases he with
  | tick t => exact hf
  | quiet hi ht hq =>
      refine hold rfl ?_ (fun x _ => hq.core.state x)
      rintro n x rfl
      cases hq.busy
  | wait hi hpc hb hd => exact hf
  | skip hpc hb => exact hf
  | errorEvent hpc hb herr => exact hold rfl (by simp) (fun _ _ => rfl)
  | lookup hl hpc hb herr hlock hp hpc' =>
      refine hold rfl ?_ (fun _ _ => rfl)
      rcases hpc' with rfl | rfl <;> simp
  | @mark i y p ht hm hh ho hc hl hb =>
      obtain ⟨m, hm'⟩ := Pc.handles_of_marks hm
      refine hold rfl ?_ (hstore ((pcOk_of_not_busy (Pc.busy_of_marks hm)).mp (h.pcs _) m y hm').1)
      rintro n x rfl
      cases hb
  | del hpc => exact hold rfl (by simp) (fun _ _ => rfl)
  | crash hfail => exact hf
  | find ht hlock hp hb hsw => exact hold rfl (by simp) (fun _ _ => rfl)
  | sweepSkip hpc hsw hp => exact hold rfl (by simp) (fun _ _ => rfl)
  | closeSkip ht hpc hc => exact hold rfl (by simp) (fun _ _ => rfl)
  | closeLoad ht hpc hc => exact hold rfl (by simp) (fun _ _ => rfl)
  | closeStore ht hpc => exact hold rfl (by simp) (hstore (h.pooled _ _ (h.pcAt hpc).2.1).2.1)
  | closeNoFd ht hpc hfd => exact hold rfl (by simp) (fun _ _ => rfl)
  | closeFd ht hpc => exact hold rfl (by simp) (fun _ _ => rfl)
  | closeSys ht hpc => exact hold rfl (by simp) (fun _ _ => rfl)
  | closeClear ht hpc => exact hold rfl (by simp) (hstore (h.pooled _ _ (h.pcAt hpc).2.1).2.1)
  | erase ht hpc => exact hold rfl (by simp) (fun _ _ => rfl)
  | accept hl hpc hn hfree =>
      intro n x hadd
      rw [goto_pc, Function.update_self] at hadd
      cases hadd
      rw [goto_world, setWorld_world, conns_newClient_self]
      simp [Connection.connected]
  | add ht hpc hlock hadd => exact hold rfl (by simp) (fun _ _ => rfl)
  | reject hpc => exact hold rfl (by simp) (fun _ _ => rfl)
  | rejectClose hpc => exact hold rfl (by simp) (fun _ _ => rfl)
  | rejectDrop hpc =>
      intro n x hadd
      rw [goto_pc, Function.update_self] at hadd
      cases hadd
  | register hpc hopen hnone => exact hold rfl (by simp) (fun _ _ => rfl)
  | scan hpc hlock hperm => exact hf
  | shutdown hpc hj hlock =>
      intro n x hadd
      have hmain : s.pc .main = .add n x := hadd
      rw [hpc] at hmain
      cases hmain

/-- A client is admitted by the main thread, as it is. -/
theorem admitted_new (hx : s.admitted x = false) (hs : step s l = some s') (hx' : s'.admitted x = true) :
    ∃ n, s.pc .main = .add n x ∧ s'.world.conns x = s.world.conns x := by
  obtain ⟨-, -, he⟩ := step_effect hs
  cases he with
  | @add n y pool ht hpc hlock hadd =>
      by_cases hxy : x = y
      · subst hxy
        exact ⟨n, hpc, rfl⟩
      · rw [addStep_admitted, Function.update_of_ne hxy, hx] at hx'
        cases hx'
  | _ => exact absurd (hx.symm.trans hx') (by decide)

theorem safe_step (h : Core s) (hf : FreshOpen s) (hsafe : Safe x s) (hl : leaks x s l = false)
    (hs : step s l = some s') : Safe x s' := by
  cases hx : s.admitted x with
  | true => exact safe_of_fate hsafe hx (step_fate h hx hs).2 hl
  | false =>
      intro hx' hc
      obtain ⟨n, hpc, hsame⟩ := admitted_new hx hs hx'
      rw [hsame] at hc
      exact absurd hc (hf n x hpc)

/-! ### Runs with a leak -/

/-- `x` is `CLOSED`, its descriptor was never closed, and nobody is going to close it. -/
def Leaked (x : Client) (s : Sys) : Prop :=
  s.admitted x = true ∧ (s.world.conns x).state = .closed ∧ s.world.closesOf x = [] ∧ ¬ Shutting x s

theorem leaked_step (h : Core s) (hx : Leaked x s) (hs : step s l = some s') : Leaked x s' := by
  obtain ⟨hadm, hc, hcl, hsh⟩ := hx
  obtain ⟨hadm', hf⟩ := step_fate h hadm hs
  cases hf with
  | same hs' hcl' hsh' => exact ⟨hadm', hs'.trans hc, hcl'.trans hcl, by rw [hsh']; exact hsh⟩
  | mark t ht hm hs' hcl' hsh' => exact ⟨hadm', hs', hcl'.trans hcl, by rw [hsh']; exact hsh⟩
  | found ho => exact absurd hc ho
  | store hsh' => exact absurd hsh' hsh
  | close hsh' => exact absurd hsh' hsh
  | shutdown ho => exact absurd hc ho

/-- `Close` of an open client that has not been marked `CLOSED` stands before its store. -/
theorem storing_of_shutting (h : Core s) (ho : (s.world.conns x).state ≠ .closed) (hsh : Shutting x s) :
    s.storing x = true := by
  obtain ⟨t, ht⟩ := hsh
  have hok := h.pcs t
  cases hpc : s.pc t with
  | closing n y c =>
      rw [hpc] at ht hok
      cases c with
      | store =>
          cases ht
          simp [storing, hok.1, hpc]
      | fd =>
          cases ht
          exact absurd hok.2.2.2 ho
      | sys m =>
          cases ht
          exact absurd hok.2.2.2.1 ho
      | _ => cases ht
  | _ =>
      rw [hpc] at ht
      cases ht

/-- A thread that is about to store `CLOSED` does so. -/
theorem step_of_marks (ht : l.thread = some t) (hm : (s.pc t).marks = some x) (hs : step s l = some s') :
    ∃ p, p.busy = false ∧ s' = (s.setWorld (s.world.setConn x (s.world.conns x).markClosed)).goto t p := by
  have hpc : (∃ n, s.pc t = .recvMark n x) ∨ ∃ k n z, s.pc t = .sendMark k n x z := by
    revert hm
    cases s.pc t with
    | recvMark n y => exact fun hm => Or.inl ⟨n, by cases hm; rfl⟩
    | sendMark k n y z => exact fun hm => Or.inr ⟨k, n, z, by cases hm; rfl⟩
    | _ => exact fun hm => by cases hm
  unfold step at hs
  split_ifs at hs
  cases l with
  | tick u => cases ht
  | loop i =>
      cases ht
      simp only [] at hs
      split_ifs at hs
      rcases hpc with ⟨n, hpc⟩ | ⟨k, n, z, hpc⟩
      · simp only [loopStep, hpc] at hs
        cases hs
        exact ⟨_, rfl, rfl⟩
      · simp only [loopStep, hpc] at hs
        cases hs
        refine ⟨_, ?_, rfl⟩
        split_ifs
        · exact (continues_afterSend n x k).spec.2.2.2.2
        · rfl
  | _ =>
      cases ht
      rcases hpc with ⟨n, hpc⟩ | ⟨k, n, z, hpc⟩ <;>
        simp [acceptStep, mainStep, waitStep, recvStep, sendStep, scanStep, heartbeatStep, shutdownStep,
          hpc] at hs

theorem leaked_of_leaks (h : Core s) (hl : leaks x s l = true) (hs : step s l = some s') : Leaked x s' := by
  unfold leaks at hl
  split at hl
  · rename_i t ht
    simp only [Bool.and_eq_true, decide_eq_true_eq, Bool.not_eq_true'] at hl
    obtain ⟨⟨hm, ho⟩, hst⟩ := hl
    obtain ⟨m, hm'⟩ := Pc.handles_of_marks hm
    have hadm := ((pcOk_of_not_busy (Pc.busy_of_marks hm)).mp (h.pcs t) m x hm').1
    have hsh : ¬ Shutting x s := by
      intro hsh
      rw [storing_of_shutting h ho hsh] at hst
      cases hst
    have hcl : s.world.closesOf x = [] := by
      rcases (h.life x hadm).2 with hopen | hshut
      · exact hopen.closes
      · exact absurd hshut.state ho
    obtain ⟨p, hb, rfl⟩ := step_of_marks ht hm hs
    refine ⟨hadm, ?_, hcl, ?_⟩
    · rw [goto_world, setWorld_world, conns_setConn_self]
      rfl
    · rw [shutting_of_none (s := s) rfl (Pc.shuts_of_not_busy (Pc.busy_of_marks hm)) (Pc.shuts_of_not_busy hb)]
      exact hsh
  · cases hl

/-! ### The result -/

/-- A destroyed client is `CLOSED`, and nobody is closing it. -/
theorem Gone.closed (hg : Gone x s) (h : Core s) : (s.world.conns x).state = .closed ∧ ¬ Shutting x s := by
  refine ⟨h.left x hg.1 hg.2.1, ?_⟩
  rintro ⟨t, ht⟩
  have hok := h.pcs t
  cases hpc : s.pc t with
  | closing n y c =>
      rw [hpc] at ht hok
      have hyx : y = x := by
        cases c with
        | store => exact Option.some.inj ht
        | fd => exact Option.some.inj ht
        | sys m => exact Option.some.inj ht
        | _ => cases ht
      subst hyx
      apply hg.2.1
      rw [(h.pooled n y hok.2.1).1]
      exact hok.2.1
  | _ =>
      rw [hpc] at ht
      cases ht

/-- **No descriptor leak.**  In every run of the server, for every client whose connection was
admitted and has been destroyed: `close` was called exactly once for it if and only if no
`Recv` or `Send` of the run stored `CLOSED` into its connection before `Close` had found the
connection open. -/
theorem closedOnce_iff {maxConnections threadNum : ℕ} {heartbeatTimeoutMs : ℤ} {ls : List Label}
    (hr : run step (init maxConnections heartbeatTimeoutMs threadNum) ls = some s) (hg : Gone x s) :
    ClosedOnce x s ↔
      Along step (fun s l => leaks x s l = false) (init maxConnections heartbeatTimeoutMs threadNum) ls := by
  have hcore := core_reach (reach_of_run hr)
  obtain ⟨hc, hsh⟩ := hg.closed hcore
  have hdestroyed : s.world.closeConn x = s.world := if_pos hc
  unfold ClosedOnce
  rw [hdestroyed]
  constructor
  · intro hcl
    by_contra hn
    obtain ⟨s₁, l, s₂, h₁, hbad, hs, h₂⟩ := exists_of_not_along hr hn
    have hcore₁ := core_reach h₁
    have hleak : Core s₂ ∧ Leaked x s₂ :=
      ⟨core_step hcore₁ hs, leaked_of_leaks hcore₁ (by simpa using hbad) hs⟩
    have hend := h₂.invariant (fun s => Core s ∧ Leaked x s) hleak
      (fun _ _ _ hI _ hs => ⟨core_step hI.1 hs, leaked_step hI.1 hI.2 hs⟩)
    rw [hend.2.2.2.1] at hcl
    cases hcl
  · intro ha
    have hfresh : FreshOpen (init maxConnections heartbeatTimeoutMs threadNum) := by
      intro n y hpc
      cases hpc
    have hsafe : Safe x (init maxConnections heartbeatTimeoutMs threadNum) := by
      intro hx
      cases hx
    have hinv := (ha.reach hr).invariant (fun s => Core s ∧ FreshOpen s ∧ Safe x s)
      ⟨core_init _ _ _, hfresh, hsafe⟩
      (fun _ _ _ hI hok hs => ⟨core_step hI.1 hs, freshOpen_step hI.1 hI.2.1 hs,
        safe_step hI.1 hI.2.1 hI.2.2 hok hs⟩)
    exact (hinv.2.2 hg.1 hc).resolve_right hsh

end client

/-- The client connects, and an event of it is delivered to loop `0`. -/
def oneEvent (ev : Events) : List Label :=
  [.accept 5, .main, .main, .wait 0 [(5, ev)], .loop 0]

/-- The client's socket reports an error: `HandleError` removes the connection. -/
def errorRun : List Label :=
  oneEvent { epollerr := true } ++ List.replicate 9 (.loop 0)

/-- The client closes its end: `recv` returns `0`. -/
def eofRun : List Label :=
  oneEvent { epollin := true } ++ [.loop 0, .loop 0, .recv 0 .eof] ++ List.replicate 6 (.loop 0)

theorem errorRun_closedOnce :
    ∃ s, run step (init 100000 60000 1) errorRun = some s ∧ Gone 0 s ∧ ClosedOnce 0 s := by
  obtain ⟨s, hs, hg⟩ := exists_of_any (o := run step (init 100000 60000 1) errorRun) (Gone 0) (by decide +kernel)
  have hok : Along step (fun s l => leaks 0 s l = false) (init 100000 60000 1) errorRun := by
    decide +kernel
  exact ⟨s, hs, hg, (closedOnce_iff hs hg).mpr hok⟩

/-- No `close` at all, and the number still refers to the client's socket. -/
theorem eofRun_leaks :
    ∃ s, run step (init 100000 60000 1) eofRun = some s ∧ Gone 0 s ∧ s.world.closeLog = [] ∧
      s.world.files 5 = some 0 ∧ ¬ ClosedOnce 0 s :=
  exists_of_any (fun s => Gone 0 s ∧ s.world.closeLog = [] ∧ s.world.files 5 = some 0 ∧ ¬ ClosedOnce 0 s)
    (by decide +kernel)

end Sys

end TcpServer
