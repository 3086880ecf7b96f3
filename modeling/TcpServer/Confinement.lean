import TcpServer.Lifecycle

/-! # Loop confinement

`read_idx_` and the buffers of a connection are not protected by a lock: they are meant to be
used by one thread, the loop that `HandleAccept` assigned the connection to.  `Confined` asks
that a loop calls `Recv`, `Send`, `AppendWriteBuffer` and `ConsumeReadBuffer` only for
connections assigned to it.

A handler looks its connection up by number when it processes an event, not when the event is
delivered.  `confined_of_reach`: connections are confined as long as no `AddConnection` admits
a connection under a number for which another loop than the next one has a read or write event
waiting in its batch. -/

namespace TcpServer

namespace Sys

open World Transition

/-- Loops work on their own connections only. -/
def Confined (s : Sys) : Prop :=
  ∀ i n x, (s.pc (.loop i)).handles = some (n, x) → s.owner x = i

/-- An event that `HandleEvents` passes to `HandleRead` or `HandleWrite`. -/
def handlerEvent (n : ℤ) (p : ℤ × Events) : Bool := decide (p.1 = n) && !(p.2.epollerr || p.2.epollhup)

/-- `AddConnection` is going to admit a connection for the next loop under a number for which
another loop has an event waiting. -/
def misdirects (s : Sys) : Label → Bool
  | .main =>
      match s.pc .main with
      | .add _ x =>
          (s.world.pool.addConnection (s.world.conns x).fd x).2 &&
            decide (∃ i < s.loops, i ≠ s.nextLoopIdx ∧
              (s.batch i).any (handlerEvent (s.world.conns x).fd) = true)
      | _ => false
  | _ => false

/-- The invariant: the connection an event would find belongs to the loop that holds the event. -/
structure Confining (s : Sys) : Prop where
  handled : Confined s
  pending : ∀ i n ev, (n, ev) ∈ s.batch i → (ev.epollerr || ev.epollhup) = false →
    ∀ x, s.world.pool.getConnection n = some x → s.owner x = i
  spare : ∀ i, s.batch i ≠ [] → i < s.loops

section steps

variable {s s' : Sys} {l : Label} {t : Thread} {p : Pc}

/-- Steps that take events from batches at most, and admit nothing. -/
theorem Confining.keeps (h : Confining s) (hb : ∀ i, s'.batch i ⊆ s.batch i) (hl : s'.loops = s.loops)
    (hp : ∀ n x, s'.world.pool.getConnection n = some x → s.world.pool.getConnection n = some x)
    (ho : s'.owner = s.owner) (hpc : s'.pc = Function.update s.pc t p)
    (hh : p.handles = none ∨ p.handles = (s.pc t).handles) : Confining s' := by
  refine ⟨?_, ?_, ?_⟩
  · intro i n x hx
    rw [ho]
    rcases pc_cases hpc (.loop i) with ⟨rfl, hi⟩ | ⟨-, hi⟩
    · rw [hi] at hx
      rcases hh with hh | hh
      · rw [hh] at hx
        cases hx
      · rw [hh] at hx
        exact h.handled i n x hx
    · rw [hi] at hx
      exact h.handled i n x hx
  · intro i n ev hev herr x hx
    rw [ho]
    exact h.pending i n ev (hb i hev) herr x (hp n x hx)
  · intro i hi
    rw [hl]
    apply h.spare
    intro hnil
    apply hi
    rw [← List.subset_nil, ← hnil]
    exact hb i

theorem batch_update_sublist {i : ℕ} {a : ℤ × Events} {rest : List (ℤ × Events)} (hb : s.batch i = a :: rest)
    (j : ℕ) : (Function.update s.batch i rest j).Sublist (s.batch j) := by
  by_cases hj : j = i
  · subst hj
    rw [Function.update_self, hb]
    exact List.sublist_cons_self _ _
  · rw [Function.update_of_ne hj]

/-- `epoll_wait` fills the batch of loop `i`. -/
theorem confining_wait {i : ℕ} {evs : List (ℤ × Events)} (hc : Core s) (h : Confining s) (hi : i < s.loops)
    (hd : s.world.deliverable i evs = true) :
    Confining ((s.setWorld (s.world.deliver i evs)).setBatch i evs) := by
  -- a delivered number is registered with the loop, so its connection belongs to the loop
  refine ⟨h.handled, ?_, ?_⟩
  · intro j n ev hev herr x hx
    by_cases hj : j = i
    · subst hj
      rw [setBatch_batch, Function.update_self] at hev
      obtain ⟨y, -, hown, honly⟩ := hc.epoll j n (isSome_of_deliverable hd hev)
      rw [honly x hx]
      exact hown
    · rw [setBatch_batch, Function.update_of_ne hj] at hev
      exact h.pending j n ev hev herr x hx
  · intro j hj
    by_cases hji : j = i
    · subst hji
      exact hi
    · rw [setBatch_batch, Function.update_of_ne hji] at hj
      exact h.spare j hj

/-- Loop `i` enters the handler of the first event of its batch. -/
theorem confining_lookup {i : ℕ} {n : ℤ} {ev : Events} {rest : List (ℤ × Events)} {x : Client}
    (h : Confining s) (hb : s.batch i = (n, ev) :: rest) (herr : (ev.epollerr || ev.epollhup) = false)
    (hx : s.world.pool.getConnection n = some x) (hp : p = .recvState n x ∨ p = .sendState .write n x) :
    Confining ((s.setBatch i rest).goto (.loop i) p) := by
  have hown := h.pending i n ev (by rw [hb]; exact List.mem_cons_self) herr x hx
  have hkeep : Confining ((s.setBatch i rest).goto .main (s.pc .main)) :=
    h.keeps (fun j => (batch_update_sublist hb j).subset) rfl (fun _ _ => id) rfl rfl (Or.inr rfl)
  refine ⟨?_, hkeep.pending, hkeep.spare⟩
  intro j m y hy
  by_cases hj : j = i
  · subst hj
    rw [goto_pc, Function.update_self] at hy
    rcases hp with rfl | rfl
    · cases hy
      exact hown
    · cases hy
      exact hown
  · rw [goto_pc, Function.update_of_ne (by simpa using hj)] at hy
    exact h.handled j m y hy

/-- `AddConnection` admits `x` for the next loop. -/
theorem confining_add {n : ℤ} {x : Client} {pool : ConnectionPool} (hc : Core s) (h : Confining s)
    (hl : l = .main) (hpc : s.pc .main = .add n x)
    (hadd : s.world.pool.addConnection (s.world.conns x).fd x = (pool, true)) (hok : misdirects s l = false) :
    Confining (s.addStep n x pool) := by
  obtain ⟨-, hnew, hadm, hopen⟩ := hc.pcAt hpc
  have hnext : ∀ i < s.loops, i ≠ s.nextLoopIdx →
      (s.batch i).any (handlerEvent (s.world.conns x).fd) = false := by
    simpa [misdirects, hl, hpc, hadd] using hok
  obtain ⟨-, hself, hne⟩ := ConnectionPool.addConnection_true hadd
  have hold : ∀ y, s.admitted y = true → (s.addStep n x pool).owner y = s.owner y := by
    intro y hy
    have hyx : y ≠ x := by
      rintro rfl
      rw [hadm] at hy
      cases hy
    rw [addStep_owner, Function.update_of_ne hyx]
  refine ⟨?_, ?_, h.spare⟩
  · intro i m y hy
    rw [addStep_pc, Function.update_of_ne (by simp)] at hy
    have hadm' : s.admitted y = true := by
      have hb := (Pc.owes_of_handles hy).2
      exact ((pcOk_of_not_busy hb).mp (hc.pcs (.loop i)) m y hy).1
    rw [hold y hadm']
    exact h.handled i m y hy
  · intro i m ev hev herr y hy
    by_cases hm : m = (s.world.conns x).fd
    · have hyx : y = x := by
        have hy' : pool.getConnection m = some y := hy
        rw [hm, hself] at hy'
        exact (Option.some.inj hy').symm
      subst hyx
      rw [addStep_owner, Function.update_self]
      by_contra hne'
      have hany := hnext i (h.spare i (List.ne_nil_of_mem hev)) (Ne.symm hne')
      rw [List.any_eq_false] at hany
      apply hany (m, ev) hev
      simp [handlerEvent, hm, herr]
    · have hy' : s.world.pool.getConnection m = some y := (hne m hm).symm.trans hy
      rw [hold y (hc.pooled m y hy').2.1]
      exact h.pending i m ev hev herr y hy'

theorem confining_step (hc : Core s) (h : Confining s) (hok : misdirects s l = false)
    (hs : step s l = some s') : Confining s' := by
  obtain ⟨-, -, he⟩ := step_effect hs
  have hsame : Function.update s.pc Thread.main (s.pc .main) = s.pc := Function.update_eq_self _ _
  have hrefl : ∀ i, s.batch i ⊆ s.batch i := fun i => List.Subset.refl _
  cases he with
  | tick _ | crash _ | scan _ _ _ =>
      exact h.keeps hrefl rfl (fun _ _ => id) rfl hsame.symm (Or.inr rfl)
  | del _ | sweepSkip _ _ _ | closeSkip _ _ _ | closeLoad _ _ _ | closeNoFd _ _ _ | closeStore _ _ | closeFd _ _
  | closeSys _ _ | closeClear _ _ | accept _ _ _ _ | reject _ | rejectClose _ | register _ _ _
  | find _ _ _ _ _ =>
      exact h.keeps hrefl rfl (fun _ _ => id) rfl rfl (Or.inl rfl)
  | quiet hi ht hq =>
      refine h.keeps hrefl rfl ?_ rfl rfl hq.handles
      intro n x hx
      rwa [hq.core.pool] at hx
  | mark ht hm hh ho hcc hl hb => exact h.keeps hrefl rfl (fun _ _ => id) rfl rfl hh
  | skip hpc hb =>
      exact h.keeps (fun j => (batch_update_sublist hb j).subset) rfl (fun _ _ => id) rfl hsame.symm
        (Or.inr rfl)
  | errorEvent hpc hb herr =>
      exact h.keeps (fun j => (batch_update_sublist hb j).subset) rfl (fun _ _ => id) rfl rfl
        (Or.inl rfl)
  | rejectDrop hpc =>
      refine h.keeps hrefl rfl ?_ rfl rfl (Or.inl rfl)
      intro n x hx
      rwa [goto_world, setWorld_world, closeConn_pool] at hx
  | erase ht hpc =>
      exact h.keeps hrefl rfl (fun _ _ => ConnectionPool.getConnection_of_erase) rfl rfl (Or.inl rfl)
  | shutdown hpc hj hlock => exact h.keeps hrefl rfl (fun _ _ hx => by cases hx) rfl hsame.symm (Or.inr rfl)
  | wait hi hpc hb hd => exact confining_wait hc h hi hd
  | lookup hl hpc hb herr hlock hx hp => exact confining_lookup h hb herr hx hp
  | add hl hpc hlock hadd => exact confining_add hc h hl hpc hadd hok

theorem confining_init (maxConnections : ℕ) (heartbeatTimeoutMs : ℤ) (threadNum : ℕ) :
    Confining (init maxConnections heartbeatTimeoutMs threadNum) := by
  refine ⟨?_, ?_, ?_⟩
  · intro i n x hx
    cases hx
  · intro i n ev hev
    cases hev
  · intro i hi
    exact absurd rfl hi

/-- **Loop confinement.**  In every run in which no `AddConnection` admits a connection under a
number for which another loop than the next one has a read or write event waiting, every state
is `Confined`. -/
theorem confined_of_reach {maxConnections threadNum : ℕ} {heartbeatTimeoutMs : ℤ}
    (h : Reach step (fun s l => misdirects s l = false) (init maxConnections heartbeatTimeoutMs threadNum) s) :
    Confined s := by
  have hinv := h.invariant (fun s => Core s ∧ Confining s) ⟨core_init _ _ _, confining_init _ _ _⟩
    (fun _ _ _ hI hok hs => ⟨core_step hI.1 hs, confining_step hI.1 hI.2 hok hs⟩)
  exact hinv.2.handled

end steps

/-- A client assigned to the first of two loops, with an event waiting there. -/
def waitingRun : List Label := [.accept 5, .main, .main, .wait 0 [(5, { epollin := true })]]

/-- The loop goes on with the event. -/
def ownRun : List Label := waitingRun ++ [.loop 0]

/-- Before it does, the heartbeat removes the client, and the next client gets its number and the
second loop. -/
def foreignRun : List Label :=
  waitingRun ++ [.tick 60001, .scan [5]] ++ List.replicate 7 .heartbeat ++ [.accept 5, .main, .main, .loop 0]

theorem ownRun_confined :
    ∃ s, run step (init 100000 60000 2) ownRun = some s ∧ s.pc (.loop 0) = .recvState 5 0 ∧ Confined s := by
  obtain ⟨s, hs, hpc⟩ := exists_of_any (o := run step (init 100000 60000 2) ownRun)
    (fun s => s.pc (.loop 0) = .recvState 5 0) (by decide +kernel)
  have hok : Along step (fun s l => misdirects s l = false) (init 100000 60000 2) ownRun := by
    decide +kernel
  exact ⟨s, hs, hpc, confined_of_reach (hok.reach hs)⟩

/-- The first loop calls `Recv` for client `1`, which belongs to the second loop. -/
theorem foreignRun_not_confined :
    ∃ s, run step (init 100000 60000 2) foreignRun = some s ∧ s.pc (.loop 0) = .recvState 5 1 ∧
      s.owner 1 = 1 ∧ ¬ Confined s := by
  obtain ⟨s, hs, hpc, hown⟩ := exists_of_any (o := run step (init 100000 60000 2) foreignRun)
    (fun s => s.pc (.loop 0) = .recvState 5 1 ∧ s.owner 1 = 1) (by decide +kernel)
  refine ⟨s, hs, hpc, hown, ?_⟩
  intro hconf
  have h := hconf 0 5 1 (by rw [hpc]; rfl)
  rw [hown] at h
  cases h

end Sys

end TcpServer
