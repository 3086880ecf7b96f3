import TcpServer.Lifecycle

/-! # The heartbeat sweep

A sweep of `HeartbeatCheckLoop` collects *numbers* under the mutex and removes them one by one
later, taking the mutex anew each time.  `SweepExact` asks that the objects it closes and
erases are those for which its scan found `IsTimeout` true (`mem_scanned`), and so none that
was admitted since.

An IO loop may remove a collected connection first and the number may be given to a new
client.  `sweepExact_of_reach`: as long as no `AddConnection` admits a connection under a
number the sweep still has to visit, the sweep is exact. -/

namespace TcpServer

namespace Sys

open World Transition

/-- What the sweep has removed or is removing was found idle by its scan; what was admitted
since the scan is not among it. -/
def SweepExact (s : Sys) : Prop :=
  (∀ x, x ∈ s.removed ∨ (s.pc .heartbeat).removes = some x → x ∈ s.scanned) ∧
    ∀ x ∈ s.sinceScan, x ∉ s.removed ∧ (s.pc .heartbeat).removes ≠ some x

/-- `AddConnection` is going to admit a connection under a number the sweep has yet to visit. -/
def readmits (s : Sys) : Label → Bool
  | .main =>
      match s.pc .main with
      | .add _ x =>
          (s.world.pool.addConnection (s.world.conns x).fd x).2 && decide ((s.world.conns x).fd ∈ s.sweep)
      | _ => false
  | _ => false

/-- A scan records exactly the pooled connections that are idle for too long. -/
theorem mem_scanned {s s' : Sys} {fds : List ℤ} (h : s.scanStep fds = some s') (x : Client) :
    x ∈ s'.scanned ↔ ∃ n, s.world.pool.getConnection n = some x ∧
      (s.world.conns x).isTimeout s.world.now s.world.pool.heartbeatTimeoutMs = true := by
  unfold scanStep at h
  split_ifs at h with hg
  cases h
  simp only [List.mem_filterMap, hg.2.2.2.mem_iff, timeoutFds, List.mem_map, List.mem_filter]
  constructor
  · rintro ⟨n, ⟨e, ⟨he, ht⟩, rfl⟩, hx⟩
    have hx' : s.world.pool.getConnection e.1 = some e.2 := AList.mem_lookup_iff.mpr he
    rw [hx'] at hx
    cases hx
    exact ⟨e.1, hx', ht⟩
  · rintro ⟨n, hx, ht⟩
    exact ⟨n, ⟨⟨n, x⟩, ⟨AList.mem_lookup_iff.mp hx, ht⟩, rfl⟩, hx⟩

/-- The invariant: under a number still to be visited the pool holds a connection the scan
found, or none. -/
structure Sweeping (s : Sys) : Prop where
  remaining : ∀ n ∈ s.sweep, ∀ x, s.world.pool.getConnection n = some x → x ∈ s.scanned
  removing : ∀ x, (s.pc .heartbeat).removes = some x → x ∈ s.scanned
  removed : ∀ x ∈ s.removed, x ∈ s.scanned
  old : ∀ x ∈ s.scanned, s.admitted x = true
  fresh : ∀ x ∈ s.sinceScan, x ∉ s.scanned

theorem Sweeping.exact {s : Sys} (h : Sweeping s) : SweepExact s := by
  refine ⟨?_, ?_⟩
  · rintro x (hx | hx)
    · exact h.removed x hx
    · exact h.removing x hx
  · intro x hx
    exact ⟨fun hr => h.fresh x hx (h.removed x hr), fun hr => h.fresh x hx (h.removing x hr)⟩

section steps

variable {s s' : Sys} {l : Label} {t : Thread} {p : Pc}

/-- Steps that admit nothing and do not scan. -/
theorem Sweeping.keeps (h : Sweeping s) (hsw : s'.sweep ⊆ s.sweep)
    (hp : ∀ n x, s'.world.pool.getConnection n = some x → s.world.pool.getConnection n = some x)
    (hsc : s'.scanned = s.scanned) (hrm : s'.removed = s.removed) (hsi : s'.sinceScan = s.sinceScan)
    (ha : s'.admitted = s.admitted) (hpc : s'.pc = Function.update s.pc t p)
    (hr : p.removes = none ∨ p.removes = (s.pc t).removes ∨ t ≠ .heartbeat) : Sweeping s' := by
  refine ⟨?_, ?_, ?_, ?_, ?_⟩
  · intro n hn x hx
    rw [hsc]
    exact h.remaining n (hsw hn) x (hp n x hx)
  · intro x hx
    rw [hsc]
    rcases pc_cases hpc .heartbeat with ⟨rfl, hb⟩ | ⟨-, hb⟩
    · rw [hb] at hx
      rcases hr with hr | hr | hr
      · rw [hr] at hx
        cases hx
      · rw [hr] at hx
        exact h.removing x hx
      · exact absurd rfl hr
    · rw [hb] at hx
      exact h.removing x hx
  · rw [hrm, hsc]
    exact h.removed
  · rw [hsc, ha]
    exact h.old
  · rw [hsi, hsc]
    exact h.fresh

/-- `RemoveConnection` erases the entry. -/
theorem sweeping_erase {n : ℤ} {x : Client} (h : Sweeping s) (hpc : s.pc t = .erase n x) :
    Sweeping (s.eraseStep t n x) := by
  by_cases ht' : t = .heartbeat
  · subst ht'
    refine ⟨fun m hm y hy => h.remaining m hm y (ConnectionPool.getConnection_of_erase hy), ?_, ?_,
      h.old, h.fresh⟩
    · intro y hy
      rw [eraseStep_pc, Function.update_self] at hy
      cases hy
    · intro y hy
      rw [eraseStep_removed, if_pos rfl] at hy
      rcases List.mem_cons.mp hy with rfl | hy
      · exact h.removing y (by rw [hpc]; rfl)
      · exact h.removed y hy
  · exact h.keeps (List.Subset.refl _) (fun _ _ => ConnectionPool.getConnection_of_erase) rfl (if_neg ht')
      rfl rfl rfl (Or.inl rfl)

/-- `AddConnection` admits `x` under a number that is not in the list of the sweep. -/
theorem sweeping_add {n : ℤ} {x : Client} {pool : ConnectionPool} (hc : Core s) (h : Sweeping s)
    (hl : l = .main) (hpc : s.pc .main = .add n x)
    (hadd : s.world.pool.addConnection (s.world.conns x).fd x = (pool, true)) (hok : readmits s l = false) :
    Sweeping (s.addStep n x pool) := by
  obtain ⟨-, hnew, hadm, hopen⟩ := hc.pcAt hpc
  have hfd : (s.world.conns x).fd ∉ s.sweep := by
    simpa [readmits, hl, hpc, hadd] using hok
  obtain ⟨-, hself, hne⟩ := ConnectionPool.addConnection_true hadd
  have hx : x ∉ s.scanned := by
    intro hx
    rw [h.old x hx] at hadm
    cases hadm
  refine ⟨?_, ?_, h.removed, ?_, ?_⟩
  · intro m hm y hy
    have hmn : m ≠ (s.world.conns x).fd := by
      rintro rfl
      exact hfd hm
    exact h.remaining m hm y ((hne m hmn).symm.trans hy)
  · intro y hy
    rw [addStep_pc, Function.update_of_ne (by simp)] at hy
    exact h.removing y hy
  · intro y hy
    rw [addStep_admitted]
    by_cases hyx : y = x
    · subst hyx
      exact absurd hy hx
    · rw [Function.update_of_ne hyx]
      exact h.old y hy
  · intro y hy
    rcases List.mem_cons.mp hy with rfl | hy
    · exact hx
    · exact h.fresh y hy

theorem sweeping_step (hc : Core s) (h : Sweeping s) (hok : readmits s l = false)
    (hs : step s l = some s') : Sweeping s' := by
  obtain ⟨-, -, he⟩ := step_effect hs
  have hsame : Function.update s.pc Thread.main (s.pc .main) = s.pc := Function.update_eq_self _ _
  cases he with
  | tick _ | crash _ | skip _ _ | wait _ _ _ _ =>
      exact h.keeps (List.Subset.refl _) (fun _ _ => id) rfl rfl rfl rfl hsame.symm (Or.inr (Or.inl rfl))
  | errorEvent _ _ _ | del _ | accept _ _ _ _ | reject _ | rejectClose _ | register _ _ _ =>
      exact h.keeps (List.Subset.refl _) (fun _ _ => id) rfl rfl rfl rfl rfl (Or.inl rfl)
  | closeSkip ht hpc _ | closeLoad ht hpc _ | closeNoFd ht hpc _ =>
      exact h.keeps (List.Subset.refl _) (fun _ _ => id) rfl rfl rfl rfl rfl
        (Or.inr (Or.inl (by rw [hpc]; rfl)))
  | closeStore ht hpc | closeFd ht hpc | closeSys ht hpc | closeClear ht hpc =>
      exact h.keeps (List.Subset.refl _) (fun _ _ => id) rfl rfl rfl rfl rfl
        (Or.inr (Or.inl (by rw [hpc]; rfl)))
  | quiet hi ht hq =>
      refine h.keeps (List.Subset.refl _) ?_ rfl rfl rfl rfl rfl (Or.inl (Pc.removes_of_not_busy hq.busy))
      intro n x hx
      rwa [hq.core.pool] at hx
  | lookup hl hpc hb herr hlock hp hpc' =>
      exact h.keeps (List.Subset.refl _) (fun _ _ => id) rfl rfl rfl rfl rfl (Or.inr (Or.inr (by simp)))
  | mark ht hm hh ho hcc hl hb =>
      exact h.keeps (List.Subset.refl _) (fun _ _ => id) rfl rfl rfl rfl rfl (Or.inr (Or.inr (by simp)))
  | rejectDrop hpc =>
      refine h.keeps (List.Subset.refl _) ?_ rfl rfl rfl rfl rfl (Or.inl rfl)
      intro n x hx
      rwa [goto_world, setWorld_world, closeConn_pool] at hx
  | sweepSkip hpc hsw hp =>
      refine h.keeps ?_ (fun _ _ => id) rfl rfl rfl rfl rfl (Or.inl rfl)
      rw [hsw]
      exact List.subset_cons_self _ _
  | @find t n x sweep ht hlock hp hb hsw =>
      rcases hsw with ⟨hne, -, rfl⟩ | ⟨rfl, -, hsw⟩
      · exact h.keeps (List.Subset.refl _) (fun _ _ => id) rfl rfl rfl rfl rfl (Or.inr (Or.inr hne))
      · -- the heartbeat finds a connection under the next number of its list
        refine ⟨?_, ?_, h.removed, h.old, h.fresh⟩
        · intro m hm y hy
          exact h.remaining m (by rw [hsw]; exact List.mem_cons_of_mem n hm) y hy
        · intro y hy
          simp only [Function.update_self] at hy
          cases hy
          exact h.remaining n (by rw [hsw]; exact List.mem_cons_self) x hp
  | erase ht hpc => exact sweeping_erase h hpc
  | add hl hpc hlock hadd => exact sweeping_add hc h hl hpc hadd hok
  | scan hpc hlock hperm =>
      refine ⟨?_, ?_, by simp, ?_, by simp⟩
      · intro n hn x hx
        exact List.mem_filterMap.mpr ⟨n, hn, hx⟩
      · intro x hx
        have hx' : (s.pc .heartbeat).removes = some x := hx
        rw [hpc] at hx'
        cases hx'
      · intro x hx
        obtain ⟨n, -, hx⟩ := List.mem_filterMap.mp hx
        exact (hc.pooled n x hx).2.1
  | shutdown hpc hj hlock =>
      refine ⟨?_, h.removing, h.removed, h.old, h.fresh⟩
      intro n hn x hx
      cases hx

/-- **The heartbeat removes only what it found idle.**  In every run in which no `AddConnection`
admits a connection under a number the sweep has yet to visit, every state is `SweepExact`. -/
theorem sweepExact_of_reach {maxConnections threadNum : ℕ} {heartbeatTimeoutMs : ℤ}
    (h : Reach step (fun s l => readmits s l = false) (init maxConnections heartbeatTimeoutMs threadNum) s) :
    SweepExact s := by
  have hinit : Sweeping (init maxConnections heartbeatTimeoutMs threadNum) :=
    ⟨by simp [init], by simp [init, Pc.removes], by simp [init], by simp [init], by simp [init]⟩
  have hinv := h.invariant (fun s => Core s ∧ Sweeping s) ⟨core_init _ _ _, hinit⟩
    (fun _ _ _ hI hok hs => ⟨core_step hI.1 hs, sweeping_step hI.1 hI.2 hok hs⟩)
  exact hinv.2.exact

end steps

/-- One client, idle for more than a minute, and a scan that finds it. -/
def idleScan : List Label := [.accept 5, .main, .main, .tick 60001, .scan [5]]

/-- The sweep removes it. -/
def sweepRun : List Label := idleScan ++ List.replicate 7 .heartbeat

/-- Before the sweep goes on, the client's socket reports an error, its loop removes it, and a new
client gets its number. -/
def reusedRun : List Label :=
  idleScan ++ [.wait 0 [(5, { epollerr := true })]] ++ List.replicate 10 (.loop 0) ++
    [.accept 5, .main, .main] ++ List.replicate 7 .heartbeat

theorem sweepRun_exact :
    ∃ s, run step (init 100000 60000 1) sweepRun = some s ∧ s.removed = [0] ∧ SweepExact s := by
  obtain ⟨s, hs, hrem⟩ := exists_of_any (o := run step (init 100000 60000 1) sweepRun)
    (fun s => s.removed = [0]) (by decide +kernel)
  have hok : Along step (fun s l => readmits s l = false) (init 100000 60000 1) sweepRun := by
    decide +kernel
  exact ⟨s, hs, hrem, sweepExact_of_reach (hok.reach hs)⟩

/-- The scan found client `0` idle; the sweep closed and erased client `1`, admitted since. -/
theorem reusedRun_removes_fresh :
    ∃ s, run step (init 100000 60000 1) reusedRun = some s ∧ s.scanned = [0] ∧ s.sinceScan = [1] ∧
      s.removed = [1] ∧ s.world.closeLog = [(0, some 0), (1, some 1)] ∧ ¬ SweepExact s := by
  obtain ⟨s, hs, hscan, hsince, hrem, hlog⟩ := exists_of_any (o := run step (init 100000 60000 1) reusedRun)
    (fun s => s.scanned = [0] ∧ s.sinceScan = [1] ∧ s.removed = [1] ∧
      s.world.closeLog = [(0, some 0), (1, some 1)]) (by decide +kernel)
  refine ⟨s, hs, hscan, hsince, hrem, hlog, ?_⟩
  rintro ⟨hex, -⟩
  have := hex 1 (Or.inl (by rw [hrem]; exact List.mem_singleton_self 1))
  rw [hscan] at this
  simp at this

end Sys

end TcpServer
