import TcpServer.Interleaving

/-! # The connection pool under every order of its operations

`ConnectionPool` is called by the main thread, the IO loops and the heartbeat thread.  Here its
critical sections are single steps, issued in any order by anybody and for any connection
object: `AddConnection`, `RemoveConnection`, `GetConnection`, `Shutdown`, the two phases of a
heartbeat sweep (the scan collects numbers, the removals follow one by one), and `Init` when the
pool does not run.  Between them connections are made, used and destroyed: whatever uses a
connection leaves its `fd_` alone, and `~Connection` runs only for an object the map does not
own.

`step` records the operations that have returned true, and each `Shutdown`, in `events`, most recent
first; `current` and the counters read off it what the pool should hold.  `pool_invariant` is the
representation invariant; its last part follows the runs that go on from a `Shutdown` without another
`Init` (`untilInit`). -/

namespace TcpServer

open Transition

namespace PoolOps

/-- The successful operations on the map; `Shutdown` always succeeds. -/
inductive Event where
  | added (fd : ℤ) (x : Client)
  | removed (fd : ℤ)
  | cleared
deriving DecidableEq, Repr

/-- The connection last added under `fd` and not removed since. -/
def current (fd : ℤ) : List Event → Option Client
  | [] => none
  | .added fd' x :: es => if fd' = fd then some x else current fd es
  | .removed fd' :: es => if fd' = fd then none else current fd es
  | .cleared :: _ => none

/-- The successful `AddConnection` calls since the last `Shutdown`. -/
def adds : List Event → ℕ
  | [] => 0
  | .added _ _ :: es => adds es + 1
  | .removed _ :: es => adds es
  | .cleared :: _ => 0

/-- The successful `RemoveConnection` calls since the last `Shutdown`. -/
def removes : List Event → ℕ
  | [] => 0
  | .added _ _ :: es => removes es
  | .removed _ :: es => removes es + 1
  | .cleared :: _ => 0

/-- The pool and the objects, with the numbers a sweep has collected and not yet removed. -/
structure State where
  world : World Byte
  sweep : List ℤ
  events : List Event

/-- The state after `Init`. -/
def init (maxConnections : ℕ) (heartbeatTimeoutMs : ℤ) : State :=
  ⟨World.init maxConnections heartbeatTimeoutMs, [], []⟩

inductive Label where
  /-- A connection object is made. -/
  | create (c : Connection Byte)
  /-- An object is used; its `fd_` stays. -/
  | use (x : Client) (c : Connection Byte)
  /-- `~Connection`. -/
  | destroy (x : Client)
  | tick (t : ℤ)
  | addConnection (x : Client)
  | removeConnection (fd : ℤ)
  | getConnection (fd : ℤ)
  /-- First phase of a heartbeat sweep; the order is that of the hash map. -/
  | scan (fds : List ℤ)
  /-- The next removal of the sweep. -/
  | sweep
  | shutdown
  | init (maxConnections : ℕ) (heartbeatTimeoutMs : ℤ)

/-- The steps up to the next `Init`. -/
def untilInit (_ : State) : Label → Prop
  | .init _ _ => False
  | _ => True

/-- `AddConnection` and what it returns. -/
def addConnection (s : State) (x : Client) : State × Bool :=
  match s.world.pool.addConnection (s.world.conns x).fd x with
  | (pool, true) => ({ s with world := s.world.setPool pool }, true)
  | (_, false) => (s, false)

/-- `RemoveConnection` and what it returns. -/
def removeConnection (s : State) (fd : ℤ) : State × Bool :=
  if (s.world.pool.getConnection fd).isSome then ({ s with world := s.world.removeConnection fd }, true)
  else (s, false)

/-- The critical section of `Shutdown`. -/
def shutdown (s : State) : State :=
  if s.world.pool.running then { s with world := Sys.shutdownWorld s.world } else s

/-- `Init`. -/
def initialise (s : State) (maxConnections : ℕ) (heartbeatTimeoutMs : ℤ) : State :=
  { s with
    world := s.world.setPool
      { s.world.pool with
        maxConnections := maxConnections, heartbeatTimeoutMs := heartbeatTimeoutMs, running := true } }

/-- Note an operation. -/
def State.record (s : State) (e : Event) : State := { s with events := e :: s.events }

/-- Note an operation that has returned true. -/
def recorded (r : State × Bool) (e : Event) : State := if r.2 then r.1.record e else r.1

def step (s : State) : Label → Option State
  | .create c =>
      some { s with world := { s.world.setConn s.world.accepted c with accepted := s.world.accepted + 1 } }
  | .use x c => if c.fd = (s.world.conns x).fd then some { s with world := s.world.setConn x c } else none
  | .destroy x =>
      if s.world.pool.connections.entries.all (fun e => decide (e.2 ≠ x)) then
        some { s with world := s.world.closeConn x }
      else none
  | .tick t => some { s with world := { s.world with now := t } }
  | .addConnection x =>
      if x < s.world.accepted then some (recorded (addConnection s x) (.added (s.world.conns x).fd x)) else none
  | .removeConnection fd => some (recorded (removeConnection s fd) (.removed fd))
  | .getConnection _ => some s
  | .scan fds => if s.sweep = [] ∧ fds.Perm (Sys.timeoutFds s.world) then some { s with sweep := fds } else none
  | .sweep =>
      match s.sweep with
      | [] => none
      | fd :: rest => some (recorded (removeConnection { s with sweep := rest } fd) (.removed fd))
  | .shutdown => some ((shutdown s).record .cleared)
  | .init maxConnections heartbeatTimeoutMs =>
      if s.world.pool.running then none else some (initialise s maxConnections heartbeatTimeoutMs)

/-- The representation invariant. -/
structure Inv (s : State) : Prop where
  size : s.world.pool.connections.entries.length ≤ s.world.pool.maxConnections
  key : ∀ fd x, s.world.pool.getConnection fd = some x → (s.world.conns x).fd = fd ∧ x < s.world.accepted
  count : s.world.pool.connections.entries.length + removes s.events = adds s.events
  current : ∀ fd, s.world.pool.getConnection fd = current fd s.events
  stopped : s.world.pool.running = false → s.world.pool.connections.entries = []

/-! ### Operations on the map -/

section map

variable {p : ConnectionPool} {fd : ℤ} {x : Client}

theorem length_insert (h : p.getConnection fd = none) :
    (p.connections.insert fd x).entries.length = p.connections.entries.length + 1 := by
  rw [AList.entries_insert_of_notMem (AList.lookup_eq_none.mp h)]
  rfl

theorem length_erase (h : p.getConnection fd = some x) :
    (p.connections.erase fd).entries.length + 1 = p.connections.entries.length := by
  have hmem : fd ∈ p.connections.keys := by
    apply AList.mem_keys.mp
    rw [← AList.lookup_isSome]
    exact Option.isSome_iff_exists.mpr ⟨x, h⟩
  have hkeys : ∀ c : AList (fun _ : ℤ => Client), c.keys.length = c.entries.length := by
    intro c
    exact List.length_map ..
  have hpos := List.length_pos_of_mem hmem
  rw [← hkeys, ← hkeys, AList.keys_erase, List.length_erase_of_mem hmem]
  omega

theorem getConnection_of_nil (h : p.connections.entries = []) : p.getConnection fd = none := by
  have hempty : p.connections = ∅ := AList.ext h
  unfold ConnectionPool.getConnection
  rw [hempty]
  rfl

end map

section steps

variable {s s' : State} {x : Client} {fd : ℤ}

theorem inv_init (maxConnections : ℕ) (heartbeatTimeoutMs : ℤ) : Inv (init maxConnections heartbeatTimeoutMs) where
  size := Nat.zero_le _
  key := by
    intro fd x h
    cases h
  count := rfl
  current := fun _ => rfl
  stopped := fun _ => rfl

/-- Steps that leave the pool alone and the numbers of the pooled objects. -/
theorem Inv.samePool (h : Inv s) (hp : s'.world.pool = s.world.pool) (he : s'.events = s.events)
    (ha : s.world.accepted ≤ s'.world.accepted)
    (hc : ∀ fd x, s.world.pool.getConnection fd = some x → (s'.world.conns x).fd = (s.world.conns x).fd) :
    Inv s' := by
  refine ⟨by rw [hp]; exact h.size, ?_, by rw [hp, he]; exact h.count, ?_, by rw [hp]; exact h.stopped⟩
  · intro fd x hx
    rw [hp] at hx
    obtain ⟨h1, h2⟩ := h.key fd x hx
    exact ⟨(hc fd x hx).trans h1, Nat.lt_of_lt_of_le h2 ha⟩
  · intro fd
    rw [hp, he]
    exact h.current fd

/-- `AddConnection`. -/
theorem Inv.addConnection (h : Inv s) (hx : x < s.world.accepted) :
    Inv (recorded (addConnection s x) (.added (s.world.conns x).fd x)) := by
  unfold PoolOps.addConnection
  rw [ConnectionPool.addConnection_eq]
  cases ht : s.world.pool.takesIn (s.world.conns x).fd with
  | false => exact h
  | true =>
      simp only [ConnectionPool.takesIn, Bool.and_eq_true, decide_eq_true_eq, Option.isNone_iff_eq_none] at ht
      obtain ⟨⟨hr, hroom⟩, hnone⟩ := ht
      have hlen := length_insert (x := x) hnone
      refine ⟨?_, ?_, ?_, ?_, ?_⟩
      · show (s.world.pool.connections.insert _ x).entries.length ≤ s.world.pool.maxConnections
        omega
      · intro fd y hy
        by_cases hfd : fd = (s.world.conns x).fd
        · subst hfd
          have hyx : y = x := by
            have hself : some x = some y := (AList.lookup_insert _).symm.trans hy
            exact (Option.some.inj hself).symm
          rw [hyx]
          exact ⟨rfl, hx⟩
        · exact h.key fd y ((AList.lookup_insert_ne hfd).symm.trans hy)
      · show (s.world.pool.connections.insert _ x).entries.length + removes s.events = adds s.events + 1
        have := h.count
        omega
      · intro fd
        show AList.lookup fd (s.world.pool.connections.insert _ x) = if _ = fd then some x else _
        split
        · next hfd =>
            subst hfd
            exact AList.lookup_insert _
        · next hfd =>
            rw [AList.lookup_insert_ne (Ne.symm hfd)]
            exact h.current fd
      · intro hstop
        have hstop' : s.world.pool.running = false := hstop
        rw [hr] at hstop'
        cases hstop'

/-- `RemoveConnection`, also as part of a sweep: only the entry goes, and only its object loses
its number. -/
theorem Inv.removeConnection (h : Inv s) (fd : ℤ) : Inv (recorded (removeConnection s fd) (.removed fd)) := by
  unfold PoolOps.removeConnection
  cases hx : s.world.pool.getConnection fd with
  | none => exact h
  | some x =>
      have hworld : s.world.removeConnection fd = (s.world.closeConn x).setPool (s.world.pool.erase fd) := by
        simp only [World.removeConnection, hx, World.closeConn_pool]
      have hlen := length_erase hx
      obtain ⟨hfd, -⟩ := h.key fd x hx
      simp only [Option.isSome_some, if_true, hworld]
      refine ⟨?_, ?_, ?_, ?_, ?_⟩
      · show (s.world.pool.connections.erase fd).entries.length ≤ s.world.pool.maxConnections
        have := h.size
        omega
      · intro m y hy
        have hy' : s.world.pool.getConnection m = some y := ConnectionPool.getConnection_of_erase hy
        obtain ⟨h1, h2⟩ := h.key m y hy'
        have hne : y ≠ x := by
          -- the object of another entry carries another number
          rintro rfl
          have hm : m = fd := h1.symm.trans hfd
          subst hm
          have hy₁ : (s.world.pool.erase m).getConnection m = some y := hy
          rw [ConnectionPool.getConnection_erase_self] at hy₁
          cases hy₁
        refine ⟨?_, ?_⟩
        · show ((s.world.closeConn x).conns y).fd = m
          rw [World.closeConn_conns_ne s.world hne]
          exact h1
        · show y < (s.world.closeConn x).accepted
          rw [World.closeConn_accepted]
          exact h2
      · show (s.world.pool.connections.erase fd).entries.length + (removes s.events + 1) = adds s.events
        have := h.count
        omega
      · intro m
        show (s.world.pool.erase fd).getConnection m = if fd = m then none else _
        split
        · next hm =>
            subst hm
            exact ConnectionPool.getConnection_erase_self _ _
        · next hm =>
            rw [ConnectionPool.getConnection_erase_ne _ (Ne.symm hm)]
            exact h.current m
      · intro hstop
        have hnil := h.stopped hstop
        rw [getConnection_of_nil hnil] at hx
        cases hx

/-- `Shutdown`. -/
theorem Inv.shutdown (h : Inv s) : Inv ((shutdown s).record .cleared) := by
  unfold PoolOps.shutdown
  cases hr : s.world.pool.running with
  | false =>
      have hnil := h.stopped hr
      exact ⟨h.size, h.key, congrArg List.length hnil, fun _ => getConnection_of_nil hnil, h.stopped⟩
  | true =>
      refine ⟨Nat.zero_le _, ?_, rfl, fun _ => rfl, fun _ => rfl⟩
      intro fd x hx
      cases hx

/-- `Init` of a pool that does not run. -/
theorem Inv.initialise (h : Inv s) (hr : s.world.pool.running = false) (m : ℕ) (t : ℤ) :
    Inv (initialise s m t) := by
  have hnil := h.stopped hr
  refine ⟨?_, h.key, h.count, h.current, fun hstop => (by cases hstop)⟩
  show s.world.pool.connections.entries.length ≤ m
  rw [hnil]
  exact Nat.zero_le m

/-- **The step lemma.** -/
theorem inv_step {l : Label} (h : Inv s) (hs : step s l = some s') : Inv s' := by
  cases l with
  | create c =>
      cases hs
      refine h.samePool rfl rfl (Nat.le_succ _) ?_
      intro fd x hx
      have hne : x ≠ s.world.accepted := Nat.ne_of_lt (h.key fd x hx).2
      show ((s.world.setConn s.world.accepted c).conns x).fd = _
      rw [World.conns_setConn_ne c s.world hne]
  | use x c =>
      simp only [step, Option.ite_none_right_eq_some] at hs
      obtain ⟨hfd, hs⟩ := hs
      cases hs
      refine h.samePool rfl rfl (Nat.le_refl _) ?_
      intro _ y _
      show ((s.world.setConn x c).conns y).fd = _
      by_cases hy : y = x
      · rw [hy, World.conns_setConn_self, hfd]
      · rw [World.conns_setConn_ne c s.world hy]
  | destroy x =>
      simp only [step, Option.ite_none_right_eq_some, List.all_eq_true, decide_eq_true_eq] at hs
      obtain ⟨hfree, hs⟩ := hs
      cases hs
      refine h.samePool (World.closeConn_pool x s.world) rfl (Nat.le_of_eq (World.closeConn_accepted x s.world).symm) ?_
      intro fd y hy
      have hne : y ≠ x := hfree ⟨fd, y⟩ (AList.mem_lookup_iff.mp hy)
      show ((s.world.closeConn x).conns y).fd = _
      rw [World.closeConn_conns_ne s.world hne]
  | tick t =>
      cases hs
      exact h.samePool rfl rfl (Nat.le_refl _) (fun _ _ _ => rfl)
  | addConnection x =>
      simp only [step, Option.ite_none_right_eq_some] at hs
      obtain ⟨hx, hs⟩ := hs
      cases hs
      exact h.addConnection hx
  | removeConnection fd =>
      cases hs
      exact h.removeConnection fd
  | getConnection fd =>
      cases hs
      exact h
  | scan fds =>
      simp only [step, Option.ite_none_right_eq_some] at hs
      obtain ⟨-, hs⟩ := hs
      cases hs
      exact h.samePool rfl rfl (Nat.le_refl _) (fun _ _ _ => rfl)
  | sweep =>
      simp only [step] at hs
      split at hs
      · cases hs
      · next fd rest hsweep =>
          cases hs
          have hrest : Inv { s with sweep := rest } :=
            h.samePool rfl rfl (Nat.le_refl _) (fun _ _ _ => rfl)
          exact hrest.removeConnection fd
  | shutdown =>
      cases hs
      exact h.shutdown
  | init m t =>
      simp only [step] at hs
      split at hs
      · cases hs
      · next hr =>
          cases hs
          exact h.initialise (by simpa using hr) m t

/-- After `Shutdown` the pool does not run, whether it ran before or not. -/
theorem shutdown_running (s : State) : (shutdown s).world.pool.running = false := by
  unfold PoolOps.shutdown
  cases hr : s.world.pool.running with
  | false => exact hr
  | true => rfl

theorem addConnection_running (s : State) (x : Client) (e : Event) :
    (recorded (addConnection s x) e).world.pool.running = s.world.pool.running := by
  unfold PoolOps.addConnection
  rw [ConnectionPool.addConnection_eq]
  cases s.world.pool.takesIn (s.world.conns x).fd with
  | false => rfl
  | true => rfl

theorem removeConnection_running (s : State) (fd : ℤ) (e : Event) :
    (recorded (removeConnection s fd) e).world.pool.running = s.world.pool.running := by
  unfold PoolOps.removeConnection
  cases hx : s.world.pool.getConnection fd with
  | none => rfl
  | some x =>
      have hworld : s.world.removeConnection fd = (s.world.closeConn x).setPool (s.world.pool.erase fd) := by
        simp only [World.removeConnection, hx, World.closeConn_pool]
      simp only [Option.isSome_some, if_true, hworld]
      rfl

/-- Nothing but `Init` makes a stopped pool run. -/
theorem stopped_step {l : Label} (hr : s.world.pool.running = false) (hl : untilInit s l)
    (hs : step s l = some s') : s'.world.pool.running = false := by
  cases l with
  | create c =>
      cases hs
      exact hr
  | use x c =>
      simp only [step, Option.ite_none_right_eq_some] at hs
      obtain ⟨-, hs⟩ := hs
      cases hs
      exact hr
  | destroy x =>
      simp only [step, Option.ite_none_right_eq_some] at hs
      obtain ⟨-, hs⟩ := hs
      cases hs
      show (s.world.closeConn x).pool.running = false
      rw [World.closeConn_pool]
      exact hr
  | tick t =>
      cases hs
      exact hr
  | addConnection x =>
      simp only [step, Option.ite_none_right_eq_some] at hs
      obtain ⟨-, hs⟩ := hs
      cases hs
      exact (addConnection_running s x _).trans hr
  | removeConnection fd =>
      cases hs
      exact (removeConnection_running s fd _).trans hr
  | getConnection fd =>
      cases hs
      exact hr
  | scan fds =>
      simp only [step, Option.ite_none_right_eq_some] at hs
      obtain ⟨-, hs⟩ := hs
      cases hs
      exact hr
  | sweep =>
      simp only [step] at hs
      split at hs
      · cases hs
      · next fd rest hsweep =>
          cases hs
          exact (removeConnection_running { s with sweep := rest } fd _).trans hr
  | shutdown =>
      cases hs
      exact shutdown_running s
  | init m t => exact hl.elim

end steps

/-- A pool that does not run accepts nothing. -/
theorem addConnection_stopped {s : State} (hr : s.world.pool.running = false) (x : Client) :
    (addConnection s x).2 = false := by
  simp [addConnection, ConnectionPool.addConnection, hr]

/-- From a `Shutdown` of a pool that keeps the invariant, until the next `Init`: the pool does
not run and its map is empty. -/
theorem inv_after_shutdown {s s' : State} (hi : Inv s) (h : Reach step untilInit ((shutdown s).record .cleared) s') :
    Inv s' ∧ s'.world.pool.running = false := by
  have h0 : Inv ((shutdown s).record .cleared) ∧ ((shutdown s).record .cleared).world.pool.running = false :=
    ⟨hi.shutdown, shutdown_running s⟩
  refine h.invariant (fun s' => Inv s' ∧ s'.world.pool.running = false) h0 ?_
  rintro s₁ l s₂ ⟨hi₁, hr₁⟩ hl hs
  exact ⟨inv_step hi₁ hs, stopped_step hr₁ hl hs⟩

/-- **The representation invariant of the pool.**  From `Init`, under every order of the
operations: the map is never overfull, every entry's object carries the number of its key, the
size is the number of successful adds less that of successful removals, `GetConnection` returns
the connection last added and not removed since, and when `Shutdown` is called, the map is empty
and `AddConnection` returns false in every state from its completion until the next `Init`. -/
theorem pool_invariant (maxConnections : ℕ) (heartbeatTimeoutMs : ℤ) (s : State)
    (h : Reach step always (init maxConnections heartbeatTimeoutMs) s) :
    s.world.pool.connections.entries.length ≤ s.world.pool.maxConnections ∧
      (∀ fd x, s.world.pool.getConnection fd = some x → (s.world.conns x).fd = fd) ∧
      s.world.pool.connections.entries.length + removes s.events = adds s.events ∧
      (∀ fd, s.world.pool.getConnection fd = current fd s.events) ∧
      ∃ s₁, step s .shutdown = some s₁ ∧ ∀ s₂, Reach step untilInit s₁ s₂ →
        s₂.world.pool.connections.entries = [] ∧ ∀ x, (addConnection s₂ x).2 = false := by
  have hi : Inv s := h.invariant Inv (inv_init _ _) (fun _ _ _ hi _ hs => inv_step hi hs)
  refine ⟨hi.size, fun fd x hx => (hi.key fd x hx).1, hi.count, hi.current, (shutdown s).record .cleared, rfl, ?_⟩
  intro s₂ h₂
  obtain ⟨hi₂, hr₂⟩ := inv_after_shutdown hi h₂
  exact ⟨hi₂.stopped hr₂, addConnection_stopped hr₂⟩

/-- Two connections, a refused third one, a sweep that removes the first, its number used again,
and a removal. -/
def busyPool : List Label :=
  [.create (.connected 5 0), .addConnection 0, .create (.connected 6 50), .addConnection 1,
    .create (.connected 7 50), .addConnection 2, .tick 60, .scan [5], .sweep, .create (.connected 5 60),
    .addConnection 3, .removeConnection 6]

/-- After a `Shutdown`: a connection that the pool does not take, and a removal of nothing. -/
def closedPool : List Label :=
  [.create (.connected 8 60), .addConnection 4, .removeConnection 5]

/-- After `busyPool` one connection is left; `Shutdown` empties the map, which stays so along
`closedPool`, and takes connections again from the next `Init` on. -/
theorem pool_invariant_busy :
    ∃ s s₁ s₂ s₃, run step (init 2 20) busyPool = some s ∧ s.world.pool.getConnection 5 = some 3 ∧
      s.world.pool.connections.entries.length + 2 = 3 ∧ current 5 s.events = some 3 ∧
      step s .shutdown = some s₁ ∧ run step s₁ closedPool = some s₂ ∧
      s₂.world.pool.connections.entries = [] ∧ (addConnection s₂ 4).2 = false ∧
      run step s₂ [.init 2 20, .addConnection 4] = some s₃ ∧ s₃.world.pool.getConnection 8 = some 4 := by
  obtain ⟨s, hr, h5, hrem, hadd⟩ := exists_of_any (o := run step (init 2 20) busyPool)
    (fun s => s.world.pool.getConnection 5 = some 3 ∧ removes s.events = 2 ∧ adds s.events = 3)
    (by decide +kernel)
  obtain ⟨s₃, hr₃, h8⟩ := exists_of_any
    (o := run step (init 2 20) (busyPool ++ .shutdown :: closedPool ++ [.init 2 20, .addConnection 4]))
    (fun s => s.world.pool.getConnection 8 = some 4) (by decide +kernel)
  obtain ⟨s₂, hr₂, hr₃⟩ := run_append_some.mp hr₃
  obtain ⟨s', hr', hr₂⟩ := run_append_some.mp hr₂
  have hss : s' = s := Option.some.inj (hr'.symm.trans hr)
  rw [hss] at hr₂
  obtain ⟨-, -, hcount, hcur, s₁, hs₁, hafter⟩ := pool_invariant 2 20 s (reach_of_run hr)
  obtain ⟨s₁', hs₁', hr₂⟩ := run_cons_some.mp hr₂
  have hss₁ : s₁' = s₁ := Option.some.inj (hs₁'.symm.trans hs₁)
  rw [hss₁] at hr₂
  have hclosed : Along step untilInit s₁ closedPool :=
    ⟨trivial, fun _ _ => ⟨trivial, fun _ _ => ⟨trivial, fun _ _ => trivial⟩⟩⟩
  obtain ⟨hnil, hrefused⟩ := hafter s₂ (hclosed.reach hr₂)
  refine ⟨s, s₁, s₂, s₃, hr, h5, ?_, ?_, hs₁, hr₂, hnil, hrefused 4, hr₃, h8⟩
  · rw [← hrem, ← hadd]
    exact hcount
  · rw [← hcur 5]
    exact h5

end PoolOps

end TcpServer
