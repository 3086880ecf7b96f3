import TcpServer.Lifecycle

/-! # `Server::HandleAccept`, undisturbed

One call of `HandleAccept` drains the listen queue: `Socket::Accept`, the options of the socket,
a `Connection` on the heap, `AddConnection`, `GetNextEventLoop` and `AddFd`, until `accept(2)`
says that nothing is pending.  `Socket::Accept` reports `EAGAIN` by an invalid `Socket` and
throws on every other error.

A descriptor has two owners for a while: the local `client_socket`, whose destructor closes
it until `Release` is called, and the `Connection`, whose destructor closes it when the last
`shared_ptr` goes.  The model runs both destructors where the locals go out of scope: the local
`shared_ptr` first, `client_socket` last.

`all_or_nothing_iff` says when an iteration leaves either a pooled and registered connection or
a descriptor closed exactly once.  `Ready` is what an iteration needs to find and keeps. -/

namespace TcpServer

def EEXIST : Errno := 17

/-- `CheckError` throws a `std::runtime_error` that names the operation and `errno`. -/
structure Exception where
  operation : String
  errno : Errno
deriving DecidableEq, Repr

/-- The text of the exception. -/
def Exception.what (strerror : Errno → String) (e : Exception) : String :=
  e.operation ++ " failed: " ++ strerror e.errno

/-- What `accept(2)` answers. -/
inductive AcceptResult where
  | client (n : ℤ)
  | error (e : Errno)
deriving DecidableEq, Repr

/-- `Socket::Accept`; `none` is the invalid `Socket(-1)`. -/
def socketAccept : AcceptResult → Except Exception (Option ℤ)
  | .client n => .ok (some n)
  | .error e => if wouldBlock e then .ok none else .error ⟨"accept", e⟩

/-- How `HandleAccept` is left. -/
inductive Exit where
  | returned
  | thrown (e : Exception)
deriving DecidableEq, Repr

/-- What `HandleAccept` works on: `loops` is the size of `loops_`, `running` is the server's
`running_`. -/
structure Acceptor (α : Type) where
  world : World α
  loops : ℕ
  nextLoopIdx : ℕ
  running : Bool

namespace Acceptor

open World

variable {α : Type}

/-- `IOThreadPool::GetNextEventLoop` and the index after it. -/
def getNextEventLoop (s : Acceptor α) : Option ℕ × ℕ :=
  if s.loops = 0 then (none, s.nextLoopIdx)
  else (some s.nextLoopIdx, (s.nextLoopIdx + 1) % s.loops)

/-- `Socket::Close`, also as destructor, on a `Socket` that holds `fd`, which was opened for
client `x`: the world and the `fd_` after it. -/
def socketClose (x : Client) (fd : ℤ) (w : World α) : World α × ℤ :=
  if fd ≠ -1 then (w.close x fd, -1) else (w, fd)

/-- The iteration is left by `continue` after `AddConnection` returned false: the local
`shared_ptr` is the only owner of the connection. -/
def refuse (x : Client) (n : ℤ) (w : World α) : World α :=
  let (w, sock) := socketClose x n w
  let w := w.closeConn x
  (socketClose x sock w).1

/-- The iteration is left by `continue` after `GetNextEventLoop` returned null. -/
def orphan (x : Client) (n : ℤ) (w : World α) : World α :=
  let (w, sock) := socketClose x n w
  let w := w.removeConnection n
  let w := w.closeConn x
  (socketClose x sock w).1

/-- The iteration is left by the exception of `AddFd`; the pool still owns the connection. -/
def unwind (x : Client) (n : ℤ) (w : World α) : World α := (socketClose x n w).1

/-- One iteration of `HandleAccept` for the descriptor `n`, up to the end of the life of its
locals.  `options` is the exception of `SetNonBlocking` or `SetTcpNoDelay`, `ctl` the `errno`
of a failed `epoll_ctl`; `none` stands for success. -/
def iteration (s : Acceptor α) (n : ℤ) (options : Option Exception) (ctl : Option Errno) :
    Acceptor α × Exit :=
  let x := s.world.accepted
  let w := s.world.newClient n
  match options with
  | some e => ({ s with world := (socketClose x n w).1 }, .thrown e)
  | none =>
      match w.pool.addConnection n x with
      | (_, false) => ({ s with world := refuse x n w }, .returned)
      | (pool, true) =>
          let w := w.setPool pool
          match s.getNextEventLoop with
          | (none, _) => ({ s with world := orphan x n w }, .returned)
          | (some i, idx) =>
              match ctl, w.addFd i n inOutMask with
              | none, some w' =>
                  -- `Release` leaves the descriptor to the pooled connection
                  ({ s with world := w', nextLoopIdx := idx }, .returned)
              | none, none =>
                  ({ s with world := unwind x n w, nextLoopIdx := idx },
                    .thrown ⟨"epoll_ctl(EPOLL_CTL_ADD)", EEXIST⟩)
              | some e, _ =>
                  ({ s with world := unwind x n w, nextLoopIdx := idx }, .thrown ⟨"epoll_ctl(EPOLL_CTL_ADD)", e⟩)

/-- `HandleAccept`, with the answers `accept(2)` is going to give; when they are used up nothing
is pending.  All other system calls succeed.  The kernel never returns a number that is open. -/
def handleAccept (s : Acceptor α) : List AcceptResult → Option (Acceptor α × List AcceptResult × Exit)
  | [] => some (s, [], .returned)
  | r :: rest =>
      match socketAccept r with
      | .error e => some (s, rest, .thrown e)
      | .ok none => some (s, rest, .returned)
      | .ok (some n) =>
          if 0 ≤ n ∧ s.world.files n = none then
            match s.iteration n none none with
            | (s', .returned) => s'.handleAccept rest
            | (s', .thrown e) => some (s', rest, .thrown e)
          else none

/-! ### What an iteration leaves behind -/

/-- Nothing changes but the number `n` and the client accepted under it. -/
structure Elsewhere (n : ℤ) (w w' : World α) : Prop where
  accepted : w'.accepted = w.accepted + 1
  conns : ∀ y, y ≠ w.accepted → w'.conns y = w.conns y
  files : ∀ m, m ≠ n → w'.files m = w.files m
  epoll : ∀ i m, m ≠ n → w'.epoll i m = w.epoll i m

/-- The number is closed, by `closes` in this order. -/
structure Closed (n : ℤ) (closes : List (Client × Option Client)) (w w' : World α) : Prop where
  elsewhere : Elsewhere n w w'
  file : w'.files n = none
  unregistered : ∀ i, w'.epoll i n = none
  log : w'.closeLog = w.closeLog ++ closes

/-- The number is open and registered with loop `i` only; nothing was closed. -/
structure Kept (n : ℤ) (i : ℕ) (w w' : World α) : Prop where
  elsewhere : Elsewhere n w w'
  conn : w'.conns w.accepted = .connected n w.now
  file : w'.files n = some w.accepted
  registered : ∀ j, (w'.epoll j n).isSome ↔ j = i
  log : w'.closeLog = w.closeLog

theorem elsewhere_newClient (n : ℤ) (w : World α) : Elsewhere n w (w.newClient n) :=
  ⟨rfl, fun _ hy => conns_newClient_ne n w hy, fun _ hm => files_newClient_ne w hm, fun _ _ _ => rfl⟩

theorem Elsewhere.close {n : ℤ} {w w' : World α} (h : Elsewhere n w w') (x : Client) :
    Elsewhere n w (w'.close x n) := by
  refine ⟨h.accepted, h.conns, ?_, ?_⟩
  · intro m hm
    rw [files_close_ne x w' hm, h.files m hm]
  · intro i m hm
    rw [epoll_close_ne x w' hm, h.epoll i m hm]

theorem Elsewhere.setPool {n : ℤ} {w w' : World α} (h : Elsewhere n w w') (pool : ConnectionPool) :
    Elsewhere n w (w'.setPool pool) :=
  ⟨h.accepted, h.conns, h.files, h.epoll⟩

theorem Elsewhere.setConn {n : ℤ} {w w' : World α} (h : Elsewhere n w w') (c : Connection α) :
    Elsewhere n w (w'.setConn w.accepted c) := by
  refine ⟨h.accepted, ?_, h.files, h.epoll⟩
  intro y hy
  rw [conns_setConn_ne c w' hy, h.conns y hy]

theorem Elsewhere.setInterest {n : ℤ} {w w' : World α} (h : Elsewhere n w w') (i : ℕ) (v : Option Interest) :
    Elsewhere n w (w'.setInterest i n v) := by
  refine ⟨h.accepted, h.conns, h.files, ?_⟩
  intro j m hm
  rw [epoll_setInterest_ne v w' hm, h.epoll j m hm]

theorem close_self (x : Client) (n : ℤ) (w : World α) :
    (w.close x n).files n = none ∧ ∀ i, (w.close x n).epoll i n = none := by
  simp [close]

/-- The destructor of a connected object closes the number it carries. -/
theorem closeConn_connected {x : Client} {n now : ℤ} {w : World α} (hc : w.conns x = .connected n now)
    (hn : 0 ≤ n) :
    w.closeConn x = (w.close x n).setConn x ((Connection.connected n now).markClosed.clearFd) := by
  have hn1 : n ≠ -1 := by omega
  simp [closeConn, hc, Connection.connected, Connection.markClosed, Connection.clearFd, hn1, World.setConn,
    World.close]

/-- An object that is `CLOSED` is closed without effect. -/
theorem closeConn_of_closed {x : Client} {w : World α} (hc : (w.conns x).state = .closed) : w.closeConn x = w :=
  if_pos hc

theorem socketClose_open {x : Client} {n : ℤ} (hn : 0 ≤ n) (w : World α) :
    socketClose x n w = (w.close x n, -1) := by
  unfold socketClose
  rw [if_pos]
  omega

/-- The two `close` calls a refused client gets: the first one hits its socket, the second one
nothing. -/
def twice (x : Client) : List (Client × Option Client) := [(x, some x), (x, none)]

/-- Closing the socket and then destroying the connection closes the number twice. -/
theorem closed_twice {n : ℤ} {w w' : World α} (hn : 0 ≤ n) (h : Elsewhere n w w')
    (hc : w'.conns w.accepted = .connected n w.now) (hf : w'.files n = some w.accepted)
    (hlog : w'.closeLog = w.closeLog) :
    Closed n (twice w.accepted) w ((w'.close w.accepted n).closeConn w.accepted) := by
  have hc' : (w'.close w.accepted n).conns w.accepted = .connected n w.now := hc
  rw [closeConn_connected hc' hn]
  obtain ⟨hfile, hepoll⟩ := close_self w.accepted n (w'.close w.accepted n)
  refine ⟨((h.close _).close _).setConn _, hfile, hepoll, ?_⟩
  show w'.closeLog ++ [(w.accepted, w'.files n)] ++ [(w.accepted, (w'.close w.accepted n).files n)] = _
  rw [hlog, hf, (close_self w.accepted n w').1, List.append_assoc]
  rfl

theorem closed_refuse {n : ℤ} {w : World α} (hn : 0 ≤ n) :
    Closed n (twice w.accepted) w (refuse w.accepted n (w.newClient n)) := by
  unfold refuse
  rw [socketClose_open hn]
  exact closed_twice hn (elsewhere_newClient n w) (conns_newClient_self n w) (files_newClient_self n w) rfl

theorem refuse_pool {n : ℤ} {w : World α} (hn : 0 ≤ n) :
    (refuse w.accepted n (w.newClient n)).pool = w.pool := by
  unfold refuse
  rw [socketClose_open hn]
  exact closeConn_pool _ _

/-- An exception before the connection exists: `~Socket` closes the number. -/
theorem closed_socket {n : ℤ} {w w' : World α} (hn : 0 ≤ n) (h : Elsewhere n w w')
    (hf : w'.files n = some w.accepted) (hlog : w'.closeLog = w.closeLog) :
    Closed n [(w.accepted, some w.accepted)] w (socketClose w.accepted n w').1 := by
  rw [socketClose_open hn]
  obtain ⟨hfile, hepoll⟩ := close_self w.accepted n w'
  refine ⟨h.close _, hfile, hepoll, ?_⟩
  show w'.closeLog ++ [(w.accepted, w'.files n)] = _
  rw [hlog, hf]

/-- The number `accept(2)` returns and the object made for it are new: the number is not open, a
number that is not open is in no epoll set, and the pool cannot hold an object that did not
exist. -/
structure Fresh (w : World α) (n : ℤ) : Prop where
  nonneg : 0 ≤ n
  notOpen : w.files n = none
  unregistered : ∀ i, w.epoll i n = none
  unpooled : ∀ m, w.pool.getConnection m ≠ some w.accepted

/-- The pool with the new connection in it. -/
def pooled (s : Acceptor α) (n : ℤ) : ConnectionPool :=
  { s.world.pool with connections := s.world.pool.connections.insert n s.world.accepted }

/-- The acceptor after an iteration in which everything succeeds. -/
def keep (s : Acceptor α) (n : ℤ) : Acceptor α :=
  { s with
    world := ((s.world.newClient n).setPool (s.pooled n)).setInterest s.nextLoopIdx n (some ⟨inOutMask, true⟩)
    nextLoopIdx := (s.nextLoopIdx + 1) % s.loops }

section iteration

variable {s : Acceptor α} {n : ℤ}

theorem getConnection_pooled_self (s : Acceptor α) (n : ℤ) :
    (s.pooled n).getConnection n = some s.world.accepted := AList.lookup_insert _

theorem getConnection_pooled_ne (s : Acceptor α) {m : ℤ} (h : m ≠ n) :
    (s.pooled n).getConnection m = s.world.pool.getConnection m := AList.lookup_insert_ne h

theorem addConnection_newClient (s : Acceptor α) (n : ℤ) :
    (s.world.newClient n).pool.addConnection n s.world.accepted =
      if s.world.pool.takesIn n then (s.pooled n, true) else (s.world.pool, false) :=
  ConnectionPool.addConnection_eq _ _ _

/-- The options of the socket cannot be set. -/
theorem iteration_options (e : Exception) (ctl : Option Errno) (h : Fresh s.world n) :
    Closed n [(s.world.accepted, some s.world.accepted)] s.world (s.iteration n (some e) ctl).1.world ∧
      (s.iteration n (some e) ctl).1.world.pool = s.world.pool := by
  refine ⟨closed_socket h.nonneg (elsewhere_newClient n s.world) (files_newClient_self n s.world) rfl, ?_⟩
  show (socketClose s.world.accepted n (s.world.newClient n)).1.pool = s.world.pool
  rw [socketClose_open h.nonneg]
  rfl

/-- The pool refuses the connection. -/
theorem iteration_refused (ctl : Option Errno) (h : Fresh s.world n) (ht : s.world.pool.takesIn n = false) :
    s.iteration n none ctl =
        ({ s with world := refuse s.world.accepted n (s.world.newClient n) }, .returned) ∧
      Closed n (twice s.world.accepted) s.world (s.iteration n none ctl).1.world ∧
      (s.iteration n none ctl).1.world.pool = s.world.pool := by
  have heq : s.iteration n none ctl =
      ({ s with world := refuse s.world.accepted n (s.world.newClient n) }, .returned) := by
    unfold iteration
    simp only [addConnection_newClient, ht, Bool.false_eq_true, if_false]
  rw [heq]
  exact ⟨rfl, closed_refuse h.nonneg, refuse_pool h.nonneg⟩

/-- There is no loop to give the connection to. -/
theorem iteration_orphan (ctl : Option Errno) (h : Fresh s.world n) (ht : s.world.pool.takesIn n = true)
    (hl : s.loops = 0) : Closed n (twice s.world.accepted) s.world (s.iteration n none ctl).1.world := by
  have heq : s.iteration n none ctl =
      ({ s with world := orphan s.world.accepted n ((s.world.newClient n).setPool (s.pooled n)) }, .returned) := by
    unfold iteration
    simp only [addConnection_newClient, ht, if_true, getNextEventLoop, hl]
  obtain ⟨w', hw'⟩ : ∃ w', w' = (s.world.newClient n).setPool (s.pooled n) := ⟨_, rfl⟩
  have helse : Elsewhere n s.world w' := by
    rw [hw']
    exact (elsewhere_newClient n s.world).setPool _
  have hconn : w'.conns s.world.accepted = .connected n s.world.now := by
    rw [hw']
    exact conns_newClient_self n s.world
  have hfile : w'.files n = some s.world.accepted := by
    rw [hw']
    exact files_newClient_self n s.world
  have hpool : (w'.close s.world.accepted n).pool.getConnection n = some s.world.accepted := by
    rw [hw']
    exact getConnection_pooled_self s n
  have hlog : w'.closeLog = s.world.closeLog := by
    rw [hw']
    rfl
  have hclosed := closed_twice h.nonneg helse hconn hfile hlog
  rw [heq, ← hw']
  show Closed n _ s.world (orphan s.world.accepted n w')
  unfold orphan
  rw [socketClose_open h.nonneg]
  simp only [removeConnection, hpool]
  rw [closeConn_of_closed]
  · exact ⟨hclosed.elsewhere.setPool _, hclosed.file, hclosed.unregistered, hclosed.log⟩
  · have hc' : (w'.close s.world.accepted n).conns s.world.accepted = .connected n s.world.now := hconn
    rw [closeConn_connected hc' h.nonneg]
    show ((World.setConn _ _ _).conns s.world.accepted).state = .closed
    rw [conns_setConn_self]
    rfl

/-- `AddFd` throws. -/
theorem iteration_unwind (e : Errno) (h : Fresh s.world n) (ht : s.world.pool.takesIn n = true)
    (hl : 0 < s.loops) :
    Closed n [(s.world.accepted, some s.world.accepted)] s.world (s.iteration n none (some e)).1.world ∧
      (s.iteration n none (some e)).1.world.pool = s.pooled n := by
  have hl0 : s.loops ≠ 0 := by omega
  have hworld : (s.iteration n none (some e)).1.world =
      (socketClose s.world.accepted n ((s.world.newClient n).setPool (s.pooled n))).1 := by
    unfold iteration
    simp only [addConnection_newClient, ht, if_true, getNextEventLoop, hl0, if_false, unwind]
  rw [hworld]
  refine ⟨closed_socket h.nonneg ((elsewhere_newClient n s.world).setPool _) (files_newClient_self n s.world) rfl, ?_⟩
  rw [socketClose_open h.nonneg]
  rfl

/-- Everything succeeds. -/
theorem iteration_kept (h : Fresh s.world n) (ht : s.world.pool.takesIn n = true) (hl : 0 < s.loops) :
    s.iteration n none none = (s.keep n, .returned) := by
  have hl0 : s.loops ≠ 0 := by omega
  have hadd : ((s.world.newClient n).setPool (s.pooled n)).addFd s.nextLoopIdx n inOutMask =
      some (((s.world.newClient n).setPool (s.pooled n)).setInterest s.nextLoopIdx n
        (some ⟨inOutMask, true⟩)) := by
    apply addFd_eq_some
    · show ((s.world.newClient n).files n).isSome = true
      rw [files_newClient_self]
      rfl
    · exact h.unregistered _
  unfold iteration
  simp only [addConnection_newClient, ht, if_true, getNextEventLoop, hl0, if_false, hadd]
  rfl

theorem kept_keep (h : Fresh s.world n) : Kept n s.nextLoopIdx s.world (s.keep n).world := by
  refine ⟨((elsewhere_newClient n s.world).setPool _).setInterest _ _, conns_newClient_self n s.world,
    files_newClient_self n s.world, ?_, rfl⟩
  intro j
  by_cases hj : j = s.nextLoopIdx
  · subst hj
    simp [keep]
  · have hold : (s.keep n).world.epoll j n = s.world.epoll j n := by
      simp [keep, World.setInterest, hj, World.newClient]
    rw [hold, h.unregistered j]
    simp [hj]

end iteration

/-! ### All or nothing -/

/-- The descriptor is open, was never closed, belongs to a connection in the pool and is
registered with exactly one loop. -/
structure Adopted (n : ℤ) (w w' : World α) : Prop where
  file : w'.files n = some w.accepted
  log : w'.closeLog = w.closeLog
  pool : w'.pool.getConnection n = some w.accepted
  conn : (w'.conns w.accepted).fd = n ∧ (w'.conns w.accepted).state ≠ .closed
  registered : ∃! i, (w'.epoll i n).isSome = true

/-- The descriptor is in neither the pool nor an epoll set, and `close` has been called on it
exactly once. -/
structure Discarded (n : ℤ) (w w' : World α) : Prop where
  pool : ∀ m, w'.pool.getConnection m ≠ some w.accepted
  unregistered : ∀ i, w'.epoll i n = none
  log : ∃ hit, w'.closeLog = w.closeLog ++ [(w.accepted, hit)]

/-- Exactly one of the two holds. -/
def AllOrNothing (n : ℤ) (w w' : World α) : Prop := Xor (Adopted n w w') (Discarded n w w')

theorem Adopted.not_discarded {n : ℤ} {w w' : World α} (h : Adopted n w w') : ¬ Discarded n w w' := by
  intro hd
  exact hd.pool n h.pool

theorem Closed.not_adopted {n : ℤ} {w w' : World α} {closes : List (Client × Option Client)}
    (h : Closed n closes w w') : ¬ Adopted n w w' := by
  intro ha
  have hfile := h.file
  rw [ha.file] at hfile
  cases hfile

/-- Two `close` calls are neither none nor one. -/
theorem not_allOrNothing_of_twice {n : ℤ} {w w' : World α} (h : Closed n (twice w.accepted) w w') :
    ¬ AllOrNothing n w w' := by
  rintro (⟨ha, -⟩ | ⟨hd, -⟩)
  · exact h.not_adopted ha
  · obtain ⟨hit, hlog⟩ := hd.log
    rw [h.log, List.append_cancel_left_eq] at hlog
    cases hlog

/-- The number is closed, but the pool holds its connection. -/
theorem not_allOrNothing_of_pooled {n : ℤ} {w w' : World α} {closes : List (Client × Option Client)}
    (h : Closed n closes w w') (hp : w'.pool.getConnection n = some w.accepted) : ¬ AllOrNothing n w w' := by
  rintro (⟨ha, -⟩ | ⟨hd, -⟩)
  · exact h.not_adopted ha
  · exact hd.pool n hp

theorem allOrNothing_of_kept {n : ℤ} {i : ℕ} {w w' : World α} (h : Kept n i w w')
    (hp : w'.pool.getConnection n = some w.accepted) : AllOrNothing n w w' := by
  have ha : Adopted n w w' := by
    refine ⟨h.file, h.log, hp, ?_, i, (h.registered i).mpr rfl, fun j hj => (h.registered j).mp hj⟩
    rw [h.conn]
    exact ⟨rfl, by simp [Connection.connected]⟩
  exact Or.inl ⟨ha, ha.not_discarded⟩

theorem allOrNothing_of_once {n : ℤ} {w w' : World α} (h : Closed n [(w.accepted, some w.accepted)] w w')
    (hp : ∀ m, w'.pool.getConnection m ≠ some w.accepted) : AllOrNothing n w w' := by
  have hd : Discarded n w w' := ⟨hp, h.unregistered, _, h.log⟩
  exact Or.inr ⟨hd, fun ha => ha.not_discarded hd⟩

/-- **When an iteration is all or nothing.**  For every state, every new descriptor and every
outcome of the calls: exactly when the options of the socket could not be set, or the pool
takes the connection in, there is a loop for it, and `epoll_ctl` succeeds. -/
theorem all_or_nothing_iff (s : Acceptor α) (n : ℤ) (options : Option Exception) (ctl : Option Errno)
    (h : Fresh s.world n) :
    AllOrNothing n s.world (s.iteration n options ctl).1.world ↔
      options ≠ none ∨ (s.world.pool.takesIn n = true ∧ 0 < s.loops ∧ ctl = none) := by
  cases options with
  | some e =>
      obtain ⟨hclosed, hpool⟩ := iteration_options e ctl h
      have hall := allOrNothing_of_once hclosed (by rw [hpool]; exact h.unpooled)
      simp [hall]
  | none =>
      cases ht : s.world.pool.takesIn n with
      | false =>
          obtain ⟨-, hclosed, -⟩ := iteration_refused ctl h ht
          simp [not_allOrNothing_of_twice hclosed]
      | true =>
          rcases Nat.eq_zero_or_pos s.loops with hl | hl
          · simp [not_allOrNothing_of_twice (iteration_orphan ctl h ht hl), hl]
          · cases ctl with
            | some e =>
                obtain ⟨hclosed, hpool⟩ := iteration_unwind e h ht hl
                have hp : (s.iteration n none (some e)).1.world.pool.getConnection n = some s.world.accepted := by
                  rw [hpool]
                  exact getConnection_pooled_self s n
                simp [not_allOrNothing_of_pooled hclosed hp]
            | none =>
                rw [iteration_kept h ht hl]
                have hall := allOrNothing_of_kept (kept_keep h) (getConnection_pooled_self s n)
                simp [hall, hl]

/-! ### A pool in order -/

/-- What the pool, the epoll sets and the index are when `HandleAccept` is called: the pool runs,
its entries belong to open descriptors, and numbers that are not open are in no epoll set. -/
structure Ready (s : Acceptor α) : Prop where
  open_of_pooled : ∀ m y, s.world.pool.getConnection m = some y →
    s.world.files m = some y ∧ y < s.world.accepted
  unregistered : ∀ i m, s.world.files m = none → s.world.epoll i m = none
  runs : s.world.pool.running = true
  size : s.world.pool.connections.entries.length ≤ s.world.pool.maxConnections
  idx : s.nextLoopIdx < s.loops

namespace Ready

variable {s : Acceptor α} {n : ℤ}

theorem fresh (h : Ready s) (hn : 0 ≤ n) (hf : s.world.files n = none) : Fresh s.world n := by
  refine ⟨hn, hf, fun i => h.unregistered i n hf, ?_⟩
  intro m hm
  exact Nat.lt_irrefl _ (h.open_of_pooled m _ hm).2

theorem getConnection_none (h : Ready s) (hf : s.world.files n = none) : s.world.pool.getConnection n = none := by
  by_contra hne
  obtain ⟨y, hy⟩ := Option.ne_none_iff_exists'.mp hne
  have := (h.open_of_pooled n y hy).1
  rw [hf] at this
  cases this

/-- The pool takes in a new number exactly when it is not full. -/
theorem takesIn_eq (h : Ready s) (hf : s.world.files n = none) :
    s.world.pool.takesIn n =
      decide (s.world.pool.connections.entries.length < s.world.pool.maxConnections) := by
  simp [ConnectionPool.takesIn, h.runs, h.getConnection_none hf]

theorem pos (h : Ready s) : 0 < s.loops := Nat.lt_of_le_of_lt (Nat.zero_le _) h.idx

end Ready

/-- The pool gains one entry. -/
theorem length_pooled {s : Acceptor α} {n : ℤ} (h : s.world.pool.getConnection n = none) :
    (s.pooled n).connections.entries.length = s.world.pool.connections.entries.length + 1 := by
  have hmem : n ∉ s.world.pool.connections := AList.lookup_eq_none.mp h
  show (s.world.pool.connections.insert n s.world.accepted).entries.length = _
  rw [AList.entries_insert_of_notMem hmem]
  rfl

theorem ready_keep {s : Acceptor α} {n : ℤ} (h : Ready s) (hn : 0 ≤ n) (hf : s.world.files n = none)
    (hroom : s.world.pool.connections.entries.length < s.world.pool.maxConnections) : Ready (s.keep n) := by
  have hkept := kept_keep (h.fresh hn hf)
  have hacc : (s.keep n).world.accepted = s.world.accepted + 1 := hkept.elsewhere.accepted
  refine ⟨?_, ?_, h.runs, ?_, Nat.mod_lt _ h.pos⟩
  · intro m y hy
    have hy' : (s.pooled n).getConnection m = some y := hy
    by_cases hm : m = n
    · subst hm
      rw [getConnection_pooled_self] at hy'
      cases hy'
      exact ⟨hkept.file, by rw [hacc]; exact Nat.lt_succ_self _⟩
    · rw [getConnection_pooled_ne s hm] at hy'
      obtain ⟨h1, h2⟩ := h.open_of_pooled m y hy'
      exact ⟨by rw [hkept.elsewhere.files m hm, h1], by rw [hacc]; exact Nat.lt_succ_of_lt h2⟩
  · intro i m hm
    by_cases hmn : m = n
    · subst hmn
      rw [hkept.file] at hm
      cases hm
    · rw [hkept.elsewhere.files m hmn] at hm
      rw [hkept.elsewhere.epoll i m hmn, h.unregistered i m hm]
  · show (s.pooled n).connections.entries.length ≤ s.world.pool.maxConnections
    rw [length_pooled (h.getConnection_none hf)]
    omega

/-- The acceptor after an iteration in which the pool refuses the client. -/
def turnAway (s : Acceptor α) (n : ℤ) : Acceptor α :=
  { s with world := refuse s.world.accepted n (s.world.newClient n) }

theorem ready_turnAway {s : Acceptor α} {n : ℤ} (h : Ready s) (hn : 0 ≤ n) (hf : s.world.files n = none) :
    Ready (s.turnAway n) := by
  have hclosed : Closed n (twice s.world.accepted) s.world (s.turnAway n).world := closed_refuse hn
  have hpool : (s.turnAway n).world.pool = s.world.pool := refuse_pool hn
  refine ⟨?_, ?_, by rw [hpool]; exact h.runs, by rw [hpool]; exact h.size, h.idx⟩
  · intro m y hy
    rw [hpool] at hy
    obtain ⟨h1, h2⟩ := h.open_of_pooled m y hy
    have hm : m ≠ n := by
      rintro rfl
      rw [hf] at h1
      cases h1
    refine ⟨by rw [hclosed.elsewhere.files m hm, h1], ?_⟩
    rw [hclosed.elsewhere.accepted]
    exact Nat.lt_succ_of_lt h2
  · intro i m hm
    by_cases hmn : m = n
    · rw [hmn]
      exact hclosed.unregistered i
    · rw [hclosed.elsewhere.files m hmn] at hm
      rw [hclosed.elsewhere.epoll i m hmn, h.unregistered i m hm]

/-- One iteration with all calls succeeding, in a pool in order. -/
theorem iteration_ready {s : Acceptor α} {n : ℤ} (h : Ready s) (hn : 0 ≤ n) (hf : s.world.files n = none) :
    (s.world.pool.connections.entries.length < s.world.pool.maxConnections →
        s.iteration n none none = (s.keep n, .returned)) ∧
      (s.world.pool.maxConnections ≤ s.world.pool.connections.entries.length →
        s.iteration n none none = (s.turnAway n, .returned)) := by
  constructor
  · intro hroom
    apply iteration_kept (h.fresh hn hf) _ h.pos
    rw [h.takesIn_eq hf]
    exact decide_eq_true hroom
  · intro hfull
    refine (iteration_refused none (h.fresh hn hf) ?_).1
    rw [h.takesIn_eq hf]
    exact decide_eq_false (by omega)

/-- A server without clients. -/
def start (maxConnections loops : ℕ) : Acceptor ℕ := ⟨World.init maxConnections 1000, loops, 0, true⟩

theorem ready_start (maxConnections : ℕ) {loops : ℕ} (hl : 0 < loops) : Ready (start maxConnections loops) := by
  refine ⟨?_, fun _ _ _ => rfl, rfl, Nat.zero_le _, hl⟩
  intro m y hy
  cases hy

theorem all_or_nothing_first :
    AllOrNothing 5 (start 1 2).world ((start 1 2).iteration 5 none none).1.world := by
  apply (all_or_nothing_iff (start 1 2) 5 none none ((ready_start 1 (by decide)).fresh (by decide) rfl)).mpr
  exact Or.inr ⟨by decide +kernel, by decide, rfl⟩

/-- A pool of one place that holds a connection under `5`: the client under `6` is closed twice. -/
theorem refused_twice : ¬ ∀ (s : Acceptor ℕ) (n : ℤ) (options : Option Exception) (ctl : Option Errno),
    Fresh s.world n → AllOrNothing n s.world (s.iteration n options ctl).1.world := by
  intro hall
  have hready : Ready ((start 1 2).keep 5) := ready_keep (ready_start 1 (by decide)) (by decide) rfl (by decide)
  have hfresh : Fresh ((start 1 2).keep 5).world 6 := hready.fresh (by decide) (by decide +kernel)
  obtain ⟨-, hclosed, -⟩ := iteration_refused none hfresh (by decide +kernel)
  exact not_allOrNothing_of_twice hclosed (hall _ 6 none none hfresh)

end Acceptor

end TcpServer
