import TcpServer.Connection
import Mathlib.Data.List.AList
import Mathlib.Logic.Function.Basic

/-! # The memory and the kernel state the threads share

A client is numbered by the order in which `accept(2)` returned it; the same number names
the `Connection` object `HandleAccept` makes for it, so that object and socket can be told
apart from the *descriptor number*, which the kernel reuses.

* `files` is the process's descriptor table, restricted to client sockets: which client's
  socket a descriptor number refers to at the moment.
* `epoll i` is the interest list of loop `i`: the mask a number is registered with and
  whether it is armed (`EPOLLONESHOT` disarms on delivery).  `close(2)` drops the number from
  every interest list, as Linux does.
* `pool` is `ConnectionPool`: a map from descriptor numbers to connection objects.
* `num`, `received`, `sent` and `closeLog` are history: the number `accept` returned for a
  client, the bytes `recv` took from its socket, the bytes `send` accepted on it, and the
  `close` calls with the object they were made for and the socket they hit.
* `crashed` says that an exception of a failed `epoll_ctl` has left its thread, which ends the
  process. -/

namespace TcpServer

/-- The bits of an event mask the server uses. -/
structure Events where
  epollin : Bool := false
  epollout : Bool := false
  epollerr : Bool := false
  epollhup : Bool := false
  epollet : Bool := false
  epolloneshot : Bool := false
deriving DecidableEq, Repr

/-- A registration in an epoll set. -/
structure Interest where
  mask : Events
  armed : Bool
deriving DecidableEq, Repr

/-- An event `epoll_wait` can report for a registration: some of the requested bits, or
`EPOLLERR` or `EPOLLHUP`, which need no request. -/
def Interest.reports (it : Interest) (ev : Events) : Bool :=
  it.armed && (ev.epollin || ev.epollout || ev.epollerr || ev.epollhup) &&
    (!ev.epollin || it.mask.epollin) && (!ev.epollout || it.mask.epollout) &&
    !ev.epollet && !ev.epolloneshot

/-- A registration after its event has been reported. -/
def Interest.reported (it : Interest) : Interest := { it with armed := it.armed && !it.mask.epolloneshot }

abbrev Client := ℕ

/-- `conn::ConnectionPool`, without its heartbeat thread. -/
structure ConnectionPool where
  connections : AList (fun _ : ℤ => Client)
  maxConnections : ℕ
  heartbeatTimeoutMs : ℤ
  running : Bool

namespace ConnectionPool

/-- The pool after `Init`. -/
def init (maxConnections : ℕ) (heartbeatTimeoutMs : ℤ) : ConnectionPool :=
  ⟨∅, maxConnections, heartbeatTimeoutMs, true⟩

/-- `ConnectionPool::GetConnection`. -/
def getConnection (p : ConnectionPool) (fd : ℤ) : Option Client := p.connections.lookup fd

/-- `ConnectionPool::AddConnection` of object `x`, whose `GetFd()` is `fd`. -/
def addConnection (p : ConnectionPool) (fd : ℤ) (x : Client) : ConnectionPool × Bool :=
  if !p.running then (p, false)
  else if p.maxConnections ≤ p.connections.entries.length then (p, false)
  else if (p.getConnection fd).isSome then (p, false)
  else ({ p with connections := p.connections.insert fd x }, true)

/-- `connections_.erase`. -/
def erase (p : ConnectionPool) (fd : ℤ) : ConnectionPool :=
  { p with connections := p.connections.erase fd }

theorem getConnection_erase_self (p : ConnectionPool) (fd : ℤ) : (p.erase fd).getConnection fd = none :=
  AList.lookup_erase fd p.connections

theorem getConnection_erase_ne (p : ConnectionPool) {fd m : ℤ} (h : m ≠ fd) :
    (p.erase fd).getConnection m = p.getConnection m :=
  AList.lookup_erase_ne h

theorem getConnection_of_erase {p : ConnectionPool} {fd m : ℤ} {x : Client}
    (h : (p.erase fd).getConnection m = some x) : p.getConnection m = some x := by
  by_cases hm : m = fd
  · subst hm
    rw [getConnection_erase_self] at h
    cases h
  · rwa [getConnection_erase_ne p hm] at h

/-- A successful `AddConnection` found no entry under the number and made one. -/
theorem addConnection_true {p p' : ConnectionPool} {fd : ℤ} {x : Client}
    (h : p.addConnection fd x = (p', true)) :
    p.getConnection fd = none ∧ p'.getConnection fd = some x ∧
      ∀ m, m ≠ fd → p'.getConnection m = p.getConnection m := by
  unfold addConnection at h
  split_ifs at h with h1 h2 h3 <;> cases h
  refine ⟨?_, AList.lookup_insert p.connections, fun m hm => AList.lookup_insert_ne hm⟩
  simpa using h3

/-- The three checks of `AddConnection`. -/
def takesIn (p : ConnectionPool) (fd : ℤ) : Bool :=
  p.running && decide (p.connections.entries.length < p.maxConnections) && (p.getConnection fd).isNone

theorem addConnection_eq (p : ConnectionPool) (fd : ℤ) (x : Client) :
    p.addConnection fd x =
      if p.takesIn fd then ({ p with connections := p.connections.insert fd x }, true) else (p, false) := by
  unfold addConnection takesIn
  cases hr : p.running with
  | false => simp
  | true =>
      by_cases hlen : p.maxConnections ≤ p.connections.entries.length
      · have hnot : ¬ p.connections.entries.length < p.maxConnections := by omega
        simp [hlen, hnot]
      · have hlt : p.connections.entries.length < p.maxConnections := by omega
        cases hg : p.getConnection fd with
        | none => simp [hlt]
        | some y => simp [hlt]

end ConnectionPool

/-- Shared memory and kernel state. -/
structure World (α : Type) where
  conns : Client → Connection α
  accepted : ℕ
  num : Client → ℤ
  pool : ConnectionPool
  files : ℤ → Option Client
  epoll : ℕ → ℤ → Option Interest
  now : ℤ
  received : Client → List α
  sent : Client → List α
  closeLog : List (Client × Option Client)
  crashed : Bool

namespace World

variable {α : Type}

/-- No client yet. -/
def init (maxConnections : ℕ) (heartbeatTimeoutMs : ℤ) : World α where
  conns := fun _ => Connection.connected (-1) 0
  accepted := 0
  num := fun _ => -1
  pool := .init maxConnections heartbeatTimeoutMs
  files := fun _ => none
  epoll := fun _ _ => none
  now := 0
  received := fun _ => []
  sent := fun _ => []
  closeLog := []
  crashed := false

/-- An exception leaves its thread. -/
def crash (w : World α) : World α := { w with crashed := true }

/-- Store `c` into object `x`. -/
def setConn (x : Client) (c : Connection α) (w : World α) : World α :=
  { w with conns := Function.update w.conns x c }

/-- Change the pool. -/
@[simps] def setPool (p : ConnectionPool) (w : World α) : World α := { w with pool := p }

@[simp] theorem conns_setConn_self (x : Client) (c : Connection α) (w : World α) :
    (w.setConn x c).conns x = c := by simp [setConn]

theorem conns_setConn_ne {x y : Client} (c : Connection α) (w : World α) (h : y ≠ x) :
    (w.setConn x c).conns y = w.conns y := by simp [setConn, h]

/-! ### System calls -/

/-- A new client under the number `n`, with the `Connection` that `HandleAccept` makes for it
and sets to `CONNECTED`. -/
def newClient (n : ℤ) (w : World α) : World α :=
  { w with
    conns := Function.update w.conns w.accepted (.connected n w.now)
    accepted := w.accepted + 1
    num := Function.update w.num w.accepted n
    files := Function.update w.files n (some w.accepted)
    received := Function.update w.received w.accepted []
    sent := Function.update w.sent w.accepted [] }

/-- `accept(2)` returns the number `n`, which must not be open. -/
def accept (n : ℤ) (w : World α) : Option (World α) :=
  if 0 ≤ n ∧ w.files n = none then some (w.newClient n) else none

theorem accept_eq_some {n : ℤ} {w w' : World α} (h : w.accept n = some w') :
    (0 ≤ n ∧ w.files n = none) ∧ w.newClient n = w' := by
  obtain ⟨hfree, hw⟩ := Option.ite_none_right_eq_some.mp h
  exact ⟨hfree, Option.some.inj hw⟩

theorem conns_newClient_self (n : ℤ) (w : World α) :
    (w.newClient n).conns w.accepted = .connected n w.now := Function.update_self _ _ _

theorem conns_newClient_ne {y : Client} (n : ℤ) (w : World α) (h : y ≠ w.accepted) :
    (w.newClient n).conns y = w.conns y := Function.update_of_ne h _ _

theorem files_newClient_self (n : ℤ) (w : World α) : (w.newClient n).files n = some w.accepted :=
  Function.update_self _ _ _

theorem files_newClient_ne {m n : ℤ} (w : World α) (h : m ≠ n) : (w.newClient n).files m = w.files m :=
  Function.update_of_ne h _ _

/-- `close(m)` called for object `x`. -/
def close (x : Client) (m : ℤ) (w : World α) : World α :=
  { w with
    files := Function.update w.files m none
    epoll := fun i => Function.update (w.epoll i) m none
    closeLog := w.closeLog ++ [(x, w.files m)] }

theorem epoll_close_ne {i : ℕ} {m k : ℤ} (x : Client) (w : World α) (h : k ≠ m) :
    (w.close x m).epoll i k = w.epoll i k := by simp [close, h]

theorem files_close_ne {m k : ℤ} (x : Client) (w : World α) (h : k ≠ m) :
    (w.close x m).files k = w.files k := by simp [close, h]

/-- The kernel's answer to `recv(m, …)`, given what it answers on an open descriptor. -/
def sysRecv (w : World α) (m : ℤ) (r : RecvResult α) : RecvResult α :=
  if (w.files m).isSome then r else .error EBADF

/-- The kernel's answer to `send(m, …)`. -/
def sysSend (w : World α) (m : ℤ) (r : SendResult) : SendResult :=
  if (w.files m).isSome then r else .error EBADF

/-- `recv(m, …)` took `bs` from the socket behind `m`. -/
def logRecv (m : ℤ) (bs : List α) (w : World α) : World α :=
  match w.files m with
  | some y => { w with received := Function.update w.received y (w.received y ++ bs) }
  | none => w

/-- `send(m, …)` accepted `bs` on the socket behind `m`. -/
def logSent (m : ℤ) (bs : List α) (w : World α) : World α :=
  match w.files m with
  | some y => { w with sent := Function.update w.sent y (w.sent y ++ bs) }
  | none => w

/-- Change the entry of number `n` in the interest list of loop `i`. -/
def setInterest (i : ℕ) (n : ℤ) (v : Option Interest) (w : World α) : World α :=
  { w with epoll := Function.update w.epoll i (Function.update (w.epoll i) n v) }

@[simp] theorem epoll_setInterest_self (i : ℕ) (n : ℤ) (v : Option Interest) (w : World α) :
    (w.setInterest i n v).epoll i n = v := by simp [setInterest]

theorem epoll_setInterest_ne {i j : ℕ} {n m : ℤ} (v : Option Interest) (w : World α) (h : m ≠ n) :
    (w.setInterest i n v).epoll j m = w.epoll j m := by
  unfold setInterest
  by_cases hj : j = i
  · subst hj
    simp [h]
  · simp [hj]

/-- `Epoll::AddFd`; `none` is the exception. -/
def addFd (i : ℕ) (n : ℤ) (mask : Events) (w : World α) : Option (World α) :=
  if (w.files n).isSome ∧ w.epoll i n = none then
    some (w.setInterest i n (some ⟨mask, true⟩))
  else none

theorem addFd_eq_some {i : ℕ} {n : ℤ} {w : World α} (mask : Events) (hf : (w.files n).isSome)
    (he : w.epoll i n = none) : w.addFd i n mask = some (w.setInterest i n (some ⟨mask, true⟩)) :=
  if_pos ⟨hf, he⟩

/-- `Epoll::ModifyFd`; `none` is the exception. -/
def modifyFd (i : ℕ) (n : ℤ) (mask : Events) (w : World α) : Option (World α) :=
  if (w.files n).isSome ∧ (w.epoll i n).isSome then
    some (w.setInterest i n (some ⟨mask, true⟩))
  else none

/-- `Epoll::RemoveFd`; `none` is the exception. -/
def removeFd (i : ℕ) (n : ℤ) (w : World α) : Option (World α) :=
  if (w.files n).isSome ∧ (w.epoll i n).isSome then
    some (w.setInterest i n none)
  else none

/-- The events `evs` can be returned by one `epoll_wait` of loop `i`. -/
def deliverable (i : ℕ) (evs : List (ℤ × Events)) (w : World α) : Bool :=
  decide (evs.map Prod.fst).Nodup &&
    evs.all fun p => ((w.epoll i p.1).map fun it => it.reports p.2).getD false

theorem isSome_of_deliverable {i : ℕ} {evs : List (ℤ × Events)} {w : World α} {n : ℤ} {ev : Events}
    (hd : w.deliverable i evs = true) (hev : (n, ev) ∈ evs) : (w.epoll i n).isSome := by
  simp only [deliverable, Bool.and_eq_true, List.all_eq_true] at hd
  have h := hd.2 (n, ev) hev
  cases hit : w.epoll i n with
  | none => simp [hit] at h
  | some it => rfl

/-- `epoll_wait` of loop `i` returns `evs`. -/
def deliver (i : ℕ) (evs : List (ℤ × Events)) (w : World α) : World α :=
  { w with epoll := Function.update w.epoll i fun n =>
      if n ∈ evs.map Prod.fst then (w.epoll i n).map Interest.reported else w.epoll i n }

section deliver

variable {i : ℕ} {evs : List (ℤ × Events)} {w : World α}

theorem nodup_of_deliverable (hd : w.deliverable i evs = true) : (evs.map Prod.fst).Nodup := by
  simp only [deliverable, Bool.and_eq_true, decide_eq_true_eq] at hd
  exact hd.1

theorem epoll_deliver_ne {m : ℤ} (hm : m ∉ evs.map Prod.fst) (j : ℕ) :
    (w.deliver i evs).epoll j m = w.epoll j m := by
  by_cases hj : j = i
  · subst hj
    simp only [deliver, Function.update_self, if_neg hm]
  · simp [deliver, hj]

theorem epoll_deliver_mem {m : ℤ} (hm : m ∈ evs.map Prod.fst) :
    (w.deliver i evs).epoll i m = (w.epoll i m).map Interest.reported := by
  simp only [deliver, Function.update_self, if_pos hm]

/-- `epoll_wait` registers and unregisters nothing. -/
theorem isSome_epoll_deliver (j : ℕ) (m : ℤ) : ((w.deliver i evs).epoll j m).isSome = (w.epoll j m).isSome := by
  by_cases hj : j = i
  · subst hj
    by_cases hm : m ∈ evs.map Prod.fst
    · rw [epoll_deliver_mem hm, Option.isSome_map]
    · rw [epoll_deliver_ne hm]
  · simp [deliver, hj]

end deliver

/-- `EPOLLIN | EPOLLOUT | EPOLLET | EPOLLONESHOT`. -/
def inOutMask : Events := { epollin := true, epollout := true, epollet := true, epolloneshot := true }

/-- `EPOLLIN | EPOLLET | EPOLLONESHOT`. -/
def inMask : Events := { epollin := true, epollet := true, epolloneshot := true }

/-- The mask both handlers re-arm a connection with. -/
def rearmMask (c : Connection α) : Events := if c.hasPendingData then inOutMask else inMask

/-! ### Connection and pool operations that reach the kernel -/

/-- `Connection::Close` of object `x`, undisturbed. -/
def closeConn (x : Client) (w : World α) : World α :=
  if (w.conns x).state = .closed then w
  else
    let w := w.setConn x (w.conns x).markClosed
    if (w.conns x).fd = -1 then w
    else
      let w := w.close x (w.conns x).fd
      w.setConn x (w.conns x).clearFd

/-- `ConnectionPool::RemoveConnection`, undisturbed. -/
def removeConnection (fd : ℤ) (w : World α) : World α :=
  match w.pool.getConnection fd with
  | none => w
  | some x =>
      let w := w.closeConn x
      w.setPool (w.pool.erase fd)

/-- One iteration of the loop in `Server::HandleAccept`, undisturbed: `accept(2)` returned `n`
and `GetNextEventLoop` returns loop `i`.  When the pool refuses the connection both
`client_socket.Close()` and `~Connection` close the number. -/
def handleAccept (i : ℕ) (n : ℤ) (w : World α) : Option (World α) :=
  (w.accept n).map fun w' =>
    let x := w.accepted
    match w'.pool.addConnection n x with
    | (pool, true) =>
        match (w'.setPool pool).addFd i n inOutMask with
        | some w'' => w''
        | none => (w'.setPool pool).crash
    | (_, false) => (w'.close x n).closeConn x

end World

end TcpServer
