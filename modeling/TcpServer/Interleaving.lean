import TcpServer.Transition
import TcpServer.EventLoop

/-! # The threads of the server, interleaved

The parties are the main thread (`Server::HandleAccept`), the IO loops (`HandleEvents` over
the batch their last `epoll_wait` returned) and the heartbeat thread (the sweeps of
`HeartbeatCheckLoop`).  They share the `World`; each step is one critical section of the pool,
one load or store of `state_` or `fd_`, or one system call, together with the thread-local
work around it.  `RemoveConnection` is not one step: its thread holds the pool's mutex while
it runs through the loads, stores and the `close` of `Connection::Close`, and other threads
may use the connection without the mutex meanwhile.

A label names the thread that moves and what the kernel decides: the number `accept` returns
(any number that is not open, so closed numbers are reused), the batch `epoll_wait` returns,
the answers of `recv` and `send`.  The order in which a sweep visits the hash map is part of
its label too.

Bytes carry the client whose socket they were received from.  `admitted`, `owner`, `scanned`,
`removed` and `sinceScan` record history: which connections the pool took in, the loop
`GetNextEventLoop` returned for them, the connections the last scan of the heartbeat found
idle, those its sweep has removed, and those admitted since that scan.

A failed `epoll_ctl` throws and nothing catches it: the process ends (`World.crashed`).
`Server::Stop` runs `ConnectionPool::Shutdown` after the other threads have been joined. -/

namespace TcpServer

/-- A byte and the client whose socket it was received from; `none` for the zero bytes
`std::vector::resize` fills with. -/
abbrev Byte := Option Client × UInt8

inductive Thread where
  | main
  | loop (i : ℕ)
  | heartbeat
deriving DecidableEq, Repr

/-- The handler that called `Connection::Send`. -/
inductive Handler where
  | read
  | write
deriving DecidableEq, Repr

/-- The points of `Connection::Close`: before the load of `state_`, before the store, before
the load of `fd_`, before `close(m)`, before `fd_ = -1`. -/
inductive ClosePoint where
  | load
  | store
  | fd
  | sys (m : ℤ)
  | clear
deriving DecidableEq, Repr

/-- What a thread does next; `n` is the descriptor number it works for, `x` the connection
object it holds. -/
inductive Pc where
  /-- Between two iterations of the thread's loop. -/
  | idle
  /-- `HandleAccept`: `AddConnection`. -/
  | add (n : ℤ) (x : Client)
  /-- `HandleAccept`, refused: `client_socket.Close()`. -/
  | rejectClose (n : ℤ) (x : Client)
  /-- `HandleAccept`, refused: `~Connection`. -/
  | rejectDrop (n : ℤ) (x : Client)
  /-- `HandleAccept`: `AddFd` on loop `j`. -/
  | addFd (n : ℤ) (x : Client) (j : ℕ)
  /-- `Recv`: load of `state_`. -/
  | recvState (n : ℤ) (x : Client)
  /-- `Recv`: load of `fd_`. -/
  | recvFd (n : ℤ) (x : Client)
  /-- `Recv`: `recv(m, …)`. -/
  | recvSys (n : ℤ) (x : Client) (m : ℤ)
  /-- `Recv`: store of `CLOSED`. -/
  | recvMark (n : ℤ) (x : Client)
  /-- `HandleRead`: move what was read to the write buffer. -/
  | echo (n : ℤ) (x : Client)
  /-- `Send`: load of `state_`. -/
  | sendState (k : Handler) (n : ℤ) (x : Client)
  /-- `Send`: load of `fd_`. -/
  | sendFd (k : Handler) (n : ℤ) (x : Client)
  /-- `Send`: `send(m, …)`. -/
  | sendSys (k : Handler) (n : ℤ) (x : Client) (m : ℤ)
  /-- `Send`: store of `CLOSED` after `send` returned `0` (`zero`) or failed. -/
  | sendMark (k : Handler) (n : ℤ) (x : Client) (zero : Bool)
  /-- `HandleWrite`: `UpdateHeartbeat`. -/
  | touch (n : ℤ) (x : Client)
  /-- `HandleRead` and `HandleWrite`: `ModifyFd`. -/
  | rearm (n : ℤ) (x : Client)
  /-- `HandleError`: `GetConnection`. -/
  | errorLookup (n : ℤ)
  /-- `HandleError`: `RemoveFd`. -/
  | errorDel (n : ℤ)
  /-- `RemoveConnection`: lock the pool and find the entry. -/
  | remove (n : ℤ)
  /-- `RemoveConnection`: `Close`, at point `c`. -/
  | closing (n : ℤ) (x : Client) (c : ClosePoint)
  /-- `RemoveConnection`: erase the entry and unlock the pool. -/
  | erase (n : ℤ) (x : Client)
deriving DecidableEq, Repr

structure Sys where
  world : World Byte
  loops : ℕ
  nextLoopIdx : ℕ
  owner : Client → ℕ
  admitted : Client → Bool
  lock : Option Thread
  pc : Thread → Pc
  errno : ℕ → Errno
  batch : ℕ → List (ℤ × Events)
  sweep : List ℤ
  scanned : List Client
  removed : List Client
  sinceScan : List Client
  stopped : Bool

inductive Label where
  /-- Time passes. -/
  | tick (t : ℤ)
  /-- `accept` returns `n`. -/
  | accept (n : ℤ)
  /-- The main thread goes on in `HandleAccept`. -/
  | main
  /-- `epoll_wait` of loop `i` returns `evs`. -/
  | wait (i : ℕ) (evs : List (ℤ × Events))
  /-- Loop `i` goes on in `HandleEvents`. -/
  | loop (i : ℕ)
  /-- `recv` of loop `i` answers `r`. -/
  | recv (i : ℕ) (r : RecvResult UInt8)
  /-- `send` of loop `i` answers `r`. -/
  | send (i : ℕ) (r : SendResult)
  /-- The heartbeat thread collects the idle connections, in this order. -/
  | scan (fds : List ℤ)
  /-- The heartbeat thread goes on removing what it collected. -/
  | heartbeat
  /-- `Shutdown` of the pool, when the other threads have been joined. -/
  | shutdown
deriving DecidableEq, Repr

namespace Sys

/-- The server after `Init` and `Start`; `IOThreadPool` makes at least one loop. -/
def init (maxConnections : ℕ) (heartbeatTimeoutMs : ℤ) (threadNum : ℕ) : Sys where
  world := World.init maxConnections heartbeatTimeoutMs
  loops := if threadNum = 0 then 1 else threadNum
  nextLoopIdx := 0
  owner := fun _ => 0
  admitted := fun _ => false
  lock := none
  pc := fun _ => .idle
  errno := fun _ => 0
  batch := fun _ => []
  sweep := []
  scanned := []
  removed := []
  sinceScan := []
  stopped := false

/-- Thread `t` goes on at `p`. -/
@[simps] def goto (t : Thread) (p : Pc) (s : Sys) : Sys := { s with pc := Function.update s.pc t p }

/-- The shared state becomes `w`. -/
@[simps] def setWorld (w : World Byte) (s : Sys) : Sys := { s with world := w }

@[simps] def setErrno (i : ℕ) (e : Errno) (s : Sys) : Sys := { s with errno := Function.update s.errno i e }

@[simps] def setBatch (i : ℕ) (evs : List (ℤ × Events)) (s : Sys) : Sys :=
  { s with batch := Function.update s.batch i evs }

@[simps] def setLock (o : Option Thread) (s : Sys) : Sys := { s with lock := o }

/-! ### The main thread -/

def acceptStep (n : ℤ) (s : Sys) : Option Sys :=
  if s.pc .main = .idle then
    (s.world.accept n).map fun w => (s.setWorld w).goto .main (.add n s.world.accepted)
  else none

/-- The pool has taken in `x`, and `GetNextEventLoop` returns the loop for it. -/
@[simps] def addStep (n : ℤ) (x : Client) (pool : ConnectionPool) (s : Sys) : Sys :=
  { s with
    world := s.world.setPool pool
    nextLoopIdx := (s.nextLoopIdx + 1) % s.loops
    owner := Function.update s.owner x s.nextLoopIdx
    admitted := Function.update s.admitted x true
    sinceScan := x :: s.sinceScan
    pc := Function.update s.pc .main (.addFd n x s.nextLoopIdx) }

def mainStep (s : Sys) : Option Sys :=
  match s.pc .main with
  | .add n x =>
      if s.lock = none then
        match s.world.pool.addConnection (s.world.conns x).fd x with
        | (pool, true) => some (s.addStep n x pool)
        | (_, false) => some (s.goto .main (.rejectClose n x))
      else none
  | .rejectClose n x => some ((s.setWorld (s.world.close x n)).goto .main (.rejectDrop n x))
  | .rejectDrop _ x => some ((s.setWorld (s.world.closeConn x)).goto .main .idle)
  | .addFd n _ j =>
      match s.world.addFd j n World.inOutMask with
      | some w => some ((s.setWorld w).goto .main .idle)
      | none => some (s.setWorld s.world.crash)
  | _ => none

/-- `ConnectionPool::Shutdown`: close every connection, then clear the map. -/
def shutdownWorld (w : World Byte) : World Byte :=
  let w := w.pool.connections.entries.foldl (fun w e => w.closeConn e.2) w
  w.setPool { w.pool with connections := ∅, running := false }

def joined (s : Sys) : Prop :=
  (∀ i < s.loops, s.pc (.loop i) = .idle ∧ s.batch i = []) ∧ s.pc .heartbeat = .idle ∧ s.sweep = []

instance (s : Sys) : Decidable s.joined :=
  inferInstanceAs (Decidable ((∀ i < s.loops, s.pc (.loop i) = .idle ∧ s.batch i = []) ∧
    s.pc .heartbeat = .idle ∧ s.sweep = []))

def shutdownStep (s : Sys) : Option Sys :=
  if s.pc .main = .idle ∧ s.joined ∧ s.lock = none then
    some { s with world := shutdownWorld s.world, stopped := true }
  else none

/-! ### `RemoveConnection` -/

/-- Enter the critical section and look the number up. -/
def beginRemove (t : Thread) (n : ℤ) (s : Sys) : Option Sys :=
  if s.lock = none then
    match s.world.pool.getConnection n with
    | none => some (s.goto t .idle)
    | some x => some ((s.setLock (some t)).goto t (.closing n x .load))
  else none

/-- `Connection::Close` called by `RemoveConnection`. -/
def closeStep (t : Thread) (n : ℤ) (x : Client) (s : Sys) : ClosePoint → Sys
  | .load =>
      if (s.world.conns x).state = .closed then s.goto t (.erase n x)
      else s.goto t (.closing n x .store)
  | .store =>
      (s.setWorld (s.world.setConn x (s.world.conns x).markClosed)).goto t (.closing n x .fd)
  | .fd =>
      if (s.world.conns x).fd = -1 then s.goto t (.erase n x)
      else s.goto t (.closing n x (.sys (s.world.conns x).fd))
  | .sys m => (s.setWorld (s.world.close x m)).goto t (.closing n x .clear)
  | .clear => (s.setWorld (s.world.setConn x (s.world.conns x).clearFd)).goto t (.erase n x)

/-- Erase the entry and leave the critical section. -/
@[simps] def eraseStep (t : Thread) (n : ℤ) (x : Client) (s : Sys) : Sys :=
  { s with
    world := s.world.setPool (s.world.pool.erase n)
    lock := none
    pc := Function.update s.pc t .idle
    removed := if t = .heartbeat then x :: s.removed else s.removed }

/-! ### The IO loops -/

def waitStep (i : ℕ) (evs : List (ℤ × Events)) (s : Sys) : Option Sys :=
  if s.pc (.loop i) = .idle ∧ s.batch i = [] ∧ s.world.deliverable i evs then
    some ((s.setWorld (s.world.deliver i evs)).setBatch i evs)
  else none

/-- `HandleEvents` takes the next event of the batch and enters its handler, up to the end of
the handler's `GetConnection`. -/
def eventStep (i : ℕ) (s : Sys) : Option Sys :=
  match s.batch i with
  | [] => none
  | (n, ev) :: rest =>
      let s' := s.setBatch i rest
      if ev.epollerr || ev.epollhup then some (s'.goto (.loop i) (.errorLookup n))
      else if ev.epollin || ev.epollout then
        if s.lock = none then
          match s.world.pool.getConnection n with
          | none => some s'
          | some x =>
              some (s'.goto (.loop i) (if ev.epollin then .recvState n x else .sendState .write n x))
        else none
      else some s'

/-- Where a handler goes on when `Send` has returned a value that is not negative. -/
def afterSend (n : ℤ) (x : Client) : Handler → Pc
  | .read => .rearm n x
  | .write => .touch n x

/-- Where a handler goes on when `Send` has returned `-1` and `errno` is `e`. -/
def afterSendError (n : ℤ) (x : Client) (e : Errno) : Handler → Pc
  | .read => if wouldBlock e then .rearm n x else .errorLookup n
  | .write => if wouldBlock e then .idle else .errorLookup n

def loopStep (i : ℕ) (s : Sys) : Option Sys :=
  match s.pc (.loop i) with
  | .idle => s.eventStep i
  | .recvState n x =>
      if (s.world.conns x).state = .closed then
        some (s.goto (.loop i) (if wouldBlock (s.errno i) then .echo n x else .errorLookup n))
      else some (s.goto (.loop i) (.recvFd n x))
  | .recvFd n x => some (s.goto (.loop i) (.recvSys n x (s.world.conns x).fd))
  | .recvMark n x =>
      some ((s.setWorld (s.world.setConn x (s.world.conns x).markClosed)).goto (.loop i) (.errorLookup n))
  | .echo n x =>
      if 0 < (s.world.conns x).readIdx then
        some ((s.setWorld (s.world.setConn x (s.world.conns x).echo)).goto (.loop i) (.sendState .read n x))
      else some (s.goto (.loop i) (.rearm n x))
  | .sendState k n x =>
      if (s.world.conns x).state = .closed then
        some (s.goto (.loop i) (afterSendError n x (s.errno i) k))
      else if (s.world.conns x).writeIdx = 0 then some (s.goto (.loop i) (afterSend n x k))
      else some (s.goto (.loop i) (.sendFd k n x))
  | .sendFd k n x => some (s.goto (.loop i) (.sendSys k n x (s.world.conns x).fd))
  | .sendMark k n x zero =>
      some ((s.setWorld (s.world.setConn x (s.world.conns x).markClosed)).goto (.loop i)
        (if zero then afterSend n x k else .errorLookup n))
  | .touch n x =>
      some ((s.setWorld (s.world.setConn x ((s.world.conns x).updateHeartbeat s.world.now))).goto (.loop i)
        (.rearm n x))
  | .rearm n x =>
      match s.world.modifyFd i n (World.rearmMask (s.world.conns x)) with
      | some w => some ((s.setWorld w).goto (.loop i) .idle)
      | none => some (s.setWorld s.world.crash)
  | .errorLookup n => if s.lock = none then some (s.goto (.loop i) (.errorDel n)) else none
  | .errorDel n =>
      match s.world.removeFd i n with
      | some w => some ((s.setWorld w).goto (.loop i) (.remove n))
      | none => some (s.setWorld s.world.crash)
  | .remove n => s.beginRemove (.loop i) n
  | .closing n x c => some (s.closeStep (.loop i) n x c)
  | .erase n x => some (s.eraseStep (.loop i) n x)
  | _ => none

/-- The bytes the kernel returns come from the client behind the number. -/
def tag (y : Option Client) : RecvResult UInt8 → RecvResult Byte
  | .data bs => .data (bs.map fun b => (y, b))
  | .eof => .eof
  | .error e => .error e

def recvStep (i : ℕ) (r : RecvResult UInt8) (s : Sys) : Option Sys :=
  match s.pc (.loop i) with
  | .recvSys n x m =>
      let c := (s.world.conns x).checkAndResizeReadBuffer
      match s.world.sysRecv m (tag (s.world.files m) r) with
      | .data bs =>
          if bs ≠ [] ∧ bs.length ≤ c.available then
            some ((s.setWorld ((s.world.setConn x (c.recvData s.world.now bs)).logRecv m bs)).goto (.loop i)
              (.recvState n x))
          else none
      | .eof => some ((s.setWorld (s.world.setConn x c)).goto (.loop i) (.recvMark n x))
      | .error e =>
          some (((s.setWorld (s.world.setConn x c)).setErrno i e).goto (.loop i)
            (if wouldBlock e then .echo n x else .recvMark n x))
  | _ => none

def sendStep (i : ℕ) (r : SendResult) (s : Sys) : Option Sys :=
  match s.pc (.loop i) with
  | .sendSys k n x m =>
      let c := s.world.conns x
      match s.world.sysSend m r with
      | .sent len =>
          if 0 < len ∧ len ≤ c.writeIdx then
            some ((s.setWorld ((s.world.setConn x (c.sendData s.world.now len)).logSent m
              (c.writePart.take len))).goto (.loop i) (afterSend n x k))
          else none
      | .zero => some (s.goto (.loop i) (.sendMark k n x true))
      | .error e =>
          some ((s.setErrno i e).goto (.loop i)
            (if wouldBlock e then afterSendError n x e k else .sendMark k n x false))
  | _ => none

/-! ### The heartbeat thread -/

/-- The numbers whose connection is idle for too long, in the order of the map. -/
def timeoutFds (w : World Byte) : List ℤ :=
  (w.pool.connections.entries.filter fun e =>
    (w.conns e.2).isTimeout w.now w.pool.heartbeatTimeoutMs).map Sigma.fst

def scanStep (fds : List ℤ) (s : Sys) : Option Sys :=
  if s.pc .heartbeat = .idle ∧ s.sweep = [] ∧ s.lock = none ∧ fds.Perm (timeoutFds s.world) then
    some { s with sweep := fds, scanned := fds.filterMap s.world.pool.getConnection, removed := [],
                  sinceScan := [] }
  else none

def heartbeatStep (s : Sys) : Option Sys :=
  match s.pc .heartbeat with
  | .idle =>
      match s.sweep with
      | [] => none
      | n :: rest => { s with sweep := rest }.beginRemove .heartbeat n
  | .closing n x c => some (s.closeStep .heartbeat n x c)
  | .erase n x => some (s.eraseStep .heartbeat n x)
  | _ => none

/-- One step of the server. -/
def step (s : Sys) (l : Label) : Option Sys :=
  if s.world.crashed || s.stopped then none
  else
    match l with
    | .tick t => some (s.setWorld { s.world with now := t })
    | .accept n => s.acceptStep n
    | .main => s.mainStep
    | .wait i evs => if i < s.loops then s.waitStep i evs else none
    | .loop i => if i < s.loops then s.loopStep i else none
    | .recv i r => if i < s.loops then s.recvStep i r else none
    | .send i r => if i < s.loops then s.sendStep i r else none
    | .scan fds => s.scanStep fds
    | .heartbeat => s.heartbeatStep
    | .shutdown => s.shutdownStep

end Sys

end TcpServer
