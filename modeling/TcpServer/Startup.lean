import TcpServer.Transition
import TcpServer.Unwind
import TcpServer.Socket

/-! # Starting and stopping the server (`net/server.cpp`)

`Server::Init` opens the listening socket, the epoll instances and eventfds of the main loop and of the
IO loops, and the eventfd that interrupts `epoll_wait`; `HandleAccept` opens the sockets of clients.  Any of
their calls can fail, and a failed one throws with everything before it done.  The objects that own
descriptors are `Socket`, `Epoll`, `EventLoop` (with its `Epoll`) and `Connection`: they are made by constructors
that can throw half way, replaced by assignments to `std::unique_ptr` that make the new object before they
destroy the old one, and destroyed by `Stop`, `~Server` and `ConnectionPool::Shutdown`.  `wakeup_fd_` and
`signal_fd_` are plain numbers: `~EventLoop` does not close the one, and `Init` stores a new number over the
other.  `Connection::Close` does nothing when `Recv` has set `state_` to `CLOSED`, and a client that
`AddConnection` refuses is closed by its `Socket` and again by its `Connection`.

A program may call `Init`, `Start`, `Stop`, the destructor and `ConnectionPool::Shutdown` in any order, and the
kernel answers as it likes.  The IO loops and the heartbeat thread run beside it: before each system call they
may have ended and removed pooled connections (`Handler`).  They open nothing; the file of the logger is not
one of the files here.

A file is a number with what it was opened as.  The last five fields of `Process` are history: the files no
object refers to any more, the numbers `close` was called with that were not open as what they were taken for,
and the clients that were refused, could not be registered, or were ended by `Recv`. -/

namespace TcpServer

namespace Startup

open Transition Unwind

/-- What a descriptor was opened as. -/
inductive Kind where
  | socket
  | epoll
  | event
  | client
deriving DecidableEq, Repr

/-- An open descriptor. -/
abbrev File := ℤ × Kind

/-- `EventLoop`: `epoll_->epoll_fd_` and `wakeup_fd_`. -/
structure EventLoop where
  epollFd : ℤ
  wakeupFd : ℤ
deriving DecidableEq, Repr

/-- A pooled `Connection`: `fd_`, and whether `state_` is `CLOSED`. -/
structure Connection where
  fd : ℤ
  closed : Bool
deriving DecidableEq, Repr

/-- What the IO loops and the heartbeat thread do to the pooled connections. -/
inductive Handler where
  /-- `Recv` sees the end of the stream or an error. -/
  | recvEnds (fd : ℤ)
  /-- `RemoveConnection`, called by `HandleError` or by a sweep. -/
  | removeConnection (fd : ℤ)
deriving DecidableEq, Repr

/-- The reply to a system call, and what the other threads do before it. -/
structure Answer where
  meanwhile : List Handler
  reply : Reply
deriving DecidableEq, Repr

/-- What `Init` and `Start` throw. -/
inductive Thrown where
  /-- `CheckError`. -/
  | failed (e : Exception)
  /-- `Socket::Bind`: `"Invalid IP address"`. -/
  | invalidIp
  /-- `std::make_shared<util::MemoryPool>`. -/
  | memoryPool
  /-- The constructor of `std::thread`. -/
  | thread
  /-- `std::make_shared<conn::Connection>`. -/
  | connection
deriving DecidableEq, Repr

/-- The server and the descriptors of its process. -/
structure Process where
  running : Bool
  stopRequested : Bool
  signalFd : ℤ
  listenSocket : Option ℤ
  mainLoop : Option EventLoop
  ioThreadPool : Option (List EventLoop)
  destroyed : Bool
  connections : List Connection
  maxConnections : ℕ
  poolRunning : Bool
  answers : List Answer
  files : List File
  leaked : List File
  stray : List ℤ
  refused : List ℤ
  unregistered : List ℤ
  ended : List ℤ

abbrev M := EStateM Thrown Process

/-! ### Files -/

/-- `if (fd != -1) close(fd)`: the number is free afterwards, whatever it stood for. -/
def close (k : Kind) (fd : ℤ) : M Unit := fun s =>
  if fd = -1 then .ok () s
  else .ok () { s with
    files := s.files.filter (fun f => decide (f.1 ≠ fd))
    stray := if (fd, k) ∈ s.files then s.stray else fd :: s.stray }

/-- The files a number refers to. -/
def own (k : Kind) (fd : ℤ) : List File := if fd = -1 then [] else [(fd, k)]

/-- The last reference to a file goes. -/
def drop (k : Kind) (fd : ℤ) : M Unit := fun s => .ok () { s with leaked := own k fd ++ s.leaked }

/-! ### The connection pool -/

/-- `Connection::Close`, on a connection that nothing refers to afterwards. -/
def closeConnection (c : Connection) : M Unit := if c.closed then drop .client c.fd else close .client c.fd

/-- `ConnectionPool::RemoveConnection`, under the mutex of the pool. -/
def removeConnection (fd : ℤ) : M Unit := fun s =>
  match s.connections.find? (fun c => decide (c.fd = fd)) with
  | none => .ok () s
  | some c => closeConnection c { s with connections := s.connections.erase c }

def closeConnections : List Connection → M Unit
  | [] => pure ()
  | c :: cs => do
      closeConnection c
      closeConnections cs

/-- `ConnectionPool::Shutdown`, and `~ConnectionPool`. -/
def shutdownPool : M Unit := fun s =>
  if s.poolRunning then closeConnections s.connections { s with poolRunning := false, connections := [] }
  else .ok () s

/-- `ConnectionPool::Init`, up to the memory pool it makes. -/
def initPool (maxConnections : ℕ) : M Unit := fun s =>
  .ok () { s with maxConnections := maxConnections, poolRunning := true }

/-- `ConnectionPool::AddConnection` of a new connection. -/
def addConnection (fd : ℤ) : M Bool := fun s =>
  if s.poolRunning ∧ s.connections.length < s.maxConnections ∧ fd ∉ s.connections.map Connection.fd then
    .ok true { s with connections := ⟨fd, false⟩ :: s.connections }
  else .ok false s

/-- What `Connection::Recv` does to a connection under `fd` when it returns 0 or an error other than `EAGAIN`. -/
def Connection.recvEnds (fd : ℤ) (c : Connection) : Connection := if c.fd = fd then { c with closed := true } else c

def recvEnds (fd : ℤ) : M Unit := fun s =>
  if ⟨fd, false⟩ ∈ s.connections then
    .ok () { s with connections := s.connections.map (Connection.recvEnds fd), ended := fd :: s.ended }
  else .ok () s

def handle : Handler → M Unit
  | .recvEnds fd => recvEnds fd
  | .removeConnection fd => removeConnection fd

def handleAll : List Handler → M Unit
  | [] => pure ()
  | h :: hs => do
      handle h
      handleAll hs

/-! ### System calls -/

/-- The answer to the next call; without one the call fails. -/
def nextAnswer : M Answer := fun s =>
  match s.answers with
  | [] => .ok ⟨[], ⟨-1, 0⟩⟩ s
  | a :: as => .ok a { s with answers := as }

def sysCall : M Reply := do
  let a ← nextAnswer
  handleAll a.meanwhile
  pure a.reply

/-- A call that opens a descriptor returns a number that is not open, or `-1`. -/
def openFile (k : Kind) (r : Reply) : M Reply := fun s =>
  if 0 ≤ r.ret ∧ r.ret ∉ s.files.map Prod.fst then .ok r { s with files := (r.ret, k) :: s.files }
  else .ok ⟨-1, r.errno⟩ s

def sysOpen (k : Kind) : M Reply := do
  let r ← sysCall
  openFile k r

/-- `Socket::CheckError`. -/
def socketCheck (r : Reply) (operation : String) : M Unit :=
  if r.ret = -1 then throw (.failed ⟨operation, r.errno⟩) else pure ()

/-- `Epoll::CheckError`. -/
def epollCheck (r : Reply) (operation : String) : M Unit :=
  if r.ret < 0 then throw (.failed ⟨operation, r.errno⟩) else pure ()

/-- A call on a socket that opens nothing. -/
def socketCall (operation : String) : M Unit := do
  let r ← sysCall
  socketCheck r operation

/-- `Epoll::AddFd`. -/
def addFd : M Unit := do
  let r ← sysCall
  epollCheck r "epoll_ctl(EPOLL_CTL_ADD)"

/-- Something outside that can throw. -/
def mayThrow (e : Thrown) : M Unit := do
  let r ← sysCall
  if r.ret = -1 then throw e else pure ()

/-! ### Objects that own descriptors -/

/-- `Epoll::Epoll`. -/
def makeEpoll : M ℤ := do
  let r ← sysOpen .epoll
  epollCheck r "epoll_create1"
  pure r.ret

/-- `EventLoop::~EventLoop` and `Epoll::~Epoll`. -/
def destroyEventLoop (l : EventLoop) : M Unit := do
  close .epoll l.epollFd
  drop .event l.wakeupFd

/-- `EventLoop::EventLoop`; when `AddFd` throws, the member `epoll_` is destroyed and the
number in `wakeup_fd_` is gone, as it is when the destructor runs. -/
def makeEventLoop : M EventLoop := do
  let epollFd ← makeEpoll
  let r ← sysOpen .event
  if r.ret = -1 then pure ⟨epollFd, -1⟩
  else do
    onThrow addFd (destroyEventLoop ⟨epollFd, r.ret⟩)
    pure ⟨epollFd, r.ret⟩

def destroyEventLoops : List EventLoop → M Unit
  | [] => pure ()
  | l :: ls => do
      destroyEventLoop l
      destroyEventLoops ls

/-- The loop of `IOThreadPool::IOThreadPool`, with `n` rounds to go; when a round throws, the member `loops_`
is destroyed. -/
def makeEventLoops : ℕ → List EventLoop → M (List EventLoop)
  | 0, loops => pure loops
  | n + 1, loops => do
      let l ← onThrow makeEventLoop (destroyEventLoops loops)
      makeEventLoops n (loops ++ [l])

/-- `IOThreadPool::IOThreadPool`. -/
def makeIOThreadPool (threadNum : ℕ) : M (List EventLoop) :=
  makeEventLoops (if threadNum = 0 then 1 else threadNum) []

/-! ### The members of the server -/

def swapListenSocket (o : Option ℤ) : M (Option ℤ) := fun s => .ok s.listenSocket { s with listenSocket := o }

def swapMainLoop (o : Option EventLoop) : M (Option EventLoop) := fun s => .ok s.mainLoop { s with mainLoop := o }

def swapIOThreadPool (o : Option (List EventLoop)) : M (Option (List EventLoop)) := fun s =>
  .ok s.ioThreadPool { s with ioThreadPool := o }

def swapSignalFd (fd : ℤ) : M ℤ := fun s => .ok s.signalFd { s with signalFd := fd }

def setFlags (f : Process → Process) : M Unit := fun s =>
  .ok () { s with running := (f s).running, stopRequested := (f s).stopRequested, destroyed := (f s).destroyed }

/-- `~Socket` through a `std::unique_ptr`. -/
def destroySocket : Option ℤ → M Unit
  | none => pure ()
  | some fd => close .socket fd

def destroyMainLoop : Option EventLoop → M Unit
  | none => pure ()
  | some l => destroyEventLoop l

/-- `IOThreadPool::Stop` (its first system call is a write to `wakeup_fd_`): when it is done, so are
the handlers. -/
def stopThreads : M Unit := do
  let _ ← sysCall
  pure ()

/-- `IOThreadPool::~IOThreadPool` through a `std::unique_ptr`. -/
def destroyIOThreadPool : Option (List EventLoop) → M Unit
  | none => pure ()
  | some ls => do
      stopThreads
      destroyEventLoops ls

/-! ### `Server` -/

/-- `Socket::Create` on the new `listen_socket_`. -/
def create : M Unit := do
  let r ← sysOpen .socket
  let _ ← swapListenSocket (some r.ret)
  socketCheck r "socket"
  socketCall "fcntl(F_GETFL)"
  socketCall "fcntl(F_SETFL)"
  socketCall "setsockopt(SO_REUSEADDR)"
  socketCall "setsockopt(SO_REUSEPORT)"
  socketCall "setsockopt(TCP_NODELAY)"

/-- `Socket::Bind` on the text of the address: `validIp` says that it is empty, `0.0.0.0` or one `inet_pton`
accepts. -/
def checkIp (validIp : Bool) : M Unit := if validIp then pure () else throw .invalidIp

/-- The calls of `Init` on `listen_socket_` after `Create`. -/
def listenOn (validIp : Bool) : M Unit := do
  socketCall "fcntl(F_GETFL)"
  socketCall "fcntl(F_SETFL)"
  socketCall "setsockopt(SO_REUSEADDR)"
  socketCall "setsockopt(SO_REUSEPORT)"
  checkIp validIp
  socketCall "bind"
  socketCall "listen"

/-- `Server::Init` past its test of `running_`; `ioThreadNum` follows from the number of processors. -/
def initServer (ioThreadNum maxConnections : ℕ) (validIp : Bool) : M Unit := do
  setFlags fun s => { s with running := false, stopRequested := false }
  let oldSocket ← swapListenSocket (some (-1))
  destroySocket oldSocket
  create
  listenOn validIp
  let loop ← makeEventLoop
  let oldLoop ← swapMainLoop (some loop)
  destroyMainLoop oldLoop
  addFd
  mayThrow .memoryPool
  let loops ← makeIOThreadPool ioThreadNum
  let oldPool ← swapIOThreadPool (some loops)
  destroyIOThreadPool oldPool
  initPool maxConnections
  mayThrow .memoryPool
  mayThrow .thread
  let r ← sysOpen .event
  let oldFd ← swapSignalFd r.ret
  drop .event oldFd
  if r.ret = -1 then pure () else addFd

/-- `Server::Stop` past its test of `running_`. -/
def stopServer : M Unit := do
  setFlags fun s => { s with running := false }
  stopThreads
  shutdownPool
  let fd ← swapSignalFd (-1)
  close .event fd
  let socket ← swapListenSocket none
  destroySocket socket

/-- `SetNonBlocking` and `SetTcpNoDelay`. -/
def clientOptions : M Unit := do
  socketCall "fcntl(F_GETFL)"
  socketCall "fcntl(F_SETFL)"
  socketCall "setsockopt(TCP_NODELAY)"

/-- `Socket::Accept`; `none` is the invalid `Socket(-1)`.  When it throws, the `Socket` of the client is
destroyed. -/
def socketAccept : M (Option ℤ) := do
  let r ← sysOpen .client
  if r.ret = -1 then if wouldBlock r.errno then pure none else throw (.failed ⟨"accept", r.errno⟩)
  else do
    onThrow clientOptions (close .client r.ret)
    pure (some r.ret)

/-- `AddConnection` has returned false: `client_socket.Close()`, and then the last reference to the connection
goes. -/
def refuse (fd : ℤ) : M Unit := do
  close .client fd
  modify fun s => { s with refused := fd :: s.refused }
  closeConnection ⟨fd, false⟩

/-- `client_socket` closes the number although the pool has a connection under it. -/
def abandon (fd : ℤ) : M Unit := do
  modify fun s => { s with unregistered := fd :: s.unregistered }
  close .client fd

/-- The end of a round of `HandleAccept`, from `GetNextEventLoop` on; `Release` leaves the number to the pooled
connection. -/
def register (fd : ℤ) : M Unit := do
  let s ← get
  if s.ioThreadPool.getD [] = [] then do
    abandon fd
    removeConnection fd
  else onThrow addFd (abandon fd)

/-- A round of `HandleAccept` with a client, from `GetPeerIp` on. -/
def acceptClient (fd : ℤ) : M Unit := do
  let _ ← sysCall
  let _ ← sysCall
  onThrow clientOptions (close .client fd)
  onThrow (mayThrow .connection) (close .client fd)
  let added ← addConnection fd
  if added then register fd else refuse fd

/-- The loop of `HandleAccept`; every round takes an answer, and `accept` throws when there are none. -/
def acceptLoop : ℕ → M Unit
  | 0 => pure ()
  | n + 1 => do
      match ← socketAccept with
      | none => pure ()
      | some fd => do
          acceptClient fd
          acceptLoop n

/-- `Server::HandleAccept`. -/
def handleAccept : M Unit := fun s => acceptLoop (s.answers.length + 1) s

/-- How the loop of `MainEventLoop` ends: at its test or by an error of `epoll_wait`, so that `Stop` runs, or at the
event of the eventfd, which clears `running_`, so that `Stop` returns at its test. -/
inductive LoopEnd where
  | test
  | eventfd
deriving DecidableEq, Repr

/-- `Server::MainEventLoop` once its pointers have been tested, with `n` events for the listening socket to
come. -/
def mainEventLoop : ℕ → LoopEnd → M Unit
  | 0, .test => stopServer
  | 0, .eventfd => setFlags fun s => { s with running := false }
  | n + 1, ends => do
      handleAccept
      mainEventLoop n ends

/-- `Server::Start` past its test of `running_`. -/
def startServer (accepts : ℕ) (ends : LoopEnd) : M Unit := do
  setFlags fun s => { s with running := true }
  mayThrow .thread
  let s ← get
  if s.mainLoop.isSome ∧ s.listenSocket.isSome then mainEventLoop accepts ends else pure ()

/-- The members, destroyed in the reverse of their order. -/
def destroyMembers : M Unit := do
  let pool ← swapIOThreadPool none
  destroyIOThreadPool pool
  let loop ← swapMainLoop none
  destroyMainLoop loop
  let socket ← swapListenSocket none
  destroySocket socket
  setFlags fun s => { s with destroyed := true }

/-- A call of the program; in `elsewhere` only the other threads run. -/
inductive Call where
  | init (ioThreadNum maxConnections : ℕ) (validIp : Bool)
  | start (accepts : ℕ) (ends : LoopEnd)
  | stop
  | destroy
  | shutdownPool
  | elsewhere
deriving DecidableEq, Repr

/-- A call and the answers to the system calls during it. -/
structure Label where
  call : Call
  answers : List Answer
deriving DecidableEq, Repr

/-- `Server::Stop`. -/
def stop (s : Process) : M Unit := if s.running then stopServer else pure ()

/-- `Init`, `Start`, `Stop` and `~Server` with their tests of `running_`. -/
def perform (s : Process) : Call → M Unit
  | .init ioThreadNum maxConnections validIp =>
      if s.running then pure () else initServer ioThreadNum maxConnections validIp
  | .start accepts ends => if s.running then pure () else startServer accepts ends
  | .stop => stop s
  | .destroy => do
      stop s
      destroyMembers
  | .shutdownPool => shutdownPool
  | .elsewhere => do
      let _ ← sysCall
      pure ()

/-- The state after an action, whether it has thrown or not. -/
def after (m : M Unit) (s : Process) : Process :=
  match m s with
  | .ok _ s' => s'
  | .error _ s' => s'

/-- `Start` uses `io_thread_pool_` without a test, so it is called after an `Init` that got that far; the server
is not called after its destructor. -/
def Process.callable (s : Process) : Call → Bool
  | .start _ _ => !s.destroyed && (s.running || s.ioThreadPool.isSome)
  | .init _ _ _ | .stop | .destroy => !s.destroyed
  | .shutdownPool | .elsewhere => true

def step (s : Process) (l : Label) : Option Process :=
  if s.callable l.call then some (after (perform s l.call) { s with answers := l.answers }) else none

/-- Before the first call. -/
def begin : Process where
  running := false
  stopRequested := false
  signalFd := -1
  listenSocket := none
  mainLoop := none
  ioThreadPool := none
  destroyed := false
  connections := []
  maxConnections := 0
  poolRunning := false
  answers := []
  files := []
  leaked := []
  stray := []
  refused := []
  unregistered := []
  ended := []

end Startup

end TcpServer
