import TcpServer.Transition
import TcpServer.Buffer
import TcpServer.Connection
import TcpServer.World
import TcpServer.EventLoop
import TcpServer.Echo
import TcpServer.Rearm
import TcpServer.Interleaving
import TcpServer.Effect
import TcpServer.Lifecycle
import TcpServer.Leak
import TcpServer.Isolation
import TcpServer.Heartbeat
import TcpServer.Confinement
import TcpServer.EpollCtl
import TcpServer.Solo
import TcpServer.MainLoop
import TcpServer.Logger
import TcpServer.ThreadPool
import TcpServer.Memory
import TcpServer.MemoryPool
import TcpServer.LoopStop
import TcpServer.Accept
import TcpServer.Admission
import TcpServer.PoolOps
import TcpServer.Registration
import TcpServer.LogSteps
import TcpServer.LogOverrun
import TcpServer.LogDeadlock
import TcpServer.LogSolo
import TcpServer.Errno
import TcpServer.Footprint
import TcpServer.Batch
import TcpServer.Wakeup
import TcpServer.PoolLimits
import TcpServer.LogFile
import TcpServer.CommandLine
import TcpServer.ConnectionBounds
import TcpServer.Custody
import TcpServer.Socket
import TcpServer.Potential
import TcpServer.Mutex
import TcpServer.Progress
import TcpServer.Stream
import TcpServer.Balance
import TcpServer.HeartbeatThread
import TcpServer.Supervision
import TcpServer.HeartbeatRest
import TcpServer.Drain
import TcpServer.SharedPool
import TcpServer.Backlog
import TcpServer.Unwind
import TcpServer.Startup
import TcpServer.Descriptors
import TcpServer.Filing
import TcpServer.LogDisk
import TcpServer.Archive
import TcpServer.LogMutex
import TcpServer.SignalLog
import TcpServer.LogRest
