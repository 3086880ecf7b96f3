import TcpServer.Stream
import TcpServer.Admission
import Mathlib.Algebra.Group.Action.Defs
import Mathlib.Algebra.Order.BigOperators.Group.List
import Mathlib.Algebra.Order.Ring.Nat

/-! # The memory a client costs

The read buffer of a connection grows before a `recv` that finds less than 1024 free bytes, the write
buffer when `HandleRead` moves more into it than it has room for; neither ever shrinks, and `HandleRead`
does not stop reading while the client does not read.  The *backlog* of a client is what has been
received from it and not been sent back.

`footprint_of_reach`: in every interleaving in which no number is hijacked, the buffers of a client hold
its backlog and are at most four times as large as the backlog has ever been, and 4096 bytes; so the
buffers of the pool stay within `max_connections_` times that (`pool_footprint_of_reach`).
`backlog_unbounded`: nothing in the server keeps the backlog of a single client below any number.
Allocations are taken to succeed. -/

namespace TcpServer

namespace Connection

variable {α : Type}

/-- The bytes of memory in the two buffers. -/
def footprint (c : Connection α) : ℕ := c.readBuffer.length + c.writeBuffer.length

/-- Buffers that contents of `b` bytes account for. -/
structure Roomy (b : ℕ) (c : Connection α) : Prop where
  read : c.readBuffer.length ≤ 2 * b + 4096
  write : c.writeBuffer.length ≤ 2 * b

variable {c c' : Connection α} {b : ℕ}

theorem Roomy.footprint_le (h : c.Roomy b) : c.footprint ≤ 4 * b + 4096 := by
  have hr := h.read
  have hw := h.write
  unfold footprint
  omega

theorem Roomy.same (h : c.Roomy b) (hr : c'.readBuffer.length = c.readBuffer.length)
    (hw : c'.writeBuffer.length = c.writeBuffer.length) : c'.Roomy b :=
  ⟨hr ▸ h.read, hw ▸ h.write⟩

theorem roomy_connected (fd now : ℤ) : (connected fd now : Connection α).Roomy b :=
  ⟨Nat.zero_le _, Nat.zero_le _⟩

theorem Roomy.recvData (h : c.Roomy b) (hv : c.Valid) (now : ℤ) {bs : List α} (hlen : bs.length ≤ c.available) :
    (c.recvData now bs).Roomy b := by
  refine h.same ?_ rfl
  apply Buffer.length_overwrite
  have hr := hv.read
  unfold available at hlen
  omega

theorem Roomy.sendData (h : c.Roomy b) (hv : c.Valid) (now : ℤ) {k : ℕ} (hk : k ≤ c.writeIdx) :
    (c.sendData now k).Roomy b := by
  refine h.same rfl ?_
  apply Buffer.length_shift
  have hw := hv.write
  omega

variable [Inhabited α]

/-- Making room doubles a buffer that is full up to 1023 bytes. -/
theorem Roomy.checkAndResizeReadBuffer (h : c.Roomy b) (hb : c.readIdx ≤ b) : c.checkAndResizeReadBuffer.Roomy b := by
  unfold Connection.checkAndResizeReadBuffer
  split_ifs with hfull
  · refine ⟨?_, h.write⟩
    rw [Buffer.length_resize]
    omega
  · exact h

/-- The write buffer at most doubles beyond what has to go into it. -/
theorem Roomy.echo (h : c.Roomy b) (hv : c.Valid) (hb : c.writeIdx + c.readIdx ≤ b) : c.echo.Roomy b := by
  have hlen := length_readPart hv
  have hread : c.echo.readBuffer = c.readBuffer := by
    unfold Connection.echo consumeReadBuffer
    rw [if_pos (by exact Nat.le_refl _)]
    rfl
  have hwrite : c.echo.writeBuffer = (c.appendWriteBuffer c.readPart).writeBuffer := by
    unfold Connection.echo consumeReadBuffer
    rw [if_pos (by exact Nat.le_refl _)]
  refine ⟨hread ▸ h.read, ?_⟩
  rw [hwrite]
  have hw := h.write
  have hvw := hv.write
  simp only [appendWriteBuffer]
  split_ifs with hfull
  · rw [Buffer.length_overwrite]
    · rw [Buffer.length_resize]
      omega
    · rw [Buffer.length_resize]
      omega
  · rw [Buffer.length_overwrite (by omega)]
    exact hw

end Connection

namespace Sys

open World Transition

/-- What has been received from a client and not been sent back. -/
def backlog (s : Sys) (x : Client) : ℕ := (s.world.received x).length - (s.world.sent x).length

section backlog

variable {s s' : Sys} {x : Client}

/-- The backlog is what the buffers hold. -/
theorem backlog_eq (h : Streams s.world) (x : Client) :
    s.backlog x = (s.world.conns x).writeIdx + (s.world.conns x).readIdx := by
  have hlaw := congrArg List.length (h.conserved x)
  rw [List.length_append, List.length_append, Connection.length_writePart (h.valid x),
    Connection.length_readPart (h.valid x)] at hlaw
  unfold backlog
  omega

/-- A step resizes the buffers of a client by what its backlog is. -/
theorem Traffic.roomy {w : World Byte} {b : ℕ} (ht : Traffic s w) (h : Streams s.world) (hb : s.backlog x ≤ b)
    (hx : (s.world.conns x).Roomy b) : (w.conns x).Roomy b := by
  rw [backlog_eq h] at hb
  have hroom := hx.checkAndResizeReadBuffer (by omega)
  have hvalid := Connection.valid_checkAndResizeReadBuffer (h.valid x)
  cases ht with
  | same hs => exact hx.same (by rw [hs.readBuffer]) (by rw [hs.writeBuffer])
  | fresh n =>
      by_cases hy : x = s.world.accepted
      · rw [hy, conns_newClient_self]
        exact Connection.roomy_connected _ _
      · rw [conns_newClient_ne n _ hy]
        exact hx
  | room y =>
      by_cases hy : x = y
      · subst hy
        rw [conns_setConn_self]
        exact hroom
      · rw [conns_setConn_ne _ _ hy]
        exact hx
  | @recv i y z m bs hi hld hz htag hlen =>
      rw [conns_logRecv]
      by_cases hy : x = y
      · subst hy
        rw [conns_setConn_self]
        exact hroom.recvData hvalid _ hlen
      · rw [conns_setConn_ne _ _ hy]
        exact hx
  | echo y =>
      by_cases hy : x = y
      · subst hy
        rw [conns_setConn_self]
        exact hx.echo (h.valid x) hb
      · rw [conns_setConn_ne _ _ hy]
        exact hx
  | @send i y z m k hi hld hz hk =>
      rw [conns_logSent]
      by_cases hy : x = y
      · subst hy
        rw [conns_setConn_self]
        exact hx.sendData (h.valid x) _ hk
      · rw [conns_setConn_ne _ _ hy]
        exact hx

theorem pool_foldl_closeConn (es : List (Sigma fun _ : ℤ => Client)) (w : World Byte) :
    (es.foldl (fun w e => w.closeConn e.2) w).pool = w.pool := by
  induction es generalizing w with
  | nil => rfl
  | cons e es ih =>
      rw [List.foldl_cons, ih]
      exact closeConn_pool e.2 w

/-- `max_connections_` is never stored to after `Init`. -/
theorem maxConnections_step {l : Label} (hs : step s l = some s') :
    s'.world.pool.maxConnections = s.world.pool.maxConnections := by
  obtain ⟨-, -, he⟩ := step_effect hs
  cases he with
  | quiet hi ht hq => exact congrArg _ hq.core.pool
  | rejectDrop hpc => exact congrArg _ (closeConn_pool _ _)
  | @add n x pool hl hpc hlock hadd =>
      rw [ConnectionPool.addConnection_eq] at hadd
      split at hadd
      · cases hadd
        rfl
      · cases hadd
  | shutdown hpc hj hlock =>
      show (s.world.pool.connections.entries.foldl (fun w e => w.closeConn e.2) s.world).pool.maxConnections = _
      rw [pool_foldl_closeConn]
  | _ => rfl

/-- **The run lemma.** -/
theorem roomy_reach {maxConnections threadNum b : ℕ} {heartbeatTimeoutMs : ℤ}
    (h : Reach step (fun s l => hijacks s l = false ∧ s.backlog x ≤ b)
      (init maxConnections heartbeatTimeoutMs threadNum) s) : (s.world.conns x).Roomy b := by
  induction h with
  | refl => exact Connection.roomy_connected _ _
  | tail hr hok hs ih =>
      have hst := (streams_reach (hr.mono fun _ _ hok => hok.1)).2.2
      exact (step_traffic hs).roomy hst hok.2 ih

/-- **What the pool costs**, when no backlog exceeds `b`. -/
theorem pool_footprint_of_reach {maxConnections threadNum b : ℕ} {heartbeatTimeoutMs : ℤ}
    (h : Reach step (fun s l => hijacks s l = false ∧ ∀ x, s.backlog x ≤ b)
      (init maxConnections heartbeatTimeoutMs threadNum) s) :
    (s.world.pool.connections.entries.map fun e => (s.world.conns e.2).footprint).sum ≤
      maxConnections * (4 * b + 4096) := by
  have htally : Tally s ∧ s.world.pool.maxConnections = maxConnections := by
    apply h.invariant (fun s => Tally s ∧ s.world.pool.maxConnections = maxConnections) ⟨tally_init _ _ _, rfl⟩
    rintro s l s' ⟨ht, hm⟩ _ hs
    exact ⟨tally_step ht hs, (maxConnections_step hs).trans hm⟩
  have hsize := htally.1.size
  rw [htally.2] at hsize
  have hone : ∀ k ∈ s.world.pool.connections.entries.map (fun e => (s.world.conns e.2).footprint),
      k ≤ 4 * b + 4096 := by
    intro k hk
    obtain ⟨e, -, rfl⟩ := List.mem_map.mp hk
    exact (roomy_reach (h.mono fun _ _ hok => ⟨hok.1, hok.2 e.2⟩)).footprint_le
  have hsum := List.sum_le_card_nsmul _ _ hone
  rw [List.length_map, smul_eq_mul] at hsum
  exact hsum.trans (Nat.mul_le_mul_right _ hsize)

end backlog

/-- Loop `0` is about to call `recv` for the first client, which has not been sent anything. -/
structure Pumping (k : ℕ) (s : Sys) : Prop where
  crashed : s.world.crashed = false
  stopped : s.stopped = false
  loops : 0 < s.loops
  pc : s.pc (.loop 0) = .recvSys 5 0 5
  file : s.world.files 5 = some 0
  state : (s.world.conns 0).state ≠ .closed
  fd : (s.world.conns 0).fd = 5
  received : (s.world.received 0).length = k
  sent : s.world.sent 0 = []

theorem available_pos {α : Type} [Inhabited α] (c : Connection α) : 1 ≤ c.checkAndResizeReadBuffer.available := by
  unfold Connection.checkAndResizeReadBuffer
  split_ifs with hfull
  · show 1 ≤ (Buffer.resize _ _ _).length - c.readIdx
    rw [Buffer.length_resize]
    omega
  · unfold Connection.available
    omega

theorem step_alive {s : Sys} (hc : s.world.crashed = false) (hst : s.stopped = false)
    {i : ℕ} (hi : i < s.loops) :
    step s (.loop i) = s.loopStep i ∧ ∀ r, step s (.recv i r) = s.recvStep i r := by
  unfold step
  simp [hc, hst, hi]

/-- One more byte. -/
theorem Pumping.pump {s : Sys} {k : ℕ} (h : Pumping k s) :
    ∃ s', run step s [.recv 0 (.data [0]), .loop 0, .loop 0] = some s' ∧ Pumping (k + 1) s' := by
  have hlen : ([(some 0, 0)] : List Byte).length ≤ (s.world.conns 0).checkAndResizeReadBuffer.available :=
    available_pos (s.world.conns 0)
  have hrecv : s.world.sysRecv 5 (tag (s.world.files 5) (.data [0])) = .data [(some 0, 0)] := by
    unfold sysRecv
    rw [if_pos (by rw [h.file]; rfl), h.file]
    rfl
  set c := (s.world.conns 0).checkAndResizeReadBuffer.recvData s.world.now [(some 0, 0)] with hc
  set w := (s.world.setConn 0 c).logRecv 5 [(some 0, 0)] with hw
  have hconn : w.conns 0 = c := by rw [hw, conns_logRecv, conns_setConn_self]
  have hrest : w.crashed = s.world.crashed ∧ w.files = s.world.files ∧ w.sent = s.world.sent ∧
      (w.received 0).length = k + 1 := by
    rw [hw, logRecv_of_file (w := s.world.setConn 0 c) h.file]
    refine ⟨rfl, rfl, rfl, ?_⟩
    simp only [Function.update_self, List.length_append]
    exact congrArg (· + 1) h.received
  have h₁ : step s (.recv 0 (.data [0])) = some ((s.setWorld w).goto (.loop 0) (.recvState 5 0)) := by
    rw [(step_alive h.crashed h.stopped h.loops).2]
    unfold recvStep
    rw [h.pc]
    simp only [hrecv]
    rw [if_pos ⟨List.cons_ne_nil _ _, hlen⟩]
  have hstate : c.state ≠ .closed := by
    rw [hc]
    show (s.world.conns 0).checkAndResizeReadBuffer.state ≠ .closed
    rw [Connection.state_checkAndResizeReadBuffer]
    exact h.state
  have hfd : c.fd = 5 := by
    rw [hc]
    show (s.world.conns 0).checkAndResizeReadBuffer.fd = 5
    rw [Connection.fd_checkAndResizeReadBuffer]
    exact h.fd
  have halive := hrest.1.trans h.crashed
  have h₂ : step ((s.setWorld w).goto (.loop 0) (.recvState 5 0)) (.loop 0) =
      some (((s.setWorld w).goto (.loop 0) (.recvState 5 0)).goto (.loop 0) (.recvFd 5 0)) := by
    rw [(step_alive (s := (s.setWorld w).goto (.loop 0) (.recvState 5 0)) halive h.stopped h.loops).1]
    unfold loopStep
    rw [goto_pc, Function.update_self]
    simp only [goto_world, setWorld_world, hconn]
    rw [if_neg hstate]
  have h₃ : step (((s.setWorld w).goto (.loop 0) (.recvState 5 0)).goto (.loop 0) (.recvFd 5 0)) (.loop 0) =
      some ((((s.setWorld w).goto (.loop 0) (.recvState 5 0)).goto (.loop 0) (.recvFd 5 0)).goto (.loop 0)
        (.recvSys 5 0 5)) := by
    rw [(step_alive (s := ((s.setWorld w).goto (.loop 0) (.recvState 5 0)).goto (.loop 0) (.recvFd 5 0))
      halive h.stopped h.loops).1]
    unfold loopStep
    rw [goto_pc, Function.update_self]
    simp only [goto_world, setWorld_world, hconn, hfd]
  refine ⟨_, run_cons_some.mpr ⟨_, h₁, run_cons_some.mpr ⟨_, h₂, run_cons_some.mpr ⟨_, h₃, rfl⟩⟩⟩, ?_⟩
  exact
    { crashed := halive
      stopped := h.stopped
      loops := h.loops
      pc := by rw [goto_pc, Function.update_self]
      file := by
        show w.files 5 = some 0
        rw [hrest.2.1]
        exact h.file
      state := by
        show (w.conns 0).state ≠ .closed
        rw [hconn]
        exact hstate
      fd := by
        show (w.conns 0).fd = 5
        rw [hconn]
        exact hfd
      received := hrest.2.2.2
      sent := by
        show w.sent 0 = []
        rw [hrest.2.2.1]
        exact h.sent }

/-- The first client is accepted, and its loop wakes up with data to read. -/
def startPumping : List Label :=
  [.accept 5, .main, .main, .wait 0 [(5, { epollin := true })], .loop 0, .loop 0, .loop 0]

theorem exists_pumping (m n : ℕ) (t : ℤ) :
    ∃ s, run step (init (m + 1) t n) startPumping = some s ∧ Pumping 0 s := by
  cases n with
  | zero => exact ⟨_, rfl, ⟨rfl, rfl, Nat.one_pos, rfl, rfl, nofun, rfl, rfl, rfl⟩⟩
  | succ n => exact ⟨_, rfl, ⟨rfl, rfl, Nat.succ_pos n, rfl, rfl, nofun, rfl, rfl, rfl⟩⟩

/-- **Nothing limits the backlog.**  Whatever the configuration, as long as it admits a client: for every
number of bytes there is a run without hijacked numbers in which one client's buffers hold that many. -/
theorem backlog_unbounded (maxConnections threadNum : ℕ) (heartbeatTimeoutMs : ℤ) (hmax : 1 ≤ maxConnections)
    (k : ℕ) :
    ∃ s, Reach step (fun s l => hijacks s l = false) (init maxConnections heartbeatTimeoutMs threadNum) s ∧
      s.backlog 0 = k ∧ k ≤ (s.world.conns 0).footprint := by
  obtain ⟨m, rfl⟩ : ∃ m, maxConnections = m + 1 := ⟨maxConnections - 1, by omega⟩
  have hpump : ∃ s, Reach step (fun s l => hijacks s l = false) (init (m + 1) heartbeatTimeoutMs threadNum) s ∧
      Pumping k s := by
    induction k with
    | zero =>
        obtain ⟨s, hrun, hs⟩ := exists_pumping m threadNum heartbeatTimeoutMs
        have hok : Along step (fun s l => hijacks s l = false) (init (m + 1) heartbeatTimeoutMs threadNum)
            startPumping := by
          refine ⟨?_, fun _ _ => ⟨rfl, fun _ _ => ⟨rfl, fun _ _ => ⟨rfl, fun _ _ => ⟨rfl, fun _ _ => ⟨rfl,
            fun _ _ => ⟨rfl, fun _ _ => trivial⟩⟩⟩⟩⟩⟩⟩
          apply decide_eq_false
          rintro ⟨i, -, hi | hi⟩
          · cases hi
          · cases hi
        exact ⟨s, hok.reach hrun, hs⟩
    | succ k ih =>
        obtain ⟨s, hr, hs⟩ := ih
        obtain ⟨s', hrun, hs'⟩ := hs.pump
        have hok : Along step (fun s l => hijacks s l = false) s [.recv 0 (.data [0]), .loop 0, .loop 0] :=
          ⟨rfl, fun _ _ => ⟨rfl, fun _ _ => ⟨rfl, fun _ _ => trivial⟩⟩⟩
        exact ⟨s', hr.trans (hok.reach hrun), hs'⟩
  obtain ⟨s, hr, hs⟩ := hpump
  have hst := (streams_reach hr).2.2
  have hback : s.backlog 0 = k := by
    unfold backlog
    rw [hs.received, hs.sent, List.length_nil, Nat.sub_zero]
  refine ⟨s, hr, hback, ?_⟩
  have hread := (hst.valid 0).read
  have hwrite := (hst.valid 0).write
  rw [← hback, backlog_eq hst]
  unfold Connection.footprint
  omega

theorem backlog_unbounded_default :
    ∃ s, Reach step (fun s l => hijacks s l = false) (init 100000 60000 1) s ∧ s.backlog 0 = 10 ^ 9 ∧
      10 ^ 9 ≤ (s.world.conns 0).footprint :=
  backlog_unbounded 100000 1 60000 (by decide) (10 ^ 9)

end Sys

end TcpServer
