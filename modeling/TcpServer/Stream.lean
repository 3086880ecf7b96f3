import TcpServer.Isolation
import TcpServer.Confinement
import TcpServer.Echo

/-! # The echo streams of all clients

`Echo.lean` follows one connection through the handlers of an undisturbed loop.  Here all clients are
followed at once, through every interleaving of the main thread, the loops and the heartbeat thread:
accepting, timing out, closing and rejecting go on while other connections are being served.

`Traffic` lists what a step can do to buffers and traffic.  `echoed_of_reach`: as long as no number is
hijacked (`hijacks`) and no event misdirected (`misdirects`), the bytes `send` accepted for a client,
then its write buffer, then its read buffer are the bytes `recv` took from this client, in order.  So
at every moment every client has got back a prefix of what it sent, and nothing else. -/

namespace TcpServer

namespace World

variable {w w' : World Byte} {x : Client}

/-- No buffer and no traffic changes. -/
structure SameStreams (w w' : World Byte) : Prop extends SameData w w' where
  received : w'.received = w.received

theorem sameStreams_of_conns (hc : w'.conns = w.conns) (hs : w'.sent = w.sent) (hr : w'.received = w.received) :
    SameStreams w w' :=
  ⟨⟨fun _ => by rw [hc], fun _ => by rw [hc], fun _ => by rw [hc], fun _ => by rw [hc], hs⟩, hr⟩

theorem sameStreams_closeConn (x : Client) (w : World Byte) : SameStreams w (w.closeConn x) :=
  ⟨sameData_closeConn x w, closeConn_received x w⟩

theorem sameStreams_foldl_closeConn (es : List (Sigma fun _ : ℤ => Client)) (w : World Byte) :
    SameStreams w (es.foldl (fun w e => w.closeConn e.2) w) := by
  refine ⟨sameData_foldl_closeConn es w, ?_⟩
  induction es generalizing w with
  | nil => rfl
  | cons e es ih =>
      rw [List.foldl_cons, ih]
      exact closeConn_received e.2 w

/-- The indices of every connection are in bounds, the conservation law holds for every client and what
was received from a client carries its name. -/
structure Streams (w : World Byte) : Prop where
  valid : ∀ x, (w.conns x).Valid
  conserved : ∀ x, Conserved x w
  tagged : ∀ x, ∀ b ∈ w.received x, b.1 = some x

theorem streams_init (maxConnections : ℕ) (heartbeatTimeoutMs : ℤ) :
    Streams (init maxConnections heartbeatTimeoutMs) :=
  ⟨fun _ => Connection.valid_connected _ _, fun _ => rfl, fun _ _ hb => by cases hb⟩

theorem Streams.same (h : Streams w) (hs : SameStreams w w') : Streams w' := by
  refine ⟨?_, ?_, ?_⟩
  · intro x
    obtain ⟨hr, hw⟩ := h.valid x
    refine ⟨?_, ?_⟩
    · rw [hs.readIdx, hs.readBuffer]
      exact hr
    · rw [hs.writeIdx, hs.writeBuffer]
      exact hw
  · intro x
    have hx := h.conserved x
    unfold Conserved Connection.writePart Connection.readPart at hx ⊢
    rw [hs.sent, hs.received, hs.writeBuffer, hs.writeIdx, hs.readBuffer, hs.readIdx]
    exact hx
  · intro x
    rw [hs.received]
    exact h.tagged x

theorem Streams.newClient (h : Streams w) (n : ℤ) : Streams (w.newClient n) := by
  refine ⟨?_, ?_, ?_⟩
  · intro x
    by_cases hx : x = w.accepted
    · rw [hx, conns_newClient_self]
      exact Connection.valid_connected _ _
    · rw [conns_newClient_ne n w hx]
      exact h.valid x
  · intro x
    by_cases hx : x = w.accepted
    · unfold Conserved
      rw [hx, conns_newClient_self]
      simp [World.newClient, Connection.connected, Connection.writePart, Connection.readPart]
    · have hold := h.conserved x
      unfold Conserved at hold ⊢
      rw [conns_newClient_ne n w hx]
      simp only [World.newClient, Function.update_of_ne hx]
      exact hold
  · intro x b hb
    by_cases hx : x = w.accepted
    · subst hx
      simp [World.newClient] at hb
    · simp only [World.newClient, Function.update_of_ne hx] at hb
      exact h.tagged x b hb

/-- A connection whose contents move from one buffer to the other, at most. -/
theorem Streams.setConn {c : Connection Byte} (h : Streams w) (hv : c.Valid)
    (hc : c.writePart ++ c.readPart = (w.conns x).writePart ++ (w.conns x).readPart) :
    Streams (w.setConn x c) := by
  refine ⟨?_, ?_, h.tagged⟩
  · intro y
    by_cases hy : y = x
    · rw [hy, conns_setConn_self]
      exact hv
    · rw [conns_setConn_ne c w hy]
      exact h.valid y
  · intro y
    have hold := h.conserved y
    unfold Conserved at hold ⊢
    by_cases hy : y = x
    · subst hy
      rw [conns_setConn_self, List.append_assoc, hc, ← List.append_assoc]
      exact hold
    · rw [conns_setConn_ne c w hy]
      exact hold

/-- Bytes of `x` are received into the connection of `x`. -/
theorem Streams.recv {m : ℤ} {bs : List Byte} (h : Streams w) (hfile : w.files m = some x)
    (htag : ∀ b ∈ bs, b.1 = some x) (hlen : bs.length ≤ (w.conns x).checkAndResizeReadBuffer.available) :
    Streams ((w.setConn x ((w.conns x).checkAndResizeReadBuffer.recvData w.now bs)).logRecv m bs) := by
  have hv := Connection.valid_checkAndResizeReadBuffer (h.valid x)
  rw [logRecv_of_file (w := w.setConn x _) hfile]
  refine ⟨?_, ?_, ?_⟩
  · intro y
    by_cases hy : y = x
    · subst hy
      rw [conns_setConn_self]
      exact Connection.valid_recvData hv w.now hlen
    · rw [conns_setConn_ne _ w hy]
      exact h.valid y
  · intro y
    have hold := h.conserved y
    unfold Conserved at hold ⊢
    by_cases hy : y = x
    · subst hy
      simp only [conns_setConn_self, Function.update_self]
      rw [Connection.readPart_recvData hv, Connection.readPart_checkAndResizeReadBuffer (h.valid y),
        Connection.writePart_recvData, Connection.writePart_checkAndResizeReadBuffer, ← List.append_assoc]
      exact congrArg (· ++ bs) hold
    · simp only [conns_setConn_ne _ w hy, Function.update_of_ne hy]
      exact hold
  · intro y b hb
    by_cases hy : y = x
    · subst hy
      simp only [Function.update_self] at hb
      rcases List.mem_append.mp hb with hb | hb
      · exact h.tagged y b hb
      · exact htag b hb
    · simp only [Function.update_of_ne hy] at hb
      exact h.tagged y b hb

/-- Bytes from the write buffer of `x` are sent to `x`. -/
theorem Streams.send {m : ℤ} {k : ℕ} (h : Streams w) (hfile : w.files m = some x)
    (hk : k ≤ (w.conns x).writeIdx) :
    Streams ((w.setConn x ((w.conns x).sendData w.now k)).logSent m ((w.conns x).writePart.take k)) := by
  rw [logSent_of_file (w := w.setConn x _) hfile]
  refine ⟨?_, ?_, h.tagged⟩
  · intro y
    by_cases hy : y = x
    · subst hy
      rw [conns_setConn_self]
      exact Connection.valid_sendData (h.valid y) w.now hk
    · rw [conns_setConn_ne _ w hy]
      exact h.valid y
  · intro y
    have hold := h.conserved y
    unfold Conserved at hold ⊢
    by_cases hy : y = x
    · subst hy
      simp only [conns_setConn_self, Function.update_self]
      rw [Connection.writePart_sendData (h.valid y) w.now hk, Connection.readPart_sendData]
      have hsent : (w.setConn y ((w.conns y).sendData w.now k)).sent y = w.sent y := rfl
      rw [hsent, List.append_assoc (w.sent y), List.take_append_drop]
      exact hold
    · simp only [conns_setConn_ne _ w hy, Function.update_of_ne hy]
      exact hold

end World

namespace Sys

open World Transition

/-- What a step can do to buffers and traffic. -/
inductive Traffic (s : Sys) : World Byte → Prop
  | same {w : World Byte} : SameStreams s.world w → Traffic s w
  | fresh (n : ℤ) : Traffic s (s.world.newClient n)
  | room (x : Client) : Traffic s (s.world.setConn x (s.world.conns x).checkAndResizeReadBuffer)
  | recv {i : ℕ} {x y : Client} {m : ℤ} {bs : List Byte} :
      i < s.loops → (s.pc (.loop i)).loaded = some (x, m) → s.world.files m = some y →
      (∀ b ∈ bs, b.1 = some y) → bs.length ≤ (s.world.conns x).checkAndResizeReadBuffer.available →
      Traffic s ((s.world.setConn x
        ((s.world.conns x).checkAndResizeReadBuffer.recvData s.world.now bs)).logRecv m bs)
  | echo (x : Client) : Traffic s (s.world.setConn x (s.world.conns x).echo)
  | send {i : ℕ} {x y : Client} {m : ℤ} {k : ℕ} :
      i < s.loops → (s.pc (.loop i)).loaded = some (x, m) → s.world.files m = some y →
      k ≤ (s.world.conns x).writeIdx →
      Traffic s ((s.world.setConn x ((s.world.conns x).sendData s.world.now k)).logSent m
        ((s.world.conns x).writePart.take k))

section traffic

variable {s s' : Sys} {l : Label} {i : ℕ} {t : Thread}

/-- Steps that leave the world alone. -/
theorem Traffic.refl : Traffic s s.world := .same (sameStreams_of_conns rfl rfl rfl)

/-- Steps that store into an object nothing but its state, its descriptor or its heartbeat time. -/
theorem Traffic.setConn {x : Client} {c : Connection Byte}
    (h : c.readBuffer = (s.world.conns x).readBuffer ∧ c.writeBuffer = (s.world.conns x).writeBuffer ∧
      c.readIdx = (s.world.conns x).readIdx ∧ c.writeIdx = (s.world.conns x).writeIdx) :
    Traffic s (s.world.setConn x c) :=
  .same ⟨sameData_setConn h, rfl⟩

theorem traffic_mainStep (h : s.mainStep = some s') : Traffic s s'.world := by
  unfold mainStep at h
  split at h
  · split_ifs at h
    split at h
    · cases h
      exact .same (sameStreams_of_conns rfl rfl rfl)
    · cases h
      exact Traffic.refl
  · cases h
    exact .same (sameStreams_of_conns rfl rfl rfl)
  · cases h
    exact .same (sameStreams_closeConn _ _)
  · unfold addFd at h
    split_ifs at h
    · cases h
      exact .same (sameStreams_of_conns rfl rfl rfl)
    · cases h
      exact .same (sameStreams_of_conns rfl rfl rfl)
  · cases h

theorem traffic_closeStep (t : Thread) (n : ℤ) (x : Client) (c : ClosePoint) :
    Traffic s (s.closeStep t n x c).world := by
  unfold closeStep
  cases c with
  | load =>
      simp only []
      split_ifs
      · exact Traffic.refl
      · exact Traffic.refl
  | store => exact Traffic.setConn ⟨rfl, rfl, rfl, rfl⟩
  | fd =>
      simp only []
      split_ifs
      · exact Traffic.refl
      · exact Traffic.refl
  | sys m => exact .same (sameStreams_of_conns rfl rfl rfl)
  | clear => exact Traffic.setConn ⟨rfl, rfl, rfl, rfl⟩

theorem world_beginRemove {n : ℤ} (h : s.beginRemove t n = some s') : s'.world = s.world := by
  unfold beginRemove at h
  split_ifs at h
  split at h
  · cases h
    rfl
  · cases h
    rfl

theorem traffic_eventStep (h : s.eventStep i = some s') : Traffic s s'.world := by
  unfold eventStep at h
  split at h
  · cases h
  · simp only [] at h
    split_ifs at h
    · cases h
      exact Traffic.refl
    all_goals
      first
        | (split at h <;> cases h <;> exact Traffic.refl)
        | (cases h; exact Traffic.refl)

theorem traffic_loopStep (h : s.loopStep i = some s') : Traffic s s'.world := by
  unfold loopStep at h
  split at h
  · exact traffic_eventStep h
  · split_ifs at h <;> cases h <;> exact Traffic.refl
  · cases h
    exact Traffic.refl
  · cases h
    exact Traffic.setConn ⟨rfl, rfl, rfl, rfl⟩
  · next n x hpc =>
      split_ifs at h
      · cases h
        exact .echo x
      · cases h
        exact Traffic.refl
  · split_ifs at h <;> cases h <;> exact Traffic.refl
  · cases h
    exact Traffic.refl
  · cases h
    exact Traffic.setConn ⟨rfl, rfl, rfl, rfl⟩
  · cases h
    exact Traffic.setConn ⟨rfl, rfl, rfl, rfl⟩
  · unfold modifyFd at h
    split_ifs at h
    · cases h
      exact .same (sameStreams_of_conns rfl rfl rfl)
    · cases h
      exact .same (sameStreams_of_conns rfl rfl rfl)
  · split_ifs at h
    cases h
    exact Traffic.refl
  · unfold removeFd at h
    split_ifs at h
    · cases h
      exact .same (sameStreams_of_conns rfl rfl rfl)
    · cases h
      exact .same (sameStreams_of_conns rfl rfl rfl)
  · rw [world_beginRemove h]
    exact Traffic.refl
  · cases h
    exact traffic_closeStep _ _ _ _
  · cases h
    exact .same (sameStreams_of_conns rfl rfl rfl)
  · cases h

/-- Data comes from the client behind the number only. -/
theorem traffic_recvStep {r : RecvResult UInt8} (hi : i < s.loops) (h : s.recvStep i r = some s') :
    Traffic s s'.world := by
  unfold recvStep at h
  split at h
  · next n x m hpc =>
      simp only [] at h
      split at h
      · next bs hbs =>
          split_ifs at h with hlen
          cases h
          unfold sysRecv at hbs
          split_ifs at hbs with hopen
          obtain ⟨y, hy⟩ := Option.isSome_iff_exists.mp hopen
          refine .recv hi (by rw [hpc]; rfl) hy ?_ hlen.2
          cases r with
          | data raw =>
              simp only [tag, RecvResult.data.injEq] at hbs
              subst hbs
              intro b hb
              obtain ⟨a, -, rfl⟩ := List.mem_map.mp hb
              exact hy
          | eof => cases hbs
          | error e => cases hbs
      · cases h
        exact .room x
      · cases h
        exact .room x
  · cases h

theorem traffic_sendStep {r : SendResult} (hi : i < s.loops) (h : s.sendStep i r = some s') :
    Traffic s s'.world := by
  unfold sendStep at h
  split at h
  · next k n x m hpc =>
      simp only [] at h
      split at h
      · next len hlen =>
          split_ifs at h with hle
          cases h
          unfold sysSend at hlen
          split_ifs at hlen with hopen
          obtain ⟨y, hy⟩ := Option.isSome_iff_exists.mp hopen
          exact .send hi (by rw [hpc]; rfl) hy hle.2
      · cases h
        exact Traffic.refl
      · cases h
        exact Traffic.refl
  · cases h

theorem traffic_heartbeatStep (h : s.heartbeatStep = some s') : Traffic s s'.world := by
  unfold heartbeatStep at h
  split at h
  · split at h
    · cases h
    · rw [world_beginRemove h]
      exact Traffic.refl
  · cases h
    exact traffic_closeStep _ _ _ _
  · cases h
    exact .same (sameStreams_of_conns rfl rfl rfl)
  · cases h

theorem step_traffic (h : step s l = some s') : Traffic s s'.world := by
  unfold step at h
  split_ifs at h
  cases l with
  | tick t =>
      cases h
      exact .same (sameStreams_of_conns rfl rfl rfl)
  | accept n =>
      simp only [acceptStep] at h
      split_ifs at h
      obtain ⟨w, hw, rfl⟩ := Option.map_eq_some_iff.mp h
      obtain ⟨-, rfl⟩ := accept_eq_some hw
      exact .fresh n
  | main => exact traffic_mainStep h
  | wait i evs =>
      simp only [waitStep] at h
      split_ifs at h
      cases h
      exact .same (sameStreams_of_conns rfl rfl rfl)
  | loop i =>
      simp only [] at h
      split_ifs at h
      exact traffic_loopStep h
  | recv i r =>
      simp only [] at h
      split_ifs at h with hi
      exact traffic_recvStep hi h
  | send i r =>
      simp only [] at h
      split_ifs at h with hi
      exact traffic_sendStep hi h
  | scan fds =>
      simp only [scanStep] at h
      split_ifs at h
      cases h
      exact Traffic.refl
  | heartbeat => exact traffic_heartbeatStep h
  | shutdown =>
      simp only [shutdownStep] at h
      split_ifs at h
      cases h
      have hsame := sameStreams_foldl_closeConn s.world.pool.connections.entries s.world
      exact .same ⟨⟨hsame.readBuffer, hsame.writeBuffer, hsame.readIdx, hsame.writeIdx, hsame.sent⟩, hsame.received⟩

/-- A loop whose numbers are guarded works with the bytes of its own client. -/
theorem Traffic.streams {w : World Byte} (ht : Traffic s w) (hg : Guarded s) (h : Streams s.world) : Streams w := by
  cases ht with
  | same hs => exact h.same hs
  | fresh n => exact h.newClient n
  | room x =>
      refine h.setConn (Connection.valid_checkAndResizeReadBuffer (h.valid x)) ?_
      rw [Connection.writePart_checkAndResizeReadBuffer, Connection.readPart_checkAndResizeReadBuffer (h.valid x)]
  | recv hi hld hy htag hlen =>
      obtain rfl := hg.loaded _ hi _ _ hld _ hy
      exact h.recv hy htag hlen
  | echo x =>
      refine h.setConn (Connection.valid_echo (h.valid x)) ?_
      rw [Connection.writePart_echo (h.valid x), Connection.readPart_echo (h.valid x), List.append_nil]
  | send hi hld hy hk =>
      obtain rfl := hg.loaded _ hi _ _ hld _ hy
      exact h.send hy hk

theorem guarded_init (maxConnections : ℕ) (heartbeatTimeoutMs : ℤ) (threadNum : ℕ) :
    Guarded (init maxConnections heartbeatTimeoutMs threadNum) := by
  refine ⟨?_, ?_⟩
  · intro i hi x hx
    cases hx
  · intro i hi x m hx
    cases hx

/-- **The run lemma**: the streams are whole as long as no number is hijacked. -/
theorem streams_reach {maxConnections threadNum : ℕ} {heartbeatTimeoutMs : ℤ}
    (h : Reach step (fun s l => hijacks s l = false) (init maxConnections heartbeatTimeoutMs threadNum) s) :
    Core s ∧ Guarded s ∧ Streams s.world := by
  apply h.invariant (fun s => Core s ∧ Guarded s ∧ Streams s.world)
    ⟨core_init _ _ _, guarded_init _ _ _, streams_init _ _⟩
  rintro s l s' ⟨hc, hg, hst⟩ hhij hs
  exact ⟨core_step hc hs, guarded_step hc hg hhij hs, (step_traffic hs).streams hg hst⟩

/-- **Every client is echoed its own stream.**  In every run in which `accept` returns no number that a
`Recv` or `Send` under way still uses and no connection is admitted under a number for which another
loop has an event waiting: what was sent to a client, what waits in its write buffer and what waits in
its read buffer is what was received from this client, in order, and only the loop it was assigned to
works on its buffers. -/
theorem echoed_of_reach {maxConnections threadNum : ℕ} {heartbeatTimeoutMs : ℤ}
    (h : Reach step (fun s l => hijacks s l = false ∧ misdirects s l = false)
      (init maxConnections heartbeatTimeoutMs threadNum) s) (x : Client) :
    s.world.sent x ++ (s.world.conns x).writePart ++ (s.world.conns x).readPart = s.world.received x ∧
      s.world.sent x <+: s.world.received x ∧ (∀ b ∈ s.world.received x, b.1 = some x) ∧
      ∀ i n, (s.pc (.loop i)).handles = some (n, x) → s.owner x = i := by
  obtain ⟨-, -, hst⟩ := streams_reach (h.mono fun _ _ hok => hok.1)
  have hconf : Core s ∧ Confining s := by
    apply h.invariant (fun s => Core s ∧ Confining s) ⟨core_init _ _ _, confining_init _ _ _⟩
    rintro s l s' ⟨hc, hconf⟩ hok hs
    exact ⟨core_step hc hs, confining_step hc hconf hok.2 hs⟩
  have hlaw := hst.conserved x
  unfold Conserved at hlaw
  refine ⟨hlaw, ?_, hst.tagged x, fun i n => hconf.2.handled i n x⟩
  rw [← hlaw, List.append_assoc]
  exact List.prefix_append _ _

end traffic

/-- Two clients on two loops, both in the middle of an echo; the heartbeat thread removes the first. -/
def crossedRun : List Label :=
  [.accept 5, .main, .main, .accept 6, .main, .main, .wait 0 [(5, { epollin := true })],
    .wait 1 [(6, { epollin := true })], .loop 0, .loop 1, .loop 0, .loop 0, .loop 1, .loop 1,
    .recv 0 (.data [104, 105]), .tick 30000, .recv 1 (.data [106, 107, 108]), .loop 1, .loop 1,
    .recv 1 (.error EAGAIN), .loop 1, .loop 1, .loop 1, .tick 60001, .scan [5], .heartbeat, .send 1 (.sent 2), .heartbeat,
    .loop 0, .heartbeat]

theorem crossedRun_echoed :
    ∃ s, run step (init 100000 60000 2) crossedRun = some s ∧
      s.world.received 1 = [(some 1, 106), (some 1, 107), (some 1, 108)] ∧
      s.world.sent 1 = [(some 1, 106), (some 1, 107)] ∧ (s.world.conns 1).writePart = [(some 1, 108)] ∧
      s.world.sent 1 <+: s.world.received 1 ∧
      s.world.sent 0 ++ (s.world.conns 0).writePart ++ (s.world.conns 0).readPart = s.world.received 0 := by
  obtain ⟨s, hs, hr, hsent, hw⟩ := exists_of_any (o := run step (init 100000 60000 2) crossedRun)
    (fun s => s.world.received 1 = [(some 1, 106), (some 1, 107), (some 1, 108)] ∧
      s.world.sent 1 = [(some 1, 106), (some 1, 107)] ∧ (s.world.conns 1).writePart = [(some 1, 108)])
    (by decide +kernel)
  have hok : Along step (fun s l => hijacks s l = false ∧ misdirects s l = false) (init 100000 60000 2)
      crossedRun := by
    decide +kernel
  have hreach := hok.reach hs
  exact ⟨s, hs, hr, hsent, hw, (echoed_of_reach hreach 1).2.1, (echoed_of_reach hreach 0).1⟩

end Sys

end TcpServer
