import TcpServer.Transition
import TcpServer.EventLoop

/-! # The echo stream of one connection

One connection, registered with one loop, and any sequence of handler calls for its
descriptor with any answers of the kernel.  `Conserved x w` is the conservation law: the
bytes `send` accepted, then the contents of the write buffer, then the contents of the read
buffer are the bytes `recv` returned, in order.

* `serve_conserved`: the law holds at every point of every run - between the handler calls and
  between the `Connection` calls inside them, whatever the resizes and partial transfers - so
  what the client gets back is always a prefix of what it sent.
* `allSent_at_eof_iff`: when `recv` returns `0` in `HandleRead` and no error has occurred, all
  bytes received have been sent *iff* nothing was pending when this `HandleRead` began and its
  very first `recv` returned `0`. -/

namespace TcpServer

namespace World

variable {α : Type}

/-- The conservation law of client `x`. -/
def Conserved (x : Client) (w : World α) : Prop :=
  w.sent x ++ (w.conns x).writePart ++ (w.conns x).readPart = w.received x

/-- Object `x` carries the number `n`, the number refers to its socket, its indices are in
bounds and the conservation law holds. -/
structure Serving (n : ℤ) (x : Client) (w : World α) : Prop where
  fdEq : (w.conns x).fd = n
  file : w.files n = some x
  valid : (w.conns x).Valid
  conserved : Conserved x w

/-- `x` has just been admitted under the number `n`. -/
structure Admitted (n : ℤ) (x : Client) (w : World α) : Prop where
  pooled : w.pool.getConnection n = some x
  file : w.files n = some x
  fresh : ∃ t, w.conns x = .connected n t
  received : w.received x = []
  sent : w.sent x = []

theorem Admitted.serving {n : ℤ} {x : Client} {w : World α} (h : Admitted n x w) : Serving n x w := by
  obtain ⟨t, ht⟩ := h.fresh
  refine ⟨by rw [ht]; rfl, h.file, by rw [ht]; exact Connection.valid_connected n t, ?_⟩
  unfold Conserved
  rw [ht, h.received, h.sent]
  rfl

/-! ### `Recv`, the echo and `Send` keep the law -/

section steps

variable {n : ℤ} {x : Client} {w : World α}

theorem Serving.setConn {c : Connection α} (h : Serving n x w) (hfd : c.fd = (w.conns x).fd)
    (hv : c.Valid) (hwr : c.writePart ++ c.readPart = (w.conns x).writePart ++ (w.conns x).readPart) :
    Serving n x (w.setConn x c) := by
  refine ⟨by simp [hfd, h.fdEq], h.file, by simpa using hv, ?_⟩
  have := h.conserved
  simp only [Conserved, conns_setConn_self, List.append_assoc] at this ⊢
  rw [hwr]
  exact this

/-- Only the traffic of the socket behind the number changes. -/
theorem logRecv_of_file {m : ℤ} {y : Client} {bs : List α} (h : w.files m = some y) :
    w.logRecv m bs = { w with received := Function.update w.received y (w.received y ++ bs) } := by
  simp [logRecv, h]

theorem logSent_of_file {m : ℤ} {y : Client} {bs : List α} (h : w.files m = some y) :
    w.logSent m bs = { w with sent := Function.update w.sent y (w.sent y ++ bs) } := by
  simp [logSent, h]

variable [Inhabited α]

theorem Serving.recvData {bs : List α} (h : Serving n x w)
    (hb : bs.length ≤ (w.conns x).checkAndResizeReadBuffer.available) :
    Serving n x ((w.setConn x ((w.conns x).checkAndResizeReadBuffer.recvData w.now bs)).logRecv
      (w.conns x).checkAndResizeReadBuffer.fd bs) := by
  have hv := Connection.valid_checkAndResizeReadBuffer h.valid
  have hfile : (w.setConn x ((w.conns x).checkAndResizeReadBuffer.recvData w.now bs)).files
      (w.conns x).checkAndResizeReadBuffer.fd = some x := by
    rw [Connection.fd_checkAndResizeReadBuffer, h.fdEq]
    exact h.file
  rw [logRecv_of_file hfile]
  refine ⟨?_, h.file, ?_, ?_⟩
  · simp [Connection.recvData, h.fdEq]
  · simpa using Connection.valid_recvData hv w.now hb
  · have := h.conserved
    simp only [Conserved, conns_setConn_self, Function.update_self] at this ⊢
    rw [Connection.readPart_recvData hv, Connection.readPart_checkAndResizeReadBuffer h.valid,
      Connection.writePart_recvData, Connection.writePart_checkAndResizeReadBuffer,
      ← List.append_assoc]
    exact congrArg (· ++ bs) this

theorem Serving.recv {e e' : Errno} {r : RecvResult α} {w' : World α} {ret : ℤ} (h : Serving n x w)
    (hr : w.recv x e r = some (w', ret, e')) : Serving n x w' := by
  have hv := Connection.valid_checkAndResizeReadBuffer h.valid
  have hkeep : (w.conns x).checkAndResizeReadBuffer.writePart ++ (w.conns x).checkAndResizeReadBuffer.readPart =
      (w.conns x).writePart ++ (w.conns x).readPart := by
    rw [Connection.writePart_checkAndResizeReadBuffer, Connection.readPart_checkAndResizeReadBuffer h.valid]
  unfold World.recv at hr
  split_ifs at hr
  · cases hr
    exact h
  · simp only [] at hr
    split at hr
    · split_ifs at hr with hb
      cases hr
      exact h.recvData hb.2
    · cases hr
      exact h.setConn (c := (w.conns x).checkAndResizeReadBuffer.markClosed)
        Connection.fd_checkAndResizeReadBuffer hv.markClosed hkeep
    · cases hr
      split_ifs
      · exact h.setConn Connection.fd_checkAndResizeReadBuffer hv hkeep
      · exact h.setConn (c := (w.conns x).checkAndResizeReadBuffer.markClosed)
          Connection.fd_checkAndResizeReadBuffer hv.markClosed hkeep

theorem Serving.echo (h : Serving n x w) : Serving n x (w.setConn x (w.conns x).echo) := by
  refine h.setConn Connection.fd_echo (Connection.valid_echo h.valid) ?_
  rw [Connection.writePart_echo h.valid, Connection.readPart_echo h.valid, List.append_nil]

omit [Inhabited α] in
theorem Serving.send {e e' : Errno} {r : SendResult} {w' : World α} {ret : ℤ} (h : Serving n x w)
    (hr : w.send x e r = some (w', ret, e')) : Serving n x w' := by
  unfold World.send at hr
  simp only [] at hr
  split_ifs at hr
  · cases hr
    exact h
  · cases hr
    exact h
  · split at hr
    · rename_i k hk
      split_ifs at hr with hle
      cases hr
      have hfile : (w.setConn x ((w.conns x).sendData w.now k)).files (w.conns x).fd = some x := by
        rw [h.fdEq]
        exact h.file
      rw [logSent_of_file hfile]
      refine ⟨?_, h.file, ?_, ?_⟩
      · simp [Connection.sendData, h.fdEq]
      · simpa using Connection.valid_sendData h.valid w.now hle.2
      · have := h.conserved
        simp only [Conserved, conns_setConn_self, Function.update_self] at this ⊢
        rw [Connection.writePart_sendData h.valid _ hle.2, Connection.readPart_sendData]
        have hs : (w.setConn x ((w.conns x).sendData w.now k)).sent x = w.sent x := rfl
        rw [hs, List.append_assoc (w.sent x), List.take_append_drop]
        exact this
    · cases hr
      exact h.setConn (c := (w.conns x).markClosed) rfl h.valid.markClosed rfl
    · cases hr
      split_ifs
      · exact h.setConn rfl h.valid rfl
      · exact h.setConn (c := (w.conns x).markClosed) rfl h.valid.markClosed rfl

/-- Every world of the drain loop satisfies the law. -/
theorem Serving.drain {rs : List (RecvResult α)} {e : Errno} {d : Drained α} (h : Serving n x w)
    (hd : World.drain x rs w e = some d) : Serving n x d.world ∧ ∀ p ∈ d.points, Serving n x p := by
  induction rs generalizing w e d with
  | nil =>
      simp only [World.drain] at hd
      split_ifs at hd
      cases hd
      exact ⟨h, by simp⟩
  | cons r rs ih =>
      simp only [World.drain] at hd
      split at hd
      · cases hd
      · rename_i w' ret e' hr
        have h' := h.recv hr
        split_ifs at hd
        · obtain ⟨d', hd', rfl⟩ := Option.map_eq_some_iff.mp hd
          obtain ⟨h1, h2⟩ := ih h' hd'
          refine ⟨h1, ?_⟩
          intro p hp
          rcases List.mem_cons.mp hp with rfl | hp
          · exact h'
          · exact h2 p hp
        · cases hd
          exact ⟨h', by simpa using h'⟩

end steps

/-! ### Leaving a handler keeps the law -/

theorem Conserved.closeConn {x : Client} {w : World α} (h : Conserved x w) (y : Client) :
    Conserved x (w.closeConn y) := by
  obtain ⟨h1, h2⟩ := closeConn_parts x y w
  unfold Conserved at h ⊢
  rw [closeConn_sent, closeConn_received, h1, h2]
  exact h

theorem Conserved.removeConnection {x : Client} {w : World α} (h : Conserved x w) (fd : ℤ) :
    Conserved x (w.removeConnection fd) := by
  unfold World.removeConnection
  split
  · exact h
  · exact h.closeConn _

theorem Conserved.handleError {x : Client} {w : World α} (h : Conserved x w) (i : ℕ) (fd : ℤ) :
    Conserved x (w.handleError i fd) := by
  unfold World.handleError World.removeFd
  split
  · rename_i w' hw
    split_ifs at hw
    cases hw
    exact Conserved.removeConnection (w := w.setInterest i fd none) h fd
  · exact h

theorem Conserved.rearm {x : Client} {w : World α} (h : Conserved x w) (i : ℕ) (fd : ℤ) (y : Client) :
    Conserved x (w.rearm i fd y) := by
  unfold World.rearm World.modifyFd
  split
  · rename_i w' hw
    split_ifs at hw
    cases hw
    exact h
  · exact h

/-! ### Whole runs -/

section runs

variable [Inhabited α] {i : ℕ} {n : ℤ} {x : Client} {w : World α} {e : Errno} {o : Outcome α}

/-- What a run for the number `n` of client `x` keeps: the law, and as long as the pool holds
`x` under `n` the facts the next handler needs. -/
structure Keeps (n : ℤ) (x : Client) (w : World α) : Prop where
  conserved : Conserved x w
  pooled : w.pool.getConnection n = some x → Serving n x w
  only : ∀ y, w.pool.getConnection n = some y → y = x

omit [Inhabited α] in
theorem Serving.keeps {w₁ : World α} (h : Serving n x w₁) (ho : OnlyConn x w w₁)
    (hx : w.pool.getConnection n = some x) : Keeps n x w₁ := by
  refine ⟨h.conserved, fun _ => h, fun y hy => ?_⟩
  rw [ho.pool, hx] at hy
  exact (Option.some.inj hy).symm

omit [Inhabited α] in
theorem keeps_rearm (h : Serving n x w) (hx : w.pool.getConnection n = some x) :
    Keeps n x (w.rearm i n x) := by
  refine ⟨h.conserved.rearm i n x, fun _ => ?_, fun y hy => ?_⟩
  · unfold World.rearm World.modifyFd
    split
    · rename_i w' hw
      split_ifs at hw
      cases hw
      exact ⟨h.fdEq, h.file, h.valid, h.conserved⟩
    · exact ⟨h.fdEq, h.file, h.valid, h.conserved⟩
  · have hp : (w.rearm i n x).pool = w.pool := by
      unfold World.rearm World.modifyFd
      split
      · rename_i w' hw
        split_ifs at hw
        cases hw
        rfl
      · rfl
    rw [hp, hx] at hy
    exact (Option.some.inj hy).symm

omit [Inhabited α] in
/-- `HandleError` either ends the process or takes the number out of the pool. -/
theorem handleError_pool (w : World α) (i : ℕ) (n : ℤ) :
    w.handleError i n = w.crash ∨ (w.handleError i n).pool.getConnection n = none := by
  unfold World.handleError
  split
  · rename_i w' hw
    right
    unfold World.removeConnection
    split
    · assumption
    · exact ConnectionPool.getConnection_erase_self _ n
  · exact Or.inl rfl

omit [Inhabited α] in
theorem keeps_handleError (h : Keeps n x w) : Keeps n x (w.handleError i n) := by
  refine ⟨h.conserved.handleError i n, ?_, ?_⟩
  · intro hp
    rcases handleError_pool w i n with hc | hc
    · rw [hc] at hp ⊢
      have := h.pooled hp
      exact ⟨this.fdEq, this.file, this.valid, this.conserved⟩
    · rw [hc] at hp
      cases hp
  · intro y hy
    rcases handleError_pool w i n with hc | hc
    · rw [hc] at hy
      exact h.only y hy
    · rw [hc] at hy
      cases hy

/-- One handler call keeps the law, at its end and at every point on the way. -/
theorem keeps_invoke {v : Invocation α} (h : Keeps n x w) (hi : w.invoke i n v e = some o) :
    Keeps n x o.world ∧ ∀ p ∈ o.points, Conserved x p := by
  cases v with
  | read rs sr =>
      simp only [invoke, handleRead] at hi
      split at hi
      · cases hi
        exact ⟨h, by simp⟩
      · rename_i y hy
        obtain rfl := h.only y hy
        obtain ⟨d, hd, ha⟩ := Option.bind_eq_some_iff.mp hi
        have ho := onlyConn_drain hd
        obtain ⟨hs, hps⟩ := (h.pooled hy).drain hd
        have hk := hs.keeps ho hy
        have hps' : ∀ p ∈ d.points, Conserved y p := fun p hp => (hps p hp).conserved
        have hpool : d.world.pool.getConnection n = some y := by rw [ho.pool]; exact hy
        unfold afterDrain at ha
        split_ifs at ha
        · cases ha
          exact ⟨keeps_handleError hk, hps'⟩
        · cases ha
          exact ⟨keeps_handleError hk, hps'⟩
        · simp only [] at ha
          split at ha
          · cases ha
          · rename_i w₂ ret e' hsend
            have hs₂ := hs.echo.send hsend
            have ho₂ := (ho.trans (onlyConn_setConn Connection.fd_echo)).trans (onlyConn_send hsend)
            have hpts : ∀ p ∈ d.points ++ [d.world.setConn y (d.world.conns y).echo, w₂], Conserved y p := by
              intro p hp
              simp only [List.mem_append, List.mem_cons, List.not_mem_nil, or_false] at hp
              rcases hp with hp | rfl | rfl
              · exact hps' p hp
              · exact hs.echo.conserved
              · exact hs₂.conserved
            split_ifs at ha <;> cases ha
            · exact ⟨keeps_handleError (hs₂.keeps ho₂ hy), hpts⟩
            · exact ⟨keeps_rearm hs₂ (by rw [ho₂.pool]; exact hy), hpts⟩
        · cases ha
          exact ⟨keeps_rearm hs hpool, hps'⟩
  | write sr =>
      simp only [invoke, handleWrite] at hi
      split at hi
      · cases hi
        exact ⟨h, by simp⟩
      · rename_i y hy
        obtain rfl := h.only y hy
        split at hi
        · cases hi
        · rename_i w₁ ret e' hsend
          have hs := (h.pooled hy).send hsend
          have ho := onlyConn_send hsend
          have hpts : ∀ p ∈ [w₁], Conserved y p := by simpa using hs.conserved
          split_ifs at hi
          · cases hi
            exact ⟨keeps_handleError (hs.keeps ho hy), hpts⟩
          · cases hi
            exact ⟨hs.keeps ho hy, hpts⟩
          · cases hi
            have hs₂ := hs.setConn (c := (w₁.conns y).updateHeartbeat w₁.now) rfl
              ⟨hs.valid.read, hs.valid.write⟩ rfl
            refine ⟨keeps_rearm hs₂ (by show w₁.pool.getConnection n = _; rw [ho.pool]; exact hy), ?_⟩
            intro p hp
            simp only [List.mem_cons, List.not_mem_nil, or_false] at hp
            rcases hp with rfl | rfl
            · exact hs.conserved
            · exact hs₂.conserved
  | error =>
      simp only [invoke, Option.some.injEq] at hi
      subst hi
      exact ⟨keeps_handleError h, by simp⟩

theorem keeps_serve {vs : List (Invocation α)} (h : Keeps n x w) (hs : serve i n vs w e = some o) :
    Keeps n x o.world ∧ ∀ p ∈ o.points, Conserved x p := by
  induction vs generalizing w e o with
  | nil =>
      simp only [serve, Option.some.injEq] at hs
      subst hs
      exact ⟨h, by simpa using h.conserved⟩
  | cons v vs ih =>
      simp only [serve] at hs
      obtain ⟨o₁, h₁, hs'⟩ := Option.bind_eq_some_iff.mp hs
      obtain ⟨o₂, h₂, rfl⟩ := Option.map_eq_some_iff.mp hs'
      obtain ⟨k₁, p₁⟩ := keeps_invoke h h₁
      obtain ⟨k₂, p₂⟩ := ih k₁ h₂
      refine ⟨k₂, ?_⟩
      intro p hp
      simp only [List.cons_append, List.mem_cons, List.mem_append] at hp
      rcases hp with rfl | hp | hp
      · exact h.conserved
      · exact p₁ p hp
      · exact p₂ p hp

/-- **Echo stream conservation.**  A client is admitted under the number `n` and loop `i` runs
any sequence of handlers for it, with any answers of the kernel.  At every point of the run
the bytes accepted by `send`, then `write_buffer_[0 .. write_idx_)`, then
`read_buffer_[0 .. read_idx_)` are exactly the bytes returned by `recv`, in order, and what
the client has been sent is a prefix of what was received from it. -/
theorem serve_conserved {vs : List (Invocation α)} (h₀ : Admitted n x w)
    (hs : serve i n vs w e = some o) :
    ∀ p ∈ o.points, p.sent x ++ (p.conns x).writePart ++ (p.conns x).readPart = p.received x ∧
      p.sent x <+: p.received x := by
  have hk : Keeps n x w := h₀.serving.keeps (OnlyConn.refl x w) h₀.pooled
  intro p hp
  have hc := (keeps_serve hk hs).2 p hp
  refine ⟨hc, ?_⟩
  rw [← hc, List.append_assoc]
  exact List.prefix_append _ _

end runs

/-- A server with one client, admitted under descriptor `5` of loop `0`. -/
def oneClient : World UInt8 := ((World.init 100000 60000).handleAccept 0 5).get rfl

theorem oneClient_admitted : Admitted 5 0 oneClient := ⟨rfl, rfl, ⟨0, rfl⟩, rfl, rfl⟩

/-- The client sends two bytes, gets one back at once and the other one when the socket is
writable again. -/
def twoBytes : List (Invocation UInt8) :=
  [.read [.data [104, 105], .error EAGAIN] (.sent 1), .write (.sent 1)]

theorem twoBytes_conserved :
    ∃ o, serve 0 5 twoBytes oneClient 0 = some o ∧
      (∀ p ∈ o.points, p.sent 0 ++ (p.conns 0).writePart ++ (p.conns 0).readPart = p.received 0 ∧
        p.sent 0 <+: p.received 0) ∧ o.world.sent 0 = [104, 105] := by
  obtain ⟨o, ho, hsent⟩ := Transition.exists_of_any (o := serve 0 5 twoBytes oneClient 0)
    (fun o => o.world.sent 0 = [104, 105]) (by decide +kernel)
  exact ⟨o, ho, serve_conserved oneClient_admitted ho, hsent⟩

/-! ### End of file -/

end World

/-- A `recv` answer that is neither end of file nor an error other than `EAGAIN`. -/
def RecvResult.clean {α : Type} : RecvResult α → Bool
  | .data _ => true
  | .eof => false
  | .error e => wouldBlock e

/-- A `send` answer that accepts bytes or is `EAGAIN`. -/
def SendResult.clean : SendResult → Bool
  | .sent _ => true
  | .zero => false
  | .error e => wouldBlock e

namespace World

variable {α : Type}

/-- A handler call without end of file, errors and error events. -/
def Invocation.clean : Invocation α → Bool
  | .read rs sr => rs.all RecvResult.clean && sr.clean
  | .write sr => sr.clean
  | .error => false

/-- Everything received from client `x` has been accepted by `send`; nothing is left in its
buffers. -/
def AllSent (x : Client) (w : World α) : Prop :=
  w.sent x = w.received x ∧ (w.conns x).writePart = [] ∧ (w.conns x).readPart = []

theorem allSent_iff {x : Client} {w : World α} (h : Conserved x w) : AllSent x w ↔ w.sent x = w.received x := by
  refine ⟨fun hs => hs.1, fun hs => ⟨hs, ?_⟩⟩
  unfold Conserved at h
  rw [← hs, List.append_assoc, List.append_right_eq_self] at h
  exact List.append_eq_nil_iff.mp h

/-- Between two handler calls of a run without errors: the connection is in the pool and open,
and its read buffer is empty. -/
structure Live (n : ℤ) (x : Client) (w : World α) : Prop where
  pooled : w.pool.getConnection n = some x
  serving : Serving n x w
  openState : (w.conns x).state ≠ .closed
  drained : (w.conns x).readPart = []

theorem Admitted.live {n : ℤ} {x : Client} {w : World α} (h : Admitted n x w) : Live n x w := by
  obtain ⟨t, ht⟩ := h.fresh
  exact ⟨h.pooled, h.serving, by rw [ht]; simp [Connection.connected], by rw [ht]; rfl⟩

section clean

variable {i : ℕ} {n : ℤ} {x : Client} {w w' : World α} {e e' : Errno} {o : Outcome α} {ret : ℤ}

theorem Serving.sysRecv (h : Serving n x w) (r : RecvResult α) : w.sysRecv (w.conns x).fd r = r := by
  simp [World.sysRecv, h.fdEq, h.file]

theorem Serving.sysSend (h : Serving n x w) (r : SendResult) : w.sysSend (w.conns x).fd r = r := by
  simp [World.sysSend, h.fdEq, h.file]

@[simp] theorem conns_logRecv (m : ℤ) (bs : List α) (w : World α) : (w.logRecv m bs).conns = w.conns := by
  unfold World.logRecv
  split <;> rfl

@[simp] theorem conns_logSent (m : ℤ) (bs : List α) (w : World α) : (w.logSent m bs).conns = w.conns := by
  unfold World.logSent
  split <;> rfl

/-- `Send` answered without an error keeps the connection open and the read buffer as it was. -/
theorem send_clean {r : SendResult} (h : Serving n x w) (ho : (w.conns x).state ≠ .closed)
    (hr : r.clean = true) (hs : w.send x e r = some (w', ret, e')) :
    (w'.conns x).state ≠ .closed ∧ (w'.conns x).readPart = (w.conns x).readPart ∧
      (ret < 0 → wouldBlock e' = true) := by
  unfold World.send at hs
  simp only [if_neg ho, h.sysSend] at hs
  split_ifs at hs
  · cases hs
    exact ⟨ho, rfl, by omega⟩
  · cases r with
    | sent k =>
        simp only [] at hs
        split_ifs at hs
        cases hs
        refine ⟨?_, ?_, by omega⟩
        · simpa [Connection.sendData] using ho
        · simp
    | zero => cases hr
    | error e'' =>
        have hb : wouldBlock e'' = true := hr
        simp only [hb, if_true] at hs
        cases hs
        refine ⟨by simpa using ho, by simp, fun _ => hb⟩

variable [Inhabited α]

/-- One `Recv` answered without an error. -/
theorem recv_clean {r : RecvResult α} (h : Serving n x w) (ho : (w.conns x).state ≠ .closed)
    (hr : r.clean = true) (hs : w.recv x e r = some (w', ret, e')) :
    (w'.conns x).state ≠ .closed ∧ (0 < ret ∨ (ret = -1 ∧ wouldBlock e' = true)) := by
  unfold World.recv at hs
  simp only [if_neg ho, Connection.fd_checkAndResizeReadBuffer, h.sysRecv] at hs
  cases r with
  | data bs =>
      simp only [] at hs
      split_ifs at hs with hb
      cases hs
      refine ⟨?_, Or.inl ?_⟩
      · simpa [Connection.recvData] using ho
      · have := List.length_pos_iff.mpr hb.1
        omega
  | eof => cases hr
  | error e'' =>
      have hb : wouldBlock e'' = true := hr
      simp only [hb, if_true] at hs
      cases hs
      exact ⟨by simpa using ho, Or.inr ⟨rfl, hb⟩⟩

/-- Without errors and end of file the drain loop ends at `EAGAIN`. -/
theorem drain_clean {rs : List (RecvResult α)} {d : Drained α} (h : Serving n x w)
    (ho : (w.conns x).state ≠ .closed) (hr : rs.all RecvResult.clean = true)
    (hd : drain x rs w e = some d) :
    (d.world.conns x).state ≠ .closed ∧ d.ret = -1 ∧ wouldBlock d.errno = true := by
  induction rs generalizing w e d with
  | nil => simp [drain, ho] at hd
  | cons r rs ih =>
      rw [List.all_cons, Bool.and_eq_true] at hr
      simp only [drain] at hd
      split at hd
      · cases hd
      · rename_i w₁ ret e₁ hs
        obtain ⟨ho₁, hret⟩ := recv_clean h ho hr.1 hs
        split_ifs at hd with hpos
        · obtain ⟨d', hd', rfl⟩ := Option.map_eq_some_iff.mp hd
          exact ih (d := d') (h.recv hs) ho₁ hr.2 hd'
        · cases hd
          exact ⟨ho₁, hret.resolve_left hpos⟩

omit [Inhabited α] in
theorem live_rearm (h : Live n x w) : Live n x (w.rearm i n x) := by
  unfold World.rearm World.modifyFd
  split
  · rename_i w' hw
    split_ifs at hw
    cases hw
    exact ⟨h.pooled, ⟨h.serving.fdEq, h.serving.file, h.serving.valid, h.serving.conserved⟩,
      h.openState, h.drained⟩
  · exact ⟨h.pooled, ⟨h.serving.fdEq, h.serving.file, h.serving.valid, h.serving.conserved⟩,
      h.openState, h.drained⟩

/-- A handler call without errors leaves the connection as the next one expects it. -/
theorem live_invoke {v : Invocation α} (h : Live n x w) (hv : v.clean = true)
    (hi : w.invoke i n v e = some o) : Live n x o.world := by
  cases v with
  | read rs sr =>
      simp only [Invocation.clean, Bool.and_eq_true] at hv
      simp only [invoke, handleRead, h.pooled] at hi
      obtain ⟨d, hd, ha⟩ := Option.bind_eq_some_iff.mp hi
      have ho := onlyConn_drain hd
      obtain ⟨hopen, hret, hblock⟩ := drain_clean h.serving h.openState hv.1 hd
      have hs := (h.serving.drain hd).1
      have hpool : d.world.pool.getConnection n = some x := by rw [ho.pool]; exact h.pooled
      unfold afterDrain at ha
      rw [if_neg (by rw [hret]; decide), if_neg (by rw [hblock]; simp)] at ha
      split_ifs at ha with hdata
      · simp only [] at ha
        split at ha
        · cases ha
        · rename_i w₂ ret e₂ hsend
          have ho₂ := onlyConn_send hsend
          obtain ⟨hopen₂, hread₂, hneg⟩ := send_clean hs.echo (by simpa using hopen) hv.2 hsend
          rw [if_neg (fun hc => by rw [hneg hc.1] at hc; exact absurd hc.2 (by decide))] at ha
          cases ha
          apply live_rearm
          refine ⟨?_, hs.echo.send hsend, hopen₂, ?_⟩
          · rw [ho₂.pool]
            exact hpool
          · rw [hread₂, conns_setConn_self, Connection.readPart_echo hs.valid]
      · cases ha
        apply live_rearm
        refine ⟨hpool, hs, hopen, ?_⟩
        rw [← List.length_eq_zero_iff, Connection.length_readPart hs.valid]
        omega
  | write sr =>
      simp only [invoke, handleWrite, h.pooled] at hi
      split at hi
      · cases hi
      · rename_i w₁ ret e₁ hsend
        have ho := onlyConn_send hsend
        obtain ⟨hopen, hread, hneg⟩ := send_clean h.serving h.openState hv hsend
        have hl : Live n x w₁ :=
          ⟨by rw [ho.pool]; exact h.pooled, h.serving.send hsend, hopen, by rw [hread]; exact h.drained⟩
        split_ifs at hi with hlt hb
        · rw [hneg hlt] at hb
          cases hb
        · cases hi
          exact hl
        · cases hi
          apply live_rearm
          exact ⟨hl.pooled, hl.serving.setConn (c := (w₁.conns x).updateHeartbeat w₁.now) rfl
            ⟨hl.serving.valid.read, hl.serving.valid.write⟩ rfl,
            by simpa [Connection.updateHeartbeat] using hl.openState,
            by rw [conns_setConn_self]; exact hl.drained⟩
  | error => cases hv

theorem live_serve {vs : List (Invocation α)} (h : Live n x w) (hv : ∀ v ∈ vs, v.clean = true)
    (hs : serve i n vs w e = some o) : Live n x o.world := by
  induction vs generalizing w e o with
  | nil =>
      simp only [serve, Option.some.injEq] at hs
      subst hs
      exact h
  | cons v vs ih =>
      simp only [serve] at hs
      obtain ⟨o₁, h₁, hs'⟩ := Option.bind_eq_some_iff.mp hs
      obtain ⟨o₂, h₂, rfl⟩ := Option.map_eq_some_iff.mp hs'
      exact ih (o := o₂) (live_invoke h (hv v List.mem_cons_self) h₁)
        (fun v' hv' => hv v' (List.mem_cons_of_mem _ hv')) h₂

/-- A drain loop that gets `chunks` and then end of file. -/
theorem drain_eof {chunks : List (List α)} {d : Drained α} (h : Serving n x w)
    (ho : (w.conns x).state ≠ .closed)
    (hd : drain x (chunks.map RecvResult.data ++ [.eof]) w e = some d) :
    d.ret = 0 ∧ d.world.sent x = w.sent x ∧ d.world.received x = w.received x ++ chunks.flatten ∧
      ∀ bs ∈ chunks, bs ≠ [] := by
  induction chunks generalizing w e d with
  | nil =>
      simp only [List.map_nil, List.nil_append, drain, World.recv, if_neg ho,
        Connection.fd_checkAndResizeReadBuffer, h.sysRecv] at hd
      simp at hd
      subst hd
      exact ⟨rfl, rfl, by simp [World.setConn], by simp⟩
  | cons bs chunks ih =>
      simp only [List.map_cons, List.cons_append, drain] at hd
      split at hd
      · cases hd
      · rename_i w₁ ret e₁ hs
        have h₁ := h.recv hs
        obtain ⟨ho₁, -⟩ := recv_clean h ho rfl hs
        simp only [World.recv, if_neg ho, Connection.fd_checkAndResizeReadBuffer, h.sysRecv] at hs
        split_ifs at hs with hb
        cases hs
        have hpos := List.length_pos_iff.mpr hb.1
        rw [if_pos (by omega)] at hd
        obtain ⟨d', hd', rfl⟩ := Option.map_eq_some_iff.mp hd
        obtain ⟨r1, r2, r3, r4⟩ := ih (d := d') h₁ ho₁ hd'
        have hfile : (w.setConn x ((w.conns x).checkAndResizeReadBuffer.recvData w.now bs)).files
            (w.conns x).fd = some x := by
          rw [h.fdEq]
          exact h.file
        rw [logRecv_of_file hfile] at r2 r3
        refine ⟨r1, r2, ?_, ?_⟩
        · rw [r3]
          simp [World.setConn]
        · intro c hc
          rcases List.mem_cons.mp hc with rfl | hc
          · exact hb.1
          · exact r4 c hc

omit [Inhabited α] in
theorem handleError_traffic (w : World α) (i : ℕ) (fd : ℤ) :
    (w.handleError i fd).sent = w.sent ∧ (w.handleError i fd).received = w.received := by
  unfold World.handleError World.removeFd
  split
  · rename_i w' hw
    split_ifs at hw
    cases hw
    unfold World.removeConnection
    split
    · exact ⟨rfl, rfl⟩
    · exact ⟨closeConn_sent _ _, closeConn_received _ _⟩
  · exact ⟨rfl, rfl⟩

/-- **Echo completeness at end of file.**  A client is admitted under `n`, loop `i` serves it
without an error, an error event or an end of file, and then a `HandleRead` receives `chunks`
and sees `recv` return `0`.  When this call has torn the connection down, everything received
has been sent if and only if `chunks` is empty and nothing was pending when the call began. -/
theorem allSent_at_eof_iff {vs : List (Invocation α)} {chunks : List (List α)} {sr : SendResult}
    {o' : Outcome α} (h₀ : Admitted n x w) (hv : ∀ v ∈ vs, v.clean = true)
    (hs : serve i n vs w e = some o)
    (hr : o.world.handleRead i n (chunks.map RecvResult.data ++ [.eof]) sr o.errno = some o') :
    AllSent x o'.world ↔ chunks = [] ∧ (o.world.conns x).hasPendingData = false := by
  have hl := live_serve h₀.live hv hs
  simp only [handleRead, hl.pooled] at hr
  obtain ⟨d, hd, ha⟩ := Option.bind_eq_some_iff.mp hr
  obtain ⟨hret, hsent, hrecv, hne⟩ := drain_eof hl.serving hl.openState hd
  rw [afterDrain, if_pos hret] at ha
  cases ha
  have hcons := ((hl.serving.drain hd).1.conserved).handleError i n
  obtain ⟨t1, t2⟩ := handleError_traffic d.world i n
  have hlaw := hl.serving.conserved
  unfold Conserved at hlaw
  rw [hl.drained, List.append_nil] at hlaw
  rw [allSent_iff hcons, t1, t2, hsent, hrecv, ← hlaw, List.append_assoc, eq_comm,
    List.append_right_eq_self, List.append_eq_nil_iff, Connection.hasPendingData_eq_false hl.serving.valid,
    and_comm, List.flatten_eq_nil_iff]
  constructor
  · rintro ⟨h1, h2⟩
    refine ⟨?_, h2⟩
    cases chunks with
    | nil => rfl
    | cons bs rest => exact absurd (h1 bs List.mem_cons_self) (hne bs List.mem_cons_self)
  · rintro ⟨rfl, h2⟩
    exact ⟨by simp, h2⟩

end clean

/-- The client's two bytes and its end of file are seen by one `HandleRead`: both bytes are
dropped. -/
theorem dataWithEof_not_allSent :
    Admitted 5 0 oneClient ∧
      ∃ o', oneClient.handleRead 0 5 ([[104, 105]].map RecvResult.data ++ [.eof]) (.sent 2) 0 = some o' ∧
        o'.world.received 0 = [104, 105] ∧ o'.world.sent 0 = [] ∧ ¬ AllSent 0 o'.world := by
  obtain ⟨o', ho, hrecv, hsent⟩ := Transition.exists_of_any
    (o := oneClient.handleRead 0 5 ([[104, 105]].map RecvResult.data ++ [.eof]) (.sent 2) 0)
    (fun o => o.world.received 0 = [104, 105] ∧ o.world.sent 0 = []) (by decide +kernel)
  refine ⟨oneClient_admitted, o', ho, hrecv, hsent, ?_⟩
  rintro ⟨hs, -⟩
  rw [hrecv, hsent] at hs
  cases hs

/-- Once both bytes are sent, an end of file in an event of its own loses nothing. -/
theorem twoBytes_allSent :
    ∃ o o', serve 0 5 twoBytes oneClient 0 = some o ∧
      o.world.handleRead 0 5 ([].map RecvResult.data ++ [.eof]) (.sent 1) o.errno = some o' ∧
      AllSent 0 o'.world := by
  obtain ⟨o, ho, hpend, hend⟩ := Transition.exists_of_any (o := serve 0 5 twoBytes oneClient 0)
    (fun o => (o.world.conns 0).hasPendingData = false ∧
      (o.world.handleRead 0 5 ([].map RecvResult.data ++ [.eof]) (.sent 1) o.errno).isSome) (by decide +kernel)
  obtain ⟨o', ho'⟩ := Option.isSome_iff_exists.mp hend
  exact ⟨o, o', ho, ho', (allSent_at_eof_iff oneClient_admitted (by decide) ho ho').mpr ⟨rfl, hpend⟩⟩

end World

end TcpServer
