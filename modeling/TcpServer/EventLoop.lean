import TcpServer.World

/-! # The event handlers of an IO loop (`net/event_loop.cpp`)

`HandleRead`, `HandleWrite` and `HandleError` as functions on the shared state, for a loop
thread that no other thread disturbs.  What the kernel answers is an argument: a list of
`recv` results for the drain loop of `HandleRead` (it ends the loop at the first result that
is not data) and one `send` result.  The thread's `errno` is passed along explicitly, since
`Recv` and `Send` leave it alone when they find the connection `CLOSED`.

A handler returns an `Outcome`: the world it leaves, `errno`, and the worlds it passes
between the `Connection` calls it makes.  `none` means that the given results are no possible
answers of the kernel (more bytes than asked for, or results missing).

`handleRead_result` and `handleWrite_result` say how a handler that found its connection
ends: after work on that connection alone it removes the descriptor, re-arms it, or - only in
`HandleWrite`, when `Send` returned a negative value with `errno` at `EAGAIN` - returns
without touching the epoll set. -/

namespace TcpServer

namespace World

variable {α : Type}

section calls

variable [Inhabited α]

/-- `Connection::Recv` of object `x`: the new world, the return value and `errno`. -/
def recv (x : Client) (e : Errno) (r : RecvResult α) (w : World α) : Option (World α × ℤ × Errno) :=
  if (w.conns x).state = .closed then some (w, -1, e)
  else
    let c := (w.conns x).checkAndResizeReadBuffer
    match w.sysRecv c.fd r with
    | .data bs =>
        if bs ≠ [] ∧ bs.length ≤ c.available then
          some ((w.setConn x (c.recvData w.now bs)).logRecv c.fd bs, bs.length, e)
        else none
    | .eof => some (w.setConn x c.markClosed, 0, e)
    | .error e' => some (w.setConn x (if wouldBlock e' then c else c.markClosed), -1, e')

end calls

/-- `Connection::Send` of object `x`. -/
def send (x : Client) (e : Errno) (r : SendResult) (w : World α) : Option (World α × ℤ × Errno) :=
  let c := w.conns x
  if c.state = .closed then some (w, -1, e)
  else if c.writeIdx = 0 then some (w, 0, e)
  else
    match w.sysSend c.fd r with
    | .sent k =>
        if 0 < k ∧ k ≤ c.writeIdx then
          some ((w.setConn x (c.sendData w.now k)).logSent c.fd (c.writePart.take k), k, e)
        else none
    | .zero => some (w.setConn x c.markClosed, 0, e)
    | .error e' => some (w.setConn x (if wouldBlock e' then c else c.markClosed), -1, e')

/-- The end of the drain loop: the last `ret`, and the worlds after each `Recv`. -/
structure Drained (α : Type) where
  world : World α
  ret : ℤ
  errno : Errno
  points : List (World α)

/-- What a handler leaves. -/
structure Outcome (α : Type) where
  world : World α
  errno : Errno
  points : List (World α)

/-- `ModifyFd` at the end of the handlers. -/
def rearm (i : ℕ) (fd : ℤ) (x : Client) (w : World α) : World α :=
  match w.modifyFd i fd (rearmMask (w.conns x)) with
  | some w' => w'
  | none => w.crash

/-- `EventLoop::HandleError` of loop `i`. -/
def handleError (i : ℕ) (fd : ℤ) (w : World α) : World α :=
  match w.removeFd i fd with
  | some w' => w'.removeConnection fd
  | none => w.crash

section handlers

variable [Inhabited α]

/-- `while ((ret = conn->Recv()) > 0)`. -/
def drain (x : Client) : List (RecvResult α) → World α → Errno → Option (Drained α)
  | [], w, e => if (w.conns x).state = .closed then some ⟨w, -1, e, []⟩ else none
  | r :: rs, w, e =>
      match w.recv x e r with
      | none => none
      | some (w', ret, e') =>
          if 0 < ret then (drain x rs w' e').map fun d => { d with points := w' :: d.points }
          else some ⟨w', ret, e', [w']⟩

/-- `EventLoop::HandleRead` of loop `i` after the drain loop. -/
def afterDrain (i : ℕ) (fd : ℤ) (x : Client) (sr : SendResult) (d : Drained α) : Option (Outcome α) :=
  if d.ret = 0 then some ⟨d.world.handleError i fd, d.errno, d.points⟩
  else if d.ret < 0 ∧ wouldBlock d.errno = false then
    some ⟨d.world.handleError i fd, d.errno, d.points⟩
  else if 0 < (d.world.conns x).readIdx then
    let w₁ := d.world.setConn x (d.world.conns x).echo
    match w₁.send x d.errno sr with
    | none => none
    | some (w₂, ret, e) =>
        if ret < 0 ∧ wouldBlock e = false then some ⟨w₂.handleError i fd, e, d.points ++ [w₁, w₂]⟩
        else some ⟨w₂.rearm i fd x, e, d.points ++ [w₁, w₂]⟩
  else some ⟨d.world.rearm i fd x, d.errno, d.points⟩

/-- `EventLoop::HandleRead` of loop `i`. -/
def handleRead (i : ℕ) (fd : ℤ) (rs : List (RecvResult α)) (sr : SendResult) (w : World α) (e : Errno) :
    Option (Outcome α) :=
  match w.pool.getConnection fd with
  | none => some ⟨w, e, []⟩
  | some x => (drain x rs w e).bind (afterDrain i fd x sr)

end handlers

/-- `EventLoop::HandleWrite` of loop `i`. -/
def handleWrite (i : ℕ) (fd : ℤ) (sr : SendResult) (w : World α) (e : Errno) : Option (Outcome α) :=
  match w.pool.getConnection fd with
  | none => some ⟨w, e, []⟩
  | some x =>
      match w.send x e sr with
      | none => none
      | some (w₁, ret, e') =>
          if ret < 0 then
            if wouldBlock e' = false then some ⟨w₁.handleError i fd, e', [w₁]⟩ else some ⟨w₁, e', [w₁]⟩
          else
            let w₂ := w₁.setConn x ((w₁.conns x).updateHeartbeat w₁.now)
            some ⟨w₂.rearm i fd x, e', [w₁, w₂]⟩

/-- A handler call together with what the kernel answers during it. -/
inductive Invocation (α : Type) where
  | read (rs : List (RecvResult α)) (sr : SendResult)
  | write (sr : SendResult)
  | error

def invoke [Inhabited α] (i : ℕ) (fd : ℤ) (v : Invocation α) (w : World α) (e : Errno) : Option (Outcome α) :=
  match v with
  | .read rs sr => w.handleRead i fd rs sr e
  | .write sr => w.handleWrite i fd sr e
  | .error => some ⟨w.handleError i fd, e, []⟩

/-- The handler `EventLoop::HandleEvents` of an IO loop calls for one event. -/
def handlerOf (ev : Events) (rs : List (RecvResult α)) (sr : SendResult) : Option (Invocation α) :=
  if ev.epollerr || ev.epollhup then some .error
  else if ev.epollin then some (.read rs sr)
  else if ev.epollout then some (.write sr)
  else none

/-- A sequence of handler calls of loop `i` for one descriptor.  The points are the worlds
before each call, inside the calls, and at the end. -/
def serve [Inhabited α] (i : ℕ) (fd : ℤ) : List (Invocation α) → World α → Errno → Option (Outcome α)
  | [], w, e => some ⟨w, e, [w]⟩
  | v :: vs, w, e =>
      (w.invoke i fd v e).bind fun o =>
        (serve i fd vs o.world o.errno).map fun o' => { o' with points := w :: o.points ++ o'.points }

/-! ### Frames -/

/-- `w'` differs from `w` at most in the state and the buffers of object `x` and in the socket
traffic. -/
structure OnlyConn (x : Client) (w w' : World α) : Prop where
  conns : ∀ y, y ≠ x → w'.conns y = w.conns y
  fd : (w'.conns x).fd = (w.conns x).fd
  accepted : w'.accepted = w.accepted
  pool : w'.pool = w.pool
  files : w'.files = w.files
  epoll : w'.epoll = w.epoll
  crashed : w'.crashed = w.crashed

theorem OnlyConn.refl (x : Client) (w : World α) : OnlyConn x w w :=
  ⟨fun _ _ => rfl, rfl, rfl, rfl, rfl, rfl, rfl⟩

theorem OnlyConn.trans {x : Client} {w₁ w₂ w₃ : World α} (h₁ : OnlyConn x w₁ w₂) (h₂ : OnlyConn x w₂ w₃) :
    OnlyConn x w₁ w₃ :=
  ⟨fun y hy => (h₂.conns y hy).trans (h₁.conns y hy), h₂.fd.trans h₁.fd, h₂.accepted.trans h₁.accepted,
    h₂.pool.trans h₁.pool, h₂.files.trans h₁.files, h₂.epoll.trans h₁.epoll,
    h₂.crashed.trans h₁.crashed⟩

theorem onlyConn_setConn {x : Client} {c : Connection α} {w : World α} (hfd : c.fd = (w.conns x).fd) :
    OnlyConn x w (w.setConn x c) :=
  ⟨fun _ hy => conns_setConn_ne c w hy, by rw [conns_setConn_self, hfd], rfl, rfl, rfl, rfl, rfl⟩

theorem onlyConn_logRecv (x : Client) (m : ℤ) (bs : List α) (w : World α) : OnlyConn x w (w.logRecv m bs) := by
  unfold logRecv
  split
  · exact ⟨fun _ _ => rfl, rfl, rfl, rfl, rfl, rfl, rfl⟩
  · exact OnlyConn.refl x w

theorem onlyConn_logSent (x : Client) (m : ℤ) (bs : List α) (w : World α) : OnlyConn x w (w.logSent m bs) := by
  unfold logSent
  split
  · exact ⟨fun _ _ => rfl, rfl, rfl, rfl, rfl, rfl, rfl⟩
  · exact OnlyConn.refl x w

theorem onlyConn_recv [Inhabited α] {x : Client} {e e' : Errno} {r : RecvResult α} {w w' : World α} {ret : ℤ}
    (h : w.recv x e r = some (w', ret, e')) : OnlyConn x w w' := by
  unfold recv at h
  split_ifs at h
  · cases h
    exact OnlyConn.refl x w
  · simp only [] at h
    split at h
    · split_ifs at h
      cases h
      refine (onlyConn_setConn ?_).trans (onlyConn_logRecv x _ _ _)
      exact Connection.fd_checkAndResizeReadBuffer
    · cases h
      exact onlyConn_setConn Connection.fd_checkAndResizeReadBuffer
    · cases h
      apply onlyConn_setConn
      split_ifs <;> exact Connection.fd_checkAndResizeReadBuffer

theorem onlyConn_send {x : Client} {e e' : Errno} {r : SendResult} {w w' : World α} {ret : ℤ}
    (h : w.send x e r = some (w', ret, e')) : OnlyConn x w w' := by
  unfold send at h
  simp only [] at h
  split_ifs at h
  · cases h
    exact OnlyConn.refl x w
  · cases h
    exact OnlyConn.refl x w
  · split at h
    · split_ifs at h
      cases h
      refine (onlyConn_setConn ?_).trans (onlyConn_logSent x _ _ _)
      rfl
    · cases h
      exact onlyConn_setConn rfl
    · cases h
      apply onlyConn_setConn
      split_ifs <;> rfl

/-- The drain loop works on its connection alone. -/
theorem onlyConn_drain [Inhabited α] {x : Client} {rs : List (RecvResult α)} {w : World α} {e : Errno}
    {d : Drained α} (h : drain x rs w e = some d) : OnlyConn x w d.world := by
  induction rs generalizing w e d with
  | nil =>
      simp only [drain] at h
      split_ifs at h
      cases h
      exact OnlyConn.refl x w
  | cons r rs ih =>
      simp only [drain] at h
      split at h
      · cases h
      · rename_i w' ret e' hr
        have h1 := onlyConn_recv hr
        split_ifs at h
        · obtain ⟨d', hd, rfl⟩ := Option.map_eq_some_iff.mp h
          exact h1.trans (ih (d := d') hd)
        · cases h
          exact h1

/-! ### How the handlers end -/

/-- `HandleRead` ends by removing or by re-arming the descriptor. -/
theorem handleRead_result [Inhabited α] {i : ℕ} {fd : ℤ} {rs : List (RecvResult α)} {sr : SendResult}
    {w : World α} {e : Errno} {o : Outcome α} {x : Client} (hx : w.pool.getConnection fd = some x)
    (h : w.handleRead i fd rs sr e = some o) :
    ∃ w₁, OnlyConn x w w₁ ∧ (o.world = w₁.handleError i fd ∨ o.world = w₁.rearm i fd x) := by
  simp only [handleRead, hx] at h
  obtain ⟨d, hd, ha⟩ := Option.bind_eq_some_iff.mp h
  have h1 := onlyConn_drain hd
  unfold afterDrain at ha
  split_ifs at ha with h0 hneg hdata
  · cases ha
    exact ⟨d.world, h1, Or.inl rfl⟩
  · cases ha
    exact ⟨d.world, h1, Or.inl rfl⟩
  · simp only [] at ha
    split at ha
    · cases ha
    · rename_i w₂ ret e' hs
      have h2 := (h1.trans (onlyConn_setConn Connection.fd_echo)).trans (onlyConn_send hs)
      split_ifs at ha <;> cases ha
      · exact ⟨w₂, h2, Or.inl rfl⟩
      · exact ⟨w₂, h2, Or.inr rfl⟩
  · cases ha
    exact ⟨d.world, h1, Or.inr rfl⟩

/-- `send(2)` is called by `HandleWrite` and would block. -/
def writeStalls (fd : ℤ) (sr : SendResult) (w : World α) : Bool :=
  match w.pool.getConnection fd with
  | none => false
  | some x =>
      decide ((w.conns x).state ≠ .closed) && (w.conns x).hasPendingData &&
        match w.sysSend (w.conns x).fd sr with
        | .error e => wouldBlock e
        | _ => false

/-- `HandleWrite` ends by removing or by re-arming the descriptor, unless the connection was
already `CLOSED` or `send(2)` would block. -/
theorem handleWrite_result {i : ℕ} {fd : ℤ} {sr : SendResult} {w : World α} {e : Errno} {o : Outcome α}
    {x : Client} (hx : w.pool.getConnection fd = some x) (h : w.handleWrite i fd sr e = some o) :
    ∃ w₁, OnlyConn x w w₁ ∧ (o.world = w₁.handleError i fd ∨ o.world = w₁.rearm i fd x ∨
      (o.world = w₁ ∧ ((w₁.conns x).state = .closed ∨ w.writeStalls fd sr = true))) := by
  simp only [handleWrite, hx] at h
  split at h
  · cases h
  · rename_i w₁ ret e' hs
    have h1 := onlyConn_send hs
    split_ifs at h with hneg hb
    · cases h
      exact ⟨w₁, h1, Or.inl rfl⟩
    · cases h
      refine ⟨w₁, h1, Or.inr (Or.inr ⟨rfl, ?_⟩)⟩
      unfold send at hs
      simp only [] at hs
      split_ifs at hs with hc hz
      · cases hs
        exact Or.inl hc
      · cases hs
        cases hneg
      · split at hs
        · split_ifs at hs
          cases hs
          omega
        · cases hs
          cases hneg
        · rename_i e'' hse
          cases hs
          right
          simpa [writeStalls, hx, hc, Connection.hasPendingData, Nat.pos_of_ne_zero hz, hse] using hb
    · cases h
      refine ⟨_, h1.trans (onlyConn_setConn ?_), Or.inr (Or.inl rfl)⟩
      rfl

/-- When `send(2)` would block, `HandleWrite` returns and leaves the epoll set alone. -/
theorem handleWrite_of_stalls {i : ℕ} {fd : ℤ} {sr : SendResult} {w : World α} {e : Errno} {o : Outcome α}
    {x : Client} (hx : w.pool.getConnection fd = some x) (h : w.handleWrite i fd sr e = some o)
    (hst : w.writeStalls fd sr = true) :
    o.world.epoll = w.epoll ∧ o.world.pool = w.pool ∧ (o.world.conns x).state ≠ .closed := by
  simp only [writeStalls, hx, Bool.and_eq_true, decide_eq_true_eq] at hst
  obtain ⟨⟨hc, hp⟩, hb⟩ := hst
  have hz : (w.conns x).writeIdx ≠ 0 := by
    simp only [Connection.hasPendingData, decide_eq_true_eq] at hp
    omega
  split at hb
  · rename_i e' hse
    simp only [handleWrite, hx, send, if_neg hc, if_neg hz, hse, hb] at h
    cases h
    exact ⟨rfl, rfl, by simpa using hc⟩
  · cases hb

/-! ### The epoll set and the pool after a handler -/

/-- A re-arming handler leaves its descriptor armed, with `EPOLLOUT` when data is pending. -/
theorem rearm_spec {i : ℕ} {fd : ℤ} {x : Client} {w : World α} (hf : (w.files fd).isSome)
    (he : (w.epoll i fd).isSome) :
    w.rearm i fd x = w.setInterest i fd (some ⟨rearmMask (w.conns x), true⟩) := by
  simp [rearm, modifyFd, hf, he]

theorem closeConn_pool (x : Client) (w : World α) : (w.closeConn x).pool = w.pool := by
  unfold closeConn
  split_ifs
  · rfl
  · simp only []
    split_ifs <;> rfl

theorem closeConn_accepted (x : Client) (w : World α) : (w.closeConn x).accepted = w.accepted := by
  unfold closeConn
  split_ifs
  · rfl
  · simp only []
    split_ifs <;> rfl

theorem closeConn_crashed (x : Client) (w : World α) : (w.closeConn x).crashed = w.crashed := by
  unfold closeConn
  split_ifs
  · rfl
  · simp only []
    split_ifs <;> rfl

theorem closeConn_conns_ne {x y : Client} (w : World α) (h : y ≠ x) :
    (w.closeConn x).conns y = w.conns y := by
  unfold closeConn
  split_ifs
  · rfl
  · simp only []
    split_ifs
    · exact conns_setConn_ne _ _ h
    · rw [conns_setConn_ne _ _ h]
      exact conns_setConn_ne _ _ h

theorem closeConn_sent (x : Client) (w : World α) : (w.closeConn x).sent = w.sent := by
  unfold closeConn
  split_ifs
  · rfl
  · simp only []
    split_ifs <;> rfl

theorem closeConn_received (x : Client) (w : World α) : (w.closeConn x).received = w.received := by
  unfold closeConn
  split_ifs
  · rfl
  · simp only []
    split_ifs <;> rfl

/-- `Close` leaves the buffers alone. -/
theorem closeConn_parts (x y : Client) (w : World α) :
    ((w.closeConn y).conns x).writePart = (w.conns x).writePart ∧
      ((w.closeConn y).conns x).readPart = (w.conns x).readPart := by
  by_cases hx : x = y
  · subst hx
    unfold closeConn
    split_ifs
    · exact ⟨rfl, rfl⟩
    · simp only [conns_setConn_self]
      split_ifs
      · rw [conns_setConn_self]
        exact ⟨rfl, rfl⟩
      · have hc : ((w.setConn x (w.conns x).markClosed).close x (w.conns x).markClosed.fd).conns x =
            (w.conns x).markClosed := conns_setConn_self x _ w
        rw [hc, conns_setConn_self]
        exact ⟨rfl, rfl⟩
  · rw [closeConn_conns_ne w hx]
    exact ⟨rfl, rfl⟩

/-- `Close` does nothing to the kernel state or closes the number its object carries. -/
theorem closeConn_kernel (x : Client) (w : World α) :
    ((w.closeConn x).files = w.files ∧ (w.closeConn x).epoll = w.epoll) ∨
      ((w.closeConn x).files = Function.update w.files (w.conns x).fd none ∧
        (w.closeConn x).epoll = fun i => Function.update (w.epoll i) (w.conns x).fd none) := by
  unfold closeConn
  split_ifs
  · exact Or.inl ⟨rfl, rfl⟩
  · simp only [conns_setConn_self]
    split_ifs
    · exact Or.inl ⟨rfl, rfl⟩
    · exact Or.inr ⟨rfl, rfl⟩

theorem closeConn_kernel_ne {x : Client} {w : World α} {m : ℤ} (h : m ≠ (w.conns x).fd) :
    (w.closeConn x).files m = w.files m ∧ ∀ i, (w.closeConn x).epoll i m = w.epoll i m := by
  obtain ⟨hf, he⟩ | ⟨hf, he⟩ := closeConn_kernel x w
  · rw [hf, he]
    exact ⟨rfl, fun _ => rfl⟩
  · rw [hf, he]
    exact ⟨Function.update_of_ne h none w.files, fun i => Function.update_of_ne h none (w.epoll i)⟩

end World

end TcpServer
