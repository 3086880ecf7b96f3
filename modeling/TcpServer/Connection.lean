import TcpServer.Buffer
import Mathlib.Data.Int.Order.Basic

/-! # Client connections (`conn/connection.cpp`)

A `Connection` owns a descriptor number, a state, the time of its last activity and two
growable buffers whose contents are the prefixes `readBuffer[0 .. readIdx)` and
`writeBuffer[0 .. writeIdx)` (`readPart`, `writePart`).  The element type of the buffers is a
parameter; `default` is the value `std::vector::resize` fills with.

`Recv` and `Send` are cut at their system call: `checkAndResizeReadBuffer` runs before
`recv(2)`, `recvData` and `sendData` do the bookkeeping of a positive return value, and
`markClosed` is the store of `CLOSED` on end of file and on errors.  The calls themselves
need the kernel and are put together in `World.lean`.

The indices stay inside the buffers (`Valid`), and each operation acts on the two contents
as on queues: `readPart_recvData` appends, `writePart_appendWriteBuffer` appends,
`writePart_sendData` and `readPart_consumeReadBuffer` drop from the front. -/

namespace TcpServer

/-- `errno` values. -/
abbrev Errno := ℕ

def EAGAIN : Errno := 11
def EWOULDBLOCK : Errno := 11
def EBADF : Errno := 9

/-- `errno == EAGAIN || errno == EWOULDBLOCK`. -/
def wouldBlock (e : Errno) : Bool := decide (e = EAGAIN) || decide (e = EWOULDBLOCK)

inductive ConnectionState where
  | connecting
  | connected
  | closed
deriving DecidableEq, Repr

/-- `conn::Connection`.  `fd` is `-1` after `Close` has closed the descriptor; times are in
milliseconds. -/
structure Connection (α : Type) where
  fd : ℤ
  state : ConnectionState
  lastHeartbeat : ℤ
  readBuffer : List α
  writeBuffer : List α
  readIdx : ℕ
  writeIdx : ℕ
deriving DecidableEq, Repr

/-- What `recv(2)` answers: some bytes, end of file, or an error. -/
inductive RecvResult (α : Type) where
  | data (bs : List α)
  | eof
  | error (e : Errno)
deriving DecidableEq, Repr

/-- What `send(2)` answers: the number of bytes accepted, zero, or an error. -/
inductive SendResult where
  | sent (k : ℕ)
  | zero
  | error (e : Errno)
deriving DecidableEq, Repr

namespace Connection

variable {α : Type}

/-- The constructor, followed by `SetState(CONNECTED)` as in `HandleAccept`. -/
def connected (fd now : ℤ) : Connection α where
  fd := fd
  state := .connected
  lastHeartbeat := now
  readBuffer := []
  writeBuffer := []
  readIdx := 0
  writeIdx := 0

/-- `Connection::IsTimeout`. -/
def isTimeout (c : Connection α) (now timeoutMs : ℤ) : Bool := decide (timeoutMs < now - c.lastHeartbeat)

/-- `Connection::UpdateHeartbeat`. -/
def updateHeartbeat (now : ℤ) (c : Connection α) : Connection α := { c with lastHeartbeat := now }

/-- `Connection::HasPendingData`. -/
def hasPendingData (c : Connection α) : Bool := decide (0 < c.writeIdx)

/-- `Connection::CheckAndResizeReadBuffer`. -/
def checkAndResizeReadBuffer [Inhabited α] (c : Connection α) : Connection α :=
  if c.readBuffer.length - c.readIdx < 1024 then
    { c with readBuffer :=
        Buffer.resize default (max (c.readBuffer.length * 2) (c.readIdx + 4096)) c.readBuffer }
  else c

/-- The length `Recv` passes to `recv(2)`. -/
def available (c : Connection α) : ℕ := c.readBuffer.length - c.readIdx

/-- `recv(2)` has stored `bs` at `read_buffer_.data() + read_idx_` and returned its length. -/
def recvData (now : ℤ) (bs : List α) (c : Connection α) : Connection α :=
  { c with readBuffer := Buffer.overwrite c.readBuffer c.readIdx bs,
           readIdx := c.readIdx + bs.length, lastHeartbeat := now }

/-- `send(2)` has accepted the first `k` bytes of the write buffer. -/
def sendData (now : ℤ) (k : ℕ) (c : Connection α) : Connection α :=
  { c with writeBuffer := Buffer.shift c.writeBuffer k (c.writeIdx - k),
           writeIdx := c.writeIdx - k, lastHeartbeat := now }

/-- `state_.store(CLOSED)`. -/
def markClosed (c : Connection α) : Connection α := { c with state := .closed }

/-- `fd_ = -1`. -/
def clearFd (c : Connection α) : Connection α := { c with fd := -1 }

/-- `Connection::ConsumeReadBuffer`. -/
def consumeReadBuffer (len : ℕ) (c : Connection α) : Connection α :=
  if c.readIdx ≤ len then { c with readIdx := 0 }
  else { c with readBuffer := Buffer.shift c.readBuffer len (c.readIdx - len),
                readIdx := c.readIdx - len }

/-- `Connection::AppendWriteBuffer`. -/
def appendWriteBuffer [Inhabited α] (data : List α) (c : Connection α) : Connection α :=
  let writeBuffer :=
    if c.writeBuffer.length < c.writeIdx + data.length then
      Buffer.resize default (max (c.writeBuffer.length * 2) (c.writeIdx + data.length)) c.writeBuffer
    else c.writeBuffer
  { c with writeBuffer := Buffer.overwrite writeBuffer c.writeIdx data,
           writeIdx := c.writeIdx + data.length }

/-- The contents of the read buffer. -/
def readPart (c : Connection α) : List α := c.readBuffer.take c.readIdx

/-- The contents of the write buffer. -/
def writePart (c : Connection α) : List α := c.writeBuffer.take c.writeIdx

/-- `HandleRead` moves everything it has read into the write buffer:
`AppendWriteBuffer(data, data_len)` followed by `ConsumeReadBuffer(data_len)`. -/
def echo [Inhabited α] (c : Connection α) : Connection α :=
  (c.appendWriteBuffer c.readPart).consumeReadBuffer c.readIdx

/-- The indices lie inside the buffers. -/
structure Valid (c : Connection α) : Prop where
  read : c.readIdx ≤ c.readBuffer.length
  write : c.writeIdx ≤ c.writeBuffer.length

theorem valid_connected (fd now : ℤ) : (connected fd now : Connection α).Valid :=
  ⟨Nat.le_refl _, Nat.le_refl _⟩

variable {c : Connection α}

theorem length_readPart (hv : c.Valid) : c.readPart.length = c.readIdx := by
  rw [readPart, List.length_take, Nat.min_eq_left hv.read]

theorem length_writePart (hv : c.Valid) : c.writePart.length = c.writeIdx := by
  rw [writePart, List.length_take, Nat.min_eq_left hv.write]

theorem hasPendingData_eq_false (hv : c.Valid) : c.hasPendingData = false ↔ c.writePart = [] := by
  rw [← List.length_eq_zero_iff, length_writePart hv]
  simp [hasPendingData]

theorem Valid.markClosed (hv : c.Valid) : c.markClosed.Valid := ⟨hv.read, hv.write⟩

/-! ### Making room and receiving -/

section room

variable [Inhabited α]

@[simp] theorem state_checkAndResizeReadBuffer : c.checkAndResizeReadBuffer.state = c.state := by
  unfold checkAndResizeReadBuffer
  split_ifs <;> rfl

@[simp] theorem fd_checkAndResizeReadBuffer : c.checkAndResizeReadBuffer.fd = c.fd := by
  unfold checkAndResizeReadBuffer
  split_ifs <;> rfl

@[simp] theorem writePart_checkAndResizeReadBuffer :
    c.checkAndResizeReadBuffer.writePart = c.writePart := by
  unfold checkAndResizeReadBuffer
  split_ifs <;> rfl

theorem valid_checkAndResizeReadBuffer (hv : c.Valid) : c.checkAndResizeReadBuffer.Valid := by
  unfold checkAndResizeReadBuffer
  split_ifs
  · refine ⟨?_, hv.write⟩
    show c.readIdx ≤ _
    rw [Buffer.length_resize]
    omega
  · exact hv

@[simp] theorem readPart_checkAndResizeReadBuffer (hv : c.Valid) :
    c.checkAndResizeReadBuffer.readPart = c.readPart := by
  unfold checkAndResizeReadBuffer
  split_ifs
  · exact Buffer.take_resize hv.read (by show c.readIdx ≤ _; omega)
  · rfl

end room

theorem readPart_recvData (hv : c.Valid) (now : ℤ) (bs : List α) :
    (c.recvData now bs).readPart = c.readPart ++ bs :=
  Buffer.take_overwrite bs hv.read

@[simp] theorem writePart_recvData (now : ℤ) (bs : List α) : (c.recvData now bs).writePart = c.writePart :=
  rfl

theorem valid_recvData (hv : c.Valid) (now : ℤ) {bs : List α} (hb : bs.length ≤ c.available) :
    (c.recvData now bs).Valid := by
  have hr := hv.read
  have hle : c.readIdx + bs.length ≤ c.readBuffer.length := by
    unfold available at hb
    omega
  refine ⟨?_, hv.write⟩
  show c.readIdx + bs.length ≤ (Buffer.overwrite _ _ _).length
  rwa [Buffer.length_overwrite hle]

/-! ### Sending -/

theorem writePart_sendData (hv : c.Valid) (now : ℤ) {k : ℕ} (hk : k ≤ c.writeIdx) :
    (c.sendData now k).writePart = c.writePart.drop k := by
  have hw := hv.write
  have := Buffer.take_shift (show k + (c.writeIdx - k) ≤ c.writeBuffer.length by omega)
  rw [show k + (c.writeIdx - k) = c.writeIdx by omega] at this
  exact this

@[simp] theorem readPart_sendData (now : ℤ) (k : ℕ) : (c.sendData now k).readPart = c.readPart := rfl

theorem valid_sendData (hv : c.Valid) (now : ℤ) {k : ℕ} (hk : k ≤ c.writeIdx) :
    (c.sendData now k).Valid := by
  have hw := hv.write
  refine ⟨hv.read, ?_⟩
  show c.writeIdx - k ≤ (Buffer.shift _ _ _).length
  rw [Buffer.length_shift (by omega)]
  omega

/-! ### Moving read data to the write buffer -/

section append

variable [Inhabited α]

theorem writePart_appendWriteBuffer (hv : c.Valid) (data : List α) :
    (c.appendWriteBuffer data).writePart = c.writePart ++ data := by
  have hw := hv.write
  simp only [appendWriteBuffer, writePart]
  split_ifs with h
  · rw [Buffer.take_overwrite _ (by rw [Buffer.length_resize]; omega),
      Buffer.take_resize hw (by omega)]
  · exact Buffer.take_overwrite data hw

@[simp] theorem readPart_appendWriteBuffer (data : List α) :
    (c.appendWriteBuffer data).readPart = c.readPart := rfl

@[simp] theorem state_appendWriteBuffer (data : List α) :
    (c.appendWriteBuffer data).state = c.state := rfl

@[simp] theorem fd_appendWriteBuffer (data : List α) : (c.appendWriteBuffer data).fd = c.fd := rfl

theorem valid_appendWriteBuffer (hv : c.Valid) (data : List α) : (c.appendWriteBuffer data).Valid := by
  have hw := hv.write
  refine ⟨hv.read, ?_⟩
  simp only [appendWriteBuffer]
  split_ifs with h
  · rw [Buffer.length_overwrite (by rw [Buffer.length_resize]; omega), Buffer.length_resize]
    omega
  · rw [Buffer.length_overwrite (by omega)]
    omega

end append

theorem readPart_consumeReadBuffer (hv : c.Valid) (len : ℕ) :
    (c.consumeReadBuffer len).readPart = c.readPart.drop len := by
  have hr := hv.read
  unfold consumeReadBuffer
  split_ifs with h
  · rw [List.drop_of_length_le (by rw [length_readPart hv]; exact h)]
    rfl
  · have := Buffer.take_shift (show len + (c.readIdx - len) ≤ c.readBuffer.length by omega)
    rw [show len + (c.readIdx - len) = c.readIdx by omega] at this
    exact this

@[simp] theorem writePart_consumeReadBuffer (len : ℕ) :
    (c.consumeReadBuffer len).writePart = c.writePart := by
  unfold consumeReadBuffer
  split_ifs <;> rfl

@[simp] theorem state_consumeReadBuffer (len : ℕ) : (c.consumeReadBuffer len).state = c.state := by
  unfold consumeReadBuffer
  split_ifs <;> rfl

@[simp] theorem fd_consumeReadBuffer (len : ℕ) : (c.consumeReadBuffer len).fd = c.fd := by
  unfold consumeReadBuffer
  split_ifs <;> rfl

theorem valid_consumeReadBuffer (hv : c.Valid) (len : ℕ) : (c.consumeReadBuffer len).Valid := by
  have hr := hv.read
  unfold consumeReadBuffer
  split_ifs with h
  · exact ⟨Nat.zero_le _, hv.write⟩
  · refine ⟨?_, hv.write⟩
    show c.readIdx - len ≤ (Buffer.shift _ _ _).length
    rw [Buffer.length_shift (by omega)]
    omega

section echo

variable [Inhabited α]

/-- The echo appends what was read to what is to be sent and empties the read buffer. -/
theorem writePart_echo (hv : c.Valid) : c.echo.writePart = c.writePart ++ c.readPart := by
  unfold echo
  rw [writePart_consumeReadBuffer, writePart_appendWriteBuffer hv]

theorem readPart_echo (hv : c.Valid) : c.echo.readPart = [] := by
  unfold echo
  rw [readPart_consumeReadBuffer (valid_appendWriteBuffer hv _), readPart_appendWriteBuffer,
    List.drop_of_length_le (Nat.le_of_eq (length_readPart hv))]

theorem valid_echo (hv : c.Valid) : c.echo.Valid :=
  valid_consumeReadBuffer (valid_appendWriteBuffer hv _) _

@[simp] theorem state_echo : c.echo.state = c.state := by simp [echo]

@[simp] theorem fd_echo : c.echo.fd = c.fd := by simp [echo]

end echo

end Connection

end TcpServer
