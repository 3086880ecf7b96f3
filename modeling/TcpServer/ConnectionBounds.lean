import TcpServer.Transition
import TcpServer.Connection
import Mathlib.Algebra.Group.Nat.Defs

/-! # The buffers of a connection in `size_t` arithmetic

`Connection.lean` computes the indices and sizes of the buffers with natural numbers.  The code
uses `size_t`: sums and products wrap, and a difference below zero becomes a huge number.  Here the
operations are run with that arithmetic (`SizeT`), and every unsigned subtraction, every range
given to `recv`, `send`, `memmove` and `memcpy` is recorded with the size of the buffer at that
moment.

`buffer_bounds`: in every run in which the buffers stay below `2 ^ 62` bytes, whatever the kernel
answers and whatever lengths are passed, the indices are inside the buffers and every recorded
access is in bounds.  `step_conn` is what the rest of the development rests on: on such a connection
the two arithmetics agree. -/

namespace TcpServer

/-! ### `size_t` -/

namespace SizeT

def add (a b : ℕ) : ℕ := (a + b) % 2 ^ 64

def mul (a b : ℕ) : ℕ := (a * b) % 2 ^ 64

def sub (a b : ℕ) : ℕ := if b ≤ a then a - b else 2 ^ 64 - (b - a)

theorem add_eq {a b : ℕ} (h : a + b < 2 ^ 64) : add a b = a + b := Nat.mod_eq_of_lt h

theorem mul_eq {a b : ℕ} (h : a * b < 2 ^ 64) : mul a b = a * b := Nat.mod_eq_of_lt h

theorem sub_eq {a b : ℕ} (h : b ≤ a) : sub a b = a - b := if_pos h

end SizeT

/-! ### Traced operations -/

/-- What an operation does that could go wrong; `size` is the size of the buffer concerned. -/
inductive Access where
  /-- The unsigned difference `a - b`. -/
  | sub (a b : ℕ)
  /-- `recv` is offered `len` bytes from `offset` on. -/
  | recv (offset len size : ℕ)
  /-- `send` is given the first `len` bytes. -/
  | send (len size : ℕ)
  /-- `memmove(data, data + src, len)`. -/
  | move (src len size : ℕ)
  /-- `memcpy(data + dst, …, len)`. -/
  | copy (dst len size : ℕ)
deriving DecidableEq, Repr

/-- No difference is negative, no range leaves its buffer, `recv` is offered at least 1024 bytes and
`send` is given something. -/
def Access.InBounds : Access → Prop
  | .sub a b => b ≤ a
  | .recv offset len size => 1024 ≤ len ∧ offset + len ≤ size
  | .send len size => 1 ≤ len ∧ len ≤ size
  | .move src len size => src + len ≤ size
  | .copy dst len size => dst + len ≤ size

/-- A connection and the accesses made so far. -/
structure Traced (α : Type) where
  conn : Connection α
  trace : List Access

/-- An operation on a connection with what the kernel answers. -/
inductive ConnOp (α : Type) where
  | recv (now : ℤ) (r : RecvResult α)
  | send (now : ℤ) (r : SendResult)
  | append (data : List α)
  | consume (len : ℕ)
  | close

namespace Traced

open Transition

variable {α : Type}

def log (as : List Access) (s : Traced α) : Traced α := { s with trace := s.trace ++ as }

section operations

variable [Inhabited α]

/-- `Connection::CheckAndResizeReadBuffer`. -/
def checkAndResizeReadBuffer (s : Traced α) : Traced α :=
  let c := s.conn
  let s := s.log [.sub c.readBuffer.length c.readIdx]
  if SizeT.sub c.readBuffer.length c.readIdx < 1024 then
    let newSize := max (SizeT.mul c.readBuffer.length 2) (SizeT.add c.readIdx 4096)
    { s with conn := { c with readBuffer := Buffer.resize default newSize c.readBuffer } }
  else s

/-- `Connection::Recv`; `none` when the kernel cannot answer so. -/
def recv (now : ℤ) (r : RecvResult α) (s : Traced α) : Option (Traced α) :=
  if s.conn.state = .closed then some s
  else
    let s := s.checkAndResizeReadBuffer
    let c := s.conn
    let available := SizeT.sub c.readBuffer.length c.readIdx
    let s := s.log [.sub c.readBuffer.length c.readIdx, .recv c.readIdx available c.readBuffer.length]
    match r with
    | .data bs =>
        if bs ≠ [] ∧ bs.length ≤ available then
          some { s with conn := { c with readBuffer := Buffer.overwrite c.readBuffer c.readIdx bs
                                         readIdx := SizeT.add c.readIdx bs.length
                                         lastHeartbeat := now } }
        else none
    | .eof => some { s with conn := c.markClosed }
    | .error e => some { s with conn := if wouldBlock e then c else c.markClosed }

/-- `Connection::AppendWriteBuffer`. -/
def appendWriteBuffer (data : List α) (s : Traced α) : Traced α :=
  let c := s.conn
  let needed := SizeT.add c.writeIdx data.length
  let writeBuffer :=
    if c.writeBuffer.length < needed then
      Buffer.resize default (max (SizeT.mul c.writeBuffer.length 2) needed) c.writeBuffer
    else c.writeBuffer
  let s := s.log [.copy c.writeIdx data.length writeBuffer.length]
  { s with conn := { c with writeBuffer := Buffer.overwrite writeBuffer c.writeIdx data
                            writeIdx := needed } }

end operations

/-- `Connection::Send`. -/
def send (now : ℤ) (r : SendResult) (s : Traced α) : Option (Traced α) :=
  let c := s.conn
  if c.state = .closed then some s
  else if c.writeIdx = 0 then some s
  else
    let s := s.log [.send c.writeIdx c.writeBuffer.length]
    match r with
    | .sent k =>
        if 0 < k ∧ k ≤ c.writeIdx then
          let rest := SizeT.sub c.writeIdx k
          let s := s.log [.sub c.writeIdx k, .move k rest c.writeBuffer.length]
          some { s with conn := { c with writeBuffer := Buffer.shift c.writeBuffer k rest
                                         writeIdx := rest
                                         lastHeartbeat := now } }
        else none
    | .zero => some { s with conn := c.markClosed }
    | .error e => some { s with conn := if wouldBlock e then c else c.markClosed }

/-- `Connection::ConsumeReadBuffer`. -/
def consumeReadBuffer (len : ℕ) (s : Traced α) : Traced α :=
  let c := s.conn
  if c.readIdx ≤ len then { s with conn := { c with readIdx := 0 } }
  else
    let rest := SizeT.sub c.readIdx len
    let s := s.log [.sub c.readIdx len, .move len rest c.readBuffer.length]
    { s with conn := { c with readBuffer := Buffer.shift c.readBuffer len rest, readIdx := rest } }

end Traced

/-- `Connection::Close`. -/
def Connection.close {α : Type} (c : Connection α) : Connection α :=
  if c.state = .closed then c else if c.fd = -1 then c.markClosed else c.markClosed.clearFd

namespace Traced

open Transition

variable {α : Type} [Inhabited α]

/-- No array is longer than `PTRDIFF_MAX`, so `AppendWriteBuffer` is given less than `2 ^ 63`
bytes. -/
def step (s : Traced α) : ConnOp α → Option (Traced α)
  | .recv now r => s.recv now r
  | .send now r => s.send now r
  | .append data => if data.length < 2 ^ 63 then some (s.appendWriteBuffer data) else none
  | .consume len => some (s.consumeReadBuffer len)
  | .close => some { s with conn := s.conn.close }

/-- The buffers are small. -/
def small (s : Traced α) (_ : ConnOp α) : Prop :=
  s.conn.readBuffer.length < 2 ^ 62 ∧ s.conn.writeBuffer.length < 2 ^ 62

instance decidableSmall (s : Traced α) (l : ConnOp α) : Decidable (s.small l) :=
  inferInstanceAs (Decidable (_ ∧ _))

/-- The same operations as `Connection.lean` has them. -/
def natStep (c : Connection α) : ConnOp α → Option (Connection α)
  | .recv now r =>
      if c.state = .closed then some c
      else
        match r with
        | .data bs =>
            if bs ≠ [] ∧ bs.length ≤ c.checkAndResizeReadBuffer.available then
              some (c.checkAndResizeReadBuffer.recvData now bs)
            else none
        | .eof => some c.checkAndResizeReadBuffer.markClosed
        | .error e =>
            some (if wouldBlock e then c.checkAndResizeReadBuffer else c.checkAndResizeReadBuffer.markClosed)
  | .send now r =>
      if c.state = .closed then some c
      else if c.writeIdx = 0 then some c
      else
        match r with
        | .sent k => if 0 < k ∧ k ≤ c.writeIdx then some (c.sendData now k) else none
        | .zero => some c.markClosed
        | .error e => some (if wouldBlock e then c else c.markClosed)
  | .append data => if data.length < 2 ^ 63 then some (c.appendWriteBuffer data) else none
  | .consume len => some (c.consumeReadBuffer len)
  | .close => some c.close

/-! ### The two arithmetics -/

section bounds

variable {s s' : Traced α} {l : ConnOp α}

/-- While the buffers are small, resizing computes what it is meant to. -/
theorem conn_checkAndResizeReadBuffer (hv : s.conn.Valid) (hs : s.small l) :
    s.checkAndResizeReadBuffer.conn = s.conn.checkAndResizeReadBuffer := by
  obtain ⟨hread, -⟩ := hs
  have hidx := hv.read
  have hadd : SizeT.add s.conn.readIdx 4096 = s.conn.readIdx + 4096 := SizeT.add_eq (by omega)
  have hmul : SizeT.mul s.conn.readBuffer.length 2 = s.conn.readBuffer.length * 2 := SizeT.mul_eq (by omega)
  simp only [checkAndResizeReadBuffer, Connection.checkAndResizeReadBuffer, SizeT.sub_eq hidx, hadd, hmul, log]
  split_ifs <;> rfl

/-- What `recv` is offered after the resizing: at least 1024 bytes, up to the end of the buffer. -/
theorem available_checkAndResizeReadBuffer {c : Connection α} (hv : c.Valid) :
    1024 ≤ c.checkAndResizeReadBuffer.available ∧
      c.checkAndResizeReadBuffer.readIdx + c.checkAndResizeReadBuffer.available =
        c.checkAndResizeReadBuffer.readBuffer.length := by
  have hvalid := (Connection.valid_checkAndResizeReadBuffer hv).read
  refine ⟨?_, by unfold Connection.available; omega⟩
  unfold Connection.available Connection.checkAndResizeReadBuffer
  split_ifs with hlt
  · show 1024 ≤ (Buffer.resize _ _ _).length - c.readIdx
    rw [Buffer.length_resize]
    omega
  · omega

theorem length_checkAndResizeReadBuffer {c : Connection α} (hv : c.Valid) (hs : c.readBuffer.length < 2 ^ 62) :
    c.checkAndResizeReadBuffer.readBuffer.length < 2 ^ 63 := by
  have hread := hv.read
  unfold Connection.checkAndResizeReadBuffer
  split_ifs
  · show (Buffer.resize _ _ _).length < 2 ^ 63
    rw [Buffer.length_resize]
    omega
  · omega

theorem trace_checkAndResizeReadBuffer :
    s.checkAndResizeReadBuffer.trace = s.trace ++ [.sub s.conn.readBuffer.length s.conn.readIdx] := by
  unfold checkAndResizeReadBuffer
  simp only [log]
  split_ifs <;> rfl

theorem conn_appendWriteBuffer (hv : s.conn.Valid) (hs : s.small l) {data : List α} (hd : data.length < 2 ^ 63) :
    (s.appendWriteBuffer data).conn = s.conn.appendWriteBuffer data := by
  obtain ⟨-, hwrite⟩ := hs
  have hidx := hv.write
  have hadd : SizeT.add s.conn.writeIdx data.length = s.conn.writeIdx + data.length := SizeT.add_eq (by omega)
  have hmul : SizeT.mul s.conn.writeBuffer.length 2 = s.conn.writeBuffer.length * 2 := SizeT.mul_eq (by omega)
  simp only [appendWriteBuffer, Connection.appendWriteBuffer, hadd, hmul, log]

omit [Inhabited α] in
theorem conn_consumeReadBuffer (len : ℕ) : (s.consumeReadBuffer len).conn = s.conn.consumeReadBuffer len := by
  unfold consumeReadBuffer Connection.consumeReadBuffer
  simp only []
  split_ifs with hlen
  · rfl
  · rw [SizeT.sub_eq (by omega), log]

/-- On a valid connection with small buffers the operations are those of `Connection.lean`. -/
theorem step_conn (hv : s.conn.Valid) (hs : s.small l) : (step s l).map conn = natStep s.conn l := by
  cases l with
  | recv now r =>
      have hconn := conn_checkAndResizeReadBuffer hv hs
      have hvalid := Connection.valid_checkAndResizeReadBuffer hv
      have hsize := length_checkAndResizeReadBuffer hv hs.1
      simp only [step, recv, natStep, hconn, SizeT.sub_eq hvalid.read]
      split_ifs
      · rfl
      · cases r with
        | data bs =>
            simp only []
            split_ifs with hb hb' hb'
            · have hlen : s.conn.checkAndResizeReadBuffer.readIdx + bs.length < 2 ^ 64 := by
                have hlen := hb.2
                have hread := hvalid.read
                omega
              rw [SizeT.add_eq hlen]
              rfl
            · exact absurd hb hb'
            · exact absurd hb' hb
            · rfl
        | eof => rfl
        | error e => rfl
  | send now r =>
      simp only [step, send, natStep]
      split_ifs
      · rfl
      · rfl
      · cases r with
        | sent k =>
            simp only []
            split_ifs with hk
            · rw [SizeT.sub_eq hk.2]
              rfl
            · rfl
        | zero => rfl
        | error e => rfl
  | append data =>
      simp only [step, natStep]
      split_ifs with hd
      · rw [Option.map_some, conn_appendWriteBuffer hv hs hd]
      · rfl
  | consume len => simp only [step, natStep, Option.map_some, conn_consumeReadBuffer]
  | close => rfl

/-! ### Valid connections -/

omit [Inhabited α] in
theorem valid_close {c : Connection α} (hv : c.Valid) : c.close.Valid := by
  unfold Connection.close
  split_ifs
  · exact hv
  · exact hv.markClosed
  · exact ⟨hv.read, hv.write⟩

theorem valid_natStep {c c' : Connection α} (hv : c.Valid) (h : natStep c l = some c') : c'.Valid := by
  have hroom := Connection.valid_checkAndResizeReadBuffer hv
  cases l with
  | recv now r =>
      simp only [natStep] at h
      split_ifs at h
      · cases h
        exact hv
      · cases r with
        | data bs =>
            simp only [] at h
            split_ifs at h with hb
            cases h
            exact Connection.valid_recvData hroom now hb.2
        | eof =>
            cases h
            exact hroom.markClosed
        | error e =>
            cases h
            split_ifs
            · exact hroom
            · exact hroom.markClosed
  | send now r =>
      simp only [natStep] at h
      split_ifs at h
      · cases h
        exact hv
      · cases h
        exact hv
      · cases r with
        | sent k =>
            simp only [] at h
            split_ifs at h with hk
            cases h
            exact Connection.valid_sendData hv now hk.2
        | zero =>
            cases h
            exact hv.markClosed
        | error e =>
            cases h
            split_ifs
            · exact hv
            · exact hv.markClosed
  | append data =>
      simp only [natStep] at h
      split_ifs at h
      cases h
      exact Connection.valid_appendWriteBuffer hv data
  | consume len =>
      cases h
      exact Connection.valid_consumeReadBuffer hv len
  | close =>
      cases h
      exact valid_close hv

/-! ### Accesses -/

theorem trace_recv {now : ℤ} {r : RecvResult α} (hv : s.conn.Valid) (hs : s.small l)
    (h : s.recv now r = some s') : ∀ a ∈ s'.trace, a ∈ s.trace ∨ a.InBounds := by
  have hconn := conn_checkAndResizeReadBuffer hv hs
  have hvalid := Connection.valid_checkAndResizeReadBuffer hv
  obtain ⟨hroom, hend⟩ := available_checkAndResizeReadBuffer hv
  -- whatever the kernel answers, these three accesses have been made
  have htrace : s.conn.state = .closed ∧ s'.trace = s.trace ∨
      s'.trace = s.trace ++ [.sub s.conn.readBuffer.length s.conn.readIdx,
        .sub s.conn.checkAndResizeReadBuffer.readBuffer.length s.conn.checkAndResizeReadBuffer.readIdx,
        .recv s.conn.checkAndResizeReadBuffer.readIdx s.conn.checkAndResizeReadBuffer.available
          s.conn.checkAndResizeReadBuffer.readBuffer.length] := by
    simp only [recv, hconn, SizeT.sub_eq hvalid.read] at h
    split_ifs at h with hc
    · cases h
      exact Or.inl ⟨hc, rfl⟩
    · right
      cases r with
      | data bs =>
          simp only [] at h
          split_ifs at h
          cases h
          simp [log, trace_checkAndResizeReadBuffer, Connection.available]
      | eof =>
          cases h
          simp [log, trace_checkAndResizeReadBuffer, Connection.available]
      | error e =>
          cases h
          simp [log, trace_checkAndResizeReadBuffer, Connection.available]
  intro a ha
  obtain ⟨-, htr⟩ | htr := htrace
  · rw [htr] at ha
    exact Or.inl ha
  · rw [htr] at ha
    simp only [List.mem_append, List.mem_cons, List.not_mem_nil, or_false] at ha
    rcases ha with ha | rfl | rfl | rfl
    · exact Or.inl ha
    · exact Or.inr hv.read
    · exact Or.inr hvalid.read
    · exact Or.inr ⟨hroom, Nat.le_of_eq hend⟩

omit [Inhabited α] in
theorem trace_send {now : ℤ} {r : SendResult} (hv : s.conn.Valid) (h : s.send now r = some s') :
    ∀ a ∈ s'.trace, a ∈ s.trace ∨ a.InBounds := by
  have hw := hv.write
  intro a ha
  simp only [send] at h
  split_ifs at h with hc hz
  · cases h
    exact Or.inl ha
  · cases h
    exact Or.inl ha
  · have hsend : (Access.send s.conn.writeIdx s.conn.writeBuffer.length).InBounds := ⟨by omega, hw⟩
    cases r with
    | sent k =>
        simp only [] at h
        split_ifs at h with hk
        cases h
        simp only [log, SizeT.sub_eq hk.2, List.append_assoc, List.mem_append, List.mem_cons,
          List.not_mem_nil, or_false] at ha
        rcases ha with ha | rfl | rfl | rfl
        · exact Or.inl ha
        · exact Or.inr hsend
        · exact Or.inr hk.2
        · right
          show k + (s.conn.writeIdx - k) ≤ s.conn.writeBuffer.length
          omega
    | zero =>
        cases h
        simp only [log, List.mem_append, List.mem_singleton] at ha
        rcases ha with ha | rfl
        · exact Or.inl ha
        · exact Or.inr hsend
    | error e =>
        cases h
        simp only [log, List.mem_append, List.mem_singleton] at ha
        rcases ha with ha | rfl
        · exact Or.inl ha
        · exact Or.inr hsend

theorem trace_appendWriteBuffer {data : List α} (hv : s.conn.Valid) (hs : s.small l) (hd : data.length < 2 ^ 63) :
    ∀ a ∈ (s.appendWriteBuffer data).trace, a ∈ s.trace ∨ a.InBounds := by
  obtain ⟨-, hwrite⟩ := hs
  have hidx := hv.write
  have hadd : SizeT.add s.conn.writeIdx data.length = s.conn.writeIdx + data.length := SizeT.add_eq (by omega)
  intro a ha
  simp only [appendWriteBuffer, log, hadd, List.mem_append, List.mem_singleton] at ha
  refine ha.imp id ?_
  rintro rfl
  show s.conn.writeIdx + data.length ≤ _
  split_ifs with hlt
  · rw [Buffer.length_resize]
    omega
  · omega

omit [Inhabited α] in
theorem trace_consumeReadBuffer (hv : s.conn.Valid) (len : ℕ) :
    ∀ a ∈ (s.consumeReadBuffer len).trace, a ∈ s.trace ∨ a.InBounds := by
  have hidx := hv.read
  intro a ha
  unfold consumeReadBuffer at ha
  simp only [] at ha
  split_ifs at ha with hlen
  · exact Or.inl ha
  · have hle : len ≤ s.conn.readIdx := by omega
    simp only [log, SizeT.sub_eq hle, List.mem_append, List.mem_cons, List.not_mem_nil, or_false] at ha
    rcases ha with ha | rfl | rfl
    · exact Or.inl ha
    · exact Or.inr hle
    · right
      show len + (s.conn.readIdx - len) ≤ s.conn.readBuffer.length
      omega

theorem step_trace (hv : s.conn.Valid) (hs : s.small l) (h : step s l = some s') :
    ∀ a ∈ s'.trace, a ∈ s.trace ∨ a.InBounds := by
  cases l with
  | recv now r => exact trace_recv hv hs h
  | send now r => exact trace_send hv h
  | append data =>
      simp only [step] at h
      split_ifs at h with hd
      cases h
      exact trace_appendWriteBuffer hv hs hd
  | consume len =>
      cases h
      exact trace_consumeReadBuffer hv len
  | close =>
      cases h
      exact fun _ ha => Or.inl ha

end bounds

/-- A connection as the constructor leaves it, in any state. -/
def start (fd now : ℤ) (state : ConnectionState) : Traced α :=
  ⟨{ Connection.connected fd now with state := state }, []⟩

/-- **The buffers of a connection.**  From the constructor on, in every run of `Recv`, `Send`,
`AppendWriteBuffer`, `ConsumeReadBuffer` and `Close` in which the buffers stay below `2 ^ 62`
bytes, the indices are inside the buffers and every access has been in bounds. -/
theorem buffer_bounds {fd now : ℤ} {state : ConnectionState} {s : Traced α}
    (hr : Reach step small (start fd now state) s) :
    s.conn.readIdx ≤ s.conn.readBuffer.length ∧ s.conn.writeIdx ≤ s.conn.writeBuffer.length ∧
      ∀ a ∈ s.trace, a.InBounds := by
  have hinv : s.conn.Valid ∧ ∀ a ∈ s.trace, a.InBounds := by
    refine hr.invariant (fun s => s.conn.Valid ∧ ∀ a ∈ s.trace, a.InBounds) ⟨?_, ?_⟩ ?_
    · exact ⟨Nat.le_refl _, Nat.le_refl _⟩
    · intro a ha
      cases ha
    · rintro s l s' ⟨hv, htr⟩ hsmall hs
      have hnat : natStep s.conn l = some s'.conn := by rw [← step_conn hv hsmall, hs, Option.map_some]
      refine ⟨valid_natStep hv hnat, ?_⟩
      intro a ha
      exact (step_trace hv hsmall hs a ha).elim (htr a) id
  exact ⟨hinv.1.read, hinv.1.write, hinv.2⟩

/-- A byte is received, echoed and sent; lengths beyond the contents are consumed. -/
def oneByteOps : List (ConnOp UInt8) :=
  [.recv 1 (.data [104]), .append [104], .consume 5000, .send 2 (.sent 1), .recv 3 .eof, .close]

theorem oneByteOps_inBounds :
    ∃ s, run step (start 5 0 .connected) oneByteOps = some s ∧ s.trace.length = 10 ∧
      ∀ a ∈ s.trace, a.InBounds := by
  obtain ⟨s, hs, hlen⟩ := exists_of_any (o := run step (start 5 0 .connected) oneByteOps)
    (fun s => s.trace.length = 10) (by decide +kernel)
  have hok : Along step small (start 5 0 .connected) oneByteOps := by decide +kernel
  exact ⟨s, hs, hlen, (buffer_bounds (hok.reach hs)).2.2⟩

end Traced

end TcpServer
