import TcpServer.Lifecycle

/-! # Client isolation

Every byte carries the client whose socket it was received from.  `Isolated` asks that what is
passed to `send` on a client's socket, and what `send` has taken there, was received from that
client, and that a connection's buffers hold bytes of its own client only.

`Recv` and `Send` test `state_`, load `fd_` and call the kernel in three separate steps.  In
between `Close` may close the number and `accept` may hand it to a new client.
`isolated_of_reach`: clients are isolated as long as `accept` does not return a number that
some `Recv` or `Send` under way has loaded, or can still load, from a connection it found open
(`hijacks`).

The proof has two halves.  `Guarded` says that the number a loop is going to use is its own
connection's or nobody's; `Tagged` says that buffers and traffic are of one client, and each
operation of `Connection` keeps that (`Owned`). -/

namespace TcpServer

/-! ### Bytes of one client -/

namespace Connection

/-- The contents of both buffers are bytes of `x`, and so is everything in the buffers that has
been received at all. -/
structure Owned (x : Client) (c : Connection Byte) : Prop where
  valid : c.Valid
  read : ∀ b ∈ c.readPart, b.1 = some x
  write : ∀ b ∈ c.writePart, b.1 = some x
  stored : ∀ b, b ∈ c.readBuffer ∨ b ∈ c.writeBuffer → b.1 = none ∨ b.1 = some x

variable {x : Client} {c : Connection Byte}

theorem owned_connected (x : Client) (fd now : ℤ) : (connected fd now : Connection Byte).Owned x := by
  refine ⟨valid_connected fd now, ?_, ?_, ?_⟩
  · intro b hb
    cases hb
  · intro b hb
    cases hb
  · rintro b (hb | hb)
    · cases hb
    · cases hb

/-- Only buffers and indices matter. -/
theorem Owned.congr {c' : Connection Byte} (h : c.Owned x) (hrb : c'.readBuffer = c.readBuffer)
    (hwb : c'.writeBuffer = c.writeBuffer) (hri : c'.readIdx = c.readIdx) (hwi : c'.writeIdx = c.writeIdx) :
    c'.Owned x := by
  refine ⟨⟨?_, ?_⟩, ?_, ?_, ?_⟩
  · rw [hri, hrb]
    exact h.valid.read
  · rw [hwi, hwb]
    exact h.valid.write
  · rw [readPart, hri, hrb]
    exact h.read
  · rw [writePart, hwi, hwb]
    exact h.write
  · rw [hrb, hwb]
    exact h.stored

theorem Owned.checkAndResizeReadBuffer (h : c.Owned x) : c.checkAndResizeReadBuffer.Owned x := by
  refine ⟨valid_checkAndResizeReadBuffer h.valid, ?_, ?_, ?_⟩
  · rw [readPart_checkAndResizeReadBuffer h.valid]
    exact h.read
  · rw [writePart_checkAndResizeReadBuffer]
    exact h.write
  · intro b hb
    unfold Connection.checkAndResizeReadBuffer at hb
    split_ifs at hb
    · rcases hb with hb | hb
      · rcases Buffer.mem_resize hb with hb | rfl
        · exact h.stored b (Or.inl hb)
        · exact Or.inl rfl
      · exact h.stored b (Or.inr hb)
    · exact h.stored b hb

theorem Owned.recvData {now : ℤ} {bs : List Byte} (h : c.Owned x) (hlen : bs.length ≤ c.available)
    (hbs : ∀ b ∈ bs, b.1 = some x) : (c.recvData now bs).Owned x := by
  refine ⟨valid_recvData h.valid now hlen, ?_, h.write, ?_⟩
  · intro b hb
    rw [readPart_recvData h.valid] at hb
    rcases List.mem_append.mp hb with hb | hb
    · exact h.read b hb
    · exact hbs b hb
  · rintro b (hb | hb)
    · rcases Buffer.mem_overwrite hb with hb | hb
      · exact h.stored b (Or.inl hb)
      · exact Or.inr (hbs b hb)
    · exact h.stored b (Or.inr hb)

theorem Owned.sendData {now : ℤ} {k : ℕ} (h : c.Owned x) (hk : k ≤ c.writeIdx) : (c.sendData now k).Owned x := by
  refine ⟨valid_sendData h.valid now hk, h.read, ?_, ?_⟩
  · intro b hb
    rw [writePart_sendData h.valid now hk] at hb
    exact h.write b (List.mem_of_mem_drop hb)
  · rintro b (hb | hb)
    · exact h.stored b (Or.inl hb)
    · exact h.stored b (Or.inr (Buffer.mem_shift hb))

theorem Owned.appendWriteBuffer {data : List Byte} (h : c.Owned x) (hd : ∀ b ∈ data, b.1 = some x) :
    (c.appendWriteBuffer data).Owned x := by
  refine ⟨valid_appendWriteBuffer h.valid data, h.read, ?_, ?_⟩
  · intro b hb
    rw [writePart_appendWriteBuffer h.valid] at hb
    rcases List.mem_append.mp hb with hb | hb
    · exact h.write b hb
    · exact hd b hb
  · rintro b (hb | hb)
    · exact h.stored b (Or.inl hb)
    · rcases Buffer.mem_overwrite hb with hb | hb
      · split_ifs at hb
        · rcases Buffer.mem_resize hb with hb | rfl
          · exact h.stored b (Or.inr hb)
          · exact Or.inl rfl
        · exact h.stored b (Or.inr hb)
      · exact Or.inr (hd b hb)

theorem Owned.consumeReadBuffer (h : c.Owned x) (len : ℕ) : (c.consumeReadBuffer len).Owned x := by
  refine ⟨valid_consumeReadBuffer h.valid len, ?_, ?_, ?_⟩
  · intro b hb
    rw [readPart_consumeReadBuffer h.valid] at hb
    exact h.read b (List.mem_of_mem_drop hb)
  · rw [writePart_consumeReadBuffer]
    exact h.write
  · intro b hb
    unfold Connection.consumeReadBuffer at hb
    split_ifs at hb
    · exact h.stored b hb
    · exact h.stored b (hb.imp Buffer.mem_shift id)

theorem Owned.echo (h : c.Owned x) : c.echo.Owned x :=
  (h.appendWriteBuffer h.read).consumeReadBuffer _

end Connection

namespace World

/-- Buffers and traffic are of one client each. -/
structure Tagged (w : World Byte) : Prop where
  owned : ∀ x, (w.conns x).Owned x
  sent : ∀ y, ∀ b ∈ w.sent y, b.1 = some y

variable {w w' : World Byte} {x : Client}

theorem Tagged.sameData (h : Tagged w) (hd : SameData w w') : Tagged w' := by
  refine ⟨?_, ?_⟩
  · intro x
    exact (h.owned x).congr (hd.readBuffer x) (hd.writeBuffer x) (hd.readIdx x) (hd.writeIdx x)
  · rw [hd.sent]
    exact h.sent

theorem Tagged.setConn {c : Connection Byte} (h : Tagged w) (hc : c.Owned x) : Tagged (w.setConn x c) := by
  refine ⟨?_, h.sent⟩
  intro y
  by_cases hy : y = x
  · subst hy
    rw [conns_setConn_self]
    exact hc
  · rw [conns_setConn_ne c w hy]
    exact h.owned y

theorem Tagged.logRecv (h : Tagged w) (m : ℤ) (bs : List Byte) : Tagged (w.logRecv m bs) := by
  unfold World.logRecv
  split
  · exact ⟨h.owned, h.sent⟩
  · exact h

theorem Tagged.logSent {m : ℤ} {bs : List Byte} (h : Tagged w)
    (hbs : ∀ y, w.files m = some y → ∀ b ∈ bs, b.1 = some y) : Tagged (w.logSent m bs) := by
  unfold World.logSent
  split
  · rename_i y hy
    refine ⟨h.owned, ?_⟩
    intro z b hb
    by_cases hz : z = y
    · subst hz
      simp only [Function.update_self] at hb
      rcases List.mem_append.mp hb with hb | hb
      · exact h.sent z b hb
      · exact hbs z hy b hb
    · simp only [Function.update_of_ne hz] at hb
      exact h.sent z b hb
  · exact h

theorem SameData.trans {w₁ w₂ w₃ : World Byte} (h : SameData w₁ w₂) (h' : SameData w₂ w₃) : SameData w₁ w₃ :=
  ⟨fun x => (h'.readBuffer x).trans (h.readBuffer x), fun x => (h'.writeBuffer x).trans (h.writeBuffer x),
    fun x => (h'.readIdx x).trans (h.readIdx x), fun x => (h'.writeIdx x).trans (h.writeIdx x),
    h'.sent.trans h.sent⟩

theorem sameData_close (x : Client) (m : ℤ) (w : World Byte) : SameData w (w.close x m) :=
  ⟨fun _ => rfl, fun _ => rfl, fun _ => rfl, fun _ => rfl, rfl⟩

theorem sameData_closeConn (x : Client) (w : World Byte) : SameData w (w.closeConn x) := by
  unfold closeConn
  split_ifs
  · exact SameData.refl w
  · have hmark : SameData w (w.setConn x (w.conns x).markClosed) := sameData_setConn ⟨rfl, rfl, rfl, rfl⟩
    simp only []
    split_ifs
    · exact hmark
    · exact (hmark.trans (sameData_close x _ _)).trans (sameData_setConn ⟨rfl, rfl, rfl, rfl⟩)

theorem sameData_foldl_closeConn (es : List (Sigma fun _ : ℤ => Client)) (w : World Byte) :
    SameData w (es.foldl (fun w e => w.closeConn e.2) w) := by
  induction es generalizing w with
  | nil => exact SameData.refl w
  | cons e es ih => exact (sameData_closeConn e.2 w).trans (ih _)

/-- Numbers are closed and `fd_` is cleared, at most. -/
structure Retires (w w' : World Byte) : Prop where
  files : ∀ m y, w'.files m = some y → w.files m = some y
  fd : ∀ x, (w'.conns x).fd = (w.conns x).fd ∨ (w'.conns x).fd = -1

theorem Retires.refl (w : World Byte) : Retires w w := ⟨fun _ _ => id, fun _ => Or.inl rfl⟩

theorem Retires.trans {w₁ w₂ w₃ : World Byte} (h : Retires w₁ w₂) (h' : Retires w₂ w₃) : Retires w₁ w₃ := by
  refine ⟨fun m y hy => h.files m y (h'.files m y hy), ?_⟩
  intro x
  rcases h'.fd x with hx | hx
  · rw [hx]
    exact h.fd x
  · exact Or.inr hx

theorem retires_setConn {c : Connection Byte} (hfd : c.fd = (w.conns x).fd ∨ c.fd = -1) :
    Retires w (w.setConn x c) := by
  refine ⟨fun _ _ => id, ?_⟩
  intro y
  by_cases hy : y = x
  · subst hy
    rw [conns_setConn_self]
    exact hfd
  · rw [conns_setConn_ne c w hy]
    exact Or.inl rfl

theorem retires_close (x : Client) (m : ℤ) (w : World Byte) : Retires w (w.close x m) := by
  refine ⟨?_, fun _ => Or.inl rfl⟩
  intro k y hk
  by_cases hkm : k = m
  · simp [close, hkm] at hk
  · simpa [close, hkm] using hk

theorem retires_closeConn (x : Client) (w : World Byte) : Retires w (w.closeConn x) := by
  unfold closeConn
  split_ifs
  · exact Retires.refl w
  · have hmark : Retires w (w.setConn x (w.conns x).markClosed) := retires_setConn (Or.inl rfl)
    simp only []
    split_ifs
    · exact hmark
    · exact (hmark.trans (retires_close x _ _)).trans (retires_setConn (Or.inr rfl))

theorem retires_foldl_closeConn (es : List (Sigma fun _ : ℤ => Client)) (w : World Byte) :
    Retires w (es.foldl (fun w e => w.closeConn e.2) w) := by
  induction es generalizing w with
  | nil => exact Retires.refl w
  | cons e es ih => exact (retires_closeConn e.2 w).trans (ih _)

theorem Tagged.newClient (h : Tagged w) (n : ℤ) : Tagged (w.newClient n) := by
  refine ⟨?_, ?_⟩
  · intro y
    by_cases hy : y = w.accepted
    · subst hy
      rw [conns_newClient_self]
      exact Connection.owned_connected _ _ _
    · rw [conns_newClient_ne n w hy]
      exact h.owned y
  · intro y b hb
    by_cases hy : y = w.accepted
    · subst hy
      simp [World.newClient] at hb
    · simp only [World.newClient, Function.update_of_ne hy] at hb
      exact h.sent y b hb

end World

namespace Sys

open World Transition

/-- No byte of one client reaches another client or another client's connection. -/
structure Isolated (s : Sys) : Prop where
  passed : ∀ i < s.loops, ∀ k n x m y, s.pc (.loop i) = .sendSys k n x m → s.world.files m = some y →
    ∀ b ∈ (s.world.conns x).writePart, b.1 = some y
  sent : ∀ y, ∀ b ∈ s.world.sent y, b.1 = some y
  stored : ∀ x y b, b ∈ (s.world.conns x).readBuffer ∨ b ∈ (s.world.conns x).writeBuffer →
    b.1 = some y → y = x

/-- `accept` is going to return a number that a loop has loaded from `fd_`, or still finds there
after it has tested `state_`. -/
def hijacks (s : Sys) : Label → Bool
  | .accept n =>
      decide (∃ i < s.loops, (s.pc (.loop i)).checked.any (fun x => decide ((s.world.conns x).fd = n)) = true ∨
        (s.pc (.loop i)).loaded.any (fun p => decide (p.2 = n)) = true)
  | _ => false

/-- A number a loop uses, or is about to load, refers to the loop's own connection or to nothing. -/
structure Guarded (s : Sys) : Prop where
  checked : ∀ i < s.loops, ∀ x, (s.pc (.loop i)).checked = some x →
    ∀ y, s.world.files (s.world.conns x).fd = some y → y = x
  loaded : ∀ i < s.loops, ∀ x m, (s.pc (.loop i)).loaded = some (x, m) →
    ∀ y, s.world.files m = some y → y = x

section steps

variable {s s' : Sys} {l : Label} {t : Thread} {p : Pc} {n : ℤ} {x : Client}

theorem Core.files_neg (hc : Core s) : s.world.files (-1) = none := by
  cases hf : s.world.files (-1) with
  | none => rfl
  | some y => exact absurd (hc.files _ y hf).1 (by decide)

/-- Steps that only close numbers and clear `fd_`. -/
theorem Guarded.keeps (hc : Core s) (h : Guarded s) (hl : s'.loops = s.loops)
    (hpc : s'.pc = Function.update s.pc t p) (hch : p.checked = none ∨ p = s.pc t)
    (hld : p.loaded = none ∨ p = s.pc t)
    (hr : Retires s.world s'.world) : Guarded s' := by
  refine ⟨?_, ?_⟩
  · intro i hi x hx y hy
    rw [hl] at hi
    have hx' : (s.pc (.loop i)).checked = some x := by
      rcases pc_cases hpc (.loop i) with ⟨rfl, hi'⟩ | ⟨-, hi'⟩
      · rw [hi'] at hx
        rcases hch with hch | hch
        · rw [hch] at hx
          cases hx
        · rwa [hch] at hx
      · rwa [hi'] at hx
    rcases hr.fd x with hx'' | hx''
    · rw [hx''] at hy
      exact h.checked i hi x hx' y (hr.files _ y hy)
    · rw [hx''] at hy
      have hneg := hr.files _ y hy
      rw [hc.files_neg] at hneg
      cases hneg
  · intro i hi x m hx y hy
    rw [hl] at hi
    have hx' : (s.pc (.loop i)).loaded = some (x, m) := by
      rcases pc_cases hpc (.loop i) with ⟨rfl, hi'⟩ | ⟨-, hi'⟩
      · rw [hi'] at hx
        rcases hld with hld | hld
        · rw [hld] at hx
          cases hx
        · rwa [hld] at hx
      · rwa [hi'] at hx
    exact h.loaded i hi x m hx' y (hr.files m y hy)

theorem Guarded.quiet {i : ℕ} {w : World Byte} {errno : ℕ → Errno} (hc : Core s) (h : Guarded s)
    (hi : i < s.loops) (hq : Quiet s (.loop i) p w) :
    Guarded { s with world := w, errno := errno, pc := Function.update s.pc (.loop i) p } := by
  have hf := hq.core.files
  refine ⟨?_, ?_⟩
  · intro j hj x hx y hy
    simp only [hf, hq.core.fd] at hy
    by_cases hji : j = i
    · subst hji
      simp only [Function.update_self] at hx
      obtain ⟨⟨n, hh⟩, hst⟩ := hq.checked x hx
      have hadm := ((pcOk_of_not_busy hq.wasBusy).mp (hc.pcs _) n x hh).1
      rcases (hc.life x hadm).2 with ho | hshut
      · rw [ho.fd, ho.file] at hy
        exact (Option.some.inj hy).symm
      · exact absurd hshut.state hst
    · simp only [Function.update_of_ne (show Thread.loop j ≠ .loop i by simpa using hji)] at hx
      exact h.checked j hj x hx y hy
  · intro j hj x m hx y hy
    simp only [hf] at hy
    by_cases hji : j = i
    · subst hji
      simp only [Function.update_self] at hx
      obtain ⟨hch, rfl⟩ := hq.loaded x m hx
      exact h.checked j hj x hch y hy
    · simp only [Function.update_of_ne (show Thread.loop j ≠ .loop i by simpa using hji)] at hx
      exact h.loaded j hj x m hx y hy

theorem guarded_accept (hc : Core s) (h : Guarded s) (hok : hijacks s (.accept n) = false) :
    Guarded ((s.setWorld (s.world.newClient n)).goto .main (.add n s.world.accepted)) := by
  simp only [hijacks, decide_eq_false_iff_not, not_exists, not_and, not_or, Bool.not_eq_true] at hok
  refine ⟨?_, ?_⟩
  · intro i hi x hx y hy
    rw [goto_pc, Function.update_of_ne (by simp)] at hx
    obtain ⟨⟨m, hh⟩, hb⟩ := Pc.handles_of_checked hx
    have hadm := ((pcOk_of_not_busy hb).mp (hc.pcs (.loop i)) m x hh).1
    have hlt := (hc.life x hadm).1
    rw [goto_world, setWorld_world, conns_newClient_ne n _ (Nat.ne_of_lt hlt)] at hy
    have hne : (s.world.conns x).fd ≠ n := by
      intro hn
      have hany := (hok i hi).1
      have hx' : (s.pc (.loop i)).checked = some x := hx
      rw [hx'] at hany
      simp [hn] at hany
    rw [files_newClient_ne _ hne] at hy
    exact h.checked i hi x hx y hy
  · intro i hi x m hx y hy
    rw [goto_pc, Function.update_of_ne (by simp)] at hx
    have hne : m ≠ n := by
      rintro rfl
      have hany := (hok i hi).2
      have hx' : (s.pc (.loop i)).loaded = some (x, m) := hx
      rw [hx'] at hany
      simp at hany
    rw [goto_world, setWorld_world, files_newClient_ne _ hne] at hy
    exact h.loaded i hi x m hx y hy

theorem guarded_step (hc : Core s) (h : Guarded s) (hok : hijacks s l = false) (hs : step s l = some s') :
    Guarded s' := by
  obtain ⟨-, -, he⟩ := step_effect hs
  have hsame : Function.update s.pc Thread.main (s.pc .main) = s.pc := Function.update_eq_self _ _
  cases he with
  | quiet hi ht hq => exact h.quiet hc hi hq
  | accept hl hpc hn hfree =>
      subst hl
      exact guarded_accept hc h hok
  | tick _ | wait _ _ _ _ | skip _ _ | scan _ _ _ | crash _ =>
      exact h.keeps hc rfl hsame.symm (Or.inr rfl) (Or.inr rfl) ⟨fun _ _ => id, fun _ => Or.inl rfl⟩
  | errorEvent _ _ _ | del _ | find _ _ _ _ _ | sweepSkip _ _ _ | closeSkip _ _ _ | closeLoad _ _ _
  | closeNoFd _ _ _ | closeFd _ _ | erase _ _ | add _ _ _ _ | reject _ | register _ _ _ =>
      exact h.keeps hc rfl rfl (Or.inl rfl) (Or.inl rfl) ⟨fun _ _ => id, fun _ => Or.inl rfl⟩
  | lookup hl hpc hb herr hlock hx hp =>
      rcases hp with rfl | rfl
      · exact h.keeps hc rfl rfl (Or.inl rfl) (Or.inl rfl) (Retires.refl _)
      · exact h.keeps hc rfl rfl (Or.inl rfl) (Or.inl rfl) (Retires.refl _)
  | mark ht hm hh ho hch hld hb =>
      exact h.keeps hc rfl rfl (Or.inl hch) (Or.inl hld) (retires_setConn (Or.inl rfl))
  | closeStore ht hpc => exact h.keeps hc rfl rfl (Or.inl rfl) (Or.inl rfl) (retires_setConn (Or.inl rfl))
  | closeClear ht hpc => exact h.keeps hc rfl rfl (Or.inl rfl) (Or.inl rfl) (retires_setConn (Or.inr rfl))
  | closeSys ht hpc => exact h.keeps hc rfl rfl (Or.inl rfl) (Or.inl rfl) (retires_close _ _ _)
  | rejectClose hpc => exact h.keeps hc rfl rfl (Or.inl rfl) (Or.inl rfl) (retires_close _ _ _)
  | rejectDrop hpc => exact h.keeps hc rfl rfl (Or.inl rfl) (Or.inl rfl) (retires_closeConn _ _)
  | shutdown hpc hj hlock =>
      have hr := retires_foldl_closeConn s.world.pool.connections.entries s.world
      exact h.keeps hc rfl hsame.symm (Or.inr rfl) (Or.inr rfl) ⟨hr.files, hr.fd⟩

/-- What a guarded loop receives is of its own client, and so is what it sends. -/
theorem tagged_data {i : ℕ} {w : World Byte} (hg : Guarded s) (h : Tagged s.world) (hi : i < s.loops)
    (hd : DataEffect s.world (s.pc (.loop i)) w) : Tagged w := by
  cases hd with
  | none hsame => exact h.sameData hsame
  | room x => exact h.setConn (h.owned x).checkAndResizeReadBuffer
  | recv x m bs hld htag hopen hlen =>
      obtain ⟨y, hy⟩ := Option.isSome_iff_exists.mp hopen
      have hyx := hg.loaded i hi x m hld y hy
      subst hyx
      refine (h.setConn ((h.owned y).checkAndResizeReadBuffer.recvData hlen ?_)).logRecv m bs
      intro b hb
      rw [htag b hb, hy]
  | echo x => exact h.setConn (h.owned x).echo
  | send x m len hld hlen =>
      refine (h.setConn ((h.owned x).sendData hlen)).logSent ?_
      intro y hy b hb
      have hyx := hg.loaded i hi x m hld y hy
      rw [hyx]
      exact (h.owned x).write b (List.mem_of_mem_take hb)

theorem tagged_step (hg : Guarded s) (h : Tagged s.world) (hs : step s l = some s') : Tagged s'.world := by
  obtain ⟨-, -, he⟩ := step_effect hs
  have hrefl : SameData s.world s.world := SameData.refl _
  cases he with
  | quiet hi ht hq => exact tagged_data hg h hi hq.data
  | accept hl hpc hn hfree => exact h.newClient _
  | mark ht hm hh ho hch hld hb => exact h.sameData (sameData_setConn ⟨rfl, rfl, rfl, rfl⟩)
  | closeStore ht hpc => exact h.sameData (sameData_setConn ⟨rfl, rfl, rfl, rfl⟩)
  | closeClear ht hpc => exact h.sameData (sameData_setConn ⟨rfl, rfl, rfl, rfl⟩)
  | rejectDrop hpc => exact h.sameData (sameData_closeConn _ _)
  | shutdown hpc hj hlock =>
      have hd := sameData_foldl_closeConn s.world.pool.connections.entries s.world
      exact h.sameData ⟨hd.readBuffer, hd.writeBuffer, hd.readIdx, hd.writeIdx, hd.sent⟩
  | _ => exact h.sameData ⟨hrefl.readBuffer, hrefl.writeBuffer, hrefl.readIdx, hrefl.writeIdx, hrefl.sent⟩

theorem isolated_of_guarded (hg : Guarded s) (h : Tagged s.world) : Isolated s := by
  refine ⟨?_, h.sent, ?_⟩
  · intro i hi k n x m y hpc hy b hb
    have hyx := hg.loaded i hi x m (by rw [hpc]; rfl) y hy
    rw [hyx]
    exact (h.owned x).write b hb
  · intro x y b hb hby
    rcases (h.owned x).stored b hb with hn | hx
    · rw [hn] at hby
      cases hby
    · rw [hx] at hby
      exact (Option.some.inj hby).symm

/-- **Client isolation.**  In every run in which `accept` never returns a number that a `Recv` or
`Send` under way has loaded or can still load, every state is `Isolated`. -/
theorem isolated_of_reach {maxConnections threadNum : ℕ} {heartbeatTimeoutMs : ℤ}
    (h : Reach step (fun s l => hijacks s l = false) (init maxConnections heartbeatTimeoutMs threadNum) s) :
    Isolated s := by
  have hguard : Guarded (init maxConnections heartbeatTimeoutMs threadNum) := by
    refine ⟨?_, ?_⟩
    · intro i hi x hx
      cases hx
    · intro i hi x m hx
      cases hx
  have htag : Tagged (init maxConnections heartbeatTimeoutMs threadNum).world := by
    refine ⟨fun x => Connection.owned_connected _ _ _, ?_⟩
    intro y b hb
    cases hb
  have hinv := h.invariant (fun s => Core s ∧ Guarded s ∧ Tagged s.world) ⟨core_init _ _ _, hguard, htag⟩ ?_
  · exact isolated_of_guarded hinv.2.1 hinv.2.2
  · rintro s l s' ⟨hc, hg, ht⟩ hok hs
    exact ⟨core_step hc hs, guarded_step hc hg hok hs, tagged_step hg ht hs⟩

end steps

/-- A client in whose `Recv` its loop has tested `state_` and loaded `fd_`. -/
def receivingRun : List Label :=
  [.accept 5, .main, .main, .wait 0 [(5, { epollin := true })], .loop 0, .loop 0, .loop 0]

/-- The byte is received, and `Recv` goes on to the next call. -/
def echoRun : List Label :=
  receivingRun ++ [.recv 0 (.data [104]), .loop 0, .loop 0, .recv 0 (.error EAGAIN), .loop 0, .loop 0, .loop 0,
    .send 0 (.sent 1)]

/-- Before `recv`, the heartbeat removes the client, and a new client gets its number. -/
def hijackedRun : List Label :=
  receivingRun ++ [.tick 60001, .scan [5]] ++ List.replicate 7 .heartbeat ++ [.accept 5, .recv 0 (.data [104])]

theorem echoRun_isolated :
    ∃ s, run step (init 100000 60000 1) echoRun = some s ∧ s.world.sent 0 = [(some 0, 104)] ∧ Isolated s := by
  obtain ⟨s, hs, hsent⟩ := exists_of_any (o := run step (init 100000 60000 1) echoRun)
    (fun s => s.world.sent 0 = [(some 0, 104)]) (by decide +kernel)
  have hok : Along step (fun s l => hijacks s l = false) (init 100000 60000 1) echoRun := by
    decide +kernel
  exact ⟨s, hs, hsent, isolated_of_reach (hok.reach hs)⟩

/-- The byte that client `1` sent is stored in the connection of client `0`. -/
theorem hijackedRun_not_isolated :
    ∃ s, run step (init 100000 60000 1) hijackedRun = some s ∧ s.world.received 1 = [(some 1, 104)] ∧
      (some 1, 104) ∈ (s.world.conns 0).readBuffer ∧ ¬ Isolated s := by
  obtain ⟨s, hs, hrecv, hmem⟩ := exists_of_any (o := run step (init 100000 60000 1) hijackedRun)
    (fun s => s.world.received 1 = [(some 1, 104)] ∧ (some 1, 104) ∈ (s.world.conns 0).readBuffer)
    (by decide +kernel)
  refine ⟨s, hs, hrecv, hmem, ?_⟩
  intro hiso
  have h := hiso.stored 0 1 (some 1, 104) (Or.inl hmem) rfl
  cases h

end Sys

end TcpServer
