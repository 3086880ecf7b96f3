import TcpServer.Errno
import TcpServer.Footprint
import TcpServer.Lifecycle

/-! # The order of a batch

`HandleEvents` takes the events of one `epoll_wait` one after the other.  Each handler goes
through the pool, the epoll set and `errno`, which all handlers share, and may tear its
connection down in the middle of the batch.

A handler's footprint is its descriptor number - the entries of the pool, of the descriptor
table and of the epoll sets - and the client behind it.  On an open connection a handler depends
on nothing else, `errno` included (`Within.invoke`, `handleRead_world`), and changes nothing else
(`Beyond`), so that `Local.run_perm` applies.  `handleEvents_perm`: in every state the server
reaches, the events of a batch can be handled in any order. -/

namespace TcpServer

namespace World

variable {α : Type}

/-- One iteration of `EventLoop::HandleEvents` of IO loop `i`; `answers n` is what the kernel
answers to the handler of number `n`.  After an exception nothing is handled any more. -/
def handleEvent [Inhabited α] (i : ℕ) (answers : ℤ → List (RecvResult α) × SendResult) (s : World α × Errno)
    (p : ℤ × Events) : Option (World α × Errno) :=
  if s.1.crashed then some s
  else
    match handlerOf p.2 (answers p.1).1 (answers p.1).2 with
    | none => some s
    | some v => (s.1.invoke i p.1 v s.2).map fun o => (o.world, o.errno)

/-- `EventLoop::HandleEvents` of IO loop `i`. -/
def handleEvents [Inhabited α] (i : ℕ) (answers : ℤ → List (RecvResult α) × SendResult)
    (batch : List (ℤ × Events)) (w : World α) (e : Errno) : Option (World α × Errno) :=
  Transition.run (handleEvent i answers) (w, e) batch

/-! ### Outside and inside a footprint -/

/-- `w'` differs from `w` at most at the number `n` and the client `y`. -/
structure Beyond (n : ℤ) (y : Client) (w w' : World α) : Prop where
  pool : ∀ m, m ≠ n → w'.pool.getConnection m = w.pool.getConnection m
  files : ∀ m, m ≠ n → w'.files m = w.files m
  epoll : ∀ m, m ≠ n → ∀ j, w'.epoll j m = w.epoll j m
  conns : ∀ z, z ≠ y → w'.conns z = w.conns z
  received : ∀ z, z ≠ y → w'.received z = w.received z
  sent : ∀ z, z ≠ y → w'.sent z = w.sent z
  closes : ∀ z, z ≠ y → w'.closesOf z = w.closesOf z
  now : w'.now = w.now
  crashed : w'.crashed = w.crashed

/-- `w` and `w'` agree at the number `n` and the client `y`. -/
structure Within (n : ℤ) (y : Client) (w w' : World α) : Prop where
  pool : w'.pool.getConnection n = w.pool.getConnection n
  files : w'.files n = w.files n
  epoll : ∀ j, w'.epoll j n = w.epoll j n
  conns : w'.conns y = w.conns y
  received : w'.received y = w.received y
  sent : w'.sent y = w.sent y
  closes : w'.closesOf y = w.closesOf y
  now : w'.now = w.now

section parts

variable {i : ℕ} {n : ℤ} {y : Client} {w w₁ w₂ w' : World α}

theorem Beyond.refl (n : ℤ) (y : Client) (w : World α) : Beyond n y w w :=
  ⟨fun _ _ => rfl, fun _ _ => rfl, fun _ _ _ => rfl, fun _ _ => rfl, fun _ _ => rfl, fun _ _ => rfl,
    fun _ _ => rfl, rfl, rfl⟩

theorem Beyond.trans (h : Beyond n y w w₁) (h' : Beyond n y w₁ w₂) : Beyond n y w w₂ :=
  ⟨fun m hm => (h'.pool m hm).trans (h.pool m hm), fun m hm => (h'.files m hm).trans (h.files m hm),
    fun m hm j => (h'.epoll m hm j).trans (h.epoll m hm j),
    fun z hz => (h'.conns z hz).trans (h.conns z hz),
    fun z hz => (h'.received z hz).trans (h.received z hz),
    fun z hz => (h'.sent z hz).trans (h.sent z hz),
    fun z hz => (h'.closes z hz).trans (h.closes z hz), h'.now.trans h.now,
    h'.crashed.trans h.crashed⟩

theorem beyond_setConn (c : Connection α) : Beyond n y w (w.setConn y c) :=
  ⟨fun _ _ => rfl, fun _ _ => rfl, fun _ _ _ => rfl, fun _ hz => conns_setConn_ne c w hz, fun _ _ => rfl,
    fun _ _ => rfl, fun _ _ => rfl, rfl, rfl⟩

theorem Within.setConn (h : Within n y w w') (c : Connection α) :
    Within n y (w.setConn y c) (w'.setConn y c) :=
  ⟨h.pool, h.files, h.epoll, by rw [conns_setConn_self, conns_setConn_self], h.received, h.sent, h.closes,
    h.now⟩

theorem beyond_logRecv (hf : w.files n = some y) (bs : List α) : Beyond n y w (w.logRecv n bs) := by
  rw [logRecv_of_file hf]
  exact ⟨fun _ _ => rfl, fun _ _ => rfl, fun _ _ _ => rfl, fun _ _ => rfl,
    fun z hz => Function.update_of_ne hz _ _, fun _ _ => rfl, fun _ _ => rfl, rfl, rfl⟩

theorem Within.logRecv (h : Within n y w w') (hf : w.files n = some y) (bs : List α) :
    Within n y (w.logRecv n bs) (w'.logRecv n bs) := by
  rw [logRecv_of_file hf, logRecv_of_file (h.files.trans hf)]
  refine ⟨h.pool, h.files, h.epoll, h.conns, ?_, h.sent, h.closes, h.now⟩
  simp only [Function.update_self, h.received]

theorem beyond_logSent (hf : w.files n = some y) (bs : List α) : Beyond n y w (w.logSent n bs) := by
  rw [logSent_of_file hf]
  exact ⟨fun _ _ => rfl, fun _ _ => rfl, fun _ _ _ => rfl, fun _ _ => rfl, fun _ _ => rfl,
    fun z hz => Function.update_of_ne hz _ _, fun _ _ => rfl, rfl, rfl⟩

theorem Within.logSent (h : Within n y w w') (hf : w.files n = some y) (bs : List α) :
    Within n y (w.logSent n bs) (w'.logSent n bs) := by
  rw [logSent_of_file hf, logSent_of_file (h.files.trans hf)]
  refine ⟨h.pool, h.files, h.epoll, h.conns, h.received, ?_, h.closes, h.now⟩
  simp only [Function.update_self, h.sent]

theorem beyond_setInterest (v : Option Interest) : Beyond n y w (w.setInterest i n v) :=
  ⟨fun _ _ => rfl, fun _ _ => rfl, fun _ hm _ => epoll_setInterest_ne v w hm, fun _ _ => rfl, fun _ _ => rfl,
    fun _ _ => rfl, fun _ _ => rfl, rfl, rfl⟩

theorem Within.setInterest (h : Within n y w w') (v : Option Interest) :
    Within n y (w.setInterest i n v) (w'.setInterest i n v) := by
  refine ⟨h.pool, h.files, ?_, h.conns, h.received, h.sent, h.closes, h.now⟩
  intro j
  by_cases hj : j = i
  · subst hj
    rw [epoll_setInterest_self, epoll_setInterest_self]
  · simpa [World.setInterest, hj] using h.epoll j

theorem beyond_close (hf : w.files n = some y) : Beyond n y w (w.close y n) := by
  refine ⟨fun _ _ => rfl, fun m hm => files_close_ne y w hm, fun m hm _ => epoll_close_ne y w hm,
    fun _ _ => rfl, fun _ _ => rfl, fun _ _ => rfl, ?_, rfl, rfl⟩
  intro z hz
  show List.filter _ (w.closeLog ++ [(y, w.files n)]) = _
  rw [closesOf_append, if_neg (by simp [hf, Ne.symm hz]), List.append_nil]

theorem Within.close (h : Within n y w w') : Within n y (w.close y n) (w'.close y n) := by
  refine ⟨h.pool, by simp [World.close], fun j => by simp [World.close], h.conns, h.received, h.sent, ?_, h.now⟩
  show List.filter _ (w'.closeLog ++ [(y, w'.files n)]) = List.filter _ (w.closeLog ++ [(y, w.files n)])
  rw [closesOf_append, closesOf_append, h.closes, h.files]

/-! ### `Close` and the ends of the handlers -/

theorem beyond_closeConn (hf : w.files n = some y) (hfd : (w.conns y).fd = n) : Beyond n y w (w.closeConn y) := by
  unfold closeConn
  split_ifs
  · exact Beyond.refl n y w
  · have hset : Beyond n y w (w.setConn y (w.conns y).markClosed) := beyond_setConn _
    simp only [conns_setConn_self]
    split_ifs
    · exact hset
    · have hfd' : (w.conns y).markClosed.fd = n := hfd
      rw [hfd']
      exact (hset.trans (beyond_close hf)).trans (beyond_setConn _)

theorem Within.closeConn (h : Within n y w w') (hfd : (w.conns y).fd = n) :
    Within n y (w.closeConn y) (w'.closeConn y) := by
  unfold World.closeConn
  rw [h.conns]
  split_ifs
  · exact h
  · have hset := h.setConn (w.conns y).markClosed
    have hfd' : (w.conns y).markClosed.fd = n := hfd
    simp only [conns_setConn_self, hfd']
    split_ifs
    · exact hset
    · have hclose := hset.close
      rw [hclose.conns]
      exact hclose.setConn _

theorem beyond_erase : Beyond n y w (w.setPool (w.pool.erase n)) :=
  ⟨fun _ hm => ConnectionPool.getConnection_erase_ne w.pool hm, fun _ _ => rfl, fun _ _ _ => rfl,
    fun _ _ => rfl, fun _ _ => rfl, fun _ _ => rfl, fun _ _ => rfl, rfl, rfl⟩

theorem Within.erase (h : Within n y w w') :
    Within n y (w.setPool (w.pool.erase n)) (w'.setPool (w'.pool.erase n)) := by
  refine ⟨?_, h.files, h.epoll, h.conns, h.received, h.sent, h.closes, h.now⟩
  rw [setPool_pool, setPool_pool, ConnectionPool.getConnection_erase_self, ConnectionPool.getConnection_erase_self]

end parts

/-- The number `n` is the open, registered number of client `y`, and what the pool holds under it
is the connection of `y`. -/
structure Attached (i : ℕ) (n : ℤ) (y : Client) (w : World α) : Prop where
  file : w.files n = some y
  registered : (w.epoll i n).isSome
  pooled : ∀ x, w.pool.getConnection n = some x → x = y ∧ (w.conns y).fd = n

section ends

variable {i : ℕ} {n : ℤ} {y : Client} {w w₁ w' : World α}

theorem Attached.onlyConn (h : Attached i n y w) (ho : OnlyConn y w w₁) : Attached i n y w₁ := by
  refine ⟨by rw [ho.files, h.file], by rw [ho.epoll]; exact h.registered, ?_⟩
  intro x hx
  rw [ho.pool] at hx
  rw [ho.fd]
  exact h.pooled x hx

theorem Attached.within (h : Attached i n y w) (hw : Within n y w w') : Attached i n y w' := by
  refine ⟨hw.files.trans h.file, by rw [hw.epoll]; exact h.registered, ?_⟩
  intro x hx
  rw [hw.pool] at hx
  rw [hw.conns]
  exact h.pooled x hx

theorem Attached.isSome (h : Attached i n y w) : (w.files n).isSome := Option.isSome_of_eq_some h.file

theorem beyond_handleError (h : Attached i n y w) : Beyond n y w (w.handleError i n) := by
  rw [LoopState.handleError_spec h.isSome h.registered]
  have hset : Beyond n y w (w.setInterest i n none) := beyond_setInterest none
  unfold removeConnection
  split
  · exact hset
  · rename_i x hx
    obtain ⟨rfl, hfd⟩ := h.pooled x hx
    exact (hset.trans (beyond_closeConn h.file hfd)).trans beyond_erase

theorem Within.handleError (hw : Within n y w w') (h : Attached i n y w) :
    Within n y (w.handleError i n) (w'.handleError i n) := by
  have h' := h.within hw
  rw [LoopState.handleError_spec h.isSome h.registered, LoopState.handleError_spec h'.isSome h'.registered]
  have hset : Within n y (w.setInterest i n none) (w'.setInterest i n none) := hw.setInterest none
  unfold removeConnection
  rw [hset.pool]
  split
  · exact hset
  · rename_i x hx
    obtain ⟨rfl, hfd⟩ := h.pooled x hx
    exact (hset.closeConn hfd).erase

theorem beyond_rearm (h : Attached i n y w) : Beyond n y w (w.rearm i n y) := by
  rw [rearm_spec h.isSome h.registered]
  exact beyond_setInterest _

theorem Within.rearm (hw : Within n y w w') (h : Attached i n y w) :
    Within n y (w.rearm i n y) (w'.rearm i n y) := by
  have h' := h.within hw
  rw [rearm_spec h.isSome h.registered, rearm_spec h'.isSome h'.registered, hw.conns]
  exact hw.setInterest _

end ends

/-! ### `Recv` and `Send` -/

section calls

variable {i : ℕ} {n : ℤ} {y : Client} {w w₁ w' : World α} {e e' : Errno} {ret : ℤ}

theorem Within.sysRecv (hw : Within n y w w') (r : RecvResult α) : w'.sysRecv n r = w.sysRecv n r := by
  rw [World.sysRecv, World.sysRecv, hw.files]

theorem Within.sysSend (hw : Within n y w w') (r : SendResult) : w'.sysSend n r = w.sysSend n r := by
  rw [World.sysSend, World.sysSend, hw.files]

theorem beyond_recv [Inhabited α] {r : RecvResult α} (hf : w.files n = some y) (hfd : (w.conns y).fd = n)
    (h : w.recv y e r = some (w₁, ret, e')) : Beyond n y w w₁ := by
  have hfd' : (w.conns y).checkAndResizeReadBuffer.fd = n := by rw [Connection.fd_checkAndResizeReadBuffer, hfd]
  unfold recv at h
  split_ifs at h
  · cases h
    exact Beyond.refl n y w
  · simp only [hfd'] at h
    split at h
    · split_ifs at h
      cases h
      refine Beyond.trans ?_ (beyond_logRecv ?_ _)
      · exact beyond_setConn _
      · exact hf
    · cases h
      exact beyond_setConn _
    · cases h
      exact beyond_setConn _

theorem Within.recv [Inhabited α] {r : RecvResult α} (hw : Within n y w w') (hf : w.files n = some y)
    (hfd : (w.conns y).fd = n) (h : w.recv y e r = some (w₁, ret, e')) :
    ∃ w₁', w'.recv y e r = some (w₁', ret, e') ∧ Within n y w₁ w₁' := by
  have hfd' : (w.conns y).checkAndResizeReadBuffer.fd = n := by rw [Connection.fd_checkAndResizeReadBuffer, hfd]
  unfold World.recv at h ⊢
  rw [hw.conns]
  split_ifs at h ⊢
  · cases h
    exact ⟨w', rfl, hw⟩
  · simp only [hfd', hw.sysRecv, hw.now] at h ⊢
    split at h
    · split_ifs at h ⊢
      cases h
      exact ⟨_, rfl, (hw.setConn _).logRecv hf _⟩
    · cases h
      exact ⟨_, rfl, hw.setConn _⟩
    · cases h
      exact ⟨_, rfl, hw.setConn _⟩

theorem beyond_send {r : SendResult} (hf : w.files n = some y) (hfd : (w.conns y).fd = n)
    (h : w.send y e r = some (w₁, ret, e')) : Beyond n y w w₁ := by
  unfold send at h
  simp only [hfd] at h
  split_ifs at h
  · cases h
    exact Beyond.refl n y w
  · cases h
    exact Beyond.refl n y w
  · split at h
    · split_ifs at h
      cases h
      refine Beyond.trans ?_ (beyond_logSent ?_ _)
      · exact beyond_setConn _
      · exact hf
    · cases h
      exact beyond_setConn _
    · cases h
      exact beyond_setConn _

theorem Within.send {r : SendResult} (hw : Within n y w w') (hf : w.files n = some y)
    (hfd : (w.conns y).fd = n) (h : w.send y e r = some (w₁, ret, e')) :
    ∃ w₁', w'.send y e r = some (w₁', ret, e') ∧ Within n y w₁ w₁' := by
  unfold World.send at h ⊢
  simp only [hw.conns, hfd, hw.sysSend, hw.now] at h ⊢
  split_ifs at h ⊢
  · cases h
    exact ⟨w', rfl, hw⟩
  · cases h
    exact ⟨w', rfl, hw⟩
  · split at h
    · split_ifs at h ⊢
      cases h
      exact ⟨_, rfl, (hw.setConn _).logSent hf _⟩
    · cases h
      exact ⟨_, rfl, hw.setConn _⟩
    · cases h
      exact ⟨_, rfl, hw.setConn _⟩

end calls

/-! ### The handlers -/

section handlers

variable [Inhabited α] {i : ℕ} {n : ℤ} {y : Client} {w w' : World α} {e : Errno}

theorem beyond_drain {rs : List (RecvResult α)} {d : Drained α} (hf : w.files n = some y)
    (hfd : (w.conns y).fd = n) (h : drain y rs w e = some d) : Beyond n y w d.world := by
  induction rs generalizing w e d with
  | nil =>
      simp only [drain] at h
      split_ifs at h
      cases h
      exact Beyond.refl n y w
  | cons r rs ih =>
      simp only [drain] at h
      split at h
      · cases h
      · rename_i w₁ ret e' hr
        have ho := onlyConn_recv hr
        split_ifs at h
        · obtain ⟨d', hd, rfl⟩ := Option.map_eq_some_iff.mp h
          exact (beyond_recv hf hfd hr).trans (ih (d := d') (by rw [ho.files, hf]) (by rw [ho.fd, hfd]) hd)
        · cases h
          exact beyond_recv hf hfd hr

theorem Within.drain {rs : List (RecvResult α)} {d : Drained α} (hw : Within n y w w')
    (hf : w.files n = some y) (hfd : (w.conns y).fd = n) (h : drain y rs w e = some d) :
    ∃ d', World.drain y rs w' e = some d' ∧ d'.ret = d.ret ∧ d'.errno = d.errno ∧ Within n y d.world d'.world := by
  induction rs generalizing w w' e d with
  | nil =>
      simp only [World.drain, hw.conns] at h ⊢
      split_ifs at h ⊢
      cases h
      exact ⟨_, rfl, rfl, rfl, hw⟩
  | cons r rs ih =>
      simp only [World.drain] at h
      split at h
      · cases h
      · rename_i w₁ ret e' hr
        have ho := onlyConn_recv hr
        obtain ⟨w₁', hr', hw₁⟩ := hw.recv hf hfd hr
        simp only [World.drain, hr']
        split_ifs at h ⊢
        · obtain ⟨d₁, hd, rfl⟩ := Option.map_eq_some_iff.mp h
          obtain ⟨d₁', hd', hret, he, hw₂⟩ := ih hw₁ (by rw [ho.files, hf]) (by rw [ho.fd, hfd]) hd
          exact ⟨{ d₁' with points := w₁' :: d₁'.points }, by rw [hd']; rfl, hret, he, hw₂⟩
        · cases h
          exact ⟨_, rfl, rfl, rfl, hw₁⟩

theorem beyond_handleRead {rs : List (RecvResult α)} {sr : SendResult} {o : Outcome α} (ha : Attached i n y w)
    (h : w.handleRead i n rs sr e = some o) : Beyond n y w o.world := by
  unfold handleRead at h
  split at h
  · cases h
    exact Beyond.refl n y w
  · rename_i x hx
    obtain ⟨rfl, hfd⟩ := ha.pooled x hx
    obtain ⟨d, hd, had⟩ := Option.bind_eq_some_iff.mp h
    have ho := onlyConn_drain hd
    have hb := beyond_drain ha.file hfd hd
    have hatt := ha.onlyConn ho
    unfold afterDrain at had
    split_ifs at had
    · cases had
      exact hb.trans (beyond_handleError hatt)
    · cases had
      exact hb.trans (beyond_handleError hatt)
    · simp only [] at had
      split at had
      · cases had
      · rename_i w₂ ret e' hs
        have hecho : OnlyConn x d.world (d.world.setConn x (d.world.conns x).echo) :=
          onlyConn_setConn Connection.fd_echo
        have hatt₂ := (hatt.onlyConn hecho).onlyConn (onlyConn_send hs)
        have hb₂ := (hb.trans (beyond_setConn _)).trans
          (beyond_send (hatt.onlyConn hecho).file (by rw [hecho.fd, ho.fd, hfd]) hs)
        split_ifs at had <;> cases had
        · exact hb₂.trans (beyond_handleError hatt₂)
        · exact hb₂.trans (beyond_rearm hatt₂)
    · cases had
      exact hb.trans (beyond_rearm hatt)

theorem Within.handleRead {rs : List (RecvResult α)} {sr : SendResult} {o : Outcome α} (hw : Within n y w w')
    (ha : Attached i n y w) (h : w.handleRead i n rs sr e = some o) :
    ∃ o', w'.handleRead i n rs sr e = some o' ∧ Within n y o.world o'.world := by
  unfold World.handleRead at h ⊢
  rw [hw.pool]
  split at h
  · cases h
    exact ⟨_, rfl, hw⟩
  · rename_i x hx
    obtain ⟨rfl, hfd⟩ := ha.pooled x hx
    obtain ⟨d, hd, had⟩ := Option.bind_eq_some_iff.mp h
    have ho := onlyConn_drain hd
    have hatt := ha.onlyConn ho
    obtain ⟨d', hd', hret, he, hwd⟩ := hw.drain ha.file hfd hd
    simp only [hd', Option.bind_some]
    unfold afterDrain at had ⊢
    rw [hret, he, hwd.conns]
    split_ifs at had ⊢
    · cases had
      exact ⟨_, rfl, hwd.handleError hatt⟩
    · cases had
      exact ⟨_, rfl, hwd.handleError hatt⟩
    · simp only [] at had ⊢
      split at had
      · cases had
      · rename_i w₂ ret e' hs
        have hecho : OnlyConn x d.world (d.world.setConn x (d.world.conns x).echo) :=
          onlyConn_setConn Connection.fd_echo
        have hatt₂ := (hatt.onlyConn hecho).onlyConn (onlyConn_send hs)
        obtain ⟨w₂', hs', hw₂⟩ := (hwd.setConn (d.world.conns x).echo).send (hatt.onlyConn hecho).file
          (by rw [hecho.fd, ho.fd, hfd]) hs
        simp only [hs']
        split_ifs at had ⊢ <;> cases had
        · exact ⟨_, rfl, hw₂.handleError hatt₂⟩
        · exact ⟨_, rfl, hw₂.rearm hatt₂⟩
    · cases had
      exact ⟨_, rfl, hwd.rearm hatt⟩

omit [Inhabited α] in
theorem beyond_handleWrite {sr : SendResult} {o : Outcome α} (ha : Attached i n y w)
    (h : w.handleWrite i n sr e = some o) : Beyond n y w o.world := by
  unfold handleWrite at h
  split at h
  · cases h
    exact Beyond.refl n y w
  · rename_i x hx
    obtain ⟨rfl, hfd⟩ := ha.pooled x hx
    split at h
    · cases h
    · rename_i w₁ ret e' hs
      have hb := beyond_send ha.file hfd hs
      have hatt := ha.onlyConn (onlyConn_send hs)
      split_ifs at h <;> cases h
      · exact hb.trans (beyond_handleError hatt)
      · exact hb
      · have htouch : OnlyConn x w₁ (w₁.setConn x ((w₁.conns x).updateHeartbeat w₁.now)) := onlyConn_setConn rfl
        exact (hb.trans (beyond_setConn _)).trans (beyond_rearm (hatt.onlyConn htouch))

omit [Inhabited α] in
theorem Within.handleWrite {sr : SendResult} {o : Outcome α} (hw : Within n y w w') (ha : Attached i n y w)
    (h : w.handleWrite i n sr e = some o) :
    ∃ o', w'.handleWrite i n sr e = some o' ∧ Within n y o.world o'.world := by
  unfold World.handleWrite at h ⊢
  rw [hw.pool]
  split at h
  · cases h
    exact ⟨_, rfl, hw⟩
  · rename_i x hx
    obtain ⟨rfl, hfd⟩ := ha.pooled x hx
    split at h
    · cases h
    · rename_i w₁ ret e' hs
      obtain ⟨w₁', hs', hw₁⟩ := hw.send ha.file hfd hs
      have hatt := ha.onlyConn (onlyConn_send hs)
      simp only [hs']
      split_ifs at h ⊢ <;> cases h
      · exact ⟨_, rfl, hw₁.handleError hatt⟩
      · exact ⟨_, rfl, hw₁⟩
      · have htouch : OnlyConn x w₁ (w₁.setConn x ((w₁.conns x).updateHeartbeat w₁.now)) := onlyConn_setConn rfl
        rw [hw₁.conns, hw₁.now]
        exact ⟨_, rfl, (hw₁.setConn _).rearm (hatt.onlyConn htouch)⟩

theorem beyond_invoke {v : Invocation α} {o : Outcome α} (ha : Attached i n y w)
    (h : w.invoke i n v e = some o) : Beyond n y w o.world := by
  cases v with
  | read rs sr => exact beyond_handleRead ha h
  | write sr => exact beyond_handleWrite ha h
  | error =>
      cases h
      exact beyond_handleError ha

/-- The handlers depend on their footprint only, and on an open connection they do not depend on
`errno` either. -/
theorem Within.invoke {v : Invocation α} {o : Outcome α} (hw : Within n y w w') (ha : Attached i n y w)
    (hopen : ∀ x, w.pool.getConnection n = some x → (w.conns x).state ≠ .closed) (e' : Errno)
    (h : w.invoke i n v e = some o) :
    ∃ o', w'.invoke i n v e' = some o' ∧ Within n y o.world o'.world := by
  have hopen' : ∀ x, w'.pool.getConnection n = some x → (w'.conns x).state ≠ .closed := by
    intro x hx
    rw [hw.pool] at hx
    obtain ⟨rfl, -⟩ := ha.pooled x hx
    rw [hw.conns]
    exact hopen x hx
  have hnext : ∀ {f : Errno → Option (Outcome α)} {o₁ : Outcome α},
      (f e').map Outcome.world = (f e).map Outcome.world → f e = some o₁ →
      ∃ o₂, f e' = some o₂ ∧ o₂.world = o₁.world := by
    intro f o₁ hmap hf
    rw [hf, Option.map_some] at hmap
    exact Option.map_eq_some_iff.mp hmap
  cases v with
  | read rs sr =>
      obtain ⟨o₁, h₁, hw₁⟩ := hw.handleRead ha h
      obtain ⟨o₂, h₂, heq⟩ := hnext (f := fun e => w'.handleRead i n rs sr e) (handleRead_world e e' hopen') h₁
      exact ⟨o₂, h₂, heq ▸ hw₁⟩
  | write sr =>
      obtain ⟨o₁, h₁, hw₁⟩ := hw.handleWrite ha h
      obtain ⟨o₂, h₂, heq⟩ := hnext (f := fun e => w'.handleWrite i n sr e) (handleWrite_world e e' hopen') h₁
      exact ⟨o₂, h₂, heq ▸ hw₁⟩
  | error =>
      cases h
      exact ⟨_, rfl, hw.handleError ha⟩

end handlers

/-! ### Batches -/

/-- Where the handlers of different events can meet. -/
inductive Place where
  | number (m : ℤ)
  | client (z : Client)

/-- `s` and `t` agree at a number or a client. -/
def SameAt : Place → World α × Errno → World α × Errno → Prop
  | .number m, s, t => t.1.pool.getConnection m = s.1.pool.getConnection m ∧ t.1.files m = s.1.files m ∧
      ∀ j, t.1.epoll j m = s.1.epoll j m
  | .client z, s, t => t.1.conns z = s.1.conns z ∧ t.1.received z = s.1.received z ∧
      t.1.sent z = s.1.sent z ∧ t.1.closesOf z = s.1.closesOf z

theorem sameAt_equivalence (q : Place) : Equivalence (SameAt q : World α × Errno → World α × Errno → Prop) := by
  cases q with
  | number m =>
      refine ⟨fun _ => ⟨rfl, rfl, fun _ => rfl⟩, ?_, ?_⟩
      · rintro s t ⟨h1, h2, h3⟩
        exact ⟨h1.symm, h2.symm, fun j => (h3 j).symm⟩
      · rintro s t u ⟨h1, h2, h3⟩ ⟨k1, k2, k3⟩
        exact ⟨k1.trans h1, k2.trans h2, fun j => (k3 j).trans (h3 j)⟩
  | client z =>
      refine ⟨fun _ => ⟨rfl, rfl, rfl, rfl⟩, ?_, ?_⟩
      · rintro s t ⟨h1, h2, h3, h4⟩
        exact ⟨h1.symm, h2.symm, h3.symm, h4.symm⟩
      · rintro s t u ⟨h1, h2, h3, h4⟩ ⟨k1, k2, k3, k4⟩
        exact ⟨k1.trans h1, k2.trans h2, k3.trans h3, k4.trans h4⟩

/-- `errno` shows at no place. -/
theorem errno_sameAt (q : Place) (w : World α) (e e' : Errno) : SameAt q (w, e) (w, e') := by
  cases q with
  | number m => exact ⟨rfl, rfl, fun _ => rfl⟩
  | client z => exact ⟨rfl, rfl, rfl, rfl⟩

/-- The footprint of an event: its number, and the client behind it. -/
def foot (own : ℤ → Option Client) (p : ℤ × Events) : Set Place :=
  {q | q = .number p.1 ∨ ∃ y, own p.1 = some y ∧ q = .client y}

/-- The event `p` can be handled: it belongs to a registered number of a client, whose connection
is open if there is one, or it is an `EPOLLIN` of the wakeup eventfd. -/
structure Handled (own : ℤ → Option Client) (i : ℕ) (t : ℤ) (p : ℤ × Events) (s : World α × Errno) : Prop where
  alive : s.1.crashed = false
  now : s.1.now = t
  isOpen : ∀ x, s.1.pool.getConnection p.1 = some x → (s.1.conns x).state ≠ .closed
  event : (∃ y, own p.1 = some y ∧ Attached i p.1 y s.1) ∨
    (p.2 = { epollin := true } ∧ s.1.pool.getConnection p.1 = none)

section batch

variable [Inhabited α] {own : ℤ → Option Client} {i : ℕ} {t : ℤ} {p p' : ℤ × Events} {s s' : World α × Errno}
  {answers : ℤ → List (RecvResult α) × SendResult}

theorem foot_disjoint (hinj : ∀ m m' y, own m = some y → own m' = some y → m = m') (hne : p.1 ≠ p'.1) :
    Disjoint (foot own p) (foot own p') := by
  rw [Set.disjoint_left]
  rintro q (rfl | ⟨y, hy, rfl⟩) (hq | ⟨y', hy', hq⟩)
  · exact hne (Place.number.inj hq)
  · cases hq
  · cases hq
  · cases hq
    exact hne (hinj _ _ _ hy hy')

/-- An event of the wakeup eventfd finds no connection. -/
theorem handleEvent_wakeup (hev : p.2 = { epollin := true }) (hp : s.1.pool.getConnection p.1 = none) :
    handleEvent i answers s p = some s := by
  unfold handleEvent
  split_ifs
  · rfl
  · simp [hev, handlerOf, invoke, handleRead, hp]

theorem handleEvent_cases (hal : s.1.crashed = false) (h : handleEvent i answers s p = some s') :
    (handlerOf p.2 (answers p.1).1 (answers p.1).2 = none ∧ s' = s) ∨
      ∃ v o, handlerOf p.2 (answers p.1).1 (answers p.1).2 = some v ∧ s.1.invoke i p.1 v s.2 = some o ∧
        s' = (o.world, o.errno) := by
  unfold handleEvent at h
  rw [if_neg (by simp [hal])] at h
  split at h
  · rename_i hno
    cases h
    exact Or.inl ⟨hno, rfl⟩
  · rename_i v hv
    obtain ⟨o, ho, rfl⟩ := Option.map_eq_some_iff.mp h
    exact Or.inr ⟨v, o, hv, ho, rfl⟩

/-- What an event of a client leaves alone. -/
theorem Handled.beyond (h : Handled own i t p s) (hs : handleEvent i answers s p = some s') :
    s' = s ∨ ∃ y, own p.1 = some y ∧ Beyond p.1 y s.1 s'.1 := by
  rcases h.event with ⟨y, hy, ha⟩ | ⟨hev, hp⟩
  · obtain ⟨-, rfl⟩ | ⟨v, o, -, ho, rfl⟩ := handleEvent_cases h.alive hs
    · exact Or.inl rfl
    · exact Or.inr ⟨y, hy, beyond_invoke ha ho⟩
  · rw [handleEvent_wakeup hev hp] at hs
    exact Or.inl (Option.some.inj hs).symm

theorem Handled.frame {q : Place} (h : Handled own i t p s) (hs : handleEvent i answers s p = some s')
    (hq : q ∉ foot own p) : SameAt q s s' := by
  obtain rfl | ⟨y, hy, hb⟩ := h.beyond hs
  · exact (sameAt_equivalence q).refl _
  · cases q with
    | number m =>
        have hm : m ≠ p.1 := by
          rintro rfl
          exact hq (Or.inl rfl)
        exact ⟨hb.pool m hm, hb.files m hm, hb.epoll m hm⟩
    | client z =>
        have hz : z ≠ y := by
          rintro rfl
          exact hq (Or.inr ⟨z, hy, rfl⟩)
        exact ⟨hb.conns z hz, hb.received z hz, hb.sent z hz, hb.closes z hz⟩

theorem Handled.depends (h : Handled own i t p s) (h' : Handled own i t p s')
    (hsame : ∀ q ∈ foot own p, SameAt q s s') {u : World α × Errno} (hs : handleEvent i answers s p = some u) :
    ∃ u', handleEvent i answers s' p = some u' ∧ ∀ q ∈ foot own p, SameAt q u u' := by
  obtain ⟨hpool, hfiles, hepoll⟩ := hsame _ (Or.inl rfl)
  rcases h.event with ⟨y, hy, ha⟩ | ⟨hev, hp⟩
  · obtain ⟨hconns, hrec, hsent, hcl⟩ := hsame _ (Or.inr ⟨y, hy, rfl⟩)
    have hw : Within p.1 y s.1 s'.1 :=
      ⟨hpool, hfiles, hepoll, hconns, hrec, hsent, hcl, h'.now.trans h.now.symm⟩
    obtain ⟨hno, rfl⟩ | ⟨v, o, hv, ho, rfl⟩ := handleEvent_cases h.alive hs
    · exact ⟨s', by simp [handleEvent, hno, h'.alive], hsame⟩
    · obtain ⟨o', ho', hwo⟩ := hw.invoke ha h.isOpen s'.2 ho
      refine ⟨(o'.world, o'.errno), by simp [handleEvent, hv, ho', h'.alive], ?_⟩
      rintro q (rfl | ⟨z, hz, rfl⟩)
      · exact ⟨hwo.pool, hwo.files, hwo.epoll⟩
      · rw [hy] at hz
        cases hz
        exact ⟨hwo.conns, hwo.received, hwo.sent, hwo.closes⟩
  · rw [handleEvent_wakeup hev hp] at hs
    cases hs
    exact ⟨s', handleEvent_wakeup hev (hpool.trans hp), hsame⟩

theorem Handled.keeps (hd : Disjoint (foot own p') (foot own p)) (h : Handled own i t p s)
    (h' : Handled own i t p' s) (hs : handleEvent i answers s p' = some s') : Handled own i t p s' := by
  obtain ⟨hpool, hfiles, hepoll⟩ := h'.frame hs (Set.disjoint_right.mp hd (Or.inl rfl))
  have hconns : ∀ y, own p.1 = some y → s'.1.conns y = s.1.conns y := fun y hy =>
    (h'.frame hs (Set.disjoint_right.mp hd (Or.inr ⟨y, hy, rfl⟩))).1
  obtain ⟨hal, hnow⟩ : s'.1.crashed = s.1.crashed ∧ s'.1.now = s.1.now := by
    obtain rfl | ⟨y, -, hb⟩ := h'.beyond hs
    · exact ⟨rfl, rfl⟩
    · exact ⟨hb.crashed, hb.now⟩
  refine ⟨hal.trans h.alive, hnow.trans h.now, ?_, ?_⟩
  · intro x hx
    rw [hpool] at hx
    rcases h.event with ⟨y, hy, ha⟩ | ⟨-, hp⟩
    · obtain ⟨rfl, -⟩ := ha.pooled x hx
      rw [hconns x hy]
      exact h.isOpen x hx
    · rw [hp] at hx
      cases hx
  · rcases h.event with ⟨y, hy, ha⟩ | ⟨hev, hp⟩
    · refine Or.inl ⟨y, hy, hfiles.trans ha.file, by rw [hepoll]; exact ha.registered, ?_⟩
      intro x hx
      rw [hpool] at hx
      rw [hconns y hy]
      exact ha.pooled x hx
    · exact Or.inr ⟨hev, hpool.trans hp⟩

theorem handleEvent_local (own : ℤ → Option Client) (i : ℕ) (t : ℤ)
    (answers : ℤ → List (RecvResult α) × SendResult) :
    Transition.Local (handleEvent i answers) SameAt (foot own) (Handled own i t) :=
  ⟨sameAt_equivalence, fun h hs hq => h.frame hs hq, fun h h' hsame hs => h.depends h' hsame hs,
    fun hd h h' hs => h.keeps hd h' hs⟩

end batch

/-- Two worlds with the same pool, connections, traffic, descriptors, registrations and `close`
calls. -/
structure SameEnd (w w' : World α) : Prop where
  pool : ∀ m, w'.pool.getConnection m = w.pool.getConnection m
  conns : w'.conns = w.conns
  received : w'.received = w.received
  sent : w'.sent = w.sent
  epoll : w'.epoll = w.epoll
  files : w'.files = w.files
  closed : ∀ c, c ∈ w'.closeLog ↔ c ∈ w.closeLog

theorem mem_closesOf_fst (w : World α) (c : Client × Option Client) : c ∈ w.closesOf c.1 ↔ c ∈ w.closeLog := by
  simp [closesOf]

theorem sameEnd_of_sameAt {s t : World α × Errno} (h : ∀ q, SameAt q s t) : SameEnd s.1 t.1 := by
  refine ⟨fun m => (h (.number m)).1, funext fun z => (h (.client z)).1, funext fun z => (h (.client z)).2.1,
    funext fun z => (h (.client z)).2.2.1, funext fun j => funext fun m => (h (.number m)).2.2 j,
    funext fun m => (h (.number m)).2.1, ?_⟩
  intro c
  rw [← mem_closesOf_fst, ← mem_closesOf_fst, (h (.client c.1)).2.2.2]

end World

namespace Sys

open World

section batch

variable {s : Sys} {maxConnections threadNum : ℕ} {heartbeatTimeoutMs : ℤ} {i : ℕ} {wakeupFd : ℤ}
  {batch batch' : List (ℤ × Events)} {e : Errno} {o : World Byte × Errno}

/-- With the pool's mutex free, a registered number is attached to the client behind it. -/
theorem Core.attached (hc : Core s) (hlock : s.lock = none) {n : ℤ} (hreg : (s.world.epoll i n).isSome) :
    ∃ y, s.world.files n = some y ∧ Attached i n y s.world := by
  obtain ⟨y, hf, -, honly⟩ := hc.epoll i n hreg
  refine ⟨y, hf, hf, hreg, ?_⟩
  intro x hx
  obtain rfl := honly x hx
  refine ⟨rfl, ?_⟩
  rw [(hc.open_of_unlocked hlock hx).fd, (hc.pooled n x hx).1]

/-- **The order of a batch.**  In every state the server reaches with the pool's mutex free, and
for every batch of events of different numbers that are registered with loop `i` - or of its wakeup
eventfd, with `EPOLLIN` - whose pooled connections are not `CLOSED`: if `HandleEvents` gets through
the batch, it gets through every permutation of it, with the same answers of the kernel to each
handler and whatever is in `errno`, and both end with the same pool, connections, traffic,
registrations, open descriptors and `close` calls.  What belongs to other numbers is as it was. -/
theorem handleEvents_perm
    (hr : Transition.Reach step Transition.always (init maxConnections heartbeatTimeoutMs threadNum) s)
    (hlock : s.lock = none) (hal : s.world.crashed = false) (hwake : s.world.files wakeupFd = none)
    (hnd : (batch.map Prod.fst).Nodup)
    (hreg : ∀ p ∈ batch, (s.world.epoll i p.1).isSome ∨ p = (wakeupFd, { epollin := true }))
    (hopen : ∀ p ∈ batch, ∀ x, s.world.pool.getConnection p.1 = some x → (s.world.conns x).state ≠ .closed)
    (hperm : batch'.Perm batch) (answers : ℤ → List (RecvResult Byte) × SendResult) (e' : Errno)
    (ho : handleEvents i answers batch s.world e = some o) :
    (∃ o', handleEvents i answers batch' s.world e' = some o' ∧ SameEnd o.1 o'.1) ∧
      ∀ m x, m ∉ batch.map Prod.fst → s.world.pool.getConnection m = some x →
        o.1.pool.getConnection m = some x ∧ o.1.conns x = s.world.conns x ∧ o.1.sent x = s.world.sent x ∧
          o.1.received x = s.world.received x ∧ o.1.files m = s.world.files m ∧
          ∀ j, o.1.epoll j m = s.world.epoll j m := by
  have hc : Core s := core_reach hr
  have hloc := handleEvent_local s.world.files i s.world.now answers
  have hinj : ∀ m m' y, s.world.files m = some y → s.world.files m' = some y → m = m' := by
    intro m m' y hm hm'
    rw [← (hc.files m y hm).2.2, ← (hc.files m' y hm').2.2]
  have hd : batch.Pairwise fun p p' => Disjoint (foot s.world.files p) (foot s.world.files p') :=
    (List.pairwise_map.mp hnd).imp fun hne => foot_disjoint hinj hne
  have hok : ∀ e, ∀ p ∈ batch, Handled s.world.files i s.world.now p (s.world, e) := by
    intro e p hp
    refine ⟨hal, rfl, hopen p hp, ?_⟩
    rcases hreg p hp with hreg | rfl
    · exact Or.inl (hc.attached hlock hreg)
    · refine Or.inr ⟨rfl, Option.eq_none_iff_forall_ne_some.mpr fun x hx => ?_⟩
      have hfile := (hc.open_of_unlocked hlock hx).file
      rw [(hc.pooled wakeupFd x hx).1, hwake] at hfile
      cases hfile
  constructor
  · obtain ⟨o', ho', hsame⟩ := hloc.run_perm hd (hok e) (hok e') (fun q => errno_sameAt q s.world e e') hperm ho
    exact ⟨o', ho', sameEnd_of_sameAt hsame⟩
  · intro m x hm hx
    have hfile : s.world.files m = some x := by
      rw [← (hc.pooled m x hx).1]
      exact (hc.open_of_unlocked hlock hx).file
    have hout := (hloc.run_spec hd (hok e) ho).2
    obtain ⟨hpool, hfiles, hepoll⟩ := hout (.number m) (by
      rintro p hp (hq | ⟨y, -, hq⟩)
      · rw [Place.number.inj hq] at hm
        exact hm (List.mem_map_of_mem hp)
      · cases hq)
    obtain ⟨hconns, hrec, hsent, -⟩ := hout (.client x) (by
      rintro p hp (hq | ⟨y, hy, hq⟩)
      · cases hq
      · cases hq
        rw [hinj m p.1 x hfile hy] at hm
        exact hm (List.mem_map_of_mem hp))
    exact ⟨hpool.trans hx, hconns, hsent, hrec, hfiles, hepoll⟩

end batch

/-- Two clients of one loop. -/
def twoClients : List Label := [.accept 5, .main, .main, .accept 6, .main, .main]

/-- Every `recv` gets a byte first. -/
def oneByteAnswers : ℤ → List (RecvResult Byte) × SendResult :=
  fun _ => ([.data [(some 0, 104)], .error EAGAIN], .sent 1)

/-- Client `0` has sent a byte, client `1` has hung up, and the loop has been woken up. -/
def threeEvents : List (ℤ × Events) :=
  [(5, { epollin := true }), (4, { epollin := true }), (6, { epollhup := true })]

theorem twoClients_perm :
    ∃ s o o', Transition.run step (init 100000 60000 1) twoClients = some s ∧
      handleEvents 0 oneByteAnswers threeEvents s.world 0 = some o ∧
      handleEvents 0 oneByteAnswers threeEvents.reverse s.world EAGAIN = some o' ∧ SameEnd o.1 o'.1 := by
  obtain ⟨s, hs, ⟨hlock, hal, hwake⟩, ⟨h5, h6⟩, hpool, hst, hsome⟩ :=
    Transition.exists_of_any (o := Transition.run step (init 100000 60000 1) twoClients)
      (fun s => (s.lock = none ∧ s.world.crashed = false ∧ s.world.files 4 = none) ∧
        ((s.world.epoll 0 5).isSome ∧ (s.world.epoll 0 6).isSome) ∧
        threeEvents.map (fun p => s.world.pool.getConnection p.1) = [some 0, none, some 1] ∧
        ((s.world.conns 0).state = .connected ∧ (s.world.conns 1).state = .connected) ∧
        (handleEvents 0 oneByteAnswers threeEvents s.world 0).isSome) (by decide +kernel)
  obtain ⟨o, ho⟩ := Option.isSome_iff_exists.mp hsome
  simp only [threeEvents, List.map_cons, List.map_nil, List.cons.injEq, and_true] at hpool
  have hreg : ∀ p ∈ threeEvents, (s.world.epoll 0 p.1).isSome ∨ p = (4, { epollin := true }) := by
    simp [threeEvents, h5, h6]
  have hopen : ∀ p ∈ threeEvents, ∀ x, s.world.pool.getConnection p.1 = some x →
      (s.world.conns x).state ≠ .closed := by
    intro p hp x hx
    simp only [threeEvents, List.mem_cons, List.not_mem_nil, or_false] at hp
    rcases hp with rfl | rfl | rfl
    · rw [hpool.1] at hx
      cases hx
      rw [hst.1]
      decide
    · rw [hpool.2.1] at hx
      cases hx
    · rw [hpool.2.2] at hx
      cases hx
      rw [hst.2]
      decide
  have hperm := handleEvents_perm (Transition.reach_of_run hs) hlock hal hwake (by decide) hreg hopen
    (List.reverse_perm threeEvents) oneByteAnswers EAGAIN ho
  obtain ⟨⟨o', ho', hsame⟩, -⟩ := hperm
  exact ⟨s, o, o', hs, ho, ho', hsame⟩

end Sys

end TcpServer
