import TcpServer.Transition
import TcpServer.EventLoop

/-! # One-shot re-arming

The runs of one `EventLoop`: the main thread admits clients, `epoll_wait` returns any batch of
events the kernel may report, and `HandleEvents` takes the events of the batch one after the
other, with any answers of `recv` and `send`.  A descriptor registered with `EPOLLONESHOT` is
disarmed when its event is reported and stays so until a handler registers it again, so
`Rearmed` asks that every live connection of the loop is armed, with `EPOLLIN` and whenever
data is pending with `EPOLLOUT`, unless its event is still waiting in the batch.

`HandleRead` and `HandleError` always re-arm or remove the descriptor.  `HandleWrite` returns
early when `send` would block, so `rearmed_iff` has a condition: all states of a run between
two handler calls are `Rearmed` *iff* no `send` called by a `HandleWrite` of the run would
block. -/

namespace TcpServer

/-- The state of one IO loop between two handler calls: `batch` are the events of the last
`epoll_wait` that are still to be handled. -/
structure LoopState (α : Type) where
  world : World α
  errno : Errno
  batch : List (ℤ × Events)

inductive LoopLabel (α : Type) where
  /-- Time passes. -/
  | tick (t : ℤ)
  /-- `accept` returns `n` and the connection is assigned to loop `j`. -/
  | accept (j : ℕ) (n : ℤ)
  /-- `epoll_wait` returns `evs`. -/
  | wait (evs : List (ℤ × Events))
  /-- `HandleEvents` handles the next event, with these answers of the kernel. -/
  | handle (rs : List (RecvResult α)) (sr : SendResult)

namespace LoopState

open World Transition

variable {α : Type}

def init (maxConnections : ℕ) (heartbeatTimeoutMs : ℤ) : LoopState α :=
  ⟨World.init maxConnections heartbeatTimeoutMs, 0, []⟩

section step

variable [Inhabited α]

/-- One iteration of the loop in `HandleEvents` of loop `i`. -/
def handleEvent (i : ℕ) (rs : List (RecvResult α)) (sr : SendResult) (s : LoopState α) : Option (LoopState α) :=
  match s.batch with
  | [] => none
  | (n, ev) :: rest =>
      match handlerOf ev rs sr with
      | none => some { s with batch := rest }
      | some v => (s.world.invoke i n v s.errno).map fun o => ⟨o.world, o.errno, rest⟩

def step (i : ℕ) (s : LoopState α) (l : LoopLabel α) : Option (LoopState α) :=
  if s.world.crashed then none
  else
    match l with
    | .tick t => some { s with world := { s.world with now := t } }
    | .accept j n => (s.world.handleAccept j n).map fun w => { s with world := w }
    | .wait evs =>
        if s.batch = [] ∧ s.world.deliverable i evs then
          some { s with world := s.world.deliver i evs, batch := evs }
        else none
    | .handle rs sr => s.handleEvent i rs sr

end step

/-- Every descriptor of loop `i` whose connection is pooled and not `CLOSED` is armed for
reading, and for writing when data is pending, unless its event is still to be handled. -/
def Rearmed (i : ℕ) (s : LoopState α) : Prop :=
  ∀ n x it, n ∉ s.batch.map Prod.fst → s.world.epoll i n = some it →
    s.world.pool.getConnection n = some x → (s.world.conns x).state ≠ .closed →
    it.armed = true ∧ it.mask.epollin = true ∧
      ((s.world.conns x).hasPendingData = true → it.mask.epollout = true)

/-- The next event is handled by `HandleWrite` and its `send` would block. -/
def stalls (s : LoopState α) : LoopLabel α → Bool
  | .handle rs sr =>
      match s.batch with
      | [] => false
      | (n, ev) :: _ =>
          match handlerOf ev rs sr with
          | some (.write sr') => s.world.writeStalls n sr'
          | _ => false
  | _ => false

/-! ### What holds in every state of a loop -/

/-- Pooled connections carry their number and are open, registered numbers are open, the loop
uses one-shot registrations only, and the events of the batch are events proper and belong to
different, registered and disarmed numbers. -/
structure LoopInv (i : ℕ) (s : LoopState α) : Prop where
  pooled : ∀ n x, s.world.pool.getConnection n = some x →
    x < s.world.accepted ∧ (s.world.conns x).fd = n ∧ s.world.files n = some x
  registered : ∀ j n, (s.world.epoll j n).isSome → (s.world.files n).isSome
  oneshot : ∀ n it, s.world.epoll i n = some it → it.mask.epolloneshot = true
  nodup : (s.batch.map Prod.fst).Nodup
  delivered : ∀ n ∈ s.batch.map Prod.fst, ∃ it, s.world.epoll i n = some it ∧ it.armed = false
  events : ∀ p ∈ s.batch, (p.2.epollin || p.2.epollout || p.2.epollerr || p.2.epollhup) = true

theorem loopInv_init (i : ℕ) (maxConnections : ℕ) (heartbeatTimeoutMs : ℤ) :
    LoopInv i (init maxConnections heartbeatTimeoutMs : LoopState α) := by
  refine ⟨?_, ?_, ?_, List.nodup_nil, by simp [init], by simp [init]⟩
  · intro n x h
    have : (World.init maxConnections heartbeatTimeoutMs : World α).pool.getConnection n = none := rfl
    rw [init, this] at h
    cases h
  · intro j n h
    cases h
  · intro n it h
    cases h

/-- A handler call for the number `n`: everything else stays, and the number itself is still
registered only when open. -/
structure Touches (i : ℕ) (n : ℤ) (w w' : World α) : Prop where
  conns : ∀ m x, m ≠ n → w.pool.getConnection m = some x → w'.conns x = w.conns x
  accepted : w'.accepted = w.accepted
  pool : ∀ m, m ≠ n → w'.pool.getConnection m = w.pool.getConnection m
  files : ∀ m, m ≠ n → w'.files m = w.files m
  epoll : ∀ j m, m ≠ n → w'.epoll j m = w.epoll j m
  pooled : ∀ x, w'.pool.getConnection n = some x →
    x < w'.accepted ∧ (w'.conns x).fd = n ∧ w'.files n = some x
  registered : ∀ j, (w'.epoll j n).isSome → (w'.files n).isSome
  oneshot : ∀ it, w'.epoll i n = some it → it.mask.epolloneshot = true

/-- The number `n` is armed for its connection, or it needs not be. -/
def Settled (i : ℕ) (n : ℤ) (w : World α) : Prop :=
  ∀ x it, w.epoll i n = some it → w.pool.getConnection n = some x → (w.conns x).state ≠ .closed →
    it.armed = true ∧ it.mask.epollin = true ∧
      ((w.conns x).hasPendingData = true → it.mask.epollout = true)

section handled

variable {i : ℕ} {n : ℤ} {ev : Events} {rest : List (ℤ × Events)} {w w₁ w' : World α} {e e' : Errno}
  {x : Client}

/-- The event at the head of the batch leaves it. -/
theorem LoopInv.pop (h : LoopInv i ⟨w, e, (n, ev) :: rest⟩) :
    LoopInv i ⟨w, e, rest⟩ ∧ n ∉ rest.map Prod.fst := by
  have hnd := h.nodup
  rw [List.map_cons, List.nodup_cons] at hnd
  exact ⟨⟨h.pooled, h.registered, h.oneshot, hnd.2, fun m hm => h.delivered m (List.mem_cons_of_mem _ hm),
    fun p hp => h.events p (List.mem_cons_of_mem _ hp)⟩, hnd.1⟩

theorem LoopInv.keeps (h : LoopInv i ⟨w, e, rest⟩) (hn : n ∉ rest.map Prod.fst) (ht : Touches i n w w') :
    LoopInv i ⟨w', e', rest⟩ := by
  refine ⟨?_, ?_, ?_, h.nodup, ?_, h.events⟩
  · intro m x hx
    by_cases hm : m = n
    · subst hm
      exact ht.pooled x hx
    · simp only [ht.pool m hm] at hx
      obtain ⟨h1, h2, h3⟩ := h.pooled m x hx
      simp only [ht.accepted, ht.conns m x hm hx, ht.files m hm]
      exact ⟨h1, h2, h3⟩
  · intro j m hj
    by_cases hm : m = n
    · subst hm
      exact ht.registered j hj
    · simp only [ht.epoll j m hm, ht.files m hm] at hj ⊢
      exact h.registered j m hj
  · intro m it hit
    by_cases hm : m = n
    · subst hm
      exact ht.oneshot it hit
    · simp only [ht.epoll i m hm] at hit
      exact h.oneshot m it hit
  · intro m hm
    have hne : m ≠ n := by
      rintro rfl
      exact hn hm
    simp only [ht.epoll i m hne]
    exact h.delivered m hm

theorem Rearmed.handled (h : Rearmed i ⟨w, e, (n, ev) :: rest⟩) (ht : Touches i n w w')
    (hs : Settled i n w') : Rearmed i ⟨w', e', rest⟩ := by
  intro m x it hm hit hx hopen
  by_cases hmn : m = n
  · subst hmn
    exact hs x it hit hx hopen
  · simp only [ht.epoll i m hmn, ht.pool m hmn] at hit hx
    simp only [ht.conns m x hmn hx] at hopen ⊢
    refine h m x it ?_ hit hx hopen
    simpa [hmn] using hm

/-! ### How the handlers touch their number -/

theorem touches_refl (h : LoopInv i ⟨w, e, rest⟩) : Touches i n w w :=
  ⟨fun _ _ _ _ => rfl, rfl, fun _ _ => rfl, fun _ _ => rfl, fun _ _ _ => rfl,
    fun x hx => h.pooled n x hx, fun j hj => h.registered j n hj, fun it hit => h.oneshot n it hit⟩

theorem touches_onlyConn (h : LoopInv i ⟨w, e, rest⟩) (hx : w.pool.getConnection n = some x)
    (ho : OnlyConn x w w₁) : Touches i n w w₁ := by
  obtain ⟨hlt, hfd, hfile⟩ := h.pooled n x hx
  refine ⟨?_, ho.accepted, fun m _ => by rw [ho.pool], fun m _ => by rw [ho.files],
    fun j m _ => by rw [ho.epoll], ?_, ?_, ?_⟩
  · intro m y hm hy
    apply ho.conns
    rintro rfl
    exact hm ((h.pooled m y hy).2.1.symm.trans hfd)
  · intro y hy
    rw [ho.pool, hx] at hy
    cases hy
    rw [ho.accepted, ho.fd, ho.files]
    exact ⟨hlt, hfd, hfile⟩
  · intro j hj
    rw [ho.epoll] at hj
    rw [ho.files]
    exact h.registered j n hj
  · intro it hit
    rw [ho.epoll] at hit
    exact h.oneshot n it hit

theorem Touches.trans {w₂ : World α} (h₁ : Touches i n w w₁) (h₂ : Touches i n w₁ w₂) : Touches i n w w₂ := by
  refine ⟨?_, h₂.accepted.trans h₁.accepted, fun m hm => (h₂.pool m hm).trans (h₁.pool m hm),
    fun m hm => (h₂.files m hm).trans (h₁.files m hm),
    fun j m hm => (h₂.epoll j m hm).trans (h₁.epoll j m hm), h₂.pooled, h₂.registered, h₂.oneshot⟩
  intro m x hm hx
  rw [h₂.conns m x hm (by rw [h₁.pool m hm]; exact hx)]
  exact h₁.conns m x hm hx

theorem touches_setInterest (h : LoopInv i ⟨w, e, rest⟩) (hf : (w.files n).isSome) {v : Option Interest}
    (hv : ∀ it, v = some it → it.mask.epolloneshot = true) : Touches i n w (w.setInterest i n v) := by
  refine ⟨fun _ _ _ _ => rfl, rfl, fun _ _ => rfl, fun _ _ => rfl,
    fun j m hm => epoll_setInterest_ne v w hm, fun x hx => h.pooled n x hx, fun _ _ => hf, ?_⟩
  intro it hit
  rw [epoll_setInterest_self] at hit
  exact hv it hit

theorem rearmMask_bits (c : Connection α) :
    (rearmMask c).epolloneshot = true ∧ (rearmMask c).epollin = true ∧
      (c.hasPendingData = true → (rearmMask c).epollout = true) := by
  unfold rearmMask
  split_ifs with hp
  · exact ⟨rfl, rfl, fun _ => rfl⟩
  · exact ⟨rfl, rfl, fun h => absurd h hp⟩

theorem touches_rearm (h : LoopInv i ⟨w, e, rest⟩) (he : (w.epoll i n).isSome) :
    Touches i n w (w.rearm i n x) := by
  have hf := h.registered i n he
  rw [rearm_spec hf he]
  apply touches_setInterest h hf
  rintro it ⟨⟩
  exact (rearmMask_bits _).1

theorem settled_rearm (h : LoopInv i ⟨w, e, rest⟩) (he : (w.epoll i n).isSome)
    (hx : w.pool.getConnection n = some x) : Settled i n (w.rearm i n x) := by
  rw [rearm_spec (h.registered i n he) he]
  intro y it hit hy _
  have hxy : y = x := by
    have hy' : w.pool.getConnection n = some y := hy
    rw [hx] at hy'
    exact (Option.some.inj hy').symm
  subst hxy
  rw [epoll_setInterest_self] at hit
  cases hit
  exact ⟨rfl, (rearmMask_bits _).2⟩

theorem touches_removeConnection (h : LoopInv i ⟨w, e, rest⟩) (hn : w.epoll i n = none) :
    Touches i n w (w.removeConnection n) := by
  unfold removeConnection
  split
  · exact touches_refl h
  · rename_i x hx
    have hfd : (w.conns x).fd = n := (h.pooled n x hx).2.1
    simp only []
    refine ⟨?_, closeConn_accepted x w, ?_, ?_, ?_, ?_, ?_, ?_⟩
    · intro m y hm hy
      apply closeConn_conns_ne
      rintro rfl
      exact hm ((h.pooled m y hy).2.1.symm.trans hfd)
    · intro m hm
      rw [setPool_pool, ConnectionPool.getConnection_erase_ne _ hm, closeConn_pool]
    · intro m hm
      exact (closeConn_kernel_ne (by rw [hfd]; exact hm)).1
    · intro j m hm
      exact (closeConn_kernel_ne (by rw [hfd]; exact hm)).2 j
    · intro y hy
      rw [setPool_pool, ConnectionPool.getConnection_erase_self] at hy
      cases hy
    · intro j hj
      obtain ⟨hf, he⟩ | ⟨hf, he⟩ := closeConn_kernel x w
      · simp only [setPool_epoll, setPool_files, hf, he] at hj ⊢
        exact h.registered j n hj
      · simp [he, hfd] at hj
    · intro it hit
      obtain ⟨-, he⟩ | ⟨-, he⟩ := closeConn_kernel x w
      · simp only [setPool_epoll, he, hn] at hit
        cases hit
      · simp [he, hfd] at hit

theorem handleError_spec (hf : (w.files n).isSome) (he : (w.epoll i n).isSome) :
    w.handleError i n = (w.setInterest i n none).removeConnection n := by
  simp [handleError, removeFd, hf, he]

theorem touches_handleError (h : LoopInv i ⟨w, e, rest⟩) (hn : n ∉ rest.map Prod.fst)
    (he : (w.epoll i n).isSome) : Touches i n w (w.handleError i n) := by
  have hf := h.registered i n he
  rw [handleError_spec hf he]
  have ht : Touches i n w (w.setInterest i n none) := touches_setInterest h hf (by simp)
  have h₁ : LoopInv i ⟨w.setInterest i n none, e, rest⟩ := h.keeps hn ht
  exact ht.trans (touches_removeConnection h₁ (epoll_setInterest_self i n none w))

theorem settled_handleError (h : LoopInv i ⟨w, e, rest⟩) (he : (w.epoll i n).isSome) :
    Settled i n (w.handleError i n) := by
  rw [handleError_spec (h.registered i n he) he]
  intro x it' _ hx
  unfold removeConnection at hx
  split at hx
  · rename_i hnone
    rw [hnone] at hx
    cases hx
  · simp only [setPool_pool, ConnectionPool.getConnection_erase_self] at hx
    cases hx

theorem settled_of_not_pooled (hx : w.pool.getConnection n = none) : Settled i n w := by
  intro x it _ hx'
  rw [hx] at hx'
  cases hx'

theorem settled_of_closed (hx : w.pool.getConnection n = some x) (hc : (w.conns x).state = .closed) :
    Settled i n w := by
  intro y it _ hy hopen
  rw [hx] at hy
  cases hy
  exact absurd hc hopen

/-- Every handler call touches its own number only, and leaves it settled unless it is a
`HandleWrite` whose `send` would block. -/
theorem invoke_touches [Inhabited α] {v : Invocation α} {o : Outcome α} (h : LoopInv i ⟨w, e, rest⟩)
    (hn : n ∉ rest.map Prod.fst) (he : (w.epoll i n).isSome) (hi : w.invoke i n v e = some o) :
    Touches i n w o.world ∧
      (Settled i n o.world ∨ ∃ sr, v = .write sr ∧ w.writeStalls n sr = true) := by
  -- a handler that found connection `x` and works on it alone before it removes or re-arms
  have hend : ∀ x w₁, w.pool.getConnection n = some x → OnlyConn x w w₁ →
      o.world = w₁.handleError i n ∨ o.world = w₁.rearm i n x →
      Touches i n w o.world ∧ Settled i n o.world := by
    intro x w₁ hx ho hw
    have ht := touches_onlyConn h hx ho
    have h₁ : LoopInv i ⟨w₁, e, rest⟩ := h.keeps hn ht
    have he₁ : (w₁.epoll i n).isSome := by rwa [ho.epoll]
    have hx₁ : w₁.pool.getConnection n = some x := by rwa [ho.pool]
    rcases hw with hw | hw
    · rw [hw]
      exact ⟨ht.trans (touches_handleError h₁ hn he₁), settled_handleError h₁ he₁⟩
    · rw [hw]
      exact ⟨ht.trans (touches_rearm h₁ he₁), settled_rearm h₁ he₁ hx₁⟩
  cases v with
  | read rs sr =>
      cases hx : w.pool.getConnection n with
      | none =>
          simp only [invoke, handleRead, hx, Option.some.injEq] at hi
          subst hi
          exact ⟨touches_refl h, Or.inl (settled_of_not_pooled hx)⟩
      | some x =>
          obtain ⟨w₁, ho, hw⟩ := handleRead_result hx hi
          obtain ⟨ht, hs⟩ := hend x w₁ hx ho hw
          exact ⟨ht, Or.inl hs⟩
  | write sr =>
      cases hx : w.pool.getConnection n with
      | none =>
          simp only [invoke, handleWrite, hx, Option.some.injEq] at hi
          subst hi
          exact ⟨touches_refl h, Or.inl (settled_of_not_pooled hx)⟩
      | some x =>
          obtain ⟨w₁, ho, hw | hw | ⟨hw, hcase⟩⟩ := handleWrite_result hx hi
          · obtain ⟨ht, hs⟩ := hend x w₁ hx ho (Or.inl hw)
            exact ⟨ht, Or.inl hs⟩
          · obtain ⟨ht, hs⟩ := hend x w₁ hx ho (Or.inr hw)
            exact ⟨ht, Or.inl hs⟩
          · rw [hw]
            refine ⟨touches_onlyConn h hx ho, ?_⟩
            rcases hcase with hc | hst
            · exact Or.inl (settled_of_closed (by rwa [ho.pool]) hc)
            · exact Or.inr ⟨sr, rfl, hst⟩
  | error =>
      simp only [invoke, Option.some.injEq] at hi
      subst hi
      exact ⟨touches_handleError h hn he, Or.inl (settled_handleError h he)⟩

end handled

/-! ### Admission and delivery -/

/-- What an iteration of `HandleAccept` that got the number `n` leaves: a refused number is
closed again, an admitted one is pooled and armed in loop `j`; nothing else changes. -/
structure AcceptResult (j : ℕ) (n : ℤ) (w w' : World α) : Prop where
  wasFree : w.files n = none
  accepted : w'.accepted = w.accepted + 1
  conns : ∀ y, y < w.accepted → w'.conns y = w.conns y
  pool : ∀ m, m ≠ n → w'.pool.getConnection m = w.pool.getConnection m
  files : ∀ m, m ≠ n → w'.files m = w.files m
  epoll : ∀ k m, m ≠ n → w'.epoll k m = w.epoll k m
  number : (w'.pool.getConnection n = some w.accepted ∧ (w'.conns w.accepted).fd = n ∧
      w'.files n = some w.accepted ∧ ∀ k it, w'.epoll k n = some it → it = ⟨inOutMask, true⟩) ∨
    (w'.pool.getConnection n = w.pool.getConnection n ∧ ∀ k, w'.epoll k n = none)

theorem handleAccept_spec {j : ℕ} {n : ℤ} {w w' : World α} (hreg : ∀ k, w.files n = none → w.epoll k n = none)
    (h : w.handleAccept j n = some w') : AcceptResult j n w w' := by
  unfold handleAccept at h
  obtain ⟨w₁, ha, hw⟩ := Option.map_eq_some_iff.mp h
  obtain ⟨hfree, rfl⟩ := accept_eq_some ha
  have hno := fun k => hreg k hfree.2
  simp only [] at hw
  split at hw
  · rename_i pool hadd
    obtain ⟨-, hself, hne⟩ := ConnectionPool.addConnection_true hadd
    have hf : ((w.newClient n).setPool pool).files n = some w.accepted := files_newClient_self n w
    rw [addFd_eq_some inOutMask (Option.isSome_of_eq_some hf) (hno j)] at hw
    subst hw
    refine ⟨hfree.2, rfl, fun y hy => conns_newClient_ne n w (Nat.ne_of_lt hy), hne,
      fun m hm => files_newClient_ne w hm, fun k m hm => epoll_setInterest_ne _ _ hm,
      Or.inl ⟨hself, ?_, hf, ?_⟩⟩
    · exact congrArg Connection.fd (conns_newClient_self n w)
    · intro k it hit
      by_cases hk : k = j
      · subst hk
        rw [epoll_setInterest_self] at hit
        exact (Option.some.inj hit).symm
      · have hkn : w.epoll k n = some it := by simpa [setInterest, newClient, hk] using hit
        rw [hno k] at hkn
        cases hkn
  · subst hw
    have hfd : (((w.newClient n).close w.accepted n).conns w.accepted).fd = n :=
      congrArg Connection.fd (conns_newClient_self n w)
    have hker := fun m (hm : m ≠ n) =>
      closeConn_kernel_ne (x := w.accepted) (w := (w.newClient n).close w.accepted n) (m := m)
        (by rw [hfd]; exact hm)
    refine ⟨hfree.2, closeConn_accepted _ _, ?_, fun m _ => by rw [closeConn_pool]; rfl, ?_, ?_,
      Or.inr ⟨by rw [closeConn_pool]; rfl, ?_⟩⟩
    · intro y hy
      rw [closeConn_conns_ne _ (Nat.ne_of_lt hy)]
      exact conns_newClient_ne n w (Nat.ne_of_lt hy)
    · intro m hm
      rw [(hker m hm).1]
      simp [close, newClient, hm]
    · intro k m hm
      rw [(hker m hm).2 k]
      simp [close, newClient, hm]
    · intro k
      obtain ⟨-, he⟩ | ⟨-, he⟩ := closeConn_kernel w.accepted ((w.newClient n).close w.accepted n)
      · rw [he]
        exact Function.update_self _ _ _
      · rw [he, hfd]
        exact Function.update_self _ _ _

section accept

variable {i j : ℕ} {n : ℤ} {w w' : World α} {e : Errno} {batch : List (ℤ × Events)}

theorem LoopInv.acceptResult (h : LoopInv i ⟨w, e, batch⟩) (hw : w.handleAccept j n = some w') :
    AcceptResult j n w w' := by
  refine handleAccept_spec (fun k hf => ?_) hw
  rw [← Option.not_isSome_iff_eq_none]
  intro hk
  have := h.registered k n hk
  simp [hf] at this

/-- A number that was free before was neither pooled nor registered. -/
theorem LoopInv.ne_of_pooled (h : LoopInv i ⟨w, e, batch⟩) (ha : AcceptResult j n w w') {m : ℤ} {x : Client}
    (hx : w.pool.getConnection m = some x) : m ≠ n := by
  rintro rfl
  have hf : w.files m = some x := (h.pooled m x hx).2.2
  rw [ha.wasFree] at hf
  cases hf

theorem LoopInv.accept (h : LoopInv i ⟨w, e, batch⟩) (hw : w.handleAccept j n = some w') :
    LoopInv i ⟨w', e, batch⟩ := by
  have ha := h.acceptResult hw
  refine ⟨?_, ?_, ?_, h.nodup, ?_, h.events⟩
  · intro m x hx
    have hold : w.pool.getConnection m = some x →
        x < w'.accepted ∧ (w'.conns x).fd = m ∧ w'.files m = some x := by
      intro hx'
      have hm := h.ne_of_pooled ha hx'
      obtain ⟨h1, h2, h3⟩ := h.pooled m x hx'
      rw [ha.accepted, ha.conns x h1, ha.files m hm]
      exact ⟨Nat.lt_succ_of_lt h1, h2, h3⟩
    by_cases hm : m = n
    · subst hm
      obtain ⟨hp, hfd, hf, -⟩ | ⟨hp, -⟩ := ha.number
      · simp only [hp, Option.some.injEq] at hx
        subst hx
        exact ⟨by rw [ha.accepted]; exact Nat.lt_succ_self _, hfd, hf⟩
      · simp only [hp] at hx
        exact hold hx
    · simp only [ha.pool m hm] at hx
      exact hold hx
  · intro k m hk
    by_cases hm : m = n
    · subst hm
      obtain ⟨-, -, hf, -⟩ | ⟨-, hno⟩ := ha.number
      · simp [hf]
      · simp [hno] at hk
    · simp only [ha.epoll k m hm, ha.files m hm] at hk ⊢
      exact h.registered k m hk
  · intro m it hit
    by_cases hm : m = n
    · subst hm
      obtain ⟨-, -, -, harm⟩ | ⟨-, hno⟩ := ha.number
      · rw [harm i it hit]
        rfl
      · simp [hno] at hit
    · simp only [ha.epoll i m hm] at hit
      exact h.oneshot m it hit
  · intro m hm
    obtain ⟨it, hit, harm⟩ := h.delivered m hm
    have hmn : m ≠ n := by
      rintro rfl
      have hf := h.registered i m (Option.isSome_of_eq_some hit)
      simp [ha.wasFree] at hf
    refine ⟨it, ?_, harm⟩
    simp only [ha.epoll i m hmn]
    exact hit

theorem Rearmed.accept (h : LoopInv i ⟨w, e, batch⟩) (hr : Rearmed i ⟨w, e, batch⟩)
    (hw : w.handleAccept j n = some w') : Rearmed i ⟨w', e, batch⟩ := by
  have ha := h.acceptResult hw
  intro m x it hm hit hx hopen
  by_cases hmn : m = n
  · subst hmn
    obtain ⟨-, -, -, harm⟩ | ⟨-, hno⟩ := ha.number
    · rw [harm i it hit]
      exact ⟨rfl, rfl, fun _ => rfl⟩
    · simp [hno] at hit
  · simp only [ha.epoll i m hmn, ha.pool m hmn] at hit hx
    simp only [ha.conns x (h.pooled m x hx).1] at hopen ⊢
    exact hr m x it hm hit hx hopen

end accept

section wait

variable {i : ℕ} {w : World α} {e : Errno} {evs : List (ℤ × Events)}

theorem LoopInv.wait {batch : List (ℤ × Events)} (h : LoopInv i ⟨w, e, batch⟩) (hd : w.deliverable i evs = true) :
    LoopInv i ⟨w.deliver i evs, e, evs⟩ := by
  simp only [deliverable, Bool.and_eq_true, decide_eq_true_eq, List.all_eq_true] at hd
  obtain ⟨hnd, hall⟩ := hd
  refine ⟨h.pooled, ?_, ?_, hnd, ?_, ?_⟩
  · intro j m hj
    simp only [isSome_epoll_deliver] at hj
    exact h.registered j m hj
  · intro m it hit
    by_cases hm : m ∈ evs.map Prod.fst
    · simp only [epoll_deliver_mem hm] at hit
      obtain ⟨it₀, h₀, rfl⟩ := Option.map_eq_some_iff.mp hit
      exact h.oneshot m it₀ h₀
    · simp only [epoll_deliver_ne hm] at hit
      exact h.oneshot m it hit
  · intro m hm
    obtain ⟨p, hp, rfl⟩ := List.mem_map.mp hm
    have hrep := hall p hp
    cases hit : w.epoll i p.1 with
    | none => simp [hit] at hrep
    | some it =>
        refine ⟨it.reported, ?_, ?_⟩
        · simp only [epoll_deliver_mem hm, hit, Option.map_some]
        · have hone : it.mask.epolloneshot = true := h.oneshot p.1 it hit
          simp [Interest.reported, hone]
  · intro p hp
    have hrep := hall p hp
    cases hit : w.epoll i p.1 with
    | none => simp [hit] at hrep
    | some it =>
        simp only [hit, Option.map_some, Option.getD_some, Interest.reports, Bool.and_eq_true] at hrep
        exact hrep.1.1.1.1.2

theorem Rearmed.wait (hr : Rearmed i ⟨w, e, []⟩) : Rearmed i ⟨w.deliver i evs, e, evs⟩ := by
  intro m x it hm hit hx hopen
  simp only [epoll_deliver_ne hm] at hit
  exact hr m x it (by simp) hit hx hopen

end wait

/-! ### Steps and runs -/

section steps

variable [Inhabited α] {i : ℕ} {s s' : LoopState α} {l : LoopLabel α}

/-- What a handler step does: it takes the head of the batch and calls the handler, if any. -/
theorem handleEvent_cases {rs : List (RecvResult α)} {sr : SendResult}
    (hs : s.handleEvent i rs sr = some s') :
    ∃ n ev rest, s.batch = (n, ev) :: rest ∧
      ((handlerOf ev rs sr = none ∧ s' = { s with batch := rest }) ∨
        ∃ v o, handlerOf ev rs sr = some v ∧ s.world.invoke i n v s.errno = some o ∧
          s' = ⟨o.world, o.errno, rest⟩) := by
  unfold handleEvent at hs
  split at hs
  · cases hs
  · rename_i n ev rest hb
    refine ⟨n, ev, rest, hb, ?_⟩
    split at hs
    · rename_i hno
      cases hs
      exact Or.inl ⟨hno, rfl⟩
    · rename_i v hv
      obtain ⟨o, ho, rfl⟩ := Option.map_eq_some_iff.mp hs
      exact Or.inr ⟨v, o, hv, ho, rfl⟩

omit [Inhabited α] in
/-- Every reported event has a handler. -/
theorem handlerOf_ne_none {ev : Events} {rs : List (RecvResult α)} {sr : SendResult}
    (hev : (ev.epollin || ev.epollout || ev.epollerr || ev.epollhup) = true) : handlerOf ev rs sr ≠ none := by
  unfold handlerOf
  split_ifs with h1 h2 h3
  · simp
  · simp
  · simp
  · simp only [Bool.or_eq_true, not_or] at h1 hev
    tauto

theorem loopInv_step (h : LoopInv i s) (hs : step i s l = some s') : LoopInv i s' := by
  unfold step at hs
  split_ifs at hs
  cases l with
  | tick t =>
      cases hs
      exact ⟨h.pooled, h.registered, h.oneshot, h.nodup, h.delivered, h.events⟩
  | accept j n =>
      obtain ⟨w', hw, rfl⟩ := Option.map_eq_some_iff.mp hs
      exact h.accept hw
  | wait evs =>
      simp only [] at hs
      split_ifs at hs with hd
      cases hs
      exact h.wait hd.2
  | handle rs sr =>
      obtain ⟨w, e, batch⟩ := s
      obtain ⟨n, ev, rest, rfl, ⟨-, rfl⟩ | ⟨v, o, -, ho, rfl⟩⟩ := handleEvent_cases hs
      · exact h.pop.1
      · obtain ⟨it, hit, -⟩ := h.delivered n List.mem_cons_self
        exact h.pop.1.keeps h.pop.2 (invoke_touches h.pop.1 h.pop.2 (Option.isSome_of_eq_some hit) ho).1

/-- A step that does not stall keeps every live connection armed. -/
theorem rearmed_step (h : LoopInv i s) (hr : Rearmed i s) (hst : stalls s l = false)
    (hs : step i s l = some s') : Rearmed i s' := by
  unfold step at hs
  split_ifs at hs
  cases l with
  | tick t =>
      cases hs
      exact hr
  | accept j n =>
      obtain ⟨w', hw, rfl⟩ := Option.map_eq_some_iff.mp hs
      exact hr.accept h hw
  | wait evs =>
      obtain ⟨w, e, batch⟩ := s
      simp only [] at hs
      split_ifs at hs with hd
      cases hs
      rw [hd.1] at hr
      exact hr.wait
  | handle rs sr =>
      obtain ⟨w, e, batch⟩ := s
      obtain ⟨n, ev, rest, rfl, ⟨hno, rfl⟩ | ⟨v, o, hv, ho, rfl⟩⟩ := handleEvent_cases hs
      · exact absurd hno (handlerOf_ne_none (h.events _ List.mem_cons_self))
      · obtain ⟨it, hit, -⟩ := h.delivered n List.mem_cons_self
        obtain ⟨ht, hset | ⟨sr', rfl, hw⟩⟩ := invoke_touches h.pop.1 h.pop.2 (Option.isSome_of_eq_some hit) ho
        · exact hr.handled ht hset
        · simp [stalls, hv, hw] at hst

/-- A `HandleWrite` whose `send` would block leaves a live connection disarmed. -/
theorem not_rearmed_of_stalls (h : LoopInv i s) (hst : stalls s l = true) (hs : step i s l = some s') :
    ¬ Rearmed i s' := by
  unfold step at hs
  split_ifs at hs
  cases l with
  | handle rs sr =>
      obtain ⟨w, e, batch⟩ := s
      obtain ⟨n, ev, rest, rfl, ⟨hno, -⟩ | ⟨v, o, hv, ho, rfl⟩⟩ := handleEvent_cases hs
      · simp [stalls, hno] at hst
      · cases v with
        | write sr' =>
            simp only [stalls, hv] at hst
            cases hx : w.pool.getConnection n with
            | none => simp [writeStalls, hx] at hst
            | some x =>
                obtain ⟨hep, hpool, hopen⟩ := handleWrite_of_stalls hx ho hst
                obtain ⟨it, hit, harm⟩ := h.delivered n List.mem_cons_self
                intro hr
                have := hr n x it h.pop.2 (by simp only [hep]; exact hit) (by simp only [hpool]; exact hx) hopen
                rw [harm] at this
                exact absurd this.1 (by decide)
        | read rs' sr' => simp [stalls, hv] at hst
        | error => simp [stalls, hv] at hst
  | tick t => cases hst
  | accept j n => cases hst
  | wait evs => cases hst

/-- **One-shot re-arming.**  In every run of loop `i`, the states between two handler calls are
all `Rearmed` if and only if no `send` of a `HandleWrite` would block. -/
theorem rearmed_iff (i maxConnections : ℕ) (heartbeatTimeoutMs : ℤ) {ls : List (LoopLabel α)}
    (hr : run (step i) (init maxConnections heartbeatTimeoutMs) ls = some s) :
    (∀ ls₁ s₁, ls₁ <+: ls → run (step i) (init maxConnections heartbeatTimeoutMs) ls₁ = some s₁ →
      Rearmed i s₁) ↔
      Along (step i) (fun s l => stalls s l = false) (init maxConnections heartbeatTimeoutMs) ls := by
  refine always_iff_along (I := LoopInv i) (fun _ _ _ h hs => loopInv_step h hs)
    (fun _ _ _ h hP hok hs => rearmed_step h hP hok hs) ?_ (loopInv_init i _ _) ?_ hr
  · intro s₁ l₁ s₂ h hok hs
    exact not_rearmed_of_stalls h (Bool.not_eq_false _ ▸ hok) hs
  · intro n x it _ hit
    cases hit

end steps

/-- The client's byte cannot be sent back at once; later the socket is writable. -/
def oneByteRun (sr : SendResult) : List (LoopLabel UInt8) :=
  [.accept 0 5, .wait [(5, { epollin := true })], .handle [.data [104], .error EAGAIN] (.error EAGAIN),
    .wait [(5, { epollout := true })], .handle [] sr]

/-- `send` takes the byte. -/
theorem oneByteRun_rearmed :
    ∃ s, run (step 0) (init 100000 60000) (oneByteRun (.sent 1)) = some s ∧ Rearmed 0 s := by
  obtain ⟨s, hs, -⟩ := exists_of_any (o := run (step 0) (init 100000 60000) (oneByteRun (.sent 1)))
    (fun _ => True) (by decide +kernel)
  have hok : Along (step 0) (fun s l => stalls s l = false) (init 100000 60000) (oneByteRun (.sent 1)) := by
    decide +kernel
  exact ⟨s, hs, (rearmed_iff 0 100000 60000 hs).mpr hok _ s (List.prefix_refl _) hs⟩

/-- `send` would block: the connection is live, has a byte to send and is registered, but it is
disarmed, and no event of it is waiting. -/
theorem oneByteRun_stalled :
    ∃ s, run (step 0) (init 100000 60000) (oneByteRun (.error EAGAIN)) = some s ∧ s.batch = [] ∧
      s.world.pool.getConnection 5 = some 0 ∧ (s.world.conns 0).state = .connected ∧
      (s.world.conns 0).hasPendingData = true ∧ s.world.epoll 0 5 = some ⟨inOutMask, false⟩ ∧
      ¬ Rearmed 0 s := by
  obtain ⟨s, hs, hb, hp, hc, hd, he⟩ :=
    exists_of_any (o := run (step 0) (init 100000 60000) (oneByteRun (.error EAGAIN)))
      (fun s => s.batch = [] ∧ s.world.pool.getConnection 5 = some 0 ∧ (s.world.conns 0).state = .connected ∧
        (s.world.conns 0).hasPendingData = true ∧ s.world.epoll 0 5 = some ⟨inOutMask, false⟩) (by decide +kernel)
  refine ⟨s, hs, hb, hp, hc, hd, he, ?_⟩
  intro hr
  have := hr 5 0 _ (by rw [hb]; simp) he hp (by rw [hc]; decide)
  exact absurd this.1 (by decide)

end LoopState

end TcpServer
