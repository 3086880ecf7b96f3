import TcpServer.Echo
import TcpServer.Rearm

/-! # Handlers and a stale `errno`

`Recv` and `Send` return `-1` for a connection that is already `CLOSED`, without a system call,
and both handlers then branch on `errno`, which some earlier call has left behind.  A `send`
that returned `0` leaves a connection in that state: `Send` stores `CLOSED`, the handler sees no
negative value and re-arms the descriptor.

`ErrnoFree` compares two runs of a handler that differ in the `errno` at entry only.  On a
connection that is not `CLOSED` the whole outcome is the same (`handleRead_world`,
`handleWrite_world`): as long as a system call is made, a negative return value comes with an
`errno` of its own.  `errnoFree_iff`: in every state a loop reaches, the handlers of a descriptor
are free of the `errno` at entry *iff* the descriptor's connection is not `CLOSED`. -/

namespace TcpServer

namespace World

variable {α : Type}

/-- What a handler leaves of the pool, the connections and the epoll sets. -/
def Outcome.left (o : Outcome α) : ConnectionPool × (Client → Connection α) × (ℕ → ℤ → Option Interest) :=
  (o.world.pool, o.world.conns, o.world.epoll)

/-- `HandleRead(fd)` and `HandleWrite(fd)` of loop `i` leave the same pool, connections and epoll
sets whatever `errno` they find, the system calls answering the same. -/
structure ErrnoFree [Inhabited α] (i : ℕ) (fd : ℤ) (w : World α) : Prop where
  read : ∀ rs sr e₁ e₂,
    (w.handleRead i fd rs sr e₁).map Outcome.left = (w.handleRead i fd rs sr e₂).map Outcome.left
  write : ∀ sr e₁ e₂,
    (w.handleWrite i fd sr e₁).map Outcome.left = (w.handleWrite i fd sr e₂).map Outcome.left

/-! ### Calls that reach the kernel -/

/-- `errno` after a call that found `e₂` instead: a failed call has overwritten it. -/
def failedErrno (e₂ : Errno) (ret : ℤ) (e' : Errno) : Errno := if ret < 0 then e' else e₂

@[simp] theorem failedErrno_natCast (e₂ e' : Errno) (k : ℕ) : failedErrno e₂ k e' = e₂ :=
  if_neg (by omega)

theorem recv_errno [Inhabited α] {x : Client} {r : RecvResult α} {w : World α} (e₁ e₂ : Errno)
    (hopen : (w.conns x).state ≠ .closed) :
    w.recv x e₂ r = (w.recv x e₁ r).map fun p => (p.1, p.2.1, failedErrno e₂ p.2.1 p.2.2) := by
  simp only [recv, if_neg hopen]
  split
  · split_ifs
    · simp
    · rfl
  · simp [failedErrno]
  · simp [failedErrno]

/-- `Recv` answered with data leaves an open connection open. -/
theorem recv_open [Inhabited α] {x : Client} {e e' : Errno} {r : RecvResult α} {w w' : World α} {ret : ℤ}
    (hopen : (w.conns x).state ≠ .closed) (h : w.recv x e r = some (w', ret, e')) (hret : 0 < ret) :
    (w'.conns x).state ≠ .closed := by
  simp only [recv, if_neg hopen] at h
  split at h
  · split_ifs at h
    cases h
    rw [conns_logRecv, conns_setConn_self]
    simpa [Connection.recvData] using hopen
  · cases h
    cases hret
  · cases h
    cases hret

theorem send_errno {x : Client} {r : SendResult} {w : World α} (e₁ e₂ : Errno)
    (hopen : (w.conns x).state ≠ .closed) :
    w.send x e₂ r = (w.send x e₁ r).map fun p => (p.1, p.2.1, failedErrno e₂ p.2.1 p.2.2) := by
  simp only [send, if_neg hopen]
  split_ifs
  · simp [failedErrno]
  · split
    · split_ifs
      · simp
      · rfl
    · simp [failedErrno]
    · simp [failedErrno]

section drain

variable [Inhabited α] {x : Client} {w : World α}

/-- The drain loop of an open connection ends with a `Recv` of its own `errno`, or with end of
file; the `errno` at entry plays no part. -/
theorem drain_errno {rs : List (RecvResult α)} (e₁ e₂ : Errno) (hopen : (w.conns x).state ≠ .closed) :
    drain x rs w e₂ = (drain x rs w e₁).map fun d => { d with errno := failedErrno e₂ d.ret d.errno } := by
  induction rs generalizing w e₁ e₂ with
  | nil => simp [drain, hopen]
  | cons r rs ih =>
      simp only [drain, recv_errno e₁ e₂ hopen]
      cases hr : w.recv x e₁ r with
      | none => rfl
      | some p =>
          obtain ⟨w', ret, e'⟩ := p
          simp only [Option.map_some]
          split_ifs with hpos
          · have hneg : ¬ ret < 0 := by omega
            have hret : failedErrno e₂ ret e' = e₂ := if_neg hneg
            rw [hret, ih e' e₂ (recv_open hopen hr hpos)]
            cases drain x rs w' e' with
            | none => rfl
            | some d => rfl
          · rfl

/-- The drain loop stops at a value that is not positive. -/
theorem drain_ret {rs : List (RecvResult α)} {e : Errno} {d : Drained α} (h : drain x rs w e = some d) :
    d.ret ≤ 0 := by
  induction rs generalizing w e d with
  | nil =>
      simp only [drain] at h
      split_ifs at h
      cases h
      show (-1 : ℤ) ≤ 0
      omega
  | cons r rs ih =>
      simp only [drain] at h
      split at h
      · cases h
      · split_ifs at h with hpos
        · obtain ⟨d', hd, rfl⟩ := Option.map_eq_some_iff.mp h
          exact ih (d := d') hd
        · cases h
          exact Int.not_lt.mp hpos

end drain

/-! ### Handlers of an open connection -/

section handlers

variable [Inhabited α] {i : ℕ} {fd : ℤ} {x : Client} {w : World α}

theorem afterDrain_world {sr : SendResult} {d : Drained α} (e₂ : Errno) (hret : d.ret ≤ 0) :
    (afterDrain i fd x sr { d with errno := failedErrno e₂ d.ret d.errno }).map Outcome.world =
      (afterDrain i fd x sr d).map Outcome.world := by
  by_cases h0 : d.ret = 0
  · simp [afterDrain, h0]
  · -- the last `recv` failed, so that `errno` is its own
    have hneg : d.ret < 0 := by omega
    simp only [failedErrno, if_pos hneg]

/-- `HandleRead` of an open connection: the world it leaves does not depend on the `errno` at
entry. -/
theorem handleRead_world {rs : List (RecvResult α)} {sr : SendResult} (e₁ e₂ : Errno)
    (hopen : ∀ x, w.pool.getConnection fd = some x → (w.conns x).state ≠ .closed) :
    (w.handleRead i fd rs sr e₂).map Outcome.world = (w.handleRead i fd rs sr e₁).map Outcome.world := by
  unfold handleRead
  cases hx : w.pool.getConnection fd with
  | none => rfl
  | some x =>
      simp only [drain_errno e₁ e₂ (hopen x hx)]
      cases hd : drain x rs w e₁ with
      | none => rfl
      | some d => exact afterDrain_world e₂ (drain_ret hd)

omit [Inhabited α] in
theorem handleWrite_world {sr : SendResult} (e₁ e₂ : Errno)
    (hopen : ∀ x, w.pool.getConnection fd = some x → (w.conns x).state ≠ .closed) :
    (w.handleWrite i fd sr e₂).map Outcome.world = (w.handleWrite i fd sr e₁).map Outcome.world := by
  unfold handleWrite
  cases hx : w.pool.getConnection fd with
  | none => rfl
  | some x =>
      simp only [send_errno e₁ e₂ (hopen x hx)]
      cases hs : w.send x e₁ sr with
      | none => rfl
      | some p =>
          obtain ⟨w₁, ret, e'⟩ := p
          simp only [Option.map_some]
          by_cases hneg : ret < 0
          · simp only [failedErrno, if_pos hneg]
          · simp [hneg]

/-- On an open connection, or on none, the handlers do not look at the `errno` at entry. -/
theorem errnoFree_of_open (hopen : ∀ x, w.pool.getConnection fd = some x → (w.conns x).state ≠ .closed) :
    ErrnoFree i fd w := by
  have hleft : ∀ {o₁ o₂ : Option (Outcome α)}, o₁.map Outcome.world = o₂.map Outcome.world →
      o₁.map Outcome.left = o₂.map Outcome.left := by
    intro o₁ o₂ h
    have h' := congrArg (Option.map fun w : World α => (w.pool, w.conns, w.epoll)) h
    rw [Option.map_map, Option.map_map] at h'
    exact h'
  exact ⟨fun _ _ e₁ e₂ => hleft (handleRead_world e₂ e₁ hopen),
    fun _ e₁ e₂ => hleft (handleWrite_world e₂ e₁ hopen)⟩

omit [Inhabited α] in
theorem getConnection_handleError (hf : (w.files fd).isSome) (he : (w.epoll i fd).isSome) :
    (w.handleError i fd).pool.getConnection fd = none := by
  rw [LoopState.handleError_spec hf he]
  unfold removeConnection
  split
  · assumption
  · exact ConnectionPool.getConnection_erase_self _ fd

/-- With `EAGAIN` left over, `HandleWrite` returns at once; with any other `errno` left over it
removes the connection. -/
theorem not_errnoFree_of_closed (hx : w.pool.getConnection fd = some x) (hc : (w.conns x).state = .closed)
    (hf : (w.files fd).isSome) (he : (w.epoll i fd).isSome) : ¬ ErrnoFree i fd w := by
  intro h
  have hstay : w.handleWrite i fd .zero EAGAIN = some ⟨w, EAGAIN, [w]⟩ := by
    simp [handleWrite, hx, send, hc, wouldBlock]
  have hdrop : w.handleWrite i fd .zero 0 = some ⟨w.handleError i fd, 0, [w]⟩ := by
    simp [handleWrite, hx, send, hc, wouldBlock, EAGAIN, EWOULDBLOCK]
  have heq := h.write .zero EAGAIN 0
  rw [hstay, hdrop] at heq
  have hpool : w.pool = (w.handleError i fd).pool := congrArg Prod.fst (Option.some.inj heq)
  rw [hpool, getConnection_handleError hf he] at hx
  cases hx

end handlers

end World

namespace LoopState

open World Transition

variable {α : Type} {i : ℕ}

/-! ### Connections left `CLOSED` in the pool -/

/-- A `CLOSED` connection that is still pooled is registered with the loop. -/
def ClosedRegistered (i : ℕ) (s : LoopState α) : Prop :=
  ∀ n x, s.world.pool.getConnection n = some x → (s.world.conns x).state = .closed →
    (s.world.epoll i n).isSome

section handled

variable [Inhabited α] {n : ℤ} {rest : List (ℤ × Events)} {w : World α} {e : Errno} {v : Invocation α}
  {o : Outcome α}

/-- A handler that leaves its connection in the pool leaves it registered. -/
theorem invoke_registered (h : LoopInv i ⟨w, e, rest⟩) (he : (w.epoll i n).isSome)
    (hi : w.invoke i n v e = some o) (hp : (o.world.pool.getConnection n).isSome) :
    (o.world.epoll i n).isSome := by
  have hf := h.registered i n he
  -- work on the connection alone leaves the registration as it is
  have herror : ∀ x w₁, OnlyConn x w w₁ → o.world ≠ w₁.handleError i n := by
    intro x w₁ ho hw
    rw [hw, getConnection_handleError (by rwa [ho.files]) (by rwa [ho.epoll])] at hp
    cases hp
  have hrearm : ∀ x w₁, OnlyConn x w w₁ → o.world = w₁.rearm i n x → (o.world.epoll i n).isSome := by
    intro x w₁ ho hw
    rw [hw, rearm_spec (by rwa [ho.files]) (by rwa [ho.epoll]), epoll_setInterest_self]
    rfl
  cases v with
  | read rs sr =>
      cases hx : w.pool.getConnection n with
      | none =>
          simp only [invoke, handleRead, hx, Option.some.injEq] at hi
          subst hi
          exact he
      | some x =>
          obtain ⟨w₁, ho, hw | hw⟩ := handleRead_result hx hi
          · exact absurd hw (herror x w₁ ho)
          · exact hrearm x w₁ ho hw
  | write sr =>
      cases hx : w.pool.getConnection n with
      | none =>
          simp only [invoke, handleWrite, hx, Option.some.injEq] at hi
          subst hi
          exact he
      | some x =>
          obtain ⟨w₁, ho, hw | hw | ⟨hw, -⟩⟩ := handleWrite_result hx hi
          · exact absurd hw (herror x w₁ ho)
          · exact hrearm x w₁ ho hw
          · rw [hw, ho.epoll]
            exact he
  | error =>
      simp only [invoke, Option.some.injEq] at hi
      exact absurd (congrArg Outcome.world hi.symm) (herror 0 w (OnlyConn.refl 0 w))

end handled

/-- A new connection is `CONNECTED`, or the pool has not taken it in. -/
theorem handleAccept_state {j : ℕ} {n : ℤ} {w w' : World α} (h : w.handleAccept j n = some w') :
    (w'.conns w.accepted).state = .connected ∨ w'.pool = w.pool := by
  unfold handleAccept at h
  obtain ⟨w₁, ha, hw⟩ := Option.map_eq_some_iff.mp h
  obtain ⟨-, rfl⟩ := accept_eq_some ha
  have hnew := congrArg Connection.state (conns_newClient_self n w)
  simp only [] at hw
  split at hw
  · left
    split at hw
    · rename_i w₂ hadd
      unfold addFd at hadd
      split_ifs at hadd
      cases hadd
      subst hw
      exact hnew
    · subst hw
      exact hnew
  · right
    subst hw
    exact closeConn_pool _ _

theorem ClosedRegistered.accept {j : ℕ} {n : ℤ} {w w' : World α} {e : Errno} {batch : List (ℤ × Events)}
    (hc : ClosedRegistered i ⟨w, e, batch⟩) (h : LoopInv i ⟨w, e, batch⟩) (hw : w.handleAccept j n = some w') :
    ClosedRegistered i ⟨w', e, batch⟩ := by
  have ha := h.acceptResult hw
  have hold : ∀ m x, w.pool.getConnection m = some x → (w'.conns x).state = .closed →
      (w'.epoll i m).isSome := by
    intro m x hx hst
    have hm := h.ne_of_pooled ha hx
    rw [ha.conns x (h.pooled m x hx).1] at hst
    rw [ha.epoll i m hm]
    exact hc m x hx hst
  intro m x hx hst
  by_cases hm : m = n
  · subst hm
    obtain ⟨hp, -⟩ | ⟨hp, -⟩ := ha.number
    · simp only [hp, Option.some.injEq] at hx
      subst hx
      rcases handleAccept_state hw with hnew | hpool
      · simp only [hnew] at hst
        cases hst
      · rw [hpool] at hp
        exact absurd (h.pooled m w.accepted hp).1 (Nat.lt_irrefl _)
    · simp only [hp] at hx
      exact hold m x hx hst
  · simp only [ha.pool m hm] at hx
    exact hold m x hx hst

section steps

variable [Inhabited α] {s s' : LoopState α} {l : LoopLabel α}

theorem closedRegistered_step (h : LoopInv i s) (hc : ClosedRegistered i s) (hs : step i s l = some s') :
    ClosedRegistered i s' := by
  unfold step at hs
  split_ifs at hs
  cases l with
  | tick t =>
      cases hs
      exact hc
  | accept j n =>
      obtain ⟨w', hw, rfl⟩ := Option.map_eq_some_iff.mp hs
      exact hc.accept h hw
  | wait evs =>
      simp only [] at hs
      split_ifs at hs
      cases hs
      intro n x hx hst
      rw [isSome_epoll_deliver]
      exact hc n x hx hst
  | handle rs sr =>
      obtain ⟨w, e, batch⟩ := s
      obtain ⟨n, ev, rest, rfl, ⟨-, rfl⟩ | ⟨v, o, -, ho, rfl⟩⟩ := handleEvent_cases hs
      · exact hc
      · obtain ⟨it, hit, -⟩ := h.delivered n List.mem_cons_self
        have he : (w.epoll i n).isSome := Option.isSome_of_eq_some hit
        have ht := (invoke_touches h.pop.1 h.pop.2 he ho).1
        intro m x hx hst
        by_cases hm : m = n
        · subst hm
          exact invoke_registered h.pop.1 he ho (Option.isSome_of_eq_some hx)
        · simp only [ht.pool m hm] at hx
          simp only [ht.conns m x hm hx] at hst
          simp only [ht.epoll i m hm]
          exact hc m x hx hst

/-- **Stale `errno`.**  In every state a loop reaches, and for every descriptor, what `HandleRead`
and `HandleWrite` leave is free of the `errno` at entry if and only if the connection pooled under
the descriptor, if there is one, is not `CLOSED`. -/
theorem errnoFree_iff {maxConnections : ℕ} {heartbeatTimeoutMs : ℤ}
    (hr : Reach (step i) always (init maxConnections heartbeatTimeoutMs) s) (fd : ℤ) :
    ErrnoFree i fd s.world ↔
      ∀ x, s.world.pool.getConnection fd = some x → (s.world.conns x).state ≠ .closed := by
  obtain ⟨h, hc⟩ : LoopInv i s ∧ ClosedRegistered i s := by
    refine hr.invariant (fun s => LoopInv i s ∧ ClosedRegistered i s) ⟨loopInv_init i _ _, ?_⟩ ?_
    · intro n x hx
      cases hx
    · rintro s l s' ⟨h, hc⟩ - hs
      exact ⟨loopInv_step h hs, closedRegistered_step h hc hs⟩
  refine ⟨?_, errnoFree_of_open⟩
  intro hfree x hx hst
  have he := hc fd x hx hst
  exact not_errnoFree_of_closed hx hst (h.registered i fd he) he hfree

end steps

/-- `HandleRead` gets one byte and then `EAGAIN`; `sr` is what `send` answers to the echo. -/
def echoRun (sr : SendResult) : List (LoopLabel UInt8) :=
  [.accept 0 5, .wait [(5, { epollin := true })], .handle [.data [104], .error EAGAIN] sr]

/-- `send` takes the byte: the handlers of the descriptor are free of `errno`. -/
theorem echoRun_errnoFree :
    ∃ s, run (step 0) (init 100000 60000) (echoRun (.sent 1)) = some s ∧ ErrnoFree 0 5 s.world := by
  obtain ⟨s, hs, hp, hst⟩ := exists_of_any (o := run (step 0) (init 100000 60000) (echoRun (.sent 1)))
    (fun s => s.world.pool.getConnection 5 = some 0 ∧ (s.world.conns 0).state = .connected) (by decide +kernel)
  refine ⟨s, hs, (errnoFree_iff (reach_of_run hs) 5).mpr ?_⟩
  intro x hx
  rw [hp] at hx
  cases hx
  rw [hst]
  decide

/-- `send` returns `0`: the connection stays in the pool, `CLOSED` and re-armed.  The next
`HandleRead` removes it if some call has left `errno` at `0`, and keeps it and re-arms it if the
left-over value is `EAGAIN`. -/
theorem echoRun_stale :
    ∃ s, run (step 0) (init 100000 60000) (echoRun .zero) = some s ∧
      (s.world.handleRead 0 5 [] .zero 0).map (fun o => o.world.pool.getConnection 5) = some none ∧
      (s.world.handleRead 0 5 [] .zero EAGAIN).map (fun o => o.world.pool.getConnection 5) = some (some 0) ∧
      ¬ ErrnoFree 0 5 s.world := by
  obtain ⟨s, hs, hdrop, hkeep⟩ := exists_of_any (o := run (step 0) (init 100000 60000) (echoRun .zero))
    (fun s => (s.world.handleRead 0 5 [] .zero 0).map (fun o => o.world.pool.getConnection 5) = some none ∧
      (s.world.handleRead 0 5 [] .zero EAGAIN).map (fun o => o.world.pool.getConnection 5) = some (some 0))
    (by decide +kernel)
  refine ⟨s, hs, hdrop, hkeep, ?_⟩
  intro hfree
  have heq := congrArg (Option.map fun q => q.1.getConnection 5) (hfree.read [] .zero 0 EAGAIN)
  simp only [Option.map_map] at heq
  have hne : some none = some (some 0) := hdrop.symm.trans (heq.trans hkeep)
  cases hne

end LoopState

end TcpServer
