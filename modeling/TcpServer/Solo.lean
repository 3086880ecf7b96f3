import TcpServer.Rearm
import TcpServer.Effect

/-! # A loop that is left alone

The handlers of `EventLoop.lean` are functions; in `Interleaving.lean` a handler is a sequence
of steps other threads may interrupt.  When nobody interrupts it, the two agree: from any state
in which loop `i` is between two events and the pool's mutex is free, the loop alone can run
through the handler of its next event, with the same answers of the kernel, and it ends in the
world and with the `errno` the function computes (`solo_handleEvent`).

Together with the main thread running undisturbed through `HandleAccept` this makes every run
of `LoopState` a run of a server with one IO loop (`solo_run`). -/

namespace TcpServer

namespace World

variable {α : Type}

@[simp] theorem setConn_setConn (x : Client) (c c' : Connection α) (w : World α) :
    (w.setConn x c).setConn x c' = w.setConn x c' := by simp [setConn]

@[simp] theorem setConn_self (x : Client) (w : World α) : w.setConn x (w.conns x) = w := by simp [setConn]

end World

namespace Sys

open World Transition

/-- Steps of thread `t` only. -/
abbrev Solo (t : Thread) : Sys → Sys → Prop := Reach step (fun _ l => l.thread = some t)

/-- Loop `i` stands at `p` with `errno` at `e`, and the shared state is `w`. -/
def work (i : ℕ) (p : Pc) (w : World Byte) (e : Errno) (s : Sys) : Sys :=
  { s with world := w, errno := Function.update s.errno i e, pc := Function.update s.pc (.loop i) p }

section work

variable (i : ℕ) (p q : Pc) (w w' : World Byte) (e e' : Errno) (s : Sys)

@[simp] theorem work_pc : (work i p w e s).pc (.loop i) = p := Function.update_self _ _ _

@[simp] theorem work_errno : (work i p w e s).errno i = e := Function.update_self _ _ _

@[simp] theorem work_world : (work i p w e s).world = w := rfl

@[simp] theorem work_lock : (work i p w e s).lock = s.lock := rfl

@[simp] theorem work_goto : (work i p w e s).goto (.loop i) q = work i q w e s := by simp [work, goto]

@[simp] theorem work_setWorld : (work i p w e s).setWorld w' = work i p w' e s := rfl

@[simp] theorem work_setLock (o : Option Thread) : (work i p w e s).setLock o = work i p w e (s.setLock o) := rfl

@[simp] theorem work_setErrno : (work i p w e s).setErrno i e' = work i p w e' s := by simp [work, setErrno]

end work

section solo

variable {i : ℕ} {s : Sys} {n : ℤ} {x : Client} {p q : Pc} {w w' : World Byte} {e e' : Errno} {ret : ℤ}

/-- The loop may move: it exists, and the process is alive. -/
structure Runs (i : ℕ) (s : Sys) : Prop where
  loop : i < s.loops
  stopped : s.stopped = false

theorem Runs.alive (hr : Runs i s) (hw : w.crashed = false) :
    ((work i p w e s).world.crashed || (work i p w e s).stopped) = false := by
  rw [work_world, hw]
  exact hr.stopped

theorem solo_loop {s' : Sys} (hr : Runs i s) (hw : w.crashed = false)
    (h : (work i p w e s).loopStep i = some s') : Solo (.loop i) (work i p w e s) s' := by
  refine Reach.single (l := .loop i) rfl ?_
  unfold step
  rw [hr.alive hw]
  exact (if_pos hr.loop).trans h

theorem solo_recvCall {s' : Sys} {r : RecvResult UInt8} (hr : Runs i s) (hw : w.crashed = false)
    (h : (work i p w e s).recvStep i r = some s') : Solo (.loop i) (work i p w e s) s' := by
  refine Reach.single (l := .recv i r) rfl ?_
  unfold step
  rw [hr.alive hw]
  exact (if_pos hr.loop).trans h

theorem solo_sendCall {s' : Sys} {r : SendResult} (hr : Runs i s) (hw : w.crashed = false)
    (h : (work i p w e s).sendStep i r = some s') : Solo (.loop i) (work i p w e s) s' := by
  refine Reach.single (l := .send i r) rfl ?_
  unfold step
  rw [hr.alive hw]
  exact (if_pos hr.loop).trans h

/-! ### `Recv` -/

/-- Where `HandleRead` goes on after a `Recv`. -/
def afterRecv (n : ℤ) (x : Client) (ret : ℤ) (e : Errno) : Pc :=
  if 0 < ret then .recvState n x
  else if ret = 0 ∨ wouldBlock e = false then .errorLookup n
  else .echo n x

theorem afterRecv_error (n : ℤ) (x : Client) (e : Errno) :
    afterRecv n x (-1) e = if wouldBlock e then .echo n x else .errorLookup n := by
  unfold afterRecv
  cases wouldBlock e <;> simp

theorem solo_recv {r : RecvResult UInt8} (hr : Runs i s) (hw : w.crashed = false)
    (h : w.recv x e (tag (w.files (w.conns x).fd) r) = some (w', ret, e')) :
    Solo (.loop i) (work i (.recvState n x) w e s) (work i (afterRecv n x ret e') w' e' s) := by
  unfold recv at h
  split_ifs at h with hc
  · cases h
    apply solo_loop hr hw
    simp [loopStep, hc, afterRecv_error]
  · have h1 : Solo (.loop i) (work i (.recvState n x) w e s) (work i (.recvFd n x) w e s) :=
      solo_loop hr hw (by simp [loopStep, hc])
    have h2 : Solo (.loop i) (work i (.recvFd n x) w e s) (work i (.recvSys n x (w.conns x).fd) w e s) :=
      solo_loop hr hw (by simp [loopStep])
    refine (h1.trans h2).trans ?_
    simp only [Connection.fd_checkAndResizeReadBuffer] at h
    split at h
    · rename_i bs hbs
      split_ifs at h with hlen
      cases h
      apply solo_recvCall (r := r) hr hw
      have hpos : 0 < bs.length := List.length_pos_of_ne_nil hlen.1
      simp [recvStep, hbs, hlen, afterRecv, hpos]
    · rename_i hbs
      cases h
      have h3 : Solo (.loop i) (work i (.recvSys n x (w.conns x).fd) w e s)
          (work i (.recvMark n x) (w.setConn x (w.conns x).checkAndResizeReadBuffer) e s) :=
        solo_recvCall (r := r) hr hw (by simp [recvStep, hbs])
      exact h3.trans (solo_loop hr hw (by simp [loopStep, afterRecv]))
    · rename_i hbs
      cases h
      rw [afterRecv_error]
      cases hb : wouldBlock e' with
      | true => exact solo_recvCall (r := r) hr hw (by simp [recvStep, hbs, hb])
      | false =>
          have h3 : Solo (.loop i) (work i (.recvSys n x (w.conns x).fd) w e s)
              (work i (.recvMark n x) (w.setConn x (w.conns x).checkAndResizeReadBuffer) e' s) :=
            solo_recvCall (r := r) hr hw (by simp [recvStep, hbs, hb])
          exact h3.trans (solo_loop hr hw (by simp [loopStep]))

/-- The drain loop. -/
theorem solo_drain {rs : List (RecvResult UInt8)} {d : Drained Byte} (hr : Runs i s) (hw : w.crashed = false)
    (h : drain x (rs.map (tag (w.files (w.conns x).fd))) w e = some d) :
    Solo (.loop i) (work i (.recvState n x) w e s) (work i (afterRecv n x d.ret d.errno) d.world d.errno s) ∧
      d.ret ≤ 0 := by
  induction rs generalizing w e d with
  | nil =>
      simp only [List.map_nil, drain] at h
      split_ifs at h with hc
      cases h
      refine ⟨solo_loop hr hw ?_, by simp⟩
      simp [loopStep, hc, afterRecv_error]
  | cons r rs ih =>
      simp only [List.map_cons, drain] at h
      split at h
      · cases h
      · rename_i w₁ ret e₁ hrecv
        have hstep := solo_recv (n := n) hr hw hrecv
        have hframe := onlyConn_recv hrecv
        split_ifs at h with hpos
        · obtain ⟨d', hd, rfl⟩ := Option.map_eq_some_iff.mp h
          rw [← hframe.files, ← hframe.fd] at hd
          obtain ⟨hrest, hret⟩ := ih (hframe.crashed.trans hw) hd
          have hagain : afterRecv n x ret e₁ = .recvState n x := if_pos hpos
          rw [hagain] at hstep
          exact ⟨hstep.trans hrest, hret⟩
        · cases h
          exact ⟨hstep, not_lt.mp hpos⟩

/-! ### `Send` -/

/-- Where a handler goes on after `Send`. -/
def afterSendRet (k : Handler) (n : ℤ) (x : Client) (ret : ℤ) (e : Errno) : Pc :=
  if ret < 0 then afterSendError n x e k else afterSend n x k

theorem solo_send {k : Handler} {r : SendResult} (hr : Runs i s) (hw : w.crashed = false)
    (h : w.send x e r = some (w', ret, e')) :
    Solo (.loop i) (work i (.sendState k n x) w e s) (work i (afterSendRet k n x ret e') w' e' s) := by
  unfold send at h
  simp only [] at h
  split_ifs at h with hc hidx
  · cases h
    exact solo_loop hr hw (by simp [loopStep, hc, afterSendRet])
  · cases h
    exact solo_loop hr hw (by simp [loopStep, hc, hidx, afterSendRet])
  · have h1 : Solo (.loop i) (work i (.sendState k n x) w e s) (work i (.sendFd k n x) w e s) :=
      solo_loop hr hw (by simp [loopStep, hc, hidx])
    have h2 : Solo (.loop i) (work i (.sendFd k n x) w e s) (work i (.sendSys k n x (w.conns x).fd) w e s) :=
      solo_loop hr hw (by simp [loopStep])
    refine (h1.trans h2).trans ?_
    split at h
    · rename_i len hlen
      split_ifs at h with hle
      cases h
      have hpos : ¬ (len : ℤ) < 0 := by omega
      exact solo_sendCall (r := r) hr hw (by simp [sendStep, hlen, hle, afterSendRet, hpos])
    · rename_i hzero
      cases h
      have h3 : Solo (.loop i) (work i (.sendSys k n x (w.conns x).fd) w e s)
          (work i (.sendMark k n x true) w e s) :=
        solo_sendCall (r := r) hr hw (by simp [sendStep, hzero])
      exact h3.trans (solo_loop hr hw (by simp [loopStep, afterSendRet]))
    · rename_i herr
      cases h
      cases hb : wouldBlock e' with
      | true => exact solo_sendCall (r := r) hr hw (by simp [sendStep, herr, hb, afterSendRet])
      | false =>
          have h3 : Solo (.loop i) (work i (.sendSys k n x (w.conns x).fd) w e s)
              (work i (.sendMark k n x false) w e' s) :=
            solo_sendCall (r := r) hr hw (by simp [sendStep, herr, hb])
          refine h3.trans (solo_loop hr hw ?_)
          cases k <;> simp [loopStep, afterSendRet, afterSendError, hb]

/-! ### `HandleError` and `ModifyFd` -/

theorem solo_close (hr : Runs i s) (hw : w.crashed = false) :
    Solo (.loop i) (work i (.closing n x .load) w e s) (work i (.erase n x) (w.closeConn x) e s) := by
  unfold closeConn
  split_ifs with hc
  · exact solo_loop hr hw (by simp [loopStep, closeStep, hc])
  · have h1 : Solo (.loop i) (work i (.closing n x .load) w e s) (work i (.closing n x .store) w e s) :=
      solo_loop hr hw (by simp [loopStep, closeStep, hc])
    have h2 : Solo (.loop i) (work i (.closing n x .store) w e s)
        (work i (.closing n x .fd) (w.setConn x (w.conns x).markClosed) e s) :=
      solo_loop hr hw (by simp [loopStep, closeStep])
    refine (h1.trans h2).trans ?_
    have hfd' : (w.conns x).markClosed.fd = (w.conns x).fd := rfl
    simp only [conns_setConn_self, hfd']
    split_ifs with hfd
    · exact solo_loop hr hw (by simp [loopStep, closeStep, hfd', hfd])
    · have h3 : Solo (.loop i) (work i (.closing n x .fd) (w.setConn x (w.conns x).markClosed) e s)
          (work i (.closing n x (.sys (w.conns x).fd)) (w.setConn x (w.conns x).markClosed) e s) :=
        solo_loop hr hw (by simp [loopStep, closeStep, hfd', hfd])
      have h4 : Solo (.loop i)
          (work i (.closing n x (.sys (w.conns x).fd)) (w.setConn x (w.conns x).markClosed) e s)
          (work i (.closing n x .clear) ((w.setConn x (w.conns x).markClosed).close x (w.conns x).fd) e s) :=
        solo_loop hr hw (by simp [loopStep, closeStep])
      exact (h3.trans h4).trans (solo_loop hr hw (by simp [loopStep, closeStep]))

theorem eraseStep_work (hlock : s.lock = none) :
    (work i (.erase n x) w e (s.setLock (some (.loop i)))).eraseStep (.loop i) n x =
      work i .idle (w.setPool (w.pool.erase n)) e s := by
  cases s
  simp_all [work, eraseStep, setLock]

theorem solo_remove (hr : Runs i s) (hw : w.crashed = false) (hlock : s.lock = none) :
    Solo (.loop i) (work i (.remove n) w e s) (work i .idle (w.removeConnection n) e s) := by
  unfold removeConnection
  cases hx : w.pool.getConnection n with
  | none => exact solo_loop hr hw (by simp [loopStep, beginRemove, hlock, hx])
  | some x =>
      have hr' : Runs i (s.setLock (some (.loop i))) := ⟨hr.loop, hr.stopped⟩
      have h1 : Solo (.loop i) (work i (.remove n) w e s)
          (work i (.closing n x .load) w e (s.setLock (some (.loop i)))) := by
        apply solo_loop hr hw
        simp [loopStep, beginRemove, hlock, hx]
      refine (h1.trans (solo_close hr' hw)).trans (solo_loop hr' ?_ ?_)
      · exact (closeConn_crashed x w).trans hw
      · simp only [loopStep, work_pc]
        rw [eraseStep_work hlock]

theorem crashed_removeFd {w₁ : World Byte} (h : w.removeFd i n = some w₁) : w₁.crashed = w.crashed := by
  unfold removeFd at h
  split_ifs at h
  cases h
  rfl

/-- The loop is between two events again, unless the process has ended. -/
def Ends (i : ℕ) (p : Pc) (w : World Byte) (e : Errno) (s₀ s : Sys) : Prop :=
  Solo (.loop i) s₀ (work i p w e s) ∧ (w.crashed = false → p = .idle)

theorem solo_handleError (hr : Runs i s) (hw : w.crashed = false) (hlock : s.lock = none) :
    ∃ p, Ends i p (w.handleError i n) e (work i (.errorLookup n) w e s) s := by
  have h1 : Solo (.loop i) (work i (.errorLookup n) w e s) (work i (.errorDel n) w e s) :=
    solo_loop hr hw (by simp [loopStep, hlock])
  unfold handleError
  cases hrem : w.removeFd i n with
  | none =>
      refine ⟨.errorDel n, h1.trans (solo_loop hr hw (by simp [loopStep, hrem])), ?_⟩
      intro hc
      cases hc
  | some w₁ =>
      have hw₁ : w₁.crashed = false := (crashed_removeFd hrem).trans hw
      have h2 : Solo (.loop i) (work i (.errorDel n) w e s) (work i (.remove n) w₁ e s) :=
        solo_loop hr hw (by simp [loopStep, hrem])
      exact ⟨.idle, (h1.trans h2).trans (solo_remove hr hw₁ hlock), fun _ => rfl⟩

theorem solo_rearm (hr : Runs i s) (hw : w.crashed = false) :
    ∃ p, Ends i p (w.rearm i n x) e (work i (.rearm n x) w e s) s := by
  unfold rearm
  cases hmod : w.modifyFd i n (rearmMask (w.conns x)) with
  | none =>
      refine ⟨.rearm n x, solo_loop hr hw (by simp [loopStep, hmod]), ?_⟩
      intro hc
      cases hc
  | some w₁ => exact ⟨.idle, solo_loop hr hw (by simp [loopStep, hmod]), fun _ => rfl⟩

/-! ### The handlers -/

theorem Ends.after {s₀ s₁ : Sys} (h : Solo (.loop i) s₀ s₁) (h' : ∃ p, Ends i p w e s₁ s) :
    ∃ p, Ends i p w e s₀ s := by
  obtain ⟨p, hs, hp⟩ := h'
  exact ⟨p, h.trans hs, hp⟩

theorem solo_afterDrain {sr : SendResult} {d : Drained Byte} {o : Outcome Byte} (hr : Runs i s)
    (hlock : s.lock = none) (hw : d.world.crashed = false) (hret : d.ret ≤ 0) (h : afterDrain i n x sr d = some o) :
    ∃ p, Ends i p o.world o.errno (work i (afterRecv n x d.ret d.errno) d.world d.errno s) s := by
  have hnp : ¬ 0 < d.ret := not_lt.mpr hret
  unfold afterDrain at h
  split_ifs at h with hzero herr hdata
  · cases h
    rw [afterRecv, if_neg hnp, if_pos (Or.inl hzero)]
    exact solo_handleError hr hw hlock
  · cases h
    rw [afterRecv, if_neg hnp, if_pos (Or.inr herr.2)]
    exact solo_handleError hr hw hlock
  all_goals
    have hecho : afterRecv n x d.ret d.errno = .echo n x := by
      have hneg : d.ret < 0 := lt_of_le_of_ne hret hzero
      rw [afterRecv, if_neg hnp, if_neg]
      rintro (hz | hb)
      · exact hzero hz
      · exact herr ⟨hneg, hb⟩
    rw [hecho]
  · have h1 : Solo (.loop i) (work i (.echo n x) d.world d.errno s)
        (work i (.sendState .read n x) (d.world.setConn x (d.world.conns x).echo) d.errno s) :=
      solo_loop hr hw (by simp [loopStep, hdata])
    refine Ends.after h1 ?_
    simp only [] at h
    split at h
    · cases h
    · rename_i w₂ ret e hsend
      have hw₂ : w₂.crashed = false := (onlyConn_send hsend).crashed.trans hw
      refine Ends.after (solo_send (n := n) hr hw hsend) ?_
      split_ifs at h with hbad
      · cases h
        simp only [afterSendRet, afterSendError, if_pos hbad.1, hbad.2]
        exact solo_handleError hr hw₂ hlock
      · cases h
        have hnext : afterSendRet .read n x ret e = .rearm n x := by
          by_cases hneg : ret < 0
          · have hb : wouldBlock e = true := by
              rw [← Bool.not_eq_false]
              exact fun hb => hbad ⟨hneg, hb⟩
            simp [afterSendRet, afterSendError, hneg, hb]
          · simp [afterSendRet, afterSend, hneg]
        rw [hnext]
        exact solo_rearm hr hw₂
  · cases h
    have h1 : Solo (.loop i) (work i (.echo n x) d.world d.errno s) (work i (.rearm n x) d.world d.errno s) :=
      solo_loop hr hw (by simp [loopStep, hdata])
    exact Ends.after h1 (solo_rearm hr hw)

theorem solo_write {sr : SendResult} {o : Outcome Byte} (hr : Runs i s) (hlock : s.lock = none)
    (hw : w.crashed = false) (hx : w.pool.getConnection n = some x) (h : w.handleWrite i n sr e = some o) :
    ∃ p, Ends i p o.world o.errno (work i (.sendState .write n x) w e s) s := by
  unfold handleWrite at h
  rw [hx] at h
  simp only [] at h
  split at h
  · cases h
  · rename_i w₁ ret e' hsend
    have hw₁ : w₁.crashed = false := (onlyConn_send hsend).crashed.trans hw
    refine Ends.after (solo_send (n := n) hr hw hsend) ?_
    split_ifs at h with hneg hb
    · cases h
      simp only [afterSendRet, if_pos hneg, afterSendError, hb]
      exact solo_handleError hr hw₁ hlock
    · cases h
      simp only [afterSendRet, if_pos hneg, afterSendError, hb]
      exact ⟨.idle, Reach.refl, fun _ => rfl⟩
    · cases h
      simp only [afterSendRet, if_neg hneg, afterSend]
      have h1 : Solo (.loop i) (work i (.touch n x) w₁ e' s)
          (work i (.rearm n x) (w₁.setConn x ((w₁.conns x).updateHeartbeat w₁.now)) e' s) :=
        solo_loop hr hw₁ (by simp [loopStep])
      exact Ends.after h1 (solo_rearm hr hw₁)

/-- The client behind the connection that the pool holds for `n`: the bytes a handler of `n`
receives are its. -/
def peer (w : World Byte) (n : ℤ) : Option Client :=
  (w.pool.getConnection n).bind fun x => w.files (w.conns x).fd

theorem work_idle (hpc : s.pc (.loop i) = .idle) : work i .idle s.world (s.errno i) s = s := by
  have h1 : Function.update s.pc (.loop i) .idle = s.pc := by
    rw [← hpc]
    exact Function.update_eq_self _ _
  have h2 : Function.update s.errno i (s.errno i) = s.errno := Function.update_eq_self _ _
  unfold work
  rw [h1, h2]

section event

variable {ev : Events} {rest : List (ℤ × Events)} {rs : List (RecvResult UInt8)} {sr : SendResult}

/-- The loop takes its next event. -/
theorem solo_take {s' : Sys} (hr : Runs i s) (hw : s.world.crashed = false) (hpc : s.pc (.loop i) = .idle)
    (h : s.eventStep i = some s') : Solo (.loop i) s s' := by
  have hstart := work_idle hpc
  have hloop : (work i .idle s.world (s.errno i) s).loopStep i = some s' := by
    rw [hstart]
    simp only [loopStep, hpc]
    exact h
  have hsolo := solo_loop hr hw hloop
  rwa [hstart] at hsolo

theorem goto_eq_work (q : Pc) :
    (s.setBatch i rest).goto (.loop i) q = work i q s.world (s.errno i) (s.setBatch i rest) := by
  have h2 : Function.update s.errno i (s.errno i) = s.errno := Function.update_eq_self _ _
  simp only [work, goto, setBatch, h2]

/-- **A handler that is not disturbed does what its function computes.** -/
theorem solo_invoke {v : Invocation Byte} {o : Outcome Byte} (hr : Runs i s) (hw : s.world.crashed = false)
    (hlock : s.lock = none) (hpc : s.pc (.loop i) = .idle) (hb : s.batch i = (n, ev) :: rest)
    (hv : handlerOf ev (rs.map (tag (peer s.world n))) sr = some v)
    (h : s.world.invoke i n v (s.errno i) = some o) :
    ∃ p, Ends i p o.world o.errno s (s.setBatch i rest) := by
  have hr' : Runs i (s.setBatch i rest) := ⟨hr.loop, hr.stopped⟩
  have hskip : (ev.epollerr || ev.epollhup) = false → (ev.epollin || ev.epollout) = true →
      s.world.pool.getConnection n = none → ∃ p, Ends i p s.world (s.errno i) s (s.setBatch i rest) := by
    intro herr hio hx
    refine ⟨.idle, ?_, fun _ => rfl⟩
    have hdone : work i .idle s.world (s.errno i) (s.setBatch i rest) = s.setBatch i rest :=
      work_idle (s := s.setBatch i rest) hpc
    rw [hdone]
    exact solo_take hr hw hpc (by simp [eventStep, hb, herr, hio, hlock, hx])
  unfold handlerOf at hv
  split_ifs at hv with herr hin hout
  · cases hv
    cases h
    have h1 : Solo (.loop i) s (work i (.errorLookup n) s.world (s.errno i) (s.setBatch i rest)) := by
      rw [← goto_eq_work]
      exact solo_take hr hw hpc (by simp [eventStep, hb, herr])
    exact Ends.after h1 (solo_handleError hr' hw hlock)
  · cases hv
    have herr' : (ev.epollerr || ev.epollhup) = false := by simpa using herr
    simp only [invoke, handleRead] at h
    cases hx : s.world.pool.getConnection n with
    | none =>
        rw [hx] at h
        cases h
        exact hskip herr' (by simp [hin]) hx
    | some x =>
        rw [hx] at h
        have h1 : Solo (.loop i) s (work i (.recvState n x) s.world (s.errno i) (s.setBatch i rest)) := by
          rw [← goto_eq_work]
          exact solo_take hr hw hpc (by simp [eventStep, hb, herr', hin, hlock, hx])
        obtain ⟨d, hd, ho⟩ := Option.bind_eq_some_iff.mp h
        have hpeer : peer s.world n = s.world.files (s.world.conns x).fd := by simp [peer, hx]
        rw [hpeer] at hd
        obtain ⟨h2, hret⟩ := solo_drain (n := n) hr' hw hd
        exact Ends.after (h1.trans h2) (solo_afterDrain hr' hlock ((onlyConn_drain hd).crashed.trans hw) hret ho)
  · cases hv
    have herr' : (ev.epollerr || ev.epollhup) = false := by simpa using herr
    cases hx : s.world.pool.getConnection n with
    | none =>
        simp only [invoke, handleWrite, hx] at h
        cases h
        exact hskip herr' (by simp [hout]) hx
    | some x =>
        have h1 : Solo (.loop i) s (work i (.sendState .write n x) s.world (s.errno i) (s.setBatch i rest)) := by
          rw [← goto_eq_work]
          exact solo_take hr hw hpc (by simp [eventStep, hb, herr', hin, hout, hlock, hx])
        exact Ends.after h1 (solo_write hr' hlock hw hx h)

end event

end solo

/-! ### Runs of one loop as runs of the server -/

/-- The server has one loop, which is between two events in the state `s`; the main thread stands
at `p`, and no other thread is at work. -/
structure Hosts (p : Pc) (S : Sys) (s : LoopState Byte) : Prop where
  world : S.world = s.world
  errno : S.errno 0 = s.errno
  batch : S.batch 0 = s.batch
  loops : S.loops = 1
  nextLoopIdx : S.nextLoopIdx = 0
  stopped : S.stopped = false
  quiet : s.world.crashed = false → S.pc (.loop 0) = .idle ∧ S.pc .main = p ∧ S.lock = none

/-- The bytes the kernel returns to the handler of the next event are those of the client behind
its connection. -/
def tagLabel (s : LoopState Byte) : LoopLabel UInt8 → LoopLabel Byte
  | .tick t => .tick t
  | .accept j n => .accept j n
  | .wait evs => .wait evs
  | .handle rs sr => .handle (rs.map (tag (s.batch.head?.bind fun p => peer s.world p.1))) sr

/-- The step of the loop of a server that has no other loop. -/
def soloStep (s : LoopState Byte) (l : LoopLabel UInt8) : Option (LoopState Byte) :=
  LoopState.step 0 s (tagLabel s l)

/-- Connections are assigned to the loop. -/
def assigns : LoopLabel UInt8 → Bool
  | .accept j _ => decide (j = 0)
  | _ => true

section run

variable {S : Sys} {s s' : LoopState Byte} {w' : World Byte} {n : ℤ} {x : Client} {p q : Pc}

theorem Hosts.runs (h : Hosts p S s) : Runs 0 S := ⟨by rw [h.loops]; exact Nat.one_pos, h.stopped⟩

theorem Hosts.alive (h : Hosts p S s) (hcr : s.world.crashed = false) : S.world.crashed = false := by
  rw [h.world]
  exact hcr

/-- The main thread changes the world and goes on at `q`. -/
theorem Hosts.goto (h : Hosts p S s) (hcr : s.world.crashed = false) (w' : World Byte) (q : Pc) :
    Hosts q ((S.setWorld w').goto .main q) { s with world := w' } := by
  obtain ⟨hloop, -, hlock⟩ := h.quiet hcr
  exact ⟨rfl, h.errno, h.batch, h.loops, h.nextLoopIdx, h.stopped, fun _ => ⟨by simp [hloop], by simp, hlock⟩⟩

theorem Hosts.main {T : Sys} (h : Hosts p S s) (hcr : s.world.crashed = false) (hs : S.mainStep = some T)
    (h' : Hosts q T s') : ∃ S', Reach step always S S' ∧ Hosts q S' s' := by
  refine ⟨T, Reach.single (l := .main) trivial ?_, h'⟩
  unfold step
  rw [h.alive hcr, h.stopped]
  exact hs

/-- `AddConnection` takes the connection in, and it is assigned to the only loop. -/
theorem Hosts.add {pool : ConnectionPool} (h : Hosts (.add n x) S s) (hcr : s.world.crashed = false)
    (hfd : (s.world.conns x).fd = n) (hadd : s.world.pool.addConnection n x = (pool, true)) :
    ∃ S', Reach step always S S' ∧ Hosts (.addFd n x 0) S' { s with world := s.world.setPool pool } := by
  obtain ⟨hloop, hmain, hlock⟩ := h.quiet hcr
  refine h.main hcr (T := S.addStep n x pool) ?_ ?_
  · simp [mainStep, hmain, hlock, h.world, hfd, hadd]
  · refine ⟨?_, h.errno, h.batch, h.loops, ?_, h.stopped, fun _ => ⟨?_, ?_, hlock⟩⟩
    · rw [addStep_world, h.world]
    · rw [addStep_nextLoopIdx, h.loops, Nat.mod_one]
    · simp [hloop]
    · simp [h.nextLoopIdx]

theorem Hosts.addFd (h : Hosts (.addFd n x 0) S s) (hcr : s.world.crashed = false) :
    ∃ S', Reach step always S S' ∧
      Hosts .idle S' { s with world := (s.world.addFd 0 n inOutMask).getD s.world.crash } := by
  obtain ⟨-, hmain, -⟩ := h.quiet hcr
  cases hw : s.world.addFd 0 n inOutMask with
  | none =>
      refine h.main hcr (T := S.setWorld S.world.crash) (by simp [mainStep, hmain, h.world, hw]) ?_
      refine ⟨?_, h.errno, h.batch, h.loops, h.nextLoopIdx, h.stopped, ?_⟩
      · rw [setWorld_world, h.world]
        rfl
      · intro hc
        cases hc
  | some w => exact h.main hcr (by simp [mainStep, hmain, h.world, hw]) (h.goto hcr w .idle)

/-- The pool refuses the connection: both `client_socket` and `conn` close the number. -/
theorem Hosts.refuse {pool : ConnectionPool} (h : Hosts (.add n x) S s) (hcr : s.world.crashed = false)
    (hfd : (s.world.conns x).fd = n) (hadd : s.world.pool.addConnection n x = (pool, false)) :
    ∃ S', Reach step always S S' ∧ Hosts .idle S' { s with world := (s.world.close x n).closeConn x } := by
  obtain ⟨-, hmain, hlock⟩ := h.quiet hcr
  have h1 : ∃ S', Reach step always S S' ∧ Hosts (.rejectClose n x) S' s := by
    refine h.main hcr (T := S.goto .main (.rejectClose n x)) ?_ ?_
    · simp [mainStep, hmain, hlock, h.world, hfd, hadd]
    · have hw : S.setWorld s.world = S := by rw [← h.world]; rfl
      have := h.goto hcr s.world (.rejectClose n x)
      rwa [hw] at this
  obtain ⟨S₁, hr₁, hh₁⟩ := h1
  obtain ⟨-, hmain₁, -⟩ := hh₁.quiet hcr
  obtain ⟨S₂, hr₂, hh₂⟩ := hh₁.main hcr (by simp [mainStep, hmain₁, hh₁.world])
    (hh₁.goto hcr (s.world.close x n) (.rejectDrop n x))
  obtain ⟨-, hmain₂, -⟩ := hh₂.quiet hcr
  obtain ⟨S₃, hr₃, hh₃⟩ := hh₂.main hcr (by simp [mainStep, hmain₂, hh₂.world])
    (hh₂.goto hcr ((s.world.close x n).closeConn x) .idle)
  exact ⟨S₃, (hr₁.trans hr₂).trans hr₃, hh₃⟩

/-- `HandleAccept` that is not disturbed. -/
theorem Hosts.accept (h : Hosts .idle S s) (hcr : s.world.crashed = false)
    (hw : s.world.handleAccept 0 n = some w') :
    ∃ S', Reach step always S S' ∧ Hosts .idle S' { s with world := w' } := by
  obtain ⟨hloop, hmain, hlock⟩ := h.quiet hcr
  unfold handleAccept at hw
  obtain ⟨w₁, ha, rfl⟩ := Option.map_eq_some_iff.mp hw
  have h1 : Reach step always S ((S.setWorld w₁).goto .main (.add n s.world.accepted)) := by
    refine Reach.single (l := .accept n) trivial ?_
    unfold step
    rw [h.alive hcr, h.stopped]
    simp [acceptStep, hmain, h.world, ha]
  have hh := h.goto hcr w₁ (.add n s.world.accepted)
  obtain ⟨hfree, rfl⟩ := accept_eq_some ha
  have hfd : ((s.world.newClient n).conns s.world.accepted).fd = n :=
    congrArg Connection.fd (conns_newClient_self n s.world)
  simp only []
  split
  · rename_i pool hadd
    obtain ⟨S₂, hr₂, hh₂⟩ := hh.add hcr hfd hadd
    obtain ⟨S₃, hr₃, hh₃⟩ := hh₂.addFd hcr
    refine ⟨S₃, (h1.trans hr₂).trans hr₃, ?_⟩
    cases hw₂ : ((s.world.newClient n).setPool pool).addFd 0 n inOutMask with
    | none => simpa only [hw₂, Option.getD_none] using hh₃
    | some w₂ => simpa only [hw₂, Option.getD_some] using hh₃
  · rename_i pool hadd
    obtain ⟨S₂, hr₂, hh₂⟩ := hh.refuse hcr hfd hadd
    exact ⟨S₂, h1.trans hr₂, hh₂⟩

/-- One step of the loop is a run of the server. -/
theorem Hosts.step {l : LoopLabel UInt8} (h : Hosts .idle S s) (hl : assigns l = true)
    (hs : soloStep s l = some s') : ∃ S', Reach step always S S' ∧ Hosts .idle S' s' := by
  unfold soloStep LoopState.step at hs
  split_ifs at hs with hend
  have hcr : s.world.crashed = false := by simpa using hend
  have hcr' := h.alive hcr
  obtain ⟨hloop, hmain, hlock⟩ := h.quiet hcr
  cases l with
  | tick t =>
      cases hs
      refine ⟨S.setWorld { S.world with now := t }, Reach.single (l := .tick t) trivial ?_, ?_⟩
      · unfold Sys.step
        rw [hcr', h.stopped]
        rfl
      · exact ⟨by rw [setWorld_world, h.world], h.errno, h.batch, h.loops, h.nextLoopIdx, h.stopped,
          fun _ => ⟨hloop, hmain, hlock⟩⟩
  | accept j n =>
      have hj : j = 0 := by simpa [assigns] using hl
      subst hj
      obtain ⟨w', hw, rfl⟩ := Option.map_eq_some_iff.mp hs
      exact h.accept hcr hw
  | wait evs =>
      simp only [tagLabel] at hs
      split_ifs at hs with hd
      cases hs
      refine ⟨(S.setWorld (S.world.deliver 0 evs)).setBatch 0 evs, Reach.single (l := .wait 0 evs) trivial ?_, ?_⟩
      · unfold Sys.step
        rw [hcr', h.stopped]
        simp [waitStep, h.loops, hloop, h.batch, h.world, hd]
      · exact ⟨by rw [setBatch_world, setWorld_world, h.world], h.errno, by simp, h.loops, h.nextLoopIdx,
          h.stopped, fun _ => ⟨hloop, hmain, hlock⟩⟩
  | handle rs sr =>
      simp only [tagLabel, LoopState.handleEvent] at hs
      split at hs
      · cases hs
      · rename_i n ev rest hb
        have hb' : S.batch 0 = (n, ev) :: rest := h.batch.trans hb
        rw [hb] at hs
        simp only [List.head?_cons, Option.bind_some, ← h.world] at hs
        split at hs
        · rename_i hv
          cases hs
          have hno : (ev.epollerr || ev.epollhup) = false ∧ (ev.epollin || ev.epollout) = false := by
            unfold handlerOf at hv
            split_ifs at hv with herr hin hout
            simp_all
          refine ⟨S.setBatch 0 rest, (solo_take h.runs hcr' hloop ?_).mono (fun _ _ _ => trivial), ?_⟩
          · simp [eventStep, hb', hno.1, hno.2]
          · exact ⟨rfl, h.errno, by simp, h.loops, h.nextLoopIdx, h.stopped, fun _ => ⟨hloop, hmain, hlock⟩⟩
        · rename_i v hv
          obtain ⟨o, ho, rfl⟩ := Option.map_eq_some_iff.mp hs
          rw [← h.errno] at ho
          obtain ⟨p, hsolo, hp⟩ := solo_invoke h.runs hcr' hlock hloop hb' hv ho
          refine ⟨_, hsolo.mono (fun _ _ _ => trivial), ?_⟩
          refine ⟨rfl, work_errno _ _ _ _ _, ?_, h.loops, h.nextLoopIdx, h.stopped, ?_⟩
          · simp [work]
          · intro hc
            rw [work_pc]
            exact ⟨hp hc, by simp [work, hmain], hlock⟩

/-- **Runs of one loop.**  Every run of `LoopState` whose connections are assigned to the loop is
a run of a server with one IO thread, seen between two events. -/
theorem solo_run {maxConnections : ℕ} {heartbeatTimeoutMs : ℤ}
    (h : Reach soloStep (fun _ l => assigns l = true) (LoopState.init maxConnections heartbeatTimeoutMs) s) :
    ∃ S, Reach step always (init maxConnections heartbeatTimeoutMs 1) S ∧ Hosts .idle S s := by
  induction h with
  | refl => exact ⟨_, Reach.refl, rfl, rfl, rfl, rfl, rfl, rfl, fun _ => ⟨rfl, rfl, rfl⟩⟩
  | tail _ hok hs ih =>
      obtain ⟨S, hS, hh⟩ := ih
      obtain ⟨S', hS', hh'⟩ := hh.step hok hs
      exact ⟨S', hS.trans hS', hh'⟩

end run


end Sys

end TcpServer
