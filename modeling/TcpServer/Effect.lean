import TcpServer.Interleaving

/-! # What one step can do

`Effect s l s'` lists the kinds of steps of the interleaved server, with everything the
invariants need to know about each: who moves, what its guard was and how the state changes.
Steps inside `Recv`, `Send` and the handlers that leave descriptors, states, the pool, the
descriptor table and the set of registrations alone are one kind (`Effect.quiet`); what they
do to the buffers is said by `DataEffect`.  `step_effect` is the only place where the step
function is taken apart. -/

namespace TcpServer

namespace Pc

/-- The number and the object an IO handler works with. -/
def handles : Pc → Option (ℤ × Client)
  | .recvState n x | .recvFd n x | .recvSys n x _ | .recvMark n x | .echo n x | .sendState _ n x
  | .sendFd _ n x | .sendSys _ n x _ | .sendMark _ n x _ | .touch n x | .rearm n x => some (n, x)
  | _ => none

/-- The number a handler may still call `epoll_ctl` for. -/
def owes : Pc → Option ℤ
  | .recvState n _ | .recvFd n _ | .recvSys n _ _ | .recvMark n _ | .echo n _ | .sendState _ n _
  | .sendFd _ n _ | .sendSys _ n _ _ | .sendMark _ n _ _ | .touch n _ | .rearm n _
  | .errorLookup n | .errorDel n => some n
  | _ => none

/-- Steps of `HandleAccept` and inside the critical section of `RemoveConnection`. -/
def busy : Pc → Bool
  | .add _ _ | .rejectClose _ _ | .rejectDrop _ _ | .addFd _ _ _ | .closing _ _ _ | .erase _ _ => true
  | _ => false

theorem owes_of_handles {p : Pc} {n : ℤ} {x : Client} (h : p.handles = some (n, x)) :
    p.owes = some n ∧ p.busy = false := by
  cases p <;> simp_all [handles, owes, busy]

/-- `Recv` or `Send` has found the connection open and has not loaded `fd_` yet. -/
def checked : Pc → Option Client
  | .recvFd _ x | .sendFd _ _ x => some x
  | _ => none

theorem handles_of_checked {p : Pc} {x : Client} (h : p.checked = some x) :
    (∃ n, p.handles = some (n, x)) ∧ p.busy = false := by
  cases p with
  | recvFd n y =>
      cases h
      exact ⟨⟨n, rfl⟩, rfl⟩
  | sendFd k n y =>
      cases h
      exact ⟨⟨n, rfl⟩, rfl⟩
  | _ => cases h

/-- `Recv` or `Send` is about to call the kernel with the number it has loaded. -/
def loaded : Pc → Option (Client × ℤ)
  | .recvSys _ x m | .sendSys _ _ x m => some (x, m)
  | _ => none

/-- The object `RemoveConnection` has found and not yet erased. -/
def removes : Pc → Option Client
  | .closing _ x _ | .erase _ x => some x
  | _ => none

/-- A thread that is not inside `HandleAccept`, a removal or a close is not at `AddFd`. -/
theorem addFd_iff_of_not_busy {p q : Pc} (hp : p.busy = false) (hq : q.busy = false) (m : ℤ) (y : Client) (j : ℕ) :
    p = .addFd m y j ↔ q = .addFd m y j := by
  constructor
  · rintro rfl
    cases hp
  · rintro rfl
    cases hq

theorem removes_of_not_busy {p : Pc} (hb : p.busy = false) : p.removes = none := by
  cases p <;> first | rfl | cases hb

/-- `Recv` or `Send` is about to store `CLOSED`. -/
def marks : Pc → Option Client
  | .recvMark _ x | .sendMark _ _ x _ => some x
  | _ => none

theorem busy_of_marks {p : Pc} {x : Client} (h : p.marks = some x) : p.busy = false := by
  cases p <;> first | rfl | cases h

theorem handles_of_marks {p : Pc} {x : Client} (h : p.marks = some x) : ∃ n, p.handles = some (n, x) := by
  cases p with
  | recvMark n y =>
      cases h
      exact ⟨n, rfl⟩
  | sendMark k n y z =>
      cases h
      exact ⟨n, rfl⟩
  | _ => cases h

end Pc

/-- The thread a label belongs to. -/
def Label.thread : Label → Option Thread
  | .tick _ => none
  | .accept _ | .main | .shutdown => some .main
  | .wait i _ | .loop i | .recv i _ | .send i _ => some (.loop i)
  | .scan _ | .heartbeat => some .heartbeat

namespace World

variable {α : Type}

/-- Nothing changes but buffers, heartbeat times, traffic and whether registrations are armed. -/
structure SameCore (w w' : World α) : Prop where
  fd : ∀ x, (w'.conns x).fd = (w.conns x).fd
  state : ∀ x, (w'.conns x).state = (w.conns x).state
  accepted : w'.accepted = w.accepted
  num : w'.num = w.num
  pool : w'.pool = w.pool
  files : w'.files = w.files
  epoll : ∀ i n, (w'.epoll i n).isSome = (w.epoll i n).isSome
  closeLog : w'.closeLog = w.closeLog
  crashed : w'.crashed = w.crashed

theorem SameCore.refl (w : World α) : SameCore w w :=
  ⟨fun _ => rfl, fun _ => rfl, rfl, rfl, rfl, rfl, fun _ _ => rfl, rfl, rfl⟩

theorem SameCore.trans {w₁ w₂ w₃ : World α} (h : SameCore w₁ w₂) (h' : SameCore w₂ w₃) : SameCore w₁ w₃ :=
  ⟨fun x => (h'.fd x).trans (h.fd x), fun x => (h'.state x).trans (h.state x), h'.accepted.trans h.accepted,
    h'.num.trans h.num, h'.pool.trans h.pool, h'.files.trans h.files,
    fun i n => (h'.epoll i n).trans (h.epoll i n), h'.closeLog.trans h.closeLog, h'.crashed.trans h.crashed⟩

theorem sameCore_setConn {x : Client} {c : Connection α} {w : World α} (hfd : c.fd = (w.conns x).fd)
    (hst : c.state = (w.conns x).state) : SameCore w (w.setConn x c) := by
  refine ⟨?_, ?_, rfl, rfl, rfl, rfl, fun _ _ => rfl, rfl, rfl⟩
  · intro y
    by_cases hy : y = x
    · subst hy
      rw [conns_setConn_self, hfd]
    · rw [conns_setConn_ne c w hy]
  · intro y
    by_cases hy : y = x
    · subst hy
      rw [conns_setConn_self, hst]
    · rw [conns_setConn_ne c w hy]

theorem sameCore_logRecv (m : ℤ) (bs : List α) (w : World α) : SameCore w (w.logRecv m bs) := by
  unfold logRecv
  split
  · exact ⟨fun _ => rfl, fun _ => rfl, rfl, rfl, rfl, rfl, fun _ _ => rfl, rfl, rfl⟩
  · exact SameCore.refl w

theorem sameCore_logSent (m : ℤ) (bs : List α) (w : World α) : SameCore w (w.logSent m bs) := by
  unfold logSent
  split
  · exact ⟨fun _ => rfl, fun _ => rfl, rfl, rfl, rfl, rfl, fun _ _ => rfl, rfl, rfl⟩
  · exact SameCore.refl w

theorem isSome_epoll_setInterest {i j : ℕ} {n m : ℤ} {v : Option Interest} {w : World α}
    (hv : v.isSome = (w.epoll i n).isSome) :
    ((w.setInterest i n v).epoll j m).isSome = (w.epoll j m).isSome := by
  by_cases hm : m = n
  · subst hm
    by_cases hj : j = i
    · subst hj
      rw [epoll_setInterest_self, hv]
    · simp [setInterest, hj]
  · rw [epoll_setInterest_ne v w hm]

theorem sameCore_setInterest {i : ℕ} {n : ℤ} {v : Option Interest} {w : World α}
    (hv : v.isSome = (w.epoll i n).isSome) : SameCore w (w.setInterest i n v) :=
  ⟨fun _ => rfl, fun _ => rfl, rfl, rfl, rfl, rfl, fun _ _ => isSome_epoll_setInterest hv, rfl, rfl⟩

/-- No connection's buffers and no traffic towards a client change. -/
structure SameData (w w' : World α) : Prop where
  readBuffer : ∀ x, (w'.conns x).readBuffer = (w.conns x).readBuffer
  writeBuffer : ∀ x, (w'.conns x).writeBuffer = (w.conns x).writeBuffer
  readIdx : ∀ x, (w'.conns x).readIdx = (w.conns x).readIdx
  writeIdx : ∀ x, (w'.conns x).writeIdx = (w.conns x).writeIdx
  sent : w'.sent = w.sent

theorem SameData.refl (w : World α) : SameData w w :=
  ⟨fun _ => rfl, fun _ => rfl, fun _ => rfl, fun _ => rfl, rfl⟩

theorem sameData_setConn {x : Client} {c : Connection α} {w : World α}
    (h : c.readBuffer = (w.conns x).readBuffer ∧ c.writeBuffer = (w.conns x).writeBuffer ∧
      c.readIdx = (w.conns x).readIdx ∧ c.writeIdx = (w.conns x).writeIdx) :
    SameData w (w.setConn x c) := by
  have hall : ∀ y, ((w.setConn x c).conns y).readBuffer = (w.conns y).readBuffer ∧
      ((w.setConn x c).conns y).writeBuffer = (w.conns y).writeBuffer ∧
      ((w.setConn x c).conns y).readIdx = (w.conns y).readIdx ∧
      ((w.setConn x c).conns y).writeIdx = (w.conns y).writeIdx := by
    intro y
    by_cases hy : y = x
    · subst hy
      rw [conns_setConn_self]
      exact h
    · rw [conns_setConn_ne c w hy]
      exact ⟨rfl, rfl, rfl, rfl⟩
  exact ⟨fun y => (hall y).1, fun y => (hall y).2.1, fun y => (hall y).2.2.1, fun y => (hall y).2.2.2, rfl⟩

end World

namespace Sys

open World

/-- What a quiet step of a thread at `p` does to buffers and traffic. -/
inductive DataEffect (w : World Byte) (p : Pc) : World Byte → Prop
  | none {w' : World Byte} : SameData w w' → DataEffect w p w'
  | room (x : Client) : DataEffect w p (w.setConn x (w.conns x).checkAndResizeReadBuffer)
  | recv (x : Client) (m : ℤ) (bs : List Byte) :
      p.loaded = some (x, m) → (∀ b ∈ bs, b.1 = w.files m) → (w.files m).isSome →
      bs.length ≤ (w.conns x).checkAndResizeReadBuffer.available →
      DataEffect w p
        ((w.setConn x ((w.conns x).checkAndResizeReadBuffer.recvData w.now bs)).logRecv m bs)
  | echo (x : Client) : DataEffect w p (w.setConn x (w.conns x).echo)
  | send (x : Client) (m : ℤ) (len : ℕ) :
      p.loaded = some (x, m) → len ≤ (w.conns x).writeIdx →
      DataEffect w p
        ((w.setConn x ((w.conns x).sendData w.now len)).logSent m ((w.conns x).writePart.take len))

/-- Thread `t` moves quietly to `p`, leaving the world `w`. -/
structure Quiet (s : Sys) (t : Thread) (p : Pc) (w : World Byte) : Prop where
  core : SameCore s.world w
  data : DataEffect s.world (s.pc t) w
  handles : p.handles = none ∨ p.handles = (s.pc t).handles
  owes : p.owes = none ∨ p.owes = (s.pc t).owes
  checked : ∀ x, p.checked = some x →
    (∃ n, (s.pc t).handles = some (n, x)) ∧ (s.world.conns x).state ≠ .closed
  loaded : ∀ x m, p.loaded = some (x, m) → (s.pc t).checked = some x ∧ m = (s.world.conns x).fd
  busy : p.busy = false
  wasBusy : (s.pc t).busy = false
  left : ∀ n, s.pc t = .remove n → s.world.pool.getConnection n = none

/-- An `epoll_ctl` the next step of its thread issues and that fails. -/
def CtlFails (s : Sys) : Prop :=
  (∃ n x j, s.pc .main = .addFd n x j ∧ ¬ ((s.world.files n).isSome ∧ s.world.epoll j n = none)) ∨
  (∃ i n, i < s.loops ∧ ((∃ x, s.pc (.loop i) = .rearm n x) ∨ s.pc (.loop i) = .errorDel n) ∧
    ¬ ((s.world.files n).isSome ∧ (s.world.epoll i n).isSome))

/-- The kinds of steps. -/
inductive Effect (s : Sys) (l : Label) : Sys → Prop
  | tick (t : ℤ) : Effect s l (s.setWorld { s.world with now := t })
  | quiet {i : ℕ} {p : Pc} {w : World Byte} {errno : ℕ → Errno} :
      i < s.loops → l.thread = some (.loop i) → Quiet s (.loop i) p w →
      Effect s l { s with world := w, errno := errno, pc := Function.update s.pc (.loop i) p }
  | wait {i : ℕ} {evs : List (ℤ × Events)} :
      i < s.loops → s.pc (.loop i) = .idle → s.batch i = [] → s.world.deliverable i evs = true →
      Effect s l ((s.setWorld (s.world.deliver i evs)).setBatch i evs)
  | skip {i : ℕ} {n : ℤ} {ev : Events} {rest : List (ℤ × Events)} :
      s.pc (.loop i) = .idle → s.batch i = (n, ev) :: rest → Effect s l (s.setBatch i rest)
  | errorEvent {i : ℕ} {n : ℤ} {ev : Events} {rest : List (ℤ × Events)} :
      s.pc (.loop i) = .idle → s.batch i = (n, ev) :: rest → (ev.epollerr || ev.epollhup) = true →
      Effect s l ((s.setBatch i rest).goto (.loop i) (.errorLookup n))
  | lookup {i : ℕ} {n : ℤ} {ev : Events} {rest : List (ℤ × Events)} {x : Client} {p : Pc} :
      l = .loop i → s.pc (.loop i) = .idle → s.batch i = (n, ev) :: rest →
      (ev.epollerr || ev.epollhup) = false → s.lock = none → s.world.pool.getConnection n = some x →
      p = .recvState n x ∨ p = .sendState .write n x →
      Effect s l ((s.setBatch i rest).goto (.loop i) p)
  | mark {i : ℕ} {x : Client} {p : Pc} :
      l.thread = some (.loop i) → (s.pc (.loop i)).marks = some x →
      (p.handles = none ∨ p.handles = (s.pc (.loop i)).handles) →
      (p.owes = none ∨ p.owes = (s.pc (.loop i)).owes) →
      p.checked = none → p.loaded = none → p.busy = false →
      Effect s l ((s.setWorld (s.world.setConn x (s.world.conns x).markClosed)).goto (.loop i) p)
  | del {i : ℕ} {n : ℤ} :
      s.pc (.loop i) = .errorDel n →
      Effect s l ((s.setWorld (s.world.setInterest i n none)).goto (.loop i) (.remove n))
  | crash : CtlFails s → Effect s l (s.setWorld s.world.crash)
  | find {t : Thread} {n : ℤ} {x : Client} {sweep : List ℤ} :
      l.thread = some t → s.lock = none → s.world.pool.getConnection n = some x → (s.pc t).busy = false →
      (t ≠ .heartbeat ∧ s.pc t = .remove n ∧ s.sweep = sweep) ∨
        (t = .heartbeat ∧ s.pc t = .idle ∧ s.sweep = n :: sweep) →
      Effect s l { s with lock := some t, sweep := sweep, pc := Function.update s.pc t (.closing n x .load) }
  | sweepSkip {n : ℤ} {rest : List ℤ} :
      s.pc .heartbeat = .idle → s.sweep = n :: rest → s.world.pool.getConnection n = none →
      Effect s l ({ s with sweep := rest }.goto .heartbeat .idle)
  | closeSkip {t : Thread} {n : ℤ} {x : Client} :
      l.thread = some t → s.pc t = .closing n x .load → (s.world.conns x).state = .closed →
      Effect s l (s.goto t (.erase n x))
  | closeLoad {t : Thread} {n : ℤ} {x : Client} :
      l.thread = some t → s.pc t = .closing n x .load → (s.world.conns x).state ≠ .closed →
      Effect s l (s.goto t (.closing n x .store))
  | closeStore {t : Thread} {n : ℤ} {x : Client} :
      l.thread = some t → s.pc t = .closing n x .store →
      Effect s l ((s.setWorld (s.world.setConn x (s.world.conns x).markClosed)).goto t (.closing n x .fd))
  | closeNoFd {t : Thread} {n : ℤ} {x : Client} :
      l.thread = some t → s.pc t = .closing n x .fd → (s.world.conns x).fd = -1 →
      Effect s l (s.goto t (.erase n x))
  | closeFd {t : Thread} {n : ℤ} {x : Client} :
      l.thread = some t → s.pc t = .closing n x .fd →
      Effect s l (s.goto t (.closing n x (.sys (s.world.conns x).fd)))
  | closeSys {t : Thread} {n : ℤ} {x : Client} {m : ℤ} :
      l.thread = some t → s.pc t = .closing n x (.sys m) →
      Effect s l ((s.setWorld (s.world.close x m)).goto t (.closing n x .clear))
  | closeClear {t : Thread} {n : ℤ} {x : Client} :
      l.thread = some t → s.pc t = .closing n x .clear →
      Effect s l ((s.setWorld (s.world.setConn x (s.world.conns x).clearFd)).goto t (.erase n x))
  | erase {t : Thread} {n : ℤ} {x : Client} :
      l.thread = some t → s.pc t = .erase n x → Effect s l (s.eraseStep t n x)
  | accept {n : ℤ} :
      l = .accept n → s.pc .main = .idle → 0 ≤ n → s.world.files n = none →
      Effect s l ((s.setWorld (s.world.newClient n)).goto .main (.add n s.world.accepted))
  | add {n : ℤ} {x : Client} {pool : ConnectionPool} :
      l = .main → s.pc .main = .add n x → s.lock = none →
      s.world.pool.addConnection (s.world.conns x).fd x = (pool, true) → Effect s l (s.addStep n x pool)
  | reject {n : ℤ} {x : Client} :
      s.pc .main = .add n x → Effect s l (s.goto .main (.rejectClose n x))
  | rejectClose {n : ℤ} {x : Client} :
      s.pc .main = .rejectClose n x →
      Effect s l ((s.setWorld (s.world.close x n)).goto .main (.rejectDrop n x))
  | rejectDrop {n : ℤ} {x : Client} :
      s.pc .main = .rejectDrop n x → Effect s l ((s.setWorld (s.world.closeConn x)).goto .main .idle)
  | register {n : ℤ} {x : Client} {j : ℕ} :
      s.pc .main = .addFd n x j → (s.world.files n).isSome → s.world.epoll j n = none →
      Effect s l ((s.setWorld (s.world.setInterest j n (some ⟨inOutMask, true⟩))).goto .main .idle)
  | scan {fds : List ℤ} :
      s.pc .heartbeat = .idle → s.lock = none → fds.Perm (timeoutFds s.world) →
      Effect s l { s with sweep := fds, scanned := fds.filterMap s.world.pool.getConnection,
                          removed := [], sinceScan := [] }
  | shutdown :
      s.pc .main = .idle → s.joined → s.lock = none →
      Effect s l { s with world := shutdownWorld s.world, stopped := true }

/-! ### Every step is of one of these kinds -/

section inversion

variable {s s' : Sys} {l : Label} {i : ℕ} {t : Thread}

/-- When only thread `t` moves, every thread stands where it stood or is `t`. -/
theorem pc_cases {p : Pc} (hpc : s'.pc = Function.update s.pc t p) (u : Thread) :
    (u = t ∧ s'.pc u = p) ∨ (u ≠ t ∧ s'.pc u = s.pc u) := by
  rw [hpc]
  by_cases hu : u = t
  · subst hu
    exact Or.inl ⟨rfl, Function.update_self _ _ _⟩
  · exact Or.inr ⟨hu, Function.update_of_ne hu _ _⟩

/-- A quiet step that leaves the world alone. -/
theorem Quiet.same {p : Pc} (hh : p.handles = none ∨ p.handles = (s.pc t).handles)
    (ho : p.owes = none ∨ p.owes = (s.pc t).owes)
    (hc : ∀ x, p.checked = some x → (∃ n, (s.pc t).handles = some (n, x)) ∧ (s.world.conns x).state ≠ .closed)
    (hl : ∀ x m, p.loaded = some (x, m) → (s.pc t).checked = some x ∧ m = (s.world.conns x).fd)
    (hb : p.busy = false) (hw : (s.pc t).busy = false)
    (hr : ∀ n, s.pc t = .remove n → s.world.pool.getConnection n = none) : Quiet s t p s.world :=
  ⟨SameCore.refl _, .none (SameData.refl _), hh, ho, hc, hl, hb, hw, hr⟩

theorem beginRemove_effect {n : ℤ} (hi : i < s.loops) (ht : l.thread = some (.loop i))
    (hpc : s.pc (.loop i) = .remove n) (h : s.beginRemove (.loop i) n = some s') : Effect s l s' := by
  unfold beginRemove at h
  split_ifs at h with hlock
  split at h
  · rename_i hx
    cases h
    refine .quiet hi ht (Quiet.same (p := .idle) (Or.inl rfl) (Or.inl rfl) (by simp [Pc.checked])
      (by simp [Pc.loaded]) rfl (by rw [hpc]; rfl) ?_)
    intro m hm
    rw [hpc] at hm
    cases hm
    exact hx
  · rename_i x hx
    cases h
    exact .find ht hlock hx (by rw [hpc]; rfl) (Or.inl ⟨by simp, hpc, rfl⟩)

theorem closeStep_effect {n : ℤ} {x : Client} {c : ClosePoint} (ht : l.thread = some t)
    (hpc : s.pc t = .closing n x c) : Effect s l (s.closeStep t n x c) := by
  unfold closeStep
  cases c with
  | load =>
      simp only []
      split_ifs with hc
      · exact .closeSkip ht hpc hc
      · exact .closeLoad ht hpc hc
  | store => exact .closeStore ht hpc
  | fd =>
      simp only []
      split_ifs with hfd
      · exact .closeNoFd ht hpc hfd
      · exact .closeFd ht hpc
  | sys m => exact .closeSys ht hpc
  | clear => exact .closeClear ht hpc

theorem mainStep_effect (hl : l = .main) (h : s.mainStep = some s') : Effect s l s' := by
  unfold mainStep at h
  split at h
  · rename_i n x hpc
    split_ifs at h with hlock
    split at h
    · rename_i pool hadd
      cases h
      exact .add hl hpc hlock hadd
    · cases h
      exact .reject hpc
  · rename_i n x hpc
    cases h
    exact .rejectClose hpc
  · rename_i n x hpc
    cases h
    exact .rejectDrop hpc
  · rename_i n x j hpc
    unfold addFd at h
    split_ifs at h with hok
    · cases h
      exact .register hpc hok.1 hok.2
    · cases h
      exact .crash (Or.inl ⟨n, x, j, hpc, hok⟩)
  · cases h

theorem eventStep_effect (hl : l = .loop i) (hpc : s.pc (.loop i) = .idle)
    (h : s.eventStep i = some s') : Effect s l s' := by
  unfold eventStep at h
  split at h
  · cases h
  · rename_i n ev rest hb
    simp only [] at h
    split_ifs at h with herr hio hlock hin
    · cases h
      exact .errorEvent hpc hb herr
    · split at h
      · cases h
        exact .skip hpc hb
      · rename_i x hx
        cases h
        exact .lookup hl hpc hb (by simpa using herr) hlock hx (Or.inl rfl)
    · split at h
      · cases h
        exact .skip hpc hb
      · rename_i x hx
        cases h
        exact .lookup hl hpc hb (by simpa using herr) hlock hx (Or.inr rfl)
    · cases h
      exact .skip hpc hb

theorem afterSend_cases (n : ℤ) (x : Client) (k : Handler) :
    afterSend n x k = .rearm n x ∨ afterSend n x k = .touch n x := by
  cases k with
  | read => exact Or.inl rfl
  | write => exact Or.inr rfl

theorem afterSendError_cases (n : ℤ) (x : Client) (e : Errno) (k : Handler) :
    afterSendError n x e k = .rearm n x ∨ afterSendError n x e k = .errorLookup n ∨
      afterSendError n x e k = .idle := by
  cases k with
  | read =>
      unfold afterSendError
      split_ifs
      · exact Or.inl rfl
      · exact Or.inr (Or.inl rfl)
  | write =>
      unfold afterSendError
      split_ifs
      · exact Or.inr (Or.inr rfl)
      · exact Or.inr (Or.inl rfl)

/-- Where a handler may go on without a check of `state_` or a load of `fd_`. -/
def Continues (n : ℤ) (x : Client) (p : Pc) : Prop :=
  p = .idle ∨ p = .errorLookup n ∨ p = .errorDel n ∨ p = .rearm n x ∨ p = .touch n x ∨ p = .echo n x ∨
    p = .recvState n x ∨ p = .recvMark n x ∨ (∃ k, p = .sendState k n x) ∨ ∃ k z, p = .sendMark k n x z

theorem Continues.spec {n : ℤ} {x : Client} {p : Pc} (h : Continues n x p) :
    (p.handles = none ∨ p.handles = some (n, x)) ∧ (p.owes = none ∨ p.owes = some n) ∧
      p.checked = none ∧ p.loaded = none ∧ p.busy = false := by
  rcases h with rfl | rfl | rfl | rfl | rfl | rfl | rfl | rfl | ⟨k, rfl⟩ | ⟨k, z, rfl⟩ <;>
    simp [Pc.handles, Pc.owes, Pc.checked, Pc.loaded, Pc.busy]

theorem continues_afterSend (n : ℤ) (x : Client) (k : Handler) : Continues n x (afterSend n x k) := by
  unfold Continues
  rcases afterSend_cases n x k with h | h <;> simp [h]

theorem continues_afterSendError (n : ℤ) (x : Client) (e : Errno) (k : Handler) :
    Continues n x (afterSendError n x e k) := by
  unfold Continues
  rcases afterSendError_cases n x e k with h | h | h <;> simp [h]

/-- A quiet step of a handler that works with `n` and `x`. -/
theorem Quiet.of_continues {n : ℤ} {x : Client} {p : Pc} {w : World Byte} (hp : Continues n x p)
    (hh : (s.pc t).handles = some (n, x)) (hcore : SameCore s.world w)
    (hdata : DataEffect s.world (s.pc t) w) : Quiet s t p w := by
  obtain ⟨h1, h2, h3, h4, h5⟩ := hp.spec
  obtain ⟨ho, hb⟩ := Pc.owes_of_handles hh
  refine ⟨hcore, hdata, ?_, ?_, ?_, ?_, h5, hb, ?_⟩
  · rw [hh]
    exact h1
  · rw [ho]
    exact h2
  · intro y hy
    rw [h3] at hy
    cases hy
  · intro y m hy
    rw [h4] at hy
    cases hy
  · intro m hm
    rw [hm] at hh
    cases hh

/-- A step of a handler that only goes on. -/
theorem Quiet.stays {n : ℤ} {x : Client} {p : Pc} (hp : Continues n x p)
    (hh : (s.pc t).handles = some (n, x)) : Quiet s t p s.world :=
  Quiet.of_continues hp hh (SameCore.refl _) (.none (SameData.refl _))

theorem mark_effect {n : ℤ} {x : Client} {p : Pc} (ht : l.thread = some (.loop i)) (hp : Continues n x p)
    (hm : (s.pc (.loop i)).marks = some x) (hh : (s.pc (.loop i)).handles = some (n, x)) :
    Effect s l ((s.setWorld (s.world.setConn x (s.world.conns x).markClosed)).goto (.loop i) p) := by
  obtain ⟨h1, h2, h3, h4, h5⟩ := hp.spec
  exact .mark ht hm (by rw [hh]; exact h1) (by rw [(Pc.owes_of_handles hh).1]; exact h2) h3 h4 h5

theorem loopStep_effect (hi : i < s.loops) (hl : l = .loop i) (h : s.loopStep i = some s') :
    Effect s l s' := by
  have ht : l.thread = some (.loop i) := by
    rw [hl]
    rfl
  cases hpc : s.pc (.loop i) with
  | idle =>
      simp only [loopStep, hpc] at h
      exact eventStep_effect hl hpc h
  | recvState n x =>
      simp only [loopStep, hpc] at h
      split at h
      · cases h
        refine .quiet hi ht (Quiet.stays (n := n) (x := x) ?_ (by rw [hpc]; rfl))
        split_ifs <;> simp [Continues]
      · rename_i hc
        cases h
        refine .quiet hi ht (Quiet.same (p := .recvFd n x) ?_ ?_ ?_ ?_ rfl (by rw [hpc]; rfl) (by simp [hpc]))
        · exact Or.inr (by rw [hpc]; rfl)
        · exact Or.inr (by rw [hpc]; rfl)
        · rintro y ⟨⟩
          exact ⟨⟨n, by rw [hpc]; rfl⟩, hc⟩
        · rintro y m ⟨⟩
  | recvFd n x =>
      simp only [loopStep, hpc] at h
      cases h
      refine .quiet hi ht (Quiet.same (p := .recvSys n x _) ?_ ?_ ?_ ?_ rfl (by rw [hpc]; rfl) (by simp [hpc]))
      · exact Or.inr (by rw [hpc]; rfl)
      · exact Or.inr (by rw [hpc]; rfl)
      · rintro y ⟨⟩
      · rintro y m ⟨⟩
        exact ⟨by rw [hpc]; rfl, rfl⟩
  | recvMark n x =>
      simp only [loopStep, hpc] at h
      cases h
      exact mark_effect ht (n := n) (by simp [Continues]) (by rw [hpc]; rfl) (by rw [hpc]; rfl)
  | echo n x =>
      simp only [loopStep, hpc] at h
      split_ifs at h with hr
      · cases h
        exact .quiet hi ht (Quiet.of_continues (n := n) (x := x) (by simp [Continues]) (by rw [hpc]; rfl)
          (sameCore_setConn Connection.fd_echo Connection.state_echo) (.echo x))
      · cases h
        exact .quiet hi ht (Quiet.stays (n := n) (x := x) (by simp [Continues]) (by rw [hpc]; rfl))
  | sendState k n x =>
      simp only [loopStep, hpc] at h
      split_ifs at h with hc hw
      · cases h
        exact .quiet hi ht (Quiet.stays (continues_afterSendError n x _ k) (by rw [hpc]; rfl))
      · cases h
        exact .quiet hi ht (Quiet.stays (continues_afterSend n x k) (by rw [hpc]; rfl))
      · cases h
        refine .quiet hi ht (Quiet.same (p := .sendFd k n x) ?_ ?_ ?_ ?_ rfl (by rw [hpc]; rfl) (by simp [hpc]))
        · exact Or.inr (by rw [hpc]; rfl)
        · exact Or.inr (by rw [hpc]; rfl)
        · rintro y ⟨⟩
          exact ⟨⟨n, by rw [hpc]; rfl⟩, hc⟩
        · rintro y m ⟨⟩
  | sendFd k n x =>
      simp only [loopStep, hpc] at h
      cases h
      refine .quiet hi ht (Quiet.same (p := .sendSys k n x _) ?_ ?_ ?_ ?_ rfl (by rw [hpc]; rfl) (by simp [hpc]))
      · exact Or.inr (by rw [hpc]; rfl)
      · exact Or.inr (by rw [hpc]; rfl)
      · rintro y ⟨⟩
      · rintro y m ⟨⟩
        exact ⟨by rw [hpc]; rfl, rfl⟩
  | sendMark k n x zero =>
      simp only [loopStep, hpc] at h
      cases h
      refine mark_effect ht (n := n) ?_ (by rw [hpc]; rfl) (by rw [hpc]; rfl)
      split_ifs
      · exact continues_afterSend n x k
      · simp [Continues]
  | touch n x =>
      simp only [loopStep, hpc] at h
      cases h
      refine .quiet hi ht (Quiet.of_continues (n := n) (x := x) (by simp [Continues]) (by rw [hpc]; rfl)
        (sameCore_setConn ?_ ?_)
        (.none (sameData_setConn ⟨?_, ?_, ?_, ?_⟩)))
      all_goals rfl
  | rearm n x =>
      simp only [loopStep, hpc] at h
      unfold modifyFd at h
      split_ifs at h with hok
      · cases h
        refine .quiet hi ht (Quiet.of_continues (n := n) (x := x) (by simp [Continues]) (by rw [hpc]; rfl)
          (sameCore_setInterest ?_) (.none ?_))
        · rw [hok.2]
          rfl
        · exact ⟨fun _ => rfl, fun _ => rfl, fun _ => rfl, fun _ => rfl, rfl⟩
      · cases h
        exact .crash (Or.inr ⟨i, n, hi, Or.inl ⟨x, hpc⟩, hok⟩)
  | errorLookup n =>
      simp only [loopStep, hpc] at h
      split_ifs at h
      cases h
      exact .quiet hi ht (Quiet.same (p := .errorDel n) (Or.inl rfl) (Or.inr (by rw [hpc]; rfl))
        (by simp [Pc.checked]) (by simp [Pc.loaded]) rfl (by rw [hpc]; rfl) (by simp [hpc]))
  | errorDel n =>
      simp only [loopStep, hpc] at h
      unfold removeFd at h
      split_ifs at h with hok
      · cases h
        exact .del hpc
      · cases h
        exact .crash (Or.inr ⟨i, n, hi, Or.inr hpc, hok⟩)
  | remove n =>
      simp only [loopStep, hpc] at h
      exact beginRemove_effect hi ht hpc h
  | closing n x c =>
      simp only [loopStep, hpc] at h
      cases h
      exact closeStep_effect ht hpc
  | erase n x =>
      simp only [loopStep, hpc] at h
      cases h
      exact .erase ht hpc
  | _ =>
      simp only [loopStep, hpc] at h
      cases h

theorem recvStep_effect {r : RecvResult UInt8} (hi : i < s.loops) (ht : l.thread = some (.loop i))
    (h : s.recvStep i r = some s') : Effect s l s' := by
  unfold recvStep at h
  split at h
  · rename_i n x m hpc
    simp only [] at h
    have hroom : SameCore s.world (s.world.setConn x (s.world.conns x).checkAndResizeReadBuffer) :=
      sameCore_setConn Connection.fd_checkAndResizeReadBuffer Connection.state_checkAndResizeReadBuffer
    split at h
    · rename_i bs hbs
      split_ifs at h with hlen
      cases h
      have hdata : (s.world.files m).isSome ∧ ∀ b ∈ bs, b.1 = s.world.files m := by
        unfold sysRecv at hbs
        split_ifs at hbs with hopen
        refine ⟨hopen, ?_⟩
        cases r with
        | data raw =>
            simp only [tag, RecvResult.data.injEq] at hbs
            subst hbs
            intro b hb
            obtain ⟨a, -, rfl⟩ := List.mem_map.mp hb
            rfl
        | eof => cases hbs
        | error e => cases hbs
      refine .quiet hi ht (Quiet.of_continues (n := n) (x := x) (by simp [Continues]) (by rw [hpc]; rfl) ?_
        (.recv x m bs (by rw [hpc]; rfl) hdata.2 hdata.1 hlen.2))
      refine SameCore.trans (sameCore_setConn ?_ ?_) (sameCore_logRecv m bs _)
      · exact Connection.fd_checkAndResizeReadBuffer
      · exact Connection.state_checkAndResizeReadBuffer
    · cases h
      exact .quiet hi ht (Quiet.of_continues (n := n) (x := x) (by simp [Continues]) (by rw [hpc]; rfl)
        hroom (.room x))
    · cases h
      refine .quiet hi ht (Quiet.of_continues (n := n) (x := x) ?_ (by rw [hpc]; rfl) hroom (.room x))
      split_ifs <;> simp [Continues]
  · cases h

theorem sendStep_effect {r : SendResult} (hi : i < s.loops) (ht : l.thread = some (.loop i))
    (h : s.sendStep i r = some s') : Effect s l s' := by
  unfold sendStep at h
  split at h
  · rename_i k n x m hpc
    simp only [] at h
    split at h
    · rename_i len hlen
      split_ifs at h with hle
      cases h
      refine .quiet hi ht (Quiet.of_continues (continues_afterSend n x k) (by rw [hpc]; rfl) ?_
        (.send x m len (by rw [hpc]; rfl) hle.2))
      refine SameCore.trans (sameCore_setConn ?_ ?_) (sameCore_logSent m _ _)
      · rfl
      · rfl
    · cases h
      exact .quiet hi ht (Quiet.stays (n := n) (x := x) (by simp [Continues]) (by rw [hpc]; rfl))
    · cases h
      refine .quiet hi ht (Quiet.stays (n := n) (x := x) ?_ (by rw [hpc]; rfl))
      split_ifs
      · exact continues_afterSendError n x _ k
      · simp [Continues]
  · cases h

theorem heartbeatStep_effect (ht : l.thread = some .heartbeat) (h : s.heartbeatStep = some s') :
    Effect s l s' := by
  unfold heartbeatStep at h
  split at h
  · rename_i hpc
    split at h
    · cases h
    · rename_i n rest hsweep
      unfold beginRemove at h
      split_ifs at h with hlock
      simp only [] at h
      split at h
      · rename_i hx
        cases h
        exact .sweepSkip hpc hsweep hx
      · rename_i x hx
        cases h
        exact .find ht hlock hx (by rw [hpc]; rfl) (Or.inr ⟨rfl, hpc, hsweep⟩)
  · rename_i n x c hpc
    cases h
    exact closeStep_effect ht hpc
  · rename_i n x hpc
    cases h
    exact .erase ht hpc
  · cases h

/-- **The inversion of the step function.** -/
theorem step_effect (h : step s l = some s') :
    s.world.crashed = false ∧ s.stopped = false ∧ Effect s l s' := by
  unfold step at h
  split_ifs at h with hend
  simp only [Bool.or_eq_true, not_or, Bool.not_eq_true] at hend
  refine ⟨hend.1, hend.2, ?_⟩
  cases l with
  | tick t =>
      cases h
      exact .tick t
  | accept n =>
      simp only [acceptStep] at h
      split_ifs at h with hpc
      obtain ⟨w, hw, rfl⟩ := Option.map_eq_some_iff.mp h
      obtain ⟨hfree, rfl⟩ := accept_eq_some hw
      exact .accept rfl hpc hfree.1 hfree.2
  | main => exact mainStep_effect rfl h
  | wait i evs =>
      simp only [waitStep] at h
      split_ifs at h with hi hw
      cases h
      exact .wait hi hw.1 hw.2.1 hw.2.2
  | loop i =>
      simp only [] at h
      split_ifs at h with hi
      exact loopStep_effect hi rfl h
  | recv i r =>
      simp only [] at h
      split_ifs at h with hi
      exact recvStep_effect hi rfl h
  | send i r =>
      simp only [] at h
      split_ifs at h with hi
      exact sendStep_effect hi rfl h
  | scan fds =>
      simp only [scanStep] at h
      split_ifs at h with hs
      cases h
      exact .scan hs.1 hs.2.2.1 hs.2.2.2
  | heartbeat => exact heartbeatStep_effect rfl h
  | shutdown =>
      simp only [shutdownStep] at h
      split_ifs at h with hs
      cases h
      exact .shutdown hs.1 hs.2.1 hs.2.2

end inversion

end Sys

end TcpServer
