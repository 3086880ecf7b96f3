import TcpServer.Effect

/-! # The life of a descriptor

An invariant of the interleaved server that needs no assumption on the run.  A client's
descriptor is *open* - its object carries the number `accept` returned, the number refers to
its socket and nobody has closed it - until its object's own `Close` closes it; then it is
*shut*, and it was closed exactly once.  In particular `close` never hits another client's
socket, whatever the reuse of numbers.

`PcOk` says what holds where a thread stands; `Core` puts these assertions together with what
holds of the descriptor table, the pool and the epoll sets.  A step has to re-establish the
assertion of the thread that moves and must not disturb the others: `Calm` is what most steps
do to the world, and `Core.calm` handles them all at once. -/

namespace TcpServer

namespace World

variable {α : Type}

/-- The `close` calls made for object `x` or hitting the socket of client `x`. -/
def closesOf (x : Client) (w : World α) : List (Client × Option Client) :=
  w.closeLog.filter fun p => decide (p.1 = x ∨ p.2 = some x)

/-- The descriptor of `x` has not been closed. -/
structure Open (x : Client) (w : World α) : Prop where
  fd : (w.conns x).fd = w.num x
  file : w.files (w.num x) = some x
  closes : w.closesOf x = []

/-- `Close` of `x` has closed the descriptor of `x`. -/
structure Shut (x : Client) (w : World α) : Prop where
  state : (w.conns x).state = .closed
  fd : (w.conns x).fd = w.num x ∨ (w.conns x).fd = -1
  file : w.files (w.num x) ≠ some x
  closes : w.closesOf x = [(x, some x)]

/-- Nothing that concerns the descriptor of `x` changes. -/
structure Frame (x : Client) (w w' : World α) : Prop where
  num : w'.num x = w.num x
  fd : (w'.conns x).fd = (w.conns x).fd
  state : (w.conns x).state = .closed → (w'.conns x).state = .closed
  file : w'.files (w.num x) = some x ↔ w.files (w.num x) = some x
  closes : w'.closesOf x = w.closesOf x

theorem Open.frame {x : Client} {w w' : World α} (h : Open x w) (hf : Frame x w w') : Open x w' := by
  refine ⟨?_, ?_, ?_⟩
  · rw [hf.fd, hf.num, h.fd]
  · rw [hf.num]
    exact hf.file.mpr h.file
  · rw [hf.closes, h.closes]

theorem Shut.frame {x : Client} {w w' : World α} (h : Shut x w) (hf : Frame x w w') : Shut x w' := by
  refine ⟨hf.state h.state, ?_, ?_, ?_⟩
  · rw [hf.fd, hf.num]
    exact h.fd
  · rw [hf.num]
    exact fun hx => h.file (hf.file.mp hx)
  · rw [hf.closes, h.closes]

theorem closesOf_append (x : Client) (w : World α) (p : Client × Option Client) :
    (w.closeLog ++ [p]).filter (fun p => decide (p.1 = x ∨ p.2 = some x)) =
      w.closesOf x ++ if p.1 = x ∨ p.2 = some x then [p] else [] := by
  rw [List.filter_append]
  by_cases hp : p.1 = x ∨ p.2 = some x
  · simp [closesOf, hp]
  · simp [closesOf, hp]

/-- `close(m)` made for `y` does not concern another client unless the number is its own. -/
theorem frame_close {x y : Client} {m : ℤ} {w : World α} (hy : y ≠ x) (hm : w.files m ≠ some x) :
    Frame x w (w.close y m) := by
  refine ⟨rfl, rfl, id, ?_, ?_⟩
  · by_cases hn : w.num x = m
    · simp [close, hn, hm]
    · simp [close, hn]
  · show List.filter _ (w.closeLog ++ [(y, w.files m)]) = _
    rw [closesOf_append, if_neg (by simp [hy, hm]), List.append_nil]

theorem Open.shut_close {x : Client} {w : World α} (h : Open x w) (hc : (w.conns x).state = .closed) :
    Shut x (w.close x (w.num x)) := by
  refine ⟨hc, Or.inl h.fd, by simp [close], ?_⟩
  show List.filter _ (w.closeLog ++ [(x, w.files (w.num x))]) = _
  rw [closesOf_append, h.closes, h.file, if_pos (Or.inl rfl)]
  rfl

theorem Shut.clearFd {x : Client} {w : World α} (h : Shut x w) : Shut x (w.setConn x (w.conns x).clearFd) :=
  ⟨by rw [conns_setConn_self]; exact h.state, by rw [conns_setConn_self]; exact Or.inr rfl, h.file, h.closes⟩

theorem frame_setConn {x y : Client} {c : Connection α} {w : World α} (h : y ≠ x) :
    Frame x w (w.setConn y c) := by
  have hc : (w.setConn y c).conns x = w.conns x := conns_setConn_ne c w (Ne.symm h)
  exact ⟨rfl, by rw [hc], by rw [hc]; exact id, Iff.rfl, rfl⟩

theorem frame_setPool (x : Client) (pool : ConnectionPool) (w : World α) : Frame x w (w.setPool pool) :=
  ⟨rfl, rfl, id, Iff.rfl, rfl⟩

theorem frame_setInterest (x : Client) (i : ℕ) (n : ℤ) (v : Option Interest) (w : World α) :
    Frame x w (w.setInterest i n v) :=
  ⟨rfl, rfl, id, Iff.rfl, rfl⟩

theorem frame_newClient {x : Client} {n : ℤ} {w : World α} (hx : x < w.accepted) (hn : w.files n = none) :
    Frame x w (w.newClient n) := by
  have hne : x ≠ w.accepted := Nat.ne_of_lt hx
  have hc := conns_newClient_ne n w hne
  refine ⟨Function.update_of_ne hne _ _, by rw [hc], by rw [hc]; exact id, ?_, rfl⟩
  by_cases hxn : w.num x = n
  · rw [hxn, files_newClient_self, hn]
    simp [Ne.symm hne]
  · rw [files_newClient_ne w hxn]

/-- Descriptors, states, the pool, the descriptor table and the log of `close` calls stay,
except that a state may become `CLOSED`, and nothing new is registered. -/
structure Calm (w w' : World α) : Prop where
  fd : ∀ x, (w'.conns x).fd = (w.conns x).fd
  state : ∀ x, (w.conns x).state = .closed → (w'.conns x).state = .closed
  accepted : w'.accepted = w.accepted
  num : w'.num = w.num
  pool : w'.pool = w.pool
  files : w'.files = w.files
  epoll : ∀ i n, (w'.epoll i n).isSome → (w.epoll i n).isSome
  closeLog : w'.closeLog = w.closeLog

theorem SameCore.calm {w w' : World α} (h : SameCore w w') : Calm w w' :=
  ⟨h.fd, fun x hx => by rw [h.state x, hx], h.accepted, h.num, h.pool, h.files,
    fun i n hi => by rw [← h.epoll i n]; exact hi, h.closeLog⟩

theorem Calm.refl (w : World α) : Calm w w := (SameCore.refl w).calm

theorem calm_markClosed (x : Client) (w : World α) : Calm w (w.setConn x (w.conns x).markClosed) := by
  refine ⟨?_, ?_, rfl, rfl, rfl, rfl, fun _ _ => id, rfl⟩
  · intro y
    by_cases hy : y = x
    · subst hy
      rw [conns_setConn_self]
      rfl
    · rw [conns_setConn_ne _ w hy]
  · intro y hc
    by_cases hy : y = x
    · subst hy
      rw [conns_setConn_self]
      rfl
    · rw [conns_setConn_ne _ w hy]
      exact hc

theorem calm_deliver (i : ℕ) (evs : List (ℤ × Events)) (w : World α) : Calm w (w.deliver i evs) := by
  refine ⟨fun _ => rfl, fun _ => id, rfl, rfl, rfl, rfl, ?_, rfl⟩
  intro j m hj
  rwa [isSome_epoll_deliver] at hj

theorem calm_removeInterest (i : ℕ) (n : ℤ) (w : World α) : Calm w (w.setInterest i n none) := by
  refine ⟨fun _ => rfl, fun _ => id, rfl, rfl, rfl, rfl, ?_, rfl⟩
  intro j m hj
  by_cases hm : m = n
  · subst hm
    by_cases hij : j = i
    · subst hij
      rw [epoll_setInterest_self] at hj
      cases hj
    · simpa [setInterest, hij] using hj
  · rwa [epoll_setInterest_ne none w hm] at hj

theorem Calm.frame {w w' : World α} (h : Calm w w') (x : Client) : Frame x w w' := by
  refine ⟨by rw [h.num], h.fd x, h.state x, by rw [h.files], ?_⟩
  unfold closesOf
  rw [h.closeLog]

end World

/-- `RemoveConnection` has closed the connection, or found it `CLOSED`. -/
def Pc.finishes : Pc → Option Client
  | .closing _ x .clear | .erase _ x => some x
  | _ => none

namespace Sys

open World

/-- What holds at the points of `Close`. -/
def CloseOk (x : Client) (w : World Byte) : ClosePoint → Prop
  | .load | .store => Open x w
  | .fd => Open x w ∧ (w.conns x).state = .closed
  | .sys m => Open x w ∧ (w.conns x).state = .closed ∧ m = w.num x
  | .clear => Shut x w ∧ (w.conns x).fd = w.num x

/-- `x` is the client `accept` returned last, under the number `n`, which no loop knows yet. -/
structure Newest (n : ℤ) (x : Client) (s : Sys) : Prop where
  last : x + 1 = s.world.accepted
  num : s.world.num x = n
  unregistered : ∀ i, s.world.epoll i n = none

/-- What holds where thread `t` stands. -/
def PcOk (s : Sys) (t : Thread) : Pc → Prop
  | .add n x | .rejectClose n x =>
      t = .main ∧ Newest n x s ∧ s.admitted x = false ∧ Open x s.world
  | .rejectDrop n x =>
      t = .main ∧ Newest n x s ∧ s.admitted x = false ∧ (s.world.conns x).fd = n ∧ s.world.files n = none
  | .addFd n x j =>
      t = .main ∧ Newest n x s ∧ s.admitted x = true ∧ s.owner x = j ∧
        (s.world.files n = some x ∨ s.world.files n = none) ∧
        (s.world.pool.getConnection n = some x ∨ s.world.pool.getConnection n = none)
  | .closing n x c => s.lock = some t ∧ s.world.pool.getConnection n = some x ∧ CloseOk x s.world c
  | .erase n x =>
      s.lock = some t ∧ s.world.pool.getConnection n = some x ∧ (s.world.conns x).state = .closed
  | p => ∀ n x, p.handles = some (n, x) → s.admitted x = true ∧ s.world.num x = n

/-- **The invariant.** -/
structure Core (s : Sys) : Prop where
  pcs : ∀ t, PcOk s t (s.pc t)
  files : ∀ n x, s.world.files n = some x → 0 ≤ n ∧ x < s.world.accepted ∧ s.world.num x = n
  pooled : ∀ n x, s.world.pool.getConnection n = some x →
    s.world.num x = n ∧ s.admitted x = true ∧ (Open x s.world ∨ ∃ t, (s.pc t).finishes = some x)
  epoll : ∀ i n, (s.world.epoll i n).isSome → ∃ y, s.world.files n = some y ∧ s.owner y = i ∧
    ∀ x, s.world.pool.getConnection n = some x → x = y
  life : ∀ x, s.admitted x = true → x < s.world.accepted ∧ (Open x s.world ∨ Shut x s.world)
  left : ∀ x, s.admitted x = true → s.world.pool.getConnection (s.world.num x) ≠ some x →
    (s.world.conns x).state = .closed
  log : ∀ p ∈ s.world.closeLog, p.1 < s.world.accepted ∧ ∀ y, p.2 = some y → y < s.world.accepted

theorem core_init (maxConnections : ℕ) (heartbeatTimeoutMs : ℤ) (threadNum : ℕ) :
    Core (init maxConnections heartbeatTimeoutMs threadNum) := by
  refine ⟨?_, ?_, ?_, ?_, ?_, ?_, ?_⟩
  · intro t n x h
    cases h
  · intro n x h
    cases h
  · intro n x h
    cases h
  · intro i n h
    cases h
  · intro x h
    cases h
  · intro x h
    cases h
  · intro p h
    cases h

section steps

variable {s s' : Sys} {l : Label} {t u : Thread} {p : Pc} {n : ℤ} {x y : Client}

/-- A thread outside `HandleAccept` and `RemoveConnection` asserts only what it knows about its
object. -/
theorem pcOk_of_not_busy (hb : p.busy = false) :
    PcOk s t p ↔ ∀ n x, p.handles = some (n, x) → s.admitted x = true ∧ s.world.num x = n := by
  cases p <;> first | rfl | cases hb

theorem CloseOk.frame {c : ClosePoint} {w w' : World Byte} (h : CloseOk x w c) (hf : Frame x w w') :
    CloseOk x w' c := by
  cases c with
  | load => exact Open.frame h hf
  | store => exact Open.frame h hf
  | fd => exact ⟨h.1.frame hf, hf.state h.2⟩
  | sys m => exact ⟨h.1.frame hf, hf.state h.2.1, by rw [hf.num]; exact h.2.2⟩
  | clear => exact ⟨h.1.frame hf, by rw [hf.fd, hf.num]; exact h.2⟩

theorem Core.pcAt (h : Core s) (hpc : s.pc t = p) : PcOk s t p := by
  rw [← hpc]
  exact h.pcs t

theorem Core.lt_of_pooled (h : Core s) (hp : s.world.pool.getConnection n = some x) : x < s.world.accepted :=
  (h.life x (h.pooled n x hp).2.1).1

theorem Newest.lt (h : Newest n x s) : x < s.world.accepted := by
  rw [← h.last]
  exact Nat.lt_succ_self x

/-! ### Steps that are calm -/

theorem Newest.calm (h : Newest n x s) (hw : Calm s.world s'.world) : Newest n x s' := by
  refine ⟨by rw [hw.accepted]; exact h.last, by rw [hw.num]; exact h.num, fun i => ?_⟩
  rw [← Option.not_isSome_iff_eq_none]
  intro hi
  have := hw.epoll i n hi
  rw [h.unregistered i] at this
  cases this

theorem PcOk.calm (h : PcOk s u p) (hw : Calm s.world s'.world) (ho : s'.owner = s.owner)
    (ha : s'.admitted = s.admitted) (hl : s'.lock = s.lock ∨ s.lock = none) : PcOk s' u p := by
  have hlock : s.lock = some u → s'.lock = some u := by
    intro hu
    rcases hl with hl | hl
    · rw [hl, hu]
    · rw [hl] at hu
      cases hu
  cases p with
  | add n x => exact ⟨h.1, h.2.1.calm hw, by rw [ha]; exact h.2.2.1, h.2.2.2.frame (hw.frame x)⟩
  | rejectClose n x => exact ⟨h.1, h.2.1.calm hw, by rw [ha]; exact h.2.2.1, h.2.2.2.frame (hw.frame x)⟩
  | rejectDrop n x =>
      exact ⟨h.1, h.2.1.calm hw, by rw [ha]; exact h.2.2.1, by rw [hw.fd]; exact h.2.2.2.1,
        by rw [hw.files]; exact h.2.2.2.2⟩
  | addFd n x j =>
      exact ⟨h.1, h.2.1.calm hw, by rw [ha]; exact h.2.2.1, by rw [ho]; exact h.2.2.2.1,
        by rw [hw.files]; exact h.2.2.2.2.1, by rw [hw.pool]; exact h.2.2.2.2.2⟩
  | closing n x c => exact ⟨hlock h.1, by rw [hw.pool]; exact h.2.1, h.2.2.frame (hw.frame x)⟩
  | erase n x => exact ⟨hlock h.1, by rw [hw.pool]; exact h.2.1, hw.state x h.2.2⟩
  | _ =>
      intro m y hy
      rw [ha, hw.num]
      exact h m y hy

/-- Thread `t` moves and the world changes calmly. -/
theorem Core.calm (h : Core s) (hw : Calm s.world s'.world) (ho : s'.owner = s.owner)
    (ha : s'.admitted = s.admitted) (hl : s'.lock = s.lock ∨ s.lock = none)
    (hpc : ∀ u, u ≠ t → s'.pc u = s.pc u) (hok : PcOk s' t (s'.pc t))
    (hfin : (s.pc t).finishes = none ∨ (s'.pc t).finishes = (s.pc t).finishes) : Core s' := by
  refine ⟨?_, ?_, ?_, ?_, ?_, ?_, ?_⟩
  · intro u
    by_cases hu : u = t
    · subst hu
      exact hok
    · rw [hpc u hu]
      exact (h.pcs u).calm hw ho ha hl
  · intro m y hy
    rw [hw.files] at hy
    rw [hw.accepted, hw.num]
    exact h.files m y hy
  · intro m y hy
    rw [hw.pool] at hy
    obtain ⟨h1, h2, h3⟩ := h.pooled m y hy
    refine ⟨by rw [hw.num]; exact h1, by rw [ha]; exact h2, ?_⟩
    rcases h3 with h3 | ⟨u, hu⟩
    · exact Or.inl (h3.frame (hw.frame y))
    · right
      by_cases hut : u = t
      · subst hut
        rcases hfin with hf | hf
        · rw [hf] at hu
          cases hu
        · exact ⟨u, by rw [hf]; exact hu⟩
      · exact ⟨u, by rw [hpc u hut]; exact hu⟩
  · intro i m hi
    obtain ⟨y, h1, h2, h3⟩ := h.epoll i m (hw.epoll i m hi)
    refine ⟨y, by rw [hw.files]; exact h1, by rw [ho]; exact h2, ?_⟩
    rw [hw.pool]
    exact h3
  · intro y hy
    rw [ha] at hy
    obtain ⟨h1, h2⟩ := h.life y hy
    rw [hw.accepted]
    exact ⟨h1, h2.imp (fun h2 => h2.frame (hw.frame y)) (fun h2 => h2.frame (hw.frame y))⟩
  · intro y hy hp
    rw [ha] at hy
    rw [hw.pool, hw.num] at hp
    exact hw.state y (h.left y hy hp)
  · rw [hw.closeLog, hw.accepted]
    exact h.log

/-! ### Steps that close a number or clear an object's `fd_` -/

/-- Object `x` is being closed: other objects stay, numbers and registrations may go. -/
structure Closes (x : Client) (w w' : World Byte) : Prop where
  frame : ∀ y, y ≠ x → Frame y w w'
  state : (w.conns x).state = .closed → (w'.conns x).state = .closed
  accepted : w'.accepted = w.accepted
  num : w'.num = w.num
  pool : w'.pool = w.pool
  files : ∀ m y, w'.files m = some y → w.files m = some y
  epoll : ∀ i m, (w'.epoll i m).isSome → (w.epoll i m).isSome ∧ w'.files m = w.files m
  log : ∀ p ∈ w'.closeLog, p ∈ w.closeLog ∨ (p.1 = x ∧ ∀ y, p.2 = some y → ∃ m, w.files m = some y)

theorem Closes.files_none {w w' : World Byte} (h : Closes x w w') {m : ℤ} (hm : w.files m = none) :
    w'.files m = none := by
  cases hf : w'.files m with
  | none => rfl
  | some y =>
      rw [h.files m y hf] at hm
      cases hm

theorem Closes.files_or {w w' : World Byte} (h : Closes x w w') {m : ℤ} {y : Client}
    (hm : w.files m = some y ∨ w.files m = none) : w'.files m = some y ∨ w'.files m = none := by
  cases hf : w'.files m with
  | none => exact Or.inr rfl
  | some z =>
      have hz := h.files m z hf
      rcases hm with hm | hm
      · rw [hm] at hz
        cases hz
        exact Or.inl rfl
      · rw [hm] at hz
        cases hz

theorem Newest.closes (h : Newest n y s) (hw : Closes x s.world s'.world) : Newest n y s' := by
  refine ⟨by rw [hw.accepted]; exact h.last, by rw [hw.num]; exact h.num, fun i => ?_⟩
  rw [← Option.not_isSome_iff_eq_none]
  intro hi
  have := (hw.epoll i n hi).1
  rw [h.unregistered i] at this
  cases this

theorem PcOk.closes (h : PcOk s u p) (hc : Core s) (hw : Closes x s.world s'.world) (hut : u ≠ t)
    (hx : (s.lock = some t ∧ s.admitted x = true) ∨ (t = .main ∧ s.admitted x = false))
    (ho : s'.owner = s.owner) (ha : s'.admitted = s.admitted) (hl : s'.lock = s.lock) : PcOk s' u p := by
  -- another thread inside `RemoveConnection` holds the mutex, so it closes another object
  have hother : s.lock = some u → ∀ m y, s.world.pool.getConnection m = some y → y ≠ x := by
    rintro hu m y hy rfl
    rcases hx with ⟨hx, -⟩ | ⟨-, hx⟩
    · rw [hx] at hu
      exact hut (Option.some.inj hu).symm
    · rw [(hc.pooled m y hy).2.1] at hx
      cases hx
  -- another thread inside `HandleAccept` is the main thread, and its object is not pooled
  have hmain : u = .main → s.admitted x = true := by
    rintro rfl
    rcases hx with ⟨-, hx⟩ | ⟨hx, -⟩
    · exact hx
    · exact absurd hx.symm hut
  have hfresh : ∀ y, u = .main → s.admitted y = false → y ≠ x := by
    rintro y hu hy rfl
    rw [hmain hu] at hy
    cases hy
  cases p with
  | add n y =>
      exact ⟨h.1, h.2.1.closes hw, by rw [ha]; exact h.2.2.1, h.2.2.2.frame (hw.frame y (hfresh y h.1 h.2.2.1))⟩
  | rejectClose n y =>
      exact ⟨h.1, h.2.1.closes hw, by rw [ha]; exact h.2.2.1, h.2.2.2.frame (hw.frame y (hfresh y h.1 h.2.2.1))⟩
  | rejectDrop n y =>
      have hf := hw.frame y (hfresh y h.1 h.2.2.1)
      exact ⟨h.1, h.2.1.closes hw, by rw [ha]; exact h.2.2.1, by rw [hf.fd]; exact h.2.2.2.1,
        hw.files_none h.2.2.2.2⟩
  | addFd n y j =>
      exact ⟨h.1, h.2.1.closes hw, by rw [ha]; exact h.2.2.1, by rw [ho]; exact h.2.2.2.1,
        hw.files_or h.2.2.2.2.1, by rw [hw.pool]; exact h.2.2.2.2.2⟩
  | closing n y c =>
      exact ⟨by rw [hl]; exact h.1, by rw [hw.pool]; exact h.2.1,
        h.2.2.frame (hw.frame y (hother h.1 n y h.2.1))⟩
  | erase n y =>
      exact ⟨by rw [hl]; exact h.1, by rw [hw.pool]; exact h.2.1,
        (hw.frame y (hother h.1 n y h.2.1)).state h.2.2⟩
  | _ =>
      intro m y hy
      rw [ha, hw.num]
      exact h m y hy

/-- Thread `t` closes object `x`: the thread holds the mutex and `x` is pooled, or the thread is
the main thread and `x` has been refused. -/
theorem Core.closes (h : Core s) (hw : Closes x s.world s'.world)
    (hx : (s.lock = some t ∧ s.admitted x = true) ∨ (t = .main ∧ s.admitted x = false))
    (hlt : x < s.world.accepted) (ho : s'.owner = s.owner) (ha : s'.admitted = s.admitted) (hl : s'.lock = s.lock)
    (hpc : ∀ u, u ≠ t → s'.pc u = s.pc u) (hok : PcOk s' t (s'.pc t))
    (hfin : (s.pc t).finishes = none ∨ (s'.pc t).finishes = (s.pc t).finishes)
    (hlife : s.admitted x = true → (s'.pc t).finishes = some x ∧ Shut x s'.world) : Core s' := by
  refine ⟨?_, ?_, ?_, ?_, ?_, ?_, ?_⟩
  · intro u
    by_cases hu : u = t
    · subst hu
      exact hok
    · rw [hpc u hu]
      exact (h.pcs u).closes h hw hu hx ho ha hl
  · intro m y hy
    rw [hw.accepted, hw.num]
    exact h.files m y (hw.files m y hy)
  · intro m y hy
    rw [hw.pool] at hy
    obtain ⟨h1, h2, h3⟩ := h.pooled m y hy
    refine ⟨by rw [hw.num]; exact h1, by rw [ha]; exact h2, ?_⟩
    by_cases hyx : y = x
    · subst hyx
      exact Or.inr ⟨t, (hlife h2).1⟩
    · rcases h3 with h3 | ⟨u, hu⟩
      · exact Or.inl (h3.frame (hw.frame y hyx))
      · right
        by_cases hut : u = t
        · subst hut
          rcases hfin with hf | hf
          · rw [hf] at hu
            cases hu
          · exact ⟨u, by rw [hf]; exact hu⟩
        · exact ⟨u, by rw [hpc u hut]; exact hu⟩
  · intro i m hi
    obtain ⟨hi', hf⟩ := hw.epoll i m hi
    obtain ⟨y, h1, h2, h3⟩ := h.epoll i m hi'
    refine ⟨y, by rw [hf]; exact h1, by rw [ho]; exact h2, ?_⟩
    rw [hw.pool]
    exact h3
  · intro y hy
    rw [ha] at hy
    obtain ⟨h1, h2⟩ := h.life y hy
    rw [hw.accepted]
    refine ⟨h1, ?_⟩
    by_cases hyx : y = x
    · subst hyx
      exact Or.inr (hlife hy).2
    · exact h2.imp (fun h2 => h2.frame (hw.frame y hyx)) (fun h2 => h2.frame (hw.frame y hyx))
  · intro y hy hp
    rw [ha] at hy
    rw [hw.pool, hw.num] at hp
    have := h.left y hy hp
    by_cases hyx : y = x
    · subst hyx
      exact hw.state this
    · exact (hw.frame y hyx).state this
  · intro p hp
    rw [hw.accepted]
    rcases hw.log p hp with hp | ⟨hp1, hp2⟩
    · exact h.log p hp
    · refine ⟨by rw [hp1]; exact hlt, ?_⟩
      intro y hy
      obtain ⟨m, hm⟩ := hp2 y hy
      exact (h.files m y hm).2.1

theorem closes_close {m : ℤ} {w : World Byte} (hm : ∀ y, w.files m = some y → y = x) :
    Closes x w (w.close x m) := by
  refine ⟨?_, id, rfl, rfl, rfl, ?_, ?_, ?_⟩
  · intro y hy
    exact frame_close (Ne.symm hy) (fun hf => hy (hm y hf))
  · intro k y hk
    by_cases hkm : k = m
    · simp [close, hkm] at hk
    · simpa [close, hkm] using hk
  · intro i k hi
    by_cases hkm : k = m
    · simp [close, hkm] at hi
    · simpa [close, hkm] using hi
  · intro p hp
    rcases List.mem_append.mp hp with hp | hp
    · exact Or.inl hp
    · rw [List.mem_singleton.mp hp]
      exact Or.inr ⟨rfl, fun y hy => ⟨m, hy⟩⟩

theorem closes_setConn {c : Connection Byte} {w : World Byte}
    (hc : (w.conns x).state = .closed → c.state = .closed) : Closes x w (w.setConn x c) :=
  ⟨fun _ hy => frame_setConn (Ne.symm hy), by rw [conns_setConn_self]; exact hc, rfl, rfl, rfl, fun _ _ => id,
    fun _ _ hi => ⟨hi, rfl⟩, fun _ hp => Or.inl hp⟩

theorem Closes.trans {w₁ w₂ w₃ : World Byte} (h₁ : Closes x w₁ w₂) (h₂ : Closes x w₂ w₃) : Closes x w₁ w₃ := by
  refine ⟨?_, fun hc => h₂.state (h₁.state hc), h₂.accepted.trans h₁.accepted, h₂.num.trans h₁.num,
    h₂.pool.trans h₁.pool, fun m y hm => h₁.files m y (h₂.files m y hm), ?_, ?_⟩
  · intro y hy
    have f₁ := h₁.frame y hy
    have f₂ := h₂.frame y hy
    refine ⟨f₂.num.trans f₁.num, f₂.fd.trans f₁.fd, fun hc => f₂.state (f₁.state hc), ?_,
      f₂.closes.trans f₁.closes⟩
    rw [← f₁.num, f₂.file, f₁.num, f₁.file]
  · intro i m hi
    obtain ⟨h1, h2⟩ := h₂.epoll i m hi
    obtain ⟨h3, h4⟩ := h₁.epoll i m h1
    exact ⟨h3, h2.trans h4⟩
  · intro p hp
    rcases h₂.log p hp with hp | ⟨hp1, hp2⟩
    · exact h₁.log p hp
    · refine Or.inr ⟨hp1, fun y hy => ?_⟩
      obtain ⟨m, hm⟩ := hp2 y hy
      exact ⟨m, h₁.files m y hm⟩

theorem Closes.refl (x : Client) (w : World Byte) : Closes x w w :=
  ⟨fun y _ => (Calm.refl w).frame y, id, rfl, rfl, rfl, fun _ _ => id, fun _ _ hi => ⟨hi, rfl⟩,
    fun _ hp => Or.inl hp⟩

/-- The whole of `Close` of an object whose number nobody else uses. -/
theorem closes_closeConn {w : World Byte} (hm : ∀ y, w.files (w.conns x).fd = some y → y = x) :
    Closes x w (w.closeConn x) := by
  unfold closeConn
  split_ifs with hc
  · exact Closes.refl x w
  · have h₁ : Closes x w (w.setConn x (w.conns x).markClosed) := closes_setConn fun _ => rfl
    simp only []
    split_ifs
    · exact h₁
    · refine (h₁.trans (closes_close ?_)).trans (closes_setConn ?_)
      · rw [conns_setConn_self]
        exact hm
      · exact id

theorem core_closeSys {m : ℤ} (h : Core s) (hpc : s.pc t = .closing n x (.sys m)) :
    Core ((s.setWorld (s.world.close x m)).goto t (.closing n x .clear)) := by
  obtain ⟨hlock, hp, hopen, hst, rfl⟩ := h.pcAt hpc
  have hshut : Shut x (s.world.close x (s.world.num x)) := hopen.shut_close hst
  refine h.closes (x := x) (t := t) ?_ ?_ (h.lt_of_pooled hp) rfl rfl rfl ?_ ?_ ?_ ?_
  · apply closes_close
    intro y hy
    rw [hopen.file] at hy
    exact (Option.some.inj hy).symm
  · exact Or.inl ⟨hlock, (h.pooled n x hp).2.1⟩
  · intro u hu
    simp [hu]
  · rw [goto_pc, Function.update_self]
    exact ⟨hlock, hp, hshut, hopen.fd⟩
  · rw [hpc]
    exact Or.inl rfl
  · intro _
    rw [goto_pc, Function.update_self]
    exact ⟨rfl, hshut⟩

theorem core_closeClear (h : Core s) (hpc : s.pc t = .closing n x .clear) :
    Core ((s.setWorld (s.world.setConn x (s.world.conns x).clearFd)).goto t (.erase n x)) := by
  obtain ⟨hlock, hp, hshut, -⟩ := h.pcAt hpc
  refine h.closes (x := x) (t := t) (closes_setConn id) ?_ (h.lt_of_pooled hp) rfl rfl rfl ?_ ?_ ?_ ?_
  · exact Or.inl ⟨hlock, (h.pooled n x hp).2.1⟩
  · intro u hu
    simp [hu]
  · rw [goto_pc, Function.update_self]
    exact ⟨hlock, hp, hshut.clearFd.state⟩
  · rw [hpc]
    right
    rw [goto_pc, Function.update_self]
    rfl
  · intro _
    rw [goto_pc, Function.update_self]
    exact ⟨rfl, hshut.clearFd⟩

theorem core_rejectClose (h : Core s) (hpc : s.pc .main = .rejectClose n x) :
    Core ((s.setWorld (s.world.close x n)).goto .main (.rejectDrop n x)) := by
  obtain ⟨-, hnew, hadm, hopen⟩ := h.pcAt hpc
  have hw : Closes x s.world (s.world.close x n) := by
    apply closes_close
    intro y hy
    rw [← hnew.num, hopen.file] at hy
    exact (Option.some.inj hy).symm
  refine h.closes (x := x) (t := .main) hw ?_ hnew.lt rfl rfl rfl ?_ ?_ ?_ ?_
  · exact Or.inr ⟨rfl, hadm⟩
  · intro u hu
    simp [hu]
  · rw [goto_pc, Function.update_self]
    refine ⟨rfl, hnew.closes hw, hadm, ?_, ?_⟩
    · rw [← hnew.num]
      exact hopen.fd
    · simp [close]
  · rw [hpc]
    exact Or.inl rfl
  · intro hx
    rw [hadm] at hx
    cases hx

theorem core_rejectDrop (h : Core s) (hpc : s.pc .main = .rejectDrop n x) :
    Core ((s.setWorld (s.world.closeConn x)).goto .main .idle) := by
  obtain ⟨-, hnew, hadm, hfd, hfree⟩ := h.pcAt hpc
  refine h.closes (x := x) (t := .main) (closes_closeConn ?_) ?_ hnew.lt rfl rfl rfl ?_ ?_ ?_ ?_
  · intro y hy
    rw [hfd, hfree] at hy
    cases hy
  · exact Or.inr ⟨rfl, hadm⟩
  · intro u hu
    simp [hu]
  · rw [goto_pc, Function.update_self]
    intro m y hy
    cases hy
  · rw [hpc]
    exact Or.inl rfl
  · intro hx
    rw [hadm] at hx
    cases hx

/-! ### Steps of `HandleAccept` and the end of `RemoveConnection` -/

theorem Core.closesOf_fresh (h : Core s) : s.world.closesOf s.world.accepted = [] := by
  unfold closesOf
  rw [List.filter_eq_nil_iff]
  intro p hp
  obtain ⟨h1, h2⟩ := h.log p hp
  rw [decide_eq_true_eq]
  rintro (hy | hy)
  · exact Nat.ne_of_lt h1 hy
  · exact Nat.lt_irrefl _ (h2 _ hy)

/-- The assertion of a thread other than the main thread, when the main thread moves or the
mutex is released. -/
theorem PcOk.other (hu : u ≠ .main) (hok : PcOk s u p)
    (hadm : ∀ y, s.admitted y = true → s'.admitted y = true ∧ s'.world.num y = s.world.num y)
    (hrem : s.lock = some u → s'.lock = some u ∧ ∀ m y, s.world.pool.getConnection m = some y →
      s'.world.pool.getConnection m = some y ∧ Frame y s.world s'.world) : PcOk s' u p := by
  cases p with
  | add m y => exact absurd hok.1 hu
  | rejectClose m y => exact absurd hok.1 hu
  | rejectDrop m y => exact absurd hok.1 hu
  | addFd m y j => exact absurd hok.1 hu
  | closing m y c =>
      obtain ⟨hl, hp⟩ := hrem hok.1
      obtain ⟨hy, hf⟩ := hp m y hok.2.1
      exact ⟨hl, hy, hok.2.2.frame hf⟩
  | erase m y =>
      obtain ⟨hl, hp⟩ := hrem hok.1
      obtain ⟨hy, hf⟩ := hp m y hok.2.1
      exact ⟨hl, hy, hf.state hok.2.2⟩
  | _ =>
      intro m y hy
      obtain ⟨h1, h2⟩ := hok m y hy
      obtain ⟨h3, h4⟩ := hadm y h1
      exact ⟨h3, h4.trans h2⟩

theorem core_accept (h : Core s) (hpc : s.pc .main = .idle) (hn : 0 ≤ n) (hfree : s.world.files n = none) :
    Core ((s.setWorld (s.world.newClient n)).goto .main (.add n s.world.accepted)) := by
  have hframe := fun (y : Client) (hy : y < s.world.accepted) => frame_newClient hy hfree
  have hunreg : ∀ i, s.world.epoll i n = none := by
    intro i
    rw [← Option.not_isSome_iff_eq_none]
    intro hi
    obtain ⟨y, hy, -⟩ := h.epoll i n hi
    rw [hfree] at hy
    cases hy
  have hnum : (s.world.newClient n).num s.world.accepted = n := Function.update_self _ _ _
  refine ⟨?_, ?_, ?_, ?_, ?_, ?_, ?_⟩
  · intro u
    by_cases hu : u = .main
    · subst hu
      rw [goto_pc, Function.update_self]
      refine ⟨rfl, ⟨rfl, hnum, hunreg⟩, ?_, ⟨?_, ?_, h.closesOf_fresh⟩⟩
      · cases ha : s.admitted s.world.accepted with
        | false => exact ha
        | true => exact absurd (h.life _ ha).1 (Nat.lt_irrefl _)
      · rw [goto_world, setWorld_world, conns_newClient_self, hnum]
        rfl
      · rw [goto_world, setWorld_world, hnum, files_newClient_self]
    · rw [goto_pc, Function.update_of_ne hu]
      refine PcOk.other hu (h.pcs u) ?_ ?_
      · intro y hy
        exact ⟨hy, (hframe y (h.life y hy).1).num⟩
      · intro hl
        exact ⟨hl, fun m y hy => ⟨hy, hframe y (h.lt_of_pooled hy)⟩⟩
  · intro m y hy
    rw [goto_world, setWorld_world] at hy ⊢
    by_cases hm : m = n
    · subst hm
      rw [files_newClient_self] at hy
      cases hy
      exact ⟨hn, Nat.lt_succ_self _, hnum⟩
    · rw [files_newClient_ne _ hm] at hy
      obtain ⟨h1, h2, h3⟩ := h.files m y hy
      exact ⟨h1, Nat.lt_succ_of_lt h2, by rw [(hframe y h2).num]; exact h3⟩
  · intro m y hy
    obtain ⟨h1, h2, h3⟩ := h.pooled m y hy
    have hlt := h.lt_of_pooled hy
    refine ⟨by rw [goto_world, setWorld_world, (hframe y hlt).num]; exact h1, h2, ?_⟩
    rcases h3 with h3 | ⟨u, hu⟩
    · exact Or.inl (h3.frame (hframe y hlt))
    · refine Or.inr ⟨u, ?_⟩
      have hum : u ≠ .main := by
        rintro rfl
        rw [hpc] at hu
        cases hu
      rw [goto_pc, Function.update_of_ne hum]
      exact hu
  · intro i m hi
    obtain ⟨y, h1, h2, h3⟩ := h.epoll i m hi
    refine ⟨y, ?_, h2, h3⟩
    have hm : m ≠ n := by
      rintro rfl
      rw [hfree] at h1
      cases h1
    rw [goto_world, setWorld_world, files_newClient_ne _ hm]
    exact h1
  · intro y hy
    obtain ⟨h1, h2⟩ := h.life y hy
    exact ⟨Nat.lt_succ_of_lt h1,
      h2.imp (fun h2 => h2.frame (hframe y h1)) (fun h2 => h2.frame (hframe y h1))⟩
  · intro y hy hp
    have hlt := (h.life y hy).1
    rw [goto_world, setWorld_world, (hframe y hlt).num] at hp
    exact (hframe y hlt).state (h.left y hy hp)
  · intro p hp
    obtain ⟨h1, h2⟩ := h.log p hp
    exact ⟨Nat.lt_succ_of_lt h1, fun y hy => Nat.lt_succ_of_lt (h2 y hy)⟩

theorem core_add {pool : ConnectionPool} (h : Core s) (hpc : s.pc .main = .add n x) (hlock : s.lock = none)
    (hadd : s.world.pool.addConnection (s.world.conns x).fd x = (pool, true)) : Core (s.addStep n x pool) := by
  obtain ⟨-, hnew, hadm, hopen⟩ := h.pcAt hpc
  rw [hopen.fd, hnew.num] at hadd
  obtain ⟨hnone, hself, hne⟩ := ConnectionPool.addConnection_true hadd
  have hold : ∀ y, s.admitted y = true → y ≠ x := by
    rintro y hy rfl
    rw [hadm] at hy
    cases hy
  have hkeep : ∀ y, s.admitted y = true → (s.addStep n x pool).admitted y = true := by
    intro y hy
    rw [addStep_admitted, Function.update_of_ne (hold y hy)]
    exact hy
  have hadm' : ∀ y, (s.addStep n x pool).admitted y = true → y = x ∨ s.admitted y = true := by
    intro y hy
    by_cases hyx : y = x
    · exact Or.inl hyx
    · rw [addStep_admitted, Function.update_of_ne hyx] at hy
      exact Or.inr hy
  have hframe := fun y => frame_setPool y pool s.world
  have hfile : s.world.files n = some x := by
    rw [← hnew.num]
    exact hopen.file
  refine ⟨?_, h.files, ?_, ?_, ?_, ?_, h.log⟩
  · intro u
    by_cases hu : u = .main
    · subst hu
      rw [addStep_pc, Function.update_self]
      refine ⟨rfl, ⟨hnew.last, hnew.num, hnew.unregistered⟩, ?_, ?_, Or.inl hfile, Or.inl hself⟩
      · rw [addStep_admitted, Function.update_self]
      · rw [addStep_owner, Function.update_self]
    · rw [addStep_pc, Function.update_of_ne hu]
      refine PcOk.other hu (h.pcs u) (fun y hy => ⟨hkeep y hy, rfl⟩) ?_
      intro hl
      rw [hlock] at hl
      cases hl
  · intro m y hy
    rw [addStep_world, setPool_pool] at hy
    by_cases hm : m = n
    · subst hm
      rw [hself] at hy
      cases hy
      refine ⟨hnew.num, ?_, Or.inl (hopen.frame (hframe x))⟩
      rw [addStep_admitted, Function.update_self]
    · rw [hne m hm] at hy
      obtain ⟨h1, h2, h3⟩ := h.pooled m y hy
      refine ⟨h1, hkeep y h2, ?_⟩
      rcases h3 with h3 | ⟨u, hu⟩
      · exact Or.inl (h3.frame (hframe y))
      · refine Or.inr ⟨u, ?_⟩
        have hum : u ≠ .main := by
          rintro rfl
          rw [hpc] at hu
          cases hu
        rw [addStep_pc, Function.update_of_ne hum]
        exact hu
  · intro i m hi
    obtain ⟨y, h1, h2, h3⟩ := h.epoll i m hi
    have hm : m ≠ n := by
      rintro rfl
      have hi' : (s.world.epoll i m).isSome := hi
      rw [hnew.unregistered i] at hi'
      cases hi'
    have hyx : y ≠ x := by
      rintro rfl
      exact hm ((h.files m y h1).2.2.symm.trans hnew.num)
    refine ⟨y, h1, ?_, ?_⟩
    · rw [addStep_owner, Function.update_of_ne hyx]
      exact h2
    · intro z hz
      exact h3 z ((hne m hm).symm.trans hz)
  · intro y hy
    rcases hadm' y hy with rfl | hy
    · exact ⟨hnew.lt, Or.inl (hopen.frame (hframe _))⟩
    · obtain ⟨h1, h2⟩ := h.life y hy
      exact ⟨h1, h2.imp (fun h2 => h2.frame (hframe y)) (fun h2 => h2.frame (hframe y))⟩
  · intro y hy hp
    rw [addStep_world, setPool_pool, setPool_num] at hp
    rcases hadm' y hy with rfl | hy
    · rw [hnew.num] at hp
      exact absurd hself hp
    · apply h.left y hy
      intro hy'
      have hm : s.world.num y ≠ n := by
        intro hm
        rw [hm, hnone] at hy'
        cases hy'
      exact hp ((hne _ hm).trans hy')

theorem core_register {j : ℕ} (h : Core s) (hpc : s.pc .main = .addFd n x j) (hopen : (s.world.files n).isSome) :
    Core ((s.setWorld (s.world.setInterest j n (some ⟨inOutMask, true⟩))).goto .main .idle) := by
  obtain ⟨-, hnew, hadm, hown, hfile, hpool⟩ := h.pcAt hpc
  have hfile' : s.world.files n = some x := by
    rcases hfile with hf | hf
    · exact hf
    · rw [hf] at hopen
      cases hopen
  have hframe := fun y => frame_setInterest y j n (some ⟨inOutMask, true⟩) s.world
  refine ⟨?_, h.files, ?_, ?_, ?_, h.left, h.log⟩
  · intro u
    by_cases hu : u = .main
    · subst hu
      rw [goto_pc, Function.update_self]
      intro m y hy
      cases hy
    · rw [goto_pc, Function.update_of_ne hu]
      exact PcOk.other hu (h.pcs u) (fun y hy => ⟨hy, rfl⟩) (fun hl => ⟨hl, fun m y hy => ⟨hy, hframe y⟩⟩)
  · intro m y hy
    obtain ⟨h1, h2, h3⟩ := h.pooled m y hy
    refine ⟨h1, h2, ?_⟩
    rcases h3 with h3 | ⟨u, hu⟩
    · exact Or.inl (h3.frame (hframe y))
    · refine Or.inr ⟨u, ?_⟩
      have hum : u ≠ .main := by
        rintro rfl
        rw [hpc] at hu
        cases hu
      rw [goto_pc, Function.update_of_ne hum]
      exact hu
  · intro i m hi
    rw [goto_world, setWorld_world] at hi
    by_cases hm : m = n
    · subst hm
      by_cases hi' : i = j
      · subst hi'
        refine ⟨x, hfile', hown, ?_⟩
        intro y hy
        have hy' : s.world.pool.getConnection m = some y := hy
        rcases hpool with hp | hp
        · rw [hp] at hy'
          exact (Option.some.inj hy').symm
        · rw [hp] at hy'
          cases hy'
      · exact h.epoll i m (by simpa [setInterest, hi'] using hi)
    · rw [epoll_setInterest_ne _ _ hm] at hi
      exact h.epoll i m hi
  · intro y hy
    obtain ⟨h1, h2⟩ := h.life y hy
    exact ⟨h1, h2.imp (fun h2 => h2.frame (hframe y)) (fun h2 => h2.frame (hframe y))⟩

/-- The history variables do not matter. -/
theorem Core.ghost (h : Core s) (hw : s'.world = s.world) (ho : s'.owner = s.owner)
    (ha : s'.admitted = s.admitted) (hl : s'.lock = s.lock) (hpc : s'.pc = s.pc) : Core s' := by
  have hcalm : Calm s.world s'.world := by
    rw [hw]
    exact Calm.refl _
  refine h.calm (t := .main) hcalm ho ha (Or.inl hl) (fun u _ => by rw [hpc]) ?_ (Or.inr (by rw [hpc]))
  rw [hpc]
  exact (h.pcs .main).calm hcalm ho ha (Or.inl hl)

theorem PcOk.erase_main {m : ℤ} (hok : PcOk s .main p) (hlock : s.lock ≠ some .main)
    (hw : s'.world = s.world.setPool (s.world.pool.erase m)) (ho : s'.owner = s.owner)
    (ha : s'.admitted = s.admitted) : PcOk s' .main p := by
  have hframe : ∀ y, Frame y s.world s'.world := fun y => by rw [hw]; exact frame_setPool y _ _
  have hnewest : ∀ {n y}, Newest n y s → Newest n y s' := fun h =>
    ⟨by rw [hw]; exact h.last, by rw [hw]; exact h.num, by rw [hw]; exact h.unregistered⟩
  cases p with
  | add n y => exact ⟨rfl, hnewest hok.2.1, by rw [ha]; exact hok.2.2.1, hok.2.2.2.frame (hframe y)⟩
  | rejectClose n y => exact ⟨rfl, hnewest hok.2.1, by rw [ha]; exact hok.2.2.1, hok.2.2.2.frame (hframe y)⟩
  | rejectDrop n y =>
      exact ⟨rfl, hnewest hok.2.1, by rw [ha]; exact hok.2.2.1, by rw [hw]; exact hok.2.2.2.1,
        by rw [hw]; exact hok.2.2.2.2⟩
  | addFd n y j =>
      refine ⟨rfl, hnewest hok.2.1, by rw [ha]; exact hok.2.2.1, by rw [ho]; exact hok.2.2.2.1,
        by rw [hw]; exact hok.2.2.2.2.1, ?_⟩
      rw [hw, setPool_pool]
      by_cases hn : n = m
      · subst hn
        exact Or.inr (ConnectionPool.getConnection_erase_self _ n)
      · rw [ConnectionPool.getConnection_erase_ne _ hn]
        exact hok.2.2.2.2.2
  | closing n y c => exact absurd hok.1 hlock
  | erase n y => exact absurd hok.1 hlock
  | _ =>
      intro n y hy
      rw [ha, hw]
      exact hok n y hy

theorem core_erase (h : Core s) (hpc : s.pc t = .erase n x) : Core (s.eraseStep t n x) := by
  obtain ⟨hlock, hp, hst⟩ := h.pcAt hpc
  have hframe := fun y => frame_setPool y (s.world.pool.erase n) s.world
  have hpool : ∀ m y, (s.world.pool.erase n).getConnection m = some y →
      m ≠ n ∧ s.world.pool.getConnection m = some y := by
    intro m y hy
    by_cases hm : m = n
    · subst hm
      rw [ConnectionPool.getConnection_erase_self] at hy
      cases hy
    · rw [ConnectionPool.getConnection_erase_ne _ hm] at hy
      exact ⟨hm, hy⟩
  have hcore : Core (((s.setWorld (s.world.setPool (s.world.pool.erase n))).setLock none).goto t .idle) := by
    refine ⟨?_, h.files, ?_, ?_, ?_, ?_, h.log⟩
    · intro u
      by_cases hu : u = t
      · subst hu
        rw [goto_pc, Function.update_self]
        intro m y hy
        cases hy
      · rw [goto_pc, Function.update_of_ne hu]
        have hlu : s.lock ≠ some u := by
          rw [hlock]
          intro hut
          exact hu (Option.some.inj hut).symm
        by_cases hum : u = .main
        · subst hum
          exact PcOk.erase_main (h.pcs .main) hlu rfl rfl rfl
        · exact PcOk.other hum (h.pcs u) (fun y hy => ⟨hy, rfl⟩) (fun hl => absurd hl hlu)
    · intro m y hy
      obtain ⟨hm, hy'⟩ := hpool m y hy
      obtain ⟨h1, h2, h3⟩ := h.pooled m y hy'
      refine ⟨h1, h2, ?_⟩
      rcases h3 with h3 | ⟨u, hu⟩
      · exact Or.inl (h3.frame (hframe y))
      · refine Or.inr ⟨u, ?_⟩
        have hut : u ≠ t := by
          rintro rfl
          rw [hpc] at hu
          cases hu
          exact hm (h1.symm.trans (h.pooled n x hp).1)
        rw [goto_pc, Function.update_of_ne hut]
        exact hu
    · intro i m hi
      obtain ⟨y, h1, h2, h3⟩ := h.epoll i m hi
      exact ⟨y, h1, h2, fun z hz => h3 z (hpool m z hz).2⟩
    · intro y hy
      obtain ⟨h1, h2⟩ := h.life y hy
      exact ⟨h1, h2.imp (fun h2 => h2.frame (hframe y)) (fun h2 => h2.frame (hframe y))⟩
    · intro y hy hne
      by_cases hyx : y = x
      · subst hyx
        exact hst
      · apply h.left y hy
        intro hy'
        by_cases hm : s.world.num y = n
        · rw [hm, hp] at hy'
          exact hyx (Option.some.inj hy').symm
        · apply hne
          rw [goto_world, setLock_world, setWorld_world, setPool_pool, setPool_num,
            ConnectionPool.getConnection_erase_ne _ hm]
          exact hy'
  exact hcore.ghost rfl rfl rfl rfl rfl

/-! ### Shutdown -/

/-- `Close` of admitted clients, one after the other. -/
structure ClosesAll (adm : Client → Bool) (w w' : World Byte) : Prop where
  state : ∀ y, (w.conns y).state = .closed → (w'.conns y).state = .closed
  accepted : w'.accepted = w.accepted
  num : w'.num = w.num
  pool : w'.pool = w.pool
  files : ∀ m y, w'.files m = some y → w.files m = some y
  epoll : ∀ i m, (w'.epoll i m).isSome → (w.epoll i m).isSome ∧ w'.files m = w.files m
  life : ∀ y, adm y = true → Open y w ∨ Shut y w → Open y w' ∨ Shut y w'
  log : ∀ p ∈ w'.closeLog, p ∈ w.closeLog ∨
    (adm p.1 = true ∧ ∀ y, p.2 = some y → ∃ m, w.files m = some y)
  fate : ∀ y, ((w'.conns y).state = (w.conns y).state ∧ w'.closesOf y = w.closesOf y) ∨
    ((w.conns y).state ≠ .closed ∧ (w'.conns y).state = .closed ∧ w'.closesOf y = [(y, some y)])

theorem ClosesAll.refl (adm : Client → Bool) (w : World Byte) : ClosesAll adm w w :=
  ⟨fun _ => id, rfl, rfl, rfl, fun _ _ => id, fun _ _ hi => ⟨hi, rfl⟩, fun _ _ => id, fun _ hp => Or.inl hp,
    fun _ => Or.inl ⟨rfl, rfl⟩⟩

theorem ClosesAll.trans {adm : Client → Bool} {w₁ w₂ w₃ : World Byte} (h₁ : ClosesAll adm w₁ w₂)
    (h₂ : ClosesAll adm w₂ w₃) : ClosesAll adm w₁ w₃ := by
  refine ⟨fun y hy => h₂.state y (h₁.state y hy), h₂.accepted.trans h₁.accepted, h₂.num.trans h₁.num,
    h₂.pool.trans h₁.pool, fun m y hm => h₁.files m y (h₂.files m y hm), ?_,
    fun y hy hl => h₂.life y hy (h₁.life y hy hl), ?_, ?_⟩
  · intro i m hi
    obtain ⟨h1, h2⟩ := h₂.epoll i m hi
    obtain ⟨h3, h4⟩ := h₁.epoll i m h1
    exact ⟨h3, h2.trans h4⟩
  · intro p hp
    rcases h₂.log p hp with hp | ⟨hp1, hp2⟩
    · exact h₁.log p hp
    · refine Or.inr ⟨hp1, fun y hy => ?_⟩
      obtain ⟨m, hm⟩ := hp2 y hy
      exact ⟨m, h₁.files m y hm⟩
  · intro y
    obtain ⟨hs₁, hc₁⟩ | ⟨ho, hs₁, hc₁⟩ := h₁.fate y
    · rw [← hs₁, ← hc₁]
      exact h₂.fate y
    · obtain ⟨hs₂, hc₂⟩ | ⟨ho₂, -⟩ := h₂.fate y
      · exact Or.inr ⟨ho, hs₂.trans hs₁, hc₂.trans hc₁⟩
      · exact absurd hs₁ ho₂

/-- `Close` of an open client: afterwards it is shut. -/
theorem Open.shut_closeConn {w : World Byte} (h : Open x w) (hn : 0 ≤ w.num x)
    (hc : (w.conns x).state ≠ .closed) : Shut x (w.closeConn x) := by
  have hfd : (w.setConn x (w.conns x).markClosed).num x = ((w.setConn x (w.conns x).markClosed).conns x).fd := by
    rw [conns_setConn_self]
    exact h.fd.symm
  have hopen : Open x (w.setConn x (w.conns x).markClosed) := h.frame ((calm_markClosed x w).frame x)
  have hst : ((w.setConn x (w.conns x).markClosed).conns x).state = .closed := by
    rw [conns_setConn_self]
    rfl
  unfold closeConn
  rw [if_neg hc]
  simp only []
  rw [if_neg (by rw [hopen.fd]; show w.num x ≠ -1; omega), ← hfd]
  exact (hopen.shut_close hst).clearFd

theorem closesAll_closeConn {adm : Client → Bool} {w : World Byte} (hx : adm x = true)
    (hl : Open x w ∨ Shut x w) (hn : ∀ m y, w.files m = some y → 0 ≤ m) :
    ClosesAll adm w (w.closeConn x) ∧ ((w.closeConn x).conns x).state = .closed := by
  by_cases hc : (w.conns x).state = .closed
  · have hsame : w.closeConn x = w := if_pos hc
    rw [hsame]
    exact ⟨ClosesAll.refl adm w, hc⟩
  · have hopen : Open x w := hl.resolve_right (fun hs => hc hs.state)
    have hshut := Open.shut_closeConn hopen (hn _ _ hopen.file) hc
    have hcl : Closes x w (w.closeConn x) := by
      apply closes_closeConn
      intro y hy
      rw [hopen.fd, hopen.file] at hy
      exact (Option.some.inj hy).symm
    refine ⟨⟨?_, hcl.accepted, hcl.num, hcl.pool, hcl.files, hcl.epoll, ?_, ?_, ?_⟩, hshut.state⟩
    · intro y hy
      by_cases hyx : y = x
      · subst hyx
        exact hshut.state
      · exact (hcl.frame y hyx).state hy
    · intro y _ hly
      by_cases hyx : y = x
      · subst hyx
        exact Or.inr hshut
      · exact hly.imp (fun h => h.frame (hcl.frame y hyx)) (fun h => h.frame (hcl.frame y hyx))
    · intro p hp
      rcases hcl.log p hp with hp | ⟨hp1, hp2⟩
      · exact Or.inl hp
      · exact Or.inr ⟨by rw [hp1]; exact hx, hp2⟩
    · intro y
      by_cases hyx : y = x
      · subst hyx
        exact Or.inr ⟨hc, hshut.state, hshut.closes⟩
      · exact Or.inl ⟨by rw [closeConn_conns_ne w hyx], (hcl.frame y hyx).closes⟩

theorem closesAll_foldl {adm : Client → Bool} (es : List (Sigma fun _ : ℤ => Client)) {w : World Byte}
    (hes : ∀ e ∈ es, adm e.2 = true ∧ (Open e.2 w ∨ Shut e.2 w))
    (hn : ∀ m y, w.files m = some y → 0 ≤ m) :
    ClosesAll adm w (es.foldl (fun w e => w.closeConn e.2) w) ∧
      ∀ e ∈ es, ((es.foldl (fun w e => w.closeConn e.2) w).conns e.2).state = .closed := by
  induction es generalizing w with
  | nil => exact ⟨ClosesAll.refl adm w, by simp⟩
  | cons e es ih =>
      obtain ⟨ha, hl⟩ := hes e List.mem_cons_self
      obtain ⟨h₁, hc⟩ := closesAll_closeConn ha hl hn
      have hes' : ∀ e' ∈ es, adm e'.2 = true ∧ (Open e'.2 (w.closeConn e.2) ∨ Shut e'.2 (w.closeConn e.2)) := by
        intro e' he'
        obtain ⟨ha', hl'⟩ := hes e' (List.mem_cons_of_mem e he')
        exact ⟨ha', h₁.life e'.2 ha' hl'⟩
      obtain ⟨h₂, hcs⟩ := ih hes' (fun m y hm => hn m y (h₁.files m y hm))
      refine ⟨h₁.trans h₂, ?_⟩
      intro e' he'
      rcases List.mem_cons.mp he' with rfl | he'
      · exact h₂.state _ hc
      · exact hcs e' he'

/-- The loop of `Shutdown` closes every pooled connection. -/
theorem Core.closesAll (h : Core s) :
    ClosesAll s.admitted s.world
        (s.world.pool.connections.entries.foldl (fun w e => w.closeConn e.2) s.world) ∧
      ∀ e ∈ s.world.pool.connections.entries,
        ((s.world.pool.connections.entries.foldl (fun w e => w.closeConn e.2) s.world).conns e.2).state =
          .closed := by
  refine closesAll_foldl _ ?_ (fun m y hm => (h.files m y hm).1)
  intro e he
  have hadm := (h.pooled e.1 e.2 (AList.mem_lookup_iff.mpr he)).2.1
  exact ⟨hadm, (h.life e.2 hadm).2⟩

theorem core_shutdown (h : Core s) (hpc : s.pc .main = .idle) (hlock : s.lock = none) :
    Core { s with world := shutdownWorld s.world, stopped := true } := by
  obtain ⟨hall, hclosed⟩ := h.closesAll
  have hframe := fun y w pool => frame_setPool (α := Byte) y pool w
  refine ⟨?_, ?_, ?_, ?_, ?_, ?_, ?_⟩
  · intro u
    by_cases hu : u = .main
    · subst hu
      show PcOk _ _ (s.pc .main)
      rw [hpc]
      intro m y hy
      cases hy
    · refine PcOk.other hu (h.pcs u) (fun y hy => ⟨hy, by rw [← hall.num]; rfl⟩) ?_
      intro hl
      rw [hlock] at hl
      cases hl
  · intro m y hy
    obtain ⟨h1, h2, h3⟩ := h.files m y (hall.files m y hy)
    refine ⟨h1, ?_, ?_⟩
    · rw [← hall.accepted] at h2
      exact h2
    · rw [← hall.num] at h3
      exact h3
  · intro m y hy
    cases hy
  · intro i m hi
    obtain ⟨hi', hf⟩ := hall.epoll i m hi
    obtain ⟨y, h1, h2, -⟩ := h.epoll i m hi'
    exact ⟨y, hf.trans h1, h2, fun z hz => by cases hz⟩
  · intro y hy
    obtain ⟨h1, h2⟩ := h.life y hy
    refine ⟨by rw [← hall.accepted] at h1; exact h1, ?_⟩
    exact (hall.life y hy h2).imp (fun h => h.frame (hframe y _ _)) (fun h => h.frame (hframe y _ _))
  · intro y hy _
    by_cases hp : s.world.pool.getConnection (s.world.num y) = some y
    · exact hclosed ⟨s.world.num y, y⟩ (AList.mem_lookup_iff.mp hp)
    · exact hall.state y (h.left y hy hp)
  · intro p hp
    rcases hall.log p hp with hp | ⟨hp1, hp2⟩
    · obtain ⟨h1, h2⟩ := h.log p hp
      rw [← hall.accepted] at h1 h2
      exact ⟨h1, h2⟩
    · have h1 := (h.life p.1 hp1).1
      rw [← hall.accepted] at h1
      refine ⟨h1, ?_⟩
      intro y hy
      obtain ⟨m, hm⟩ := hp2 y hy
      have h2 := (h.files m y hm).2.1
      rw [← hall.accepted] at h2
      exact h2

/-! ### The invariant holds in every reachable state -/

theorem finishes_of_not_busy (hb : p.busy = false) : p.finishes = none := by
  cases p <;> first | rfl | cases hb

theorem removes_of_finishes (hf : p.finishes = some x) : p.removes = some x := by
  cases p with
  | closing m y c => cases c <;> first | exact hf | cases hf
  | erase m y => exact hf
  | _ => cases hf

/-- Thread `t` moves calmly to a point outside `HandleAccept` and `RemoveConnection`. -/
theorem Core.toQuiet (h : Core s) (hw : Calm s.world s'.world) (ho : s'.owner = s.owner)
    (ha : s'.admitted = s.admitted) (hl : s'.lock = s.lock) (hpc : s'.pc = Function.update s.pc t p)
    (hb : p.busy = false) (hh : ∀ n x, p.handles = some (n, x) → s.admitted x = true ∧ s.world.num x = n)
    (hfrom : (s.pc t).busy = false) : Core s' := by
  refine h.calm (t := t) hw ho ha (Or.inl hl) ?_ ?_ (Or.inl (finishes_of_not_busy hfrom))
  · intro u hu
    rw [hpc, Function.update_of_ne hu]
  · rw [hpc, Function.update_self, pcOk_of_not_busy hb, ha, hw.num]
    exact hh

/-- The mover keeps its number and object, or drops them. -/
theorem Core.handles_of (h : Core s) (hb : (s.pc t).busy = false)
    (hh : p.handles = none ∨ p.handles = (s.pc t).handles) :
    ∀ n x, p.handles = some (n, x) → s.admitted x = true ∧ s.world.num x = n := by
  intro m y hy
  rcases hh with hh | hh
  · rw [hh] at hy
    cases hy
  · rw [hh] at hy
    exact (pcOk_of_not_busy hb).mp (h.pcs t) m y hy

/-- Thread `t`, which holds the mutex, moves on inside `RemoveConnection` without closing. -/
theorem Core.toRemoving (h : Core s) (hw : Calm s.world s'.world) (ho : s'.owner = s.owner)
    (ha : s'.admitted = s.admitted) (hl : s'.lock = s.lock ∨ s.lock = none)
    (hpc : s'.pc = Function.update s.pc t p) (hok : PcOk s' t p) (hfin : (s.pc t).finishes = none) : Core s' := by
  refine h.calm (t := t) hw ho ha hl ?_ ?_ (Or.inl hfin)
  · intro u hu
    rw [hpc, Function.update_of_ne hu]
  · rw [hpc, Function.update_self]
    exact hok

/-- A thread that removes a connection holds the mutex. -/
theorem Core.locked_of_removes (h : Core s) (hr : (s.pc t).removes = some x) : s.lock = some t := by
  have hok := h.pcs t
  revert hok hr
  cases s.pc t with
  | closing m y c => exact fun _ hok => hok.1
  | erase m y => exact fun _ hok => hok.1
  | _ => exact fun hr => by cases hr

/-- When the mutex is free, every pooled connection is open. -/
theorem Core.open_of_unlocked (h : Core s) (hlock : s.lock = none)
    (hx : s.world.pool.getConnection n = some x) : Open x s.world := by
  obtain ⟨-, -, hopen | ⟨u, hu⟩⟩ := h.pooled n x hx
  · exact hopen
  · rw [h.locked_of_removes (removes_of_finishes hu)] at hlock
    cases hlock

theorem core_step (h : Core s) (hs : step s l = some s') : Core s' := by
  obtain ⟨-, -, he⟩ := step_effect hs
  cases he with
  | tick t =>
      have hw : Calm s.world { s.world with now := t } :=
        ⟨fun _ => rfl, fun _ => id, rfl, rfl, rfl, rfl, fun _ _ => id, rfl⟩
      exact h.calm (t := .main) hw rfl rfl (Or.inl rfl) (fun _ _ => rfl)
        ((h.pcs .main).calm hw rfl rfl (Or.inl rfl)) (Or.inr rfl)
  | quiet hi ht hq =>
      exact h.toQuiet hq.core.calm rfl rfl rfl rfl hq.busy (h.handles_of hq.wasBusy hq.handles) hq.wasBusy
  | @wait i evs hi hpc hb hd =>
      have hw := calm_deliver i evs s.world
      exact h.calm (t := .main) hw rfl rfl (Or.inl rfl) (fun _ _ => rfl)
        ((h.pcs .main).calm hw rfl rfl (Or.inl rfl)) (Or.inr rfl)
  | skip hpc hb => exact h.ghost rfl rfl rfl rfl rfl
  | errorEvent hpc hb herr =>
      exact h.toQuiet (Calm.refl _) rfl rfl rfl rfl rfl (by simp [Pc.handles]) (by rw [hpc]; rfl)
  | @lookup i n ev rest x p hl hpc hb herr hlock hx hp =>
      have hobj : s.admitted x = true ∧ s.world.num x = n :=
        ⟨(h.pooled n x hx).2.1, (h.pooled n x hx).1⟩
      rcases hp with rfl | rfl
      · refine h.toQuiet (Calm.refl _) rfl rfl rfl rfl rfl ?_ (by rw [hpc]; rfl)
        rintro m y ⟨⟩
        exact hobj
      · refine h.toQuiet (Calm.refl _) rfl rfl rfl rfl rfl ?_ (by rw [hpc]; rfl)
        rintro m y ⟨⟩
        exact hobj
  | mark ht hm hh ho hc hl hb =>
      have hfrom := Pc.busy_of_marks hm
      exact h.toQuiet (calm_markClosed _ _) rfl rfl rfl rfl hb (h.handles_of hfrom hh) hfrom
  | del hpc =>
      exact h.toQuiet (calm_removeInterest _ _ _) rfl rfl rfl rfl rfl (by simp [Pc.handles]) (by rw [hpc]; rfl)
  | crash hf =>
      have hw : Calm s.world s.world.crash := ⟨fun _ => rfl, fun _ => id, rfl, rfl, rfl, rfl, fun _ _ => id, rfl⟩
      exact h.calm (t := .main) hw rfl rfl (Or.inl rfl) (fun _ _ => rfl)
        ((h.pcs .main).calm hw rfl rfl (Or.inl rfl)) (Or.inr rfl)
  | find ht hlock hx hb hsw =>
      exact h.toRemoving (Calm.refl _) rfl rfl (Or.inr hlock) rfl ⟨rfl, hx, h.open_of_unlocked hlock hx⟩
        (finishes_of_not_busy hb)
  | sweepSkip hpc hsw hx =>
      exact h.toQuiet (Calm.refl _) rfl rfl rfl rfl rfl (by simp [Pc.handles]) (by rw [hpc]; rfl)
  | closeSkip ht hpc hc =>
      have hok := h.pcAt hpc
      exact h.toRemoving (Calm.refl _) rfl rfl (Or.inl rfl) rfl ⟨hok.1, hok.2.1, hc⟩ (by rw [hpc]; rfl)
  | closeLoad ht hpc hc =>
      have hok := h.pcAt hpc
      exact h.toRemoving (Calm.refl _) rfl rfl (Or.inl rfl) rfl ⟨hok.1, hok.2.1, hok.2.2⟩ (by rw [hpc]; rfl)
  | @closeStore t n x ht hpc =>
      obtain ⟨h1, h2, h3⟩ := h.pcAt hpc
      have hw := calm_markClosed x s.world
      refine h.toRemoving hw rfl rfl (Or.inl rfl) rfl ⟨h1, h2, Open.frame h3 (hw.frame x), ?_⟩ (by rw [hpc]; rfl)
      rw [goto_world, setWorld_world, conns_setConn_self]
      rfl
  | closeNoFd ht hpc hfd =>
      have hok := h.pcAt hpc
      exact h.toRemoving (Calm.refl _) rfl rfl (Or.inl rfl) rfl ⟨hok.1, hok.2.1, hok.2.2.2⟩ (by rw [hpc]; rfl)
  | closeFd ht hpc =>
      obtain ⟨h1, h2, h3, h4⟩ := h.pcAt hpc
      exact h.toRemoving (Calm.refl _) rfl rfl (Or.inl rfl) rfl ⟨h1, h2, h3, h4, h3.fd⟩ (by rw [hpc]; rfl)
  | closeSys ht hpc => exact core_closeSys h hpc
  | closeClear ht hpc => exact core_closeClear h hpc
  | erase ht hpc => exact core_erase h hpc
  | accept hl hpc hn hfree => exact core_accept h hpc hn hfree
  | add ht hpc hlock hadd => exact core_add h hpc hlock hadd
  | reject hpc =>
      obtain ⟨h1, h2, h3, h4⟩ := h.pcAt hpc
      exact h.toRemoving (Calm.refl _) rfl rfl (Or.inl rfl) rfl
        ⟨h1, ⟨h2.last, h2.num, h2.unregistered⟩, h3, h4⟩ (by rw [hpc]; rfl)
  | rejectClose hpc => exact core_rejectClose h hpc
  | rejectDrop hpc => exact core_rejectDrop h hpc
  | register hpc hopen hnone => exact core_register h hpc hopen
  | scan hpc hlock hperm => exact h.ghost rfl rfl rfl rfl rfl
  | shutdown hpc hj hlock => exact core_shutdown h hpc hlock

/-- `Core` holds in every state of every run. -/
theorem core_reach {ok : Sys → Label → Prop} {maxConnections threadNum : ℕ} {heartbeatTimeoutMs : ℤ}
    (h : Transition.Reach step ok (init maxConnections heartbeatTimeoutMs threadNum) s) : Core s :=
  h.invariant Core (core_init _ _ _) (fun _ _ _ hc _ hs => core_step hc hs)

end steps

end Sys

end TcpServer
