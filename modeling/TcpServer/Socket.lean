import TcpServer.Accept
import TcpServer.Custody

/-! # Ownership of descriptors (`net/socket.cpp`)

Any number of `Socket` objects, each with its `fd_`, over one descriptor table.  The kernel reuses
descriptor *numbers*; a *descriptor* here is what one call of `socket(2)`, `accept(2)` or another
opening call returned, numbered in the order of these calls, and `files` says which descriptor a
number stands for at the moment.  Everything the kernel decides is in the labels: the returned
numbers, the failures, and the replies of the option calls, any of which can throw.

`log` is history: the descriptors `Socket` objects obtain, pass on by move, hand out by `Release`
and `close`.  It is read with `Custody.holder`; `Linear` ties the owner according to the log to
the `fd_` fields, and `linear_ownership` says that the log is a history of linear ownership.

Other code opens descriptors when it likes and closes those that no `Socket` owns. -/

namespace TcpServer

open Transition Custody

/-- The return value of a system call and the `errno` after it. -/
structure Reply where
  ret : ℤ
  errno : Errno
deriving DecidableEq, Repr

/-- `Socket::CheckError`. -/
def checkError (r : Reply) (operation : String) : Except Exception Unit :=
  if r.ret = -1 then .error ⟨operation, r.errno⟩ else .ok ()

/-- What the kernel replies to the option-setting calls. -/
structure OptionReplies where
  getfl : Reply
  setfl : Reply
  reuseaddr : Reply
  reuseport : Reply
  nodelay : Reply
deriving DecidableEq, Repr

namespace OptionReplies

/-- `Socket::SetNonBlocking`. -/
def setNonBlocking (r : OptionReplies) : Except Exception Unit := do
  checkError r.getfl "fcntl(F_GETFL)"
  checkError r.setfl "fcntl(F_SETFL)"

/-- `Socket::SetReuseAddr`. -/
def setReuseAddr (r : OptionReplies) : Except Exception Unit :=
  checkError r.reuseaddr "setsockopt(SO_REUSEADDR)"

/-- `Socket::SetReusePort`. -/
def setReusePort (r : OptionReplies) : Except Exception Unit :=
  checkError r.reuseport "setsockopt(SO_REUSEPORT)"

/-- `Socket::SetTcpNoDelay`. -/
def setTcpNoDelay (r : OptionReplies) : Except Exception Unit :=
  checkError r.nodelay "setsockopt(TCP_NODELAY)"

end OptionReplies

/-- The `Socket` objects of a process, by address: `fd o` is the `fd_` of the object at `o`, `none`
where there is none. -/
structure Sockets where
  fd : ℕ → Option ℤ
  files : ℤ → Option ℕ
  opened : ℕ
  log : List (Event ℕ (Option ℕ))

namespace Sockets

/-- No `Socket` and no open descriptor yet. -/
def start : Sockets := ⟨fun _ => none, fun _ => none, 0, []⟩

/-- The `fd_` of an object, `-1` where there is none. -/
def fdOf (s : Sockets) (o : ℕ) : ℤ := (s.fd o).getD (-1)

/-- The `Socket` at `o` owns `d`: its `fd_` is the number of `d`. -/
def Owns (s : Sockets) (o : ℕ) (d : Option ℕ) : Prop := s.fdOf o ≠ -1 ∧ s.files (s.fdOf o) = d

/-! ### The operations -/

def setFd (s : Sockets) (o : ℕ) (n : ℤ) : Sockets := { s with fd := Function.update s.fd o (some n) }

/-- The memory of the object is given back. -/
def forget (s : Sockets) (o : ℕ) : Sockets := { s with fd := Function.update s.fd o none }

/-- Note what happens to the descriptor a `Socket` has under the number `n`. -/
def record (s : Sockets) (n : ℤ) (e : Option ℕ → Event ℕ (Option ℕ)) : Sockets :=
  if n = -1 then s else { s with log := e (s.files n) :: s.log }

/-- A system call opens a descriptor and returns `n`, or it fails and returns `-1`. -/
def sysOpen (s : Sockets) (n : ℤ) : Sockets :=
  if n = -1 then s
  else { s with files := Function.update s.files n (some s.opened), opened := s.opened + 1 }

/-- The kernel's part of `close(2)`. -/
def sysClose (s : Sockets) (n : ℤ) : Sockets := { s with files := Function.update s.files n none }

/-- `fd_` is set to a descriptor that comes from outside: `Socket::Socket(int)`. -/
def take (s : Sockets) (o : ℕ) (n : ℤ) : Sockets := (s.record n (.acquire o)).setFd o n

/-- `fd_ = other.fd_; other.fd_ = -1`: the move constructor. -/
def moveFrom (s : Sockets) (o other : ℕ) : Sockets :=
  ((s.record (s.fdOf other) (.transfer other o)).setFd o (s.fdOf other)).setFd other (-1)

/-- `Socket::Close`. -/
def close (s : Sockets) (o : ℕ) : Sockets :=
  if s.fdOf o ≠ -1 then ((s.record (s.fdOf o) (.dispose o)).sysClose (s.fdOf o)).setFd o (-1) else s

/-- `Socket::~Socket`. -/
def destroy (s : Sockets) (o : ℕ) : Sockets := (s.close o).forget o

/-- `Socket::operator=(Socket&&)`. -/
def moveAssign (s : Sockets) (o other : ℕ) : Sockets :=
  if o ≠ other then (s.close o).moveFrom o other else s

/-- `Socket::Release` and the number it returns. -/
def release (s : Sockets) (o : ℕ) : ℤ × Sockets :=
  (s.fdOf o, (s.record (s.fdOf o) (.release o)).setFd o (-1))

/-- `Socket::Create`.  The option calls read `fd_` only; when one throws, `fd_` stays set. -/
def create (s : Sockets) (o : ℕ) (sock : Reply) (r : OptionReplies) : Except Exception Unit × Sockets :=
  (do checkError sock "socket"
      r.setNonBlocking
      r.setReuseAddr
      r.setReusePort
      r.setTcpNoDelay,
    (s.sysOpen sock.ret).take o sock.ret)

/-- `Socket::Accept` with its result at `res` and `client_socket` at `loc`; with `res = loc` the
compiler builds `client_socket` in the place of the result, otherwise it is moved there. -/
def accept (s : Sockets) (res loc : ℕ) (acc : Reply) (r : OptionReplies) : Except Exception Unit × Sockets :=
  if acc.ret = -1 then
    if wouldBlock acc.errno then (.ok (), s.take res (-1)) else (checkError acc "accept", s)
  else
    let s := (s.sysOpen acc.ret).take loc acc.ret
    match (do r.setNonBlocking; r.setTcpNoDelay) with
    | .error e => (.error e, s.destroy loc)
    | .ok () => (.ok (), if res = loc then s else (s.moveFrom res loc).destroy loc)

/-! ### Runs -/

/-- What can happen next. -/
inductive Op where
  | construct (o : ℕ)
  | adopt (o : ℕ) (n : ℤ)
  | create (o : ℕ) (sock : Reply) (r : OptionReplies)
  | accept (o res loc : ℕ) (acc : Reply) (r : OptionReplies)
  | moveConstruct (o other : ℕ)
  | moveAssign (o other : ℕ)
  | release (o : ℕ)
  | close (o : ℕ)
  | destroy (o : ℕ)
  | otherOpen (n : ℤ)
  | otherClose (n : ℤ)
deriving DecidableEq, Repr

/-- An opening call fails, or returns a number that is not in use. -/
def Returns (s : Sockets) (n : ℤ) : Prop := n = -1 ∨ 0 ≤ n ∧ s.files n = none

instance (s : Sockets) (n : ℤ) : Decidable (s.Returns n) := inferInstanceAs (Decidable (_ ∨ _))

/-- One step.  An object is constructed where there is none and used where there is one. -/
def step (s : Sockets) : Op → Option Sockets
  | .construct o => if s.fd o = none then some (s.take o (-1)) else none
  | .adopt o n => if s.fd o = none then some (s.take o n) else none
  | .create o sock r => if s.fd o ≠ none ∧ s.Returns sock.ret then some (s.create o sock r).2 else none
  | .accept o res loc acc r =>
      if s.fd o ≠ none ∧ s.fd res = none ∧ s.fd loc = none ∧ s.Returns acc.ret then
        some (s.accept res loc acc r).2
      else none
  | .moveConstruct o other => if s.fd o = none ∧ s.fd other ≠ none then some (s.moveFrom o other) else none
  | .moveAssign o other =>
      if s.fd o ≠ none ∧ s.fd other ≠ none then some (s.moveAssign o other) else none
  | .release o => if s.fd o ≠ none then some (s.release o).2 else none
  | .close o => if s.fd o ≠ none then some (s.close o) else none
  | .destroy o => if s.fd o ≠ none then some (s.destroy o) else none
  | .otherOpen n => if s.Returns n then some (s.sysOpen n) else none
  | .otherClose n => if s.files n ≠ none then some (s.sysClose n) else none

/-- `n` is the number of a descriptor that no `Socket` owns. -/
def Unowned (s : Sockets) (n : ℤ) : Prop := s.files n ≠ none ∧ ∀ o, s.fdOf o ≠ n

/-- A `Socket` is made from `-1` or an unowned descriptor, `Create` is called on a `Socket` that
owns nothing, and other code closes unowned descriptors only. -/
def Proper (s : Sockets) : Op → Prop
  | .adopt _ n => n = -1 ∨ s.Unowned n
  | .create o _ _ => s.fdOf o = -1
  | .otherClose n => s.Unowned n
  | _ => True

/-! ### Reading the operations -/

section reading
variable (s : Sockets) (o o' : ℕ) (n : ℤ) (e : Option ℕ → Event ℕ (Option ℕ))

@[simp] theorem fdOf_setFd : (s.setFd o n).fdOf o' = if o' = o then n else s.fdOf o' := by
  simp only [fdOf, setFd, Function.update_apply]
  split_ifs <;> rfl

@[simp] theorem fdOf_forget : (s.forget o).fdOf o' = if o' = o then -1 else s.fdOf o' := by
  simp only [fdOf, forget, Function.update_apply]
  split_ifs <;> rfl

@[simp] theorem fd_record : (s.record n e).fd = s.fd := by
  unfold record
  split_ifs <;> rfl

@[simp] theorem fdOf_record : (s.record n e).fdOf o = s.fdOf o := by rw [fdOf, fd_record, fdOf]

@[simp] theorem files_record : (s.record n e).files = s.files := by
  unfold record
  split_ifs <;> rfl

@[simp] theorem opened_record : (s.record n e).opened = s.opened := by
  unfold record
  split_ifs <;> rfl

@[simp] theorem owns_record {d : Option ℕ} : (s.record n e).Owns o d ↔ s.Owns o d := by
  rw [Owns, Owns, fdOf_record, files_record]

theorem owns_setFd_self {d : Option ℕ} : (s.setFd o n).Owns o d ↔ n ≠ -1 ∧ s.files n = d := by
  rw [Owns, fdOf_setFd, if_pos rfl]
  rfl

theorem owns_setFd_ne {o o' : ℕ} {d : Option ℕ} (ho : o' ≠ o) : (s.setFd o n).Owns o' d ↔ s.Owns o' d := by
  rw [Owns, fdOf_setFd, if_neg ho]
  rfl

theorem record_of_ne {n : ℤ} (hn : n ≠ -1) : (s.record n e).log = e (s.files n) :: s.log := by
  rw [record, if_neg hn]

theorem fdOf_none {s : Sockets} {o : ℕ} (ho : s.fd o = none) : s.fdOf o = -1 := by
  rw [fdOf, ho, Option.getD_none]

theorem not_owns {s : Sockets} {o : ℕ} {d : Option ℕ} (ho : s.fdOf o = -1) : ¬ s.Owns o d :=
  fun h => h.1 ho

theorem fdOf_close : (s.close o).fdOf o = -1 := by
  unfold close
  split_ifs with h
  · rw [fdOf_setFd, if_pos rfl]
  · exact not_not.mp h

/-! After `Release` the object owns nothing. -/

theorem fdOf_release : (s.release o).2.fdOf o = -1 := by
  show ((s.record (s.fdOf o) (.release o)).setFd o (-1)).fdOf o = -1
  rw [fdOf_setFd, if_pos rfl]

theorem files_release : (s.release o).2.files = s.files := files_record s (s.fdOf o) (.release o)

theorem close_release : (s.release o).2.close o = (s.release o).2 := by
  unfold close
  rw [if_neg (not_not_intro (fdOf_release s o))]

end reading

/-! ### Linear ownership -/

/-- The log is a history of linear ownership, and its holders are the objects whose `fd_` is the
number of the descriptor. -/
structure Coherent (s : Sockets) : Prop where
  legal : Legal s.log
  owner : ∀ o d, holder s.log d = some o ↔ s.Owns o d
  real : ∀ e ∈ s.log, e.subject ≠ none
  backed : ∀ o, s.fdOf o ≠ -1 → s.files (s.fdOf o) ≠ none
  number : ∀ n n' d, s.files n = some d → s.files n' = some d → n = n'
  known : ∀ n d, s.files n = some d → 0 ≤ n ∧ d < s.opened

/-- Descriptors that have been closed are gone for good. -/
structure Linear (s : Sockets) : Prop extends Coherent s where
  gone : ∀ d, disposals s.log (some d) ≠ 0 → d < s.opened ∧ ∀ n, s.files n ≠ some d

theorem linear_start : Linear start := by
  refine ⟨⟨trivial, ?_, ?_, ?_, ?_, ?_⟩, ?_⟩
  · intro o d
    constructor
    · intro h
      cases h
    · intro h
      exact absurd rfl h.1
  · intro e he
    cases he
  · exact fun o h => absurd rfl h
  · intro n n' d hn
    cases hn
  · intro n d hn
    cases hn
  · exact fun d h => absurd rfl h

section linear
variable {s : Sockets} {o o' other : ℕ} {n : ℤ} {d : Option ℕ}

/-- No descriptor has two owners. -/
theorem Coherent.sole_owner (hl : s.Coherent) (ho : s.Owns o d) (ho' : s.Owns o' d) : o = o' := by
  have h1 := (hl.owner o d).mpr ho
  have h2 := (hl.owner o' d).mpr ho'
  rw [h1] at h2
  exact Option.some.inj h2

theorem Coherent.unique (hl : s.Coherent) (ho : s.fdOf o ≠ -1) (heq : s.fdOf o = s.fdOf o') : o = o' :=
  hl.sole_owner ⟨ho, rfl⟩ ⟨heq ▸ ho, by rw [heq]⟩

/-- An open descriptor has one number. -/
theorem Coherent.eq_of_files (hl : s.Coherent) {n' : ℤ} (hn : s.files n ≠ none)
    (heq : s.files n' = s.files n) : n' = n := by
  obtain ⟨d, hd⟩ := Option.ne_none_iff_exists'.mp hn
  exact hl.number _ _ d (heq.trans hd) hd

/-- A descriptor no `Socket` has the number of is held by nobody. -/
theorem Coherent.holder_unowned (hl : s.Coherent) (hn : s.Unowned n) : holder s.log (s.files n) = none := by
  by_contra hne
  obtain ⟨o, ho⟩ := Option.ne_none_iff_exists'.mp hne
  obtain ⟨-, hfile⟩ := (hl.owner o _).mp ho
  exact hn.2 o (hl.eq_of_files hn.1 hfile)

/-- An open descriptor has not been closed. -/
theorem Linear.open_intact (hl : s.Linear) (hn : s.files n ≠ none) : disposals s.log (s.files n) = 0 := by
  obtain ⟨d, hd⟩ := Option.ne_none_iff_exists'.mp hn
  by_contra hne
  rw [hd] at hne
  exact (hl.gone d hne).2 n hd

/-- Objects matter by their `fd_` only: an object with `-1` is as good as none. -/
theorem Linear.congr (hl : s.Linear) {s' : Sockets} (hfd : ∀ o, s'.fdOf o = s.fdOf o)
    (hfiles : s'.files = s.files) (hopened : s'.opened = s.opened) (hlog : s'.log = s.log) : s'.Linear := by
  refine ⟨⟨hlog ▸ hl.legal, ?_, hlog ▸ hl.real, ?_, hfiles ▸ hl.number, hopened ▸ hfiles ▸ hl.known⟩, ?_⟩
  · intro o d
    rw [hlog, Owns, hfd, hfiles]
    exact hl.owner o d
  · intro o ho
    rw [hfd] at ho ⊢
    rw [hfiles]
    exact hl.backed o ho
  · rw [hlog, hopened, hfiles]
    exact hl.gone

/-- An event about a descriptor, with the owners the `fd_` fields say after it. -/
theorem Coherent.event (hl : s.Coherent) {s' : Sockets} {e : Event ℕ (Option ℕ)} (hfiles : s'.files = s.files)
    (hopened : s'.opened = s.opened) (hlog : s'.log = e :: s.log) (hal : Allowed s.log e)
    (hreal : e.subject ≠ none) (hsame : ∀ o, s'.Owns o e.subject ↔ e.receiver = some o)
    (hother : ∀ o d, d ≠ e.subject → (s'.Owns o d ↔ s.Owns o d)) : s'.Coherent := by
  refine ⟨?_, ?_, ?_, ?_, hfiles ▸ hl.number, hopened ▸ hfiles ▸ hl.known⟩
  · rw [hlog]
    exact ⟨hal, hl.legal⟩
  · intro o d
    rw [hlog]
    by_cases hd : d = e.subject
    · rw [hd, holder_cons_self, hsame]
    · rw [holder_cons_ne hd, hother o d hd]
      exact hl.owner o d
  · intro e' he'
    rw [hlog] at he'
    rcases List.mem_cons.mp he' with rfl | he'
    · exact hreal
    · exact hl.real e' he'
  · intro o ho hnone
    -- an object whose number is not open would have owned nothing before
    obtain ⟨ho', hnone'⟩ := (hother o none hreal.symm).mp ⟨ho, hnone⟩
    exact hl.backed o ho' hnone'

/-- An event that closes nothing. -/
theorem Linear.event (hl : s.Linear) {s' : Sockets} {e : Event ℕ (Option ℕ)} (hc : s'.Coherent)
    (hfiles : s'.files = s.files) (hopened : s'.opened = s.opened) (hlog : s'.log = e :: s.log)
    (hkeep : ∀ o d, e ≠ .dispose o d) : s'.Linear := by
  refine ⟨hc, ?_⟩
  intro d hd
  rw [hlog, disposals_cons_eq (fun o => hkeep o _)] at hd
  rw [hopened, hfiles]
  exact hl.gone d hd

/-! ### Every operation keeps ownership linear -/

theorem Linear.take (hl : s.Linear) (ho : s.fdOf o = -1) (hn : n = -1 ∨ s.Unowned n) :
    (s.take o n).Linear := by
  by_cases hne : n = -1
  · subst hne
    refine hl.congr (fun o' => ?_) rfl rfl rfl
    show (s.setFd o (-1)).fdOf o' = s.fdOf o'
    rw [fdOf_setFd]
    split_ifs with h
    · rw [h, ho]
    · rfl
  have hun : s.Unowned n := hn.resolve_left hne
  have hc : (s.take o n).Coherent := by
    refine hl.toCoherent.event (e := .acquire o (s.files n)) (files_record ..) (opened_record ..)
      (record_of_ne _ _ hne) ⟨hl.holder_unowned hun, hl.open_intact hun.1⟩ hun.1 ?_ ?_
    · intro o'
      by_cases h : o' = o
      · subst h
        rw [Sockets.take, owns_setFd_self, files_record]
        exact ⟨fun _ => rfl, fun _ => ⟨hne, rfl⟩⟩
      · rw [Sockets.take, owns_setFd_ne _ _ h, owns_record]
        constructor
        · rintro ⟨-, hfile⟩
          exact absurd (hl.eq_of_files hun.1 hfile) (hun.2 o')
        · intro heq
          exact absurd (Option.some.inj heq).symm h
    · intro o' d hd
      by_cases h : o' = o
      · subst h
        rw [Sockets.take, owns_setFd_self, files_record]
        exact ⟨fun h => absurd h.2.symm hd, fun h => absurd h (not_owns ho)⟩
      · rw [Sockets.take, owns_setFd_ne _ _ h, owns_record]
  exact hl.event hc (files_record ..) (opened_record ..) (record_of_ne _ _ hne) (by rintro _ _ ⟨⟩)

theorem Linear.moveFrom (hl : s.Linear) (ho : s.fdOf o = -1) (hne : o ≠ other) :
    (s.moveFrom o other).Linear := by
  by_cases hn : s.fdOf other = -1
  · refine hl.congr (fun o' => ?_) (files_record ..) (opened_record ..)
      (by rw [Sockets.moveFrom, record, if_pos hn]; rfl)
    simp only [Sockets.moveFrom, fdOf_setFd, fdOf_record]
    split_ifs with h h'
    · rw [h, hn]
    · rw [h', ho, hn]
    · rfl
  have howner : s.Owns other (s.files (s.fdOf other)) := ⟨hn, rfl⟩
  have hc : (s.moveFrom o other).Coherent := by
    refine hl.toCoherent.event (e := .transfer other o (s.files (s.fdOf other))) (files_record ..)
      (opened_record ..) (record_of_ne _ _ hn) ((hl.owner _ _).mpr howner) (hl.backed other hn) ?_ ?_
    · intro o'
      by_cases h : o' = other
      · subst h
        rw [Sockets.moveFrom, owns_setFd_self]
        exact ⟨fun h => absurd rfl h.1, fun h => absurd (Option.some.inj h) hne⟩
      · rw [Sockets.moveFrom, owns_setFd_ne _ _ h]
        by_cases h' : o' = o
        · subst h'
          rw [owns_setFd_self, files_record]
          exact ⟨fun _ => rfl, fun _ => ⟨hn, rfl⟩⟩
        · rw [owns_setFd_ne _ _ h', owns_record]
          constructor
          · intro hown
            exact absurd (hl.sole_owner hown howner) h
          · intro heq
            exact absurd (Option.some.inj heq).symm h'
    · intro o' d hd
      by_cases h : o' = other
      · subst h
        rw [Sockets.moveFrom, owns_setFd_self]
        exact ⟨fun h => absurd rfl h.1, fun h => absurd h.2.symm hd⟩
      · rw [Sockets.moveFrom, owns_setFd_ne _ _ h]
        by_cases h' : o' = o
        · subst h'
          rw [owns_setFd_self, files_record]
          exact ⟨fun h => absurd h.2.symm hd, fun h => absurd h (not_owns ho)⟩
        · rw [owns_setFd_ne _ _ h', owns_record]
  exact hl.event hc (files_record ..) (opened_record ..) (record_of_ne _ _ hn) (by rintro _ _ ⟨⟩)

/-- `Release` and `close` have in common that the `Socket` gives its descriptor up. -/
theorem Coherent.giveUp (hl : s.Coherent) (hn : s.fdOf o ≠ -1) {e : Option ℕ → Event ℕ (Option ℕ)}
    (hsub : ∀ d, (e d).subject = d) (hrec : ∀ d, (e d).receiver = none)
    (hal : Allowed s.log (e (s.files (s.fdOf o)))) : ((s.record (s.fdOf o) e).setFd o (-1)).Coherent := by
  have howner : s.Owns o (s.files (s.fdOf o)) := ⟨hn, rfl⟩
  refine hl.event (files_record ..) (opened_record ..) (record_of_ne _ _ hn) hal
    (by rw [hsub]; exact hl.backed o hn) ?_ ?_
  · intro o'
    rw [hsub, hrec]
    refine ⟨fun hown => ?_, fun h => by cases h⟩
    by_cases h : o' = o
    · subst h
      exact absurd rfl ((owns_setFd_self ..).mp hown).1
    · rw [owns_setFd_ne _ _ h, owns_record] at hown
      exact absurd (hl.sole_owner hown howner) h
  · intro o' d hd
    rw [hsub] at hd
    by_cases h : o' = o
    · subst h
      rw [owns_setFd_self]
      exact ⟨fun h => absurd rfl h.1, fun h => absurd h.2.symm hd⟩
    · rw [owns_setFd_ne _ _ h, owns_record]

theorem Linear.release (hl : s.Linear) : (s.release o).2.Linear := by
  by_cases hn : s.fdOf o = -1
  · refine hl.congr (fun o' => ?_) (files_record ..) (opened_record ..)
      (by rw [Sockets.release, record, if_pos hn]; rfl)
    simp only [Sockets.release, fdOf_setFd, fdOf_record]
    split_ifs with h
    · rw [h, hn]
    · rfl
  have hc : (s.release o).2.Coherent :=
    hl.toCoherent.giveUp hn (fun _ => rfl) (fun _ => rfl) ((hl.owner o _).mpr ⟨hn, rfl⟩)
  exact hl.event hc (files_record ..) (opened_record ..) (record_of_ne _ _ hn) (by rintro _ _ ⟨⟩)

theorem files_sysClose (s : Sockets) (n n' : ℤ) :
    (s.sysClose n).files n' = if n' = n then none else s.files n' := Function.update_apply ..

/-- What is open after a `close` was open before. -/
theorem files_of_sysClose {d : ℕ} {n' : ℤ} (h : (s.sysClose n).files n' = some d) : s.files n' = some d := by
  rw [files_sysClose] at h
  split_ifs at h
  exact h

/-- A number that no `Socket` has is closed. -/
theorem Coherent.sysClose (hl : s.Coherent) (hn : ∀ o, s.fdOf o ≠ n) : (s.sysClose n).Coherent := by
  have hfiles : ∀ o, (s.sysClose n).files (s.fdOf o) = s.files (s.fdOf o) := by
    intro o
    rw [files_sysClose, if_neg (hn o)]
  refine ⟨hl.legal, ?_, hl.real, ?_, ?_, ?_⟩
  · intro o d
    show _ ↔ s.fdOf o ≠ -1 ∧ (s.sysClose n).files (s.fdOf o) = d
    rw [hfiles]
    exact hl.owner o d
  · intro o ho
    show (s.sysClose n).files (s.fdOf o) ≠ none
    rw [hfiles]
    exact hl.backed o ho
  · intro n₁ n₂ d h₁ h₂
    exact hl.number n₁ n₂ d (files_of_sysClose h₁) (files_of_sysClose h₂)
  · intro n' d h
    exact hl.known n' d (files_of_sysClose h)

theorem Linear.otherClose (hl : s.Linear) (hn : s.Unowned n) : (s.sysClose n).Linear := by
  refine ⟨hl.toCoherent.sysClose hn.2, ?_⟩
  intro d hd
  refine ⟨(hl.gone d hd).1, fun n' hn' => ?_⟩
  exact (hl.gone d hd).2 n' (files_of_sysClose hn')

theorem Linear.close (hl : s.Linear) : (s.close o).Linear := by
  by_cases hn : s.fdOf o = -1
  · rw [Sockets.close, if_neg (not_not.mpr hn)]
    exact hl
  rw [Sockets.close, if_pos hn]
  have hback := hl.backed o hn
  have hgive := hl.toCoherent.giveUp hn (e := .dispose o) (fun _ => rfl) (fun _ => rfl)
    ((hl.owner o _).mpr ⟨hn, rfl⟩)
  have hfree : ∀ o', ((s.record (s.fdOf o) (.dispose o)).setFd o (-1)).fdOf o' ≠ s.fdOf o := by
    intro o'
    rw [fdOf_setFd, fdOf_record]
    split_ifs with h
    · exact fun heq => hn heq.symm
    · exact fun heq => h (hl.unique (heq ▸ hn) heq)
  refine ⟨hgive.sysClose hfree, ?_⟩
  intro d hd
  have hlog : disposals (.dispose o (s.files (s.fdOf o)) :: s.log) (some d) ≠ 0 := by
    rw [← record_of_ne s (.dispose o) hn]
    exact hd
  show d < (s.record _ _).opened ∧ ∀ n, ((s.record _ _).sysClose _).files n ≠ some d
  rw [opened_record]
  by_cases heq : some d = s.files (s.fdOf o)
  · -- the descriptor closed now: its number was the only one
    refine ⟨(hl.known _ d heq.symm).2, fun n' hn' => ?_⟩
    rw [files_sysClose, files_record] at hn'
    split_ifs at hn' with h
    exact h (hl.number _ _ d hn' heq.symm)
  · rw [disposals_cons_ne heq] at hlog
    refine ⟨(hl.gone d hlog).1, fun n' hn' => ?_⟩
    have hn' := files_of_sysClose hn'
    rw [files_record] at hn'
    exact (hl.gone d hlog).2 n' hn'

theorem Linear.forget (hl : s.Linear) (ho : s.fdOf o = -1) : (s.forget o).Linear := by
  refine hl.congr (fun o' => ?_) rfl rfl rfl
  rw [fdOf_forget]
  split_ifs with h
  · rw [h, ho]
  · rfl

theorem Linear.destroy (hl : s.Linear) : (s.destroy o).Linear :=
  hl.close.forget (fdOf_close s o)

@[simp] theorem fdOf_sysOpen (s : Sockets) (n : ℤ) (o : ℕ) : (s.sysOpen n).fdOf o = s.fdOf o := by
  unfold Sockets.sysOpen
  split_ifs <;> rfl

theorem files_sysOpen (hn : n ≠ -1) (n' : ℤ) :
    (s.sysOpen n).files n' = if n' = n then some s.opened else s.files n' := by
  rw [Sockets.sysOpen, if_neg hn]
  exact Function.update_apply ..

/-- The `fd_` fields never have a number that is free. -/
theorem Coherent.ne_of_free (hl : s.Coherent) (hn : n ≠ -1) (hfree : s.files n = none) : s.fdOf o ≠ n := by
  rintro rfl
  exact hl.backed o hn hfree

theorem Linear.sysOpen (hl : s.Linear) (hret : s.Returns n) : (s.sysOpen n).Linear := by
  by_cases hn : n = -1
  · rw [Sockets.sysOpen, if_pos hn]
    exact hl
  obtain ⟨hpos, hfree⟩ := hret.resolve_left hn
  have hopened : (s.sysOpen n).opened = s.opened + 1 := by rw [Sockets.sysOpen, if_neg hn]
  have hlog : (s.sysOpen n).log = s.log := by rw [Sockets.sysOpen, if_neg hn]
  have hfiles : ∀ o, (s.sysOpen n).files (s.fdOf o) = s.files (s.fdOf o) := by
    intro o
    rw [files_sysOpen hn, if_neg (hl.ne_of_free hn hfree)]
  -- the new descriptor has a name of its own
  have hnew : ∀ n', s.files n' ≠ some s.opened := fun n' h => Nat.lt_irrefl _ (hl.known _ _ h).2
  refine ⟨⟨hlog ▸ hl.legal, ?_, hlog ▸ hl.real, ?_, ?_, ?_⟩, ?_⟩
  · intro o d
    rw [hlog, Owns, fdOf_sysOpen, hfiles]
    exact hl.owner o d
  · intro o ho
    rw [fdOf_sysOpen] at ho ⊢
    rw [hfiles]
    exact hl.backed o ho
  · intro n₁ n₂ d h₁ h₂
    rw [files_sysOpen hn] at h₁ h₂
    split_ifs at h₁ h₂ with e₁ e₂ e₂
    · rw [e₁, e₂]
    · cases h₁
      exact absurd h₂ (hnew n₂)
    · cases h₂
      exact absurd h₁ (hnew n₁)
    · exact hl.number n₁ n₂ d h₁ h₂
  · intro n' d h
    rw [hopened]
    rw [files_sysOpen hn] at h
    split_ifs at h with e
    · cases h
      exact ⟨e ▸ hpos, Nat.lt_succ_self _⟩
    · exact ⟨(hl.known n' d h).1, Nat.lt_succ_of_lt (hl.known n' d h).2⟩
  · intro d hd
    rw [hlog] at hd
    rw [hopened]
    refine ⟨Nat.lt_succ_of_lt (hl.gone d hd).1, fun n' hn' => ?_⟩
    rw [files_sysOpen hn] at hn'
    split_ifs at hn' with e
    · cases hn'
      exact Nat.lt_irrefl _ (hl.gone _ hd).1
    · exact (hl.gone d hd).2 n' hn'

/-- A descriptor the kernel has just opened can be taken by a `Socket` that owns nothing. -/
theorem Linear.takeOpened (hl : s.Linear) (hret : s.Returns n) (ho : s.fdOf o = -1) :
    ((s.sysOpen n).take o n).Linear := by
  refine (hl.sysOpen hret).take (by rw [fdOf_sysOpen, ho]) ?_
  by_cases hn : n = -1
  · exact Or.inl hn
  · right
    refine ⟨?_, fun o' => ?_⟩
    · rw [files_sysOpen hn, if_pos rfl]
      exact Option.some_ne_none _
    · rw [fdOf_sysOpen]
      exact hl.ne_of_free hn (hret.resolve_left hn).2

theorem Linear.moveAssign (hl : s.Linear) : (s.moveAssign o other).Linear := by
  unfold Sockets.moveAssign
  split_ifs with hne
  · exact hl.close.moveFrom (fdOf_close s o) hne
  · exact hl

theorem Linear.accept (hl : s.Linear) {res loc : ℕ} {acc : Reply} (r : OptionReplies) (hres : s.fd res = none)
    (hloc : s.fd loc = none) (hret : s.Returns acc.ret) : (s.accept res loc acc r).2.Linear := by
  by_cases hfail : acc.ret = -1
  · rw [Sockets.accept, if_pos hfail]
    split_ifs
    · exact hl.take (fdOf_none hres) (Or.inl rfl)
    · exact hl
  · have htake := hl.takeOpened hret (fdOf_none hloc)
    rw [Sockets.accept, if_neg hfail]
    dsimp only
    split
    · -- the local is destroyed on the way out
      exact htake.destroy
    · by_cases heq : res = loc
      · rw [if_pos heq]
        exact htake
      · have hfree : ((s.sysOpen acc.ret).take loc acc.ret).fdOf res = -1 := by
          rw [Sockets.take, fdOf_setFd, if_neg heq, fdOf_record, fdOf_sysOpen]
          exact fdOf_none hres
        rw [if_neg heq]
        exact (htake.moveFrom hfree heq).destroy

/-- **One operation** keeps ownership linear. -/
theorem linear_step {s' : Sockets} {op : Op} (hl : s.Linear) (hp : s.Proper op) (h : step s op = some s') :
    s'.Linear := by
  cases op with
  | construct o =>
      obtain ⟨hnone, ⟨⟩⟩ := Option.ite_none_right_eq_some.mp h
      exact hl.take (fdOf_none hnone) (Or.inl rfl)
  | adopt o n =>
      obtain ⟨hnone, ⟨⟩⟩ := Option.ite_none_right_eq_some.mp h
      exact hl.take (fdOf_none hnone) hp
  | create o sock r =>
      obtain ⟨⟨-, hret⟩, ⟨⟩⟩ := Option.ite_none_right_eq_some.mp h
      exact hl.takeOpened hret hp
  | accept o res loc acc r =>
      obtain ⟨⟨-, hres, hloc, hret⟩, ⟨⟩⟩ := Option.ite_none_right_eq_some.mp h
      exact hl.accept r hres hloc hret
  | moveConstruct o other =>
      obtain ⟨⟨hnone, hother⟩, ⟨⟩⟩ := Option.ite_none_right_eq_some.mp h
      exact hl.moveFrom (fdOf_none hnone) (fun heq => hother (heq ▸ hnone))
  | moveAssign o other =>
      obtain ⟨-, ⟨⟩⟩ := Option.ite_none_right_eq_some.mp h
      exact hl.moveAssign
  | release o =>
      obtain ⟨-, ⟨⟩⟩ := Option.ite_none_right_eq_some.mp h
      exact hl.release
  | close o =>
      obtain ⟨-, ⟨⟩⟩ := Option.ite_none_right_eq_some.mp h
      exact hl.close
  | destroy o =>
      obtain ⟨-, ⟨⟩⟩ := Option.ite_none_right_eq_some.mp h
      exact hl.destroy
  | otherOpen n =>
      obtain ⟨hret, ⟨⟩⟩ := Option.ite_none_right_eq_some.mp h
      exact hl.sysOpen hret
  | otherClose n =>
      obtain ⟨-, ⟨⟩⟩ := Option.ite_none_right_eq_some.mp h
      exact hl.otherClose hp

end linear

/-- **Every run** keeps ownership linear. -/
theorem linear_reach {s : Sockets} (hr : Reach step Proper start s) : s.Linear :=
  hr.invariant Linear linear_start (fun _ _ _ hl hp hs => linear_step hl hp hs)

/-- **Ownership of descriptors is linear.**  In every run: no two `Socket`s have one descriptor;
the owner of a descriptor according to the log is the object whose `fd_` is its number; a `Socket`
closes only open descriptors that it owns at that moment, and none is closed twice; `Release` returns
`fd_` and leaves an object that owns nothing, whose `Close` and destructor close nothing; once there is
no `Socket` left, every descriptor a `Socket` has ever owned was closed exactly once or was handed
out by `Release`. -/
theorem linear_ownership {s : Sockets} (hr : Reach step Proper start s) :
    (∀ o o', s.fdOf o ≠ -1 → s.fdOf o = s.fdOf o' → o = o') ∧
      (∀ o d, s.Owns o d ↔ holder s.log d = some o) ∧
      (∀ later o d earlier, s.log = later ++ .dispose o d :: earlier → d ≠ none ∧ holder earlier d = some o) ∧
      (∀ d, disposals s.log d ≤ 1) ∧
      (∀ o s', step s (.release o) = some s' → (s.release o).1 = s.fdOf o ∧ s'.fdOf o = -1 ∧
        s'.files = s.files ∧ (s'.close o).files = s.files ∧ (s'.destroy o).files = s.files) ∧
      ((∀ o, s.fd o = none) → ∀ o d, .acquire o d ∈ s.log →
        disposals s.log d = 1 ∨ ∃ o', .release o' d ∈ s.log) := by
  have hl := linear_reach hr
  refine ⟨fun o o' => hl.unique, fun o d => (hl.owner o d).symm, ?_, hl.legal.disposals_le_one, ?_, ?_⟩
  · intro later o d earlier hlog
    have hlegal : Legal (later ++ .dispose o d :: earlier) := hlog ▸ hl.legal
    have hmem : .dispose o d ∈ s.log := by
      rw [hlog]
      exact List.mem_append_right _ List.mem_cons_self
    exact ⟨hl.real _ hmem, hlegal.dispose_held⟩
  · intro o s' hs
    obtain ⟨-, ⟨⟩⟩ := Option.ite_none_right_eq_some.mp hs
    exact ⟨rfl, fdOf_release s o, files_release s o, by rw [close_release, files_release], by
      rw [destroy, close_release]
      exact files_release s o⟩
  · intro hdead o d hacq
    have hnone : holder s.log d = none := by
      by_contra hne
      obtain ⟨o', ho'⟩ := Option.ne_none_iff_exists'.mp hne
      exact not_owns (fdOf_none (hdead o')) ((hl.owner o' d).mp ho')
    exact hl.legal.accounted hacq hnone

/-- Replies of option calls that all succeed. -/
def optionsSet : OptionReplies := ⟨⟨2, 0⟩, ⟨0, 0⟩, ⟨0, 0⟩, ⟨0, 0⟩, ⟨0, 0⟩⟩

/-- A listening `Socket` accepts one client, which is moved, assigned to itself and released; the
options of a second one fail; a third is assigned over a `Socket` whose `Create` threw; nothing is
pending after that, and all objects are destroyed. -/
def handOver : List Op :=
  [.otherOpen 0, .construct 0, .create 0 ⟨3, 0⟩ optionsSet,
    .accept 0 1 2 ⟨4, 0⟩ optionsSet, .moveConstruct 3 1, .moveAssign 3 3, .release 3,
    .accept 0 4 4 ⟨5, 0⟩ { optionsSet with nodelay := ⟨-1, 22⟩ },
    .accept 0 4 4 ⟨5, 0⟩ optionsSet,
    .construct 5, .create 5 ⟨6, 0⟩ { optionsSet with reuseport := ⟨-1, 92⟩ }, .moveAssign 5 4,
    .accept 0 6 7 ⟨-1, EAGAIN⟩ optionsSet, .close 0,
    .destroy 6, .destroy 5, .destroy 4, .destroy 3, .destroy 1, .destroy 0]

/-- The part of `Proper` that can be evaluated. -/
def plain (s : Sockets) : Op → Bool
  | .adopt _ n => decide (n = -1)
  | .create o _ _ => decide (s.fdOf o = -1)
  | .otherClose _ => false
  | _ => true

theorem proper_of_plain {s : Sockets} {op : Op} (h : s.plain op = true) : s.Proper op := by
  cases op with
  | adopt o n => exact Or.inl (of_decide_eq_true h)
  | create o sock r => exact of_decide_eq_true (p := s.fdOf o = -1) h
  | otherClose n => cases h
  | construct o => exact trivial
  | accept o res loc acc r => exact trivial
  | moveConstruct o other => exact trivial
  | moveAssign o other => exact trivial
  | release o => exact trivial
  | close o => exact trivial
  | destroy o => exact trivial
  | otherOpen n => exact trivial

theorem handOver_dead (o : ℕ) : (run step start handOver).map (fun s => s.fd o) = some none := by
  match o with
  | 0 => rfl
  | 1 => rfl
  | 2 => rfl
  | 3 => rfl
  | 4 => rfl
  | 5 => rfl
  | 6 => rfl
  | 7 => rfl
  | n + 8 => rfl

theorem handOver_accounted :
    ∃ s, run step start handOver = some s ∧ s.opened = 6 ∧ (∀ o, s.fd o = none) ∧
      ∀ o d, .acquire o d ∈ s.log → disposals s.log d = 1 ∨ ∃ o', .release o' d ∈ s.log := by
  obtain ⟨s, hs, hend⟩ := exists_of_any (o := run step start handOver)
    (fun s => s.opened = 6) (by decide +kernel)
  have hok : Along step (fun s op => s.plain op = true) start handOver := by decide +kernel
  have hreach := (hok.reach hs).mono (fun _ _ => proper_of_plain)
  have hdead : ∀ o, s.fd o = none := by
    intro o
    have h := handOver_dead o
    rw [hs] at h
    exact Option.some.inj h
  exact ⟨s, hs, hend, hdead, (linear_ownership hreach).2.2.2.2.2 hdead⟩

end Sockets

end TcpServer
