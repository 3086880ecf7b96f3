import TcpServer.Startup
import Mathlib.Data.List.Count
import Mathlib.Data.List.Perm.Basic

/-! # Every descriptor of the server is accounted for

The ledger of the process of `Startup`: an open file is referred to by exactly one of the members of the server,
the pooled connections and the function at work, or it has been leaked.  Each function has one lemma, for its
return and for its exceptions alike; `perform_spec` and `ledger_step` put them together.

`accounted_of_reach`: after every call, however many have thrown, the open files are exactly those of the members
and of the pooled connections and the leaked ones; the only numbers closed that were not the closing object's
own are those of refused clients, closed a second time; and only eventfds and the sockets of clients that
`Recv` has ended are leaked.  The one case left out is a client whose registration fails: its `Socket` closes
the number that the pooled `Connection` keeps (`failedRegistration_unbalanced`). -/

namespace TcpServer

namespace Startup

open Transition Unwind

/-! ### The ledger -/

def EventLoop.held (l : EventLoop) : List File := own .epoll l.epollFd ++ own .event l.wakeupFd

def heldLoops (ls : List EventLoop) : List File := ls.flatMap EventLoop.held

def heldSocket : Option ℤ → List File
  | none => []
  | some fd => own .socket fd

def heldMainLoop : Option EventLoop → List File
  | none => []
  | some l => l.held

def heldPool : Option (List EventLoop) → List File
  | none => []
  | some ls => heldLoops ls

def heldClients (cs : List Connection) : List File := cs.flatMap fun c => own .client c.fd

/-- The files the members and the pooled connections refer to. -/
def Process.held (s : Process) : List File :=
  own .event s.signalFd ++ heldSocket s.listenSocket ++ heldMainLoop s.mainLoop ++ heldPool s.ioThreadPool ++
    heldClients s.connections

/-- The open files are those held, those in `e`, which a function has in its hands, and the leaked ones. -/
structure Balanced (e : List File) (s : Process) : Prop where
  balance : ∀ f, s.files.count f = s.held.count f + e.count f + s.leaked.count f
  distinct : (s.files.map Prod.fst).Nodup
  clean : s.stray = s.refused

/-- The ledger is balanced unless a client could not be registered.  `F` is what is known about
`listen_socket_`. -/
structure Ledger (F : Option ℤ → Prop) (e : List File) (s : Process) : Prop where
  socket : F s.listenSocket
  balanced : s.unregistered = [] → Balanced e s
  lost : ∀ f ∈ s.leaked, f.2 = .event ∨ f.2 = .client ∧ f.1 ∈ s.ended
  ended : ∀ c ∈ s.connections, c.closed = true → c.fd ∈ s.ended
  stopped : s.poolRunning = false → s.connections = []

section ledger

variable {F : Option ℤ → Prop} {E : Process → Prop} {e e' : List File} {s s' : Process} {k : Kind} {fd : ℤ}

/-- Files change hands; none is opened or closed. -/
theorem Balanced.move (h : Balanced e s) (hfiles : s'.files = s.files) (hstray : s'.stray = s.stray)
    (hrefused : s'.refused = s.refused)
    (hcount : ∀ f, s'.held.count f + e'.count f + s'.leaked.count f =
      s.held.count f + e.count f + s.leaked.count f) : Balanced e' s' := by
  refine ⟨?_, ?_, ?_⟩
  · intro f
    rw [hfiles, hcount f]
    exact h.balance f
  · rw [hfiles]
    exact h.distinct
  · rw [hstray, hrefused]
    exact h.clean

theorem Ledger.congr (h : Ledger F e s) (he : ∀ f, e'.count f = e.count f) : Ledger F e' s :=
  ⟨h.socket, fun hu => (h.balanced hu).move rfl rfl rfl fun f => by rw [he f], h.lost, h.ended, h.stopped⟩

theorem own_of_ne (h : fd ≠ -1) : own k fd = [(fd, k)] := if_neg h

theorem own_none : own k (-1) = [] := if_pos rfl

theorem kind_of_mem_own {f : File} (h : f ∈ own k fd) : f.2 = k := by
  unfold own at h
  split_ifs at h
  · cases h
  · rw [List.mem_singleton.mp h]

theorem number_of_mem_own {f : File} (h : f ∈ own k fd) : f.1 = fd := by
  unfold own at h
  split_ifs at h
  · cases h
  · rw [List.mem_singleton.mp h]

/-! ### Closing -/

/-- Of distinct numbers, one goes. -/
theorem count_close {files : List File} (hn : (files.map Prod.fst).Nodup) (hmem : (fd, k) ∈ files) (f : File) :
    (files.filter (fun f => decide (f.1 ≠ fd))).count f + [(fd, k)].count f = files.count f := by
  by_cases hf : f.1 = fd
  · have hgone : (files.filter (fun f => decide (f.1 ≠ fd))).count f = 0 := by
      apply List.count_eq_zero_of_not_mem
      intro h
      exact of_decide_eq_true (List.mem_filter.mp h).2 hf
    rw [hgone, Nat.zero_add]
    by_cases hfk : f = (fd, k)
    · rw [hfk, List.count_singleton_self, List.count_eq_one_of_mem (List.Nodup.of_map _ hn) hmem]
    · have hnot : f ∉ files := fun h => hfk (List.inj_on_of_nodup_map hn h hmem hf)
      rw [List.count_eq_zero_of_not_mem hnot, List.count_eq_zero_of_not_mem (by simpa using hfk)]
  · have hne : f ∉ [(fd, k)] := by
      intro h
      rw [List.mem_singleton.mp h] at hf
      exact hf rfl
    rw [List.count_filter (by simpa using hf), List.count_eq_zero_of_not_mem hne, Nat.add_zero]

/-- What is closed was in the hands of the caller, and its number is free afterwards. -/
theorem close_frees :
    Triple (Ledger F (own k fd ++ e)) (close k fd)
      (fun _ s => Ledger F e s ∧ (fd ≠ -1 → fd ∉ s.files.map Prod.fst)) E := by
  intro s hs
  unfold close
  by_cases hfd : fd = -1
  · rw [if_pos hfd]
    rw [hfd, own_none] at hs
    exact ⟨hs, fun h => absurd hfd h⟩
  · rw [if_neg hfd]
    rw [own_of_ne hfd] at hs
    refine ⟨⟨hs.socket, ?_, hs.lost, hs.ended, hs.stopped⟩, ?_⟩
    · intro hu
      obtain ⟨hbal, hdist, hclean⟩ := hs.balanced hu
      have hmem : (fd, k) ∈ s.files := by
        apply List.count_pos_iff.mp
        rw [hbal, List.count_append, List.count_singleton_self]
        omega
      refine ⟨?_, hdist.sublist (List.filter_sublist.map Prod.fst), ?_⟩
      · intro f
        have hb := hbal f
        have hc := count_close hdist hmem f
        rw [List.count_append] at hb
        show (s.files.filter (fun f => decide (f.1 ≠ fd))).count f = s.held.count f + e.count f + s.leaked.count f
        omega
      · show (if (fd, k) ∈ s.files then s.stray else fd :: s.stray) = s.refused
        rw [if_pos hmem]
        exact hclean
    · intro _ hmem
      obtain ⟨f, hf, hff⟩ := List.mem_map.mp hmem
      exact of_decide_eq_true (List.mem_filter.mp hf).2 hff

theorem close_spec : Triple (Ledger F (own k fd ++ e)) (close k fd) (fun _ => Ledger F e) E :=
  close_frees.post fun _ _ h => h.1

/-- `close` changes the files and nothing else. -/
theorem close_keeps {P : Process → Prop}
    (hP : ∀ s files stray, P s → P { s with files := files, stray := stray }) :
    Triple P (close k fd) (fun _ => P) E := by
  intro s hs
  unfold close
  by_cases hfd : fd = -1
  · rw [if_pos hfd]
    exact hs
  · rw [if_neg hfd]
    exact hP _ _ _ hs

theorem drop_spec :
    Triple (fun s => Ledger F (own k fd ++ e) s ∧ (k = .event ∨ k = .client ∧ fd ∈ s.ended)) (drop k fd)
      (fun _ => Ledger F e) E := by
  rintro s ⟨hs, hk⟩
  refine ⟨hs.socket, ?_, ?_, hs.ended, hs.stopped⟩
  · intro hu
    refine (hs.balanced hu).move rfl rfl rfl fun f => ?_
    show s.held.count f + e.count f + (own k fd ++ s.leaked).count f = _
    rw [List.count_append, List.count_append]
    omega
  · intro f hf
    rcases List.mem_append.mp hf with hf | hf
    · rw [kind_of_mem_own hf, number_of_mem_own hf]
      exact hk
    · exact hs.lost f hf

theorem dropEvent_spec : Triple (Ledger F (own .event fd ++ e)) (drop .event fd) (fun _ => Ledger F e) E :=
  drop_spec.pre fun _ hs => ⟨hs, Or.inl rfl⟩

/-! ### The pool -/

theorem heldClients_cons (c : Connection) (cs : List Connection) :
    heldClients (c :: cs) = own .client c.fd ++ heldClients cs := rfl

theorem count_heldClients_erase {c : Connection} {cs : List Connection} (h : c ∈ cs) (f : File) :
    (heldClients cs).count f = (own .client c.fd).count f + (heldClients (cs.erase c)).count f := by
  have hperm : (heldClients cs).Perm (heldClients (c :: cs.erase c)) := (List.perm_cons_erase h).flatMap_right _
  rw [hperm.count_eq, heldClients_cons, List.count_append]

@[simp] theorem Connection.recvEnds_fd (c : Connection) : (Connection.recvEnds fd c).fd = c.fd := by
  unfold Connection.recvEnds
  split_ifs
  · rfl
  · rfl

theorem heldClients_recvEnds (cs : List Connection) :
    heldClients (cs.map (Connection.recvEnds fd)) = heldClients cs := by
  unfold heldClients
  rw [List.flatMap_map]
  simp only [Connection.recvEnds_fd]

/-- The connections `cs`, no longer in the pool, and `e` are in the hands of a function. -/
def Hands (F : Option ℤ → Prop) (cs : List Connection) (e : List File) (s : Process) : Prop :=
  Ledger F (heldClients cs ++ e) s ∧ ∀ c ∈ cs, c.closed = true → c.fd ∈ s.ended

/-- **A connection goes**: its file is closed, or leaked when `Recv` has ended it. -/
theorem closeConnection_spec (c : Connection) (cs : List Connection) :
    Triple (Hands F (c :: cs) e) (closeConnection c) (fun _ => Hands F cs e) E := by
  have hrest : Triple (fun s => ∀ c ∈ cs, c.closed = true → c.fd ∈ s.ended) (closeConnection c)
      (fun _ s => ∀ c ∈ cs, c.closed = true → c.fd ∈ s.ended) E :=
    Triple.ite (fun _ _ hs => hs) (fun _ => close_keeps fun _ _ _ hs => hs)
  have hfile : Triple (fun s => Ledger F (own .client c.fd ++ (heldClients cs ++ e)) s ∧
      (c.closed = true → c.fd ∈ s.ended)) (closeConnection c) (fun _ => Ledger F (heldClients cs ++ e)) E :=
    Triple.ite (fun hc => drop_spec.pre fun s hs => ⟨hs.1, Or.inr ⟨rfl, hs.2 hc⟩⟩)
      (fun _ => close_spec.pre fun s hs => hs.1)
  refine (hfile.and hrest).pre ?_
  rintro s ⟨hs, hended⟩
  rw [heldClients_cons, List.append_assoc] at hs
  exact ⟨⟨hs, hended c List.mem_cons_self⟩, fun c' hc' => hended c' (List.mem_cons_of_mem _ hc')⟩

theorem closeConnections_spec (cs : List Connection) :
    Triple (Hands F cs e) (closeConnections cs) (fun _ => Ledger F e) E := by
  induction cs with
  | nil => exact .ret fun _ h => h.1
  | cons c cs ih => exact (closeConnection_spec c cs).seq ih

theorem removeConnection_spec : Triple (Ledger F e) (removeConnection fd) (fun _ => Ledger F e) E := by
  intro s hs
  unfold removeConnection
  cases hc : s.connections.find? (fun c => decide (c.fd = fd)) with
  | none => exact hs
  | some c =>
      have hmem : c ∈ s.connections := List.mem_of_find?_eq_some hc
      have hand : Hands F [c] e { s with connections := s.connections.erase c } := by
        refine ⟨⟨hs.socket, ?_, hs.lost, ?_, ?_⟩, ?_⟩
        · intro hu
          refine (hs.balanced hu).move rfl rfl rfl fun f => ?_
          have hc := count_heldClients_erase hmem f
          have hnil : (heldClients []).count f = 0 := rfl
          simp only [Process.held, List.count_append, heldClients_cons]
          omega
        · exact fun c' hc' => hs.ended c' (List.mem_of_mem_erase hc')
        · intro hr
          have hnil := hs.stopped hr
          rw [hnil] at hmem
          cases hmem
        · intro c' hc'
          rw [List.mem_singleton.mp hc']
          exact hs.ended c hmem
      exact (closeConnection_spec c []).post (fun _ _ h => h.1) _ hand

theorem shutdownPool_spec : Triple (Ledger F e) shutdownPool (fun _ => Ledger F e) E := by
  intro s hs
  unfold shutdownPool
  split_ifs with hr
  · refine closeConnections_spec s.connections _ ⟨⟨hs.socket, ?_, hs.lost, ?_, fun _ => rfl⟩, hs.ended⟩
    · intro hu
      refine (hs.balanced hu).move rfl rfl rfl fun f => ?_
      have hnil : (heldClients []).count f = 0 := rfl
      simp only [Process.held, List.count_append]
      omega
    · intro c hc
      cases hc
  · exact hs

theorem initPool_spec (maxConnections : ℕ) :
    Triple (Ledger F e) (initPool maxConnections) (fun _ => Ledger F e) E := fun _ hs =>
  ⟨hs.socket, fun hu => (hs.balanced hu).move rfl rfl rfl fun _ => rfl, hs.lost, hs.ended, fun h => by cases h⟩

/-- A connection that is taken has the number; one that is refused leaves it where it was. -/
theorem addConnection_spec :
    Triple (Ledger F (own .client fd ++ e)) (addConnection fd)
      (fun added s => Ledger F (if added then e else own .client fd ++ e) s) E := by
  intro s hs
  unfold addConnection
  split_ifs with htake
  · refine ⟨hs.socket, ?_, hs.lost, ?_, ?_⟩
    · intro hu
      refine (hs.balanced hu).move rfl rfl rfl fun f => ?_
      simp only [Process.held, List.count_append, heldClients_cons, if_true]
      omega
    · intro c hc hclosed
      rcases List.mem_cons.mp hc with hc | hc
      · rw [hc] at hclosed
        cases hclosed
      · exact hs.ended c hc hclosed
    · intro hr
      have hrun : s.poolRunning = true := htake.1
      rw [show s.poolRunning = false from hr] at hrun
      cases hrun
  · exact hs

theorem recvEnds_spec : Triple (Ledger F e) (recvEnds fd) (fun _ => Ledger F e) E := by
  intro s hs
  unfold recvEnds
  split_ifs
  · refine ⟨hs.socket, ?_, ?_, ?_, ?_⟩
    · intro hu
      refine (hs.balanced hu).move rfl rfl rfl fun f => ?_
      simp only [Process.held, heldClients_recvEnds]
    · intro f hf
      rcases hs.lost f hf with hf | ⟨hf, hended⟩
      · exact Or.inl hf
      · exact Or.inr ⟨hf, List.mem_cons_of_mem _ hended⟩
    · intro c hc hclosed
      obtain ⟨c₀, hc₀, rfl⟩ := List.mem_map.mp hc
      rw [Connection.recvEnds_fd]
      unfold Connection.recvEnds at hclosed
      split_ifs at hclosed with hfd
      · rw [hfd]
        exact List.mem_cons_self
      · exact List.mem_cons_of_mem _ (hs.ended c₀ hc₀ hclosed)
    · intro hr
      show s.connections.map _ = []
      rw [hs.stopped hr]
      rfl
  · exact hs

/-- **The other threads keep the ledger.** -/
theorem handleAll_spec (hs : List Handler) : Triple (Ledger F e) (handleAll hs) (fun _ => Ledger F e) E := by
  induction hs with
  | nil => exact .ret fun _ h => h
  | cons h hs ih =>
      refine Triple.seq ?_ ih
      cases h with
      | recvEnds fd => exact recvEnds_spec
      | removeConnection fd => exact removeConnection_spec

/-! ### System calls -/

theorem nextAnswer_spec : Triple (Ledger F e) nextAnswer (fun _ => Ledger F e) E := by
  intro s hs
  unfold nextAnswer
  cases s.answers with
  | nil => exact hs
  | cons a as =>
      exact ⟨hs.socket, fun hu => (hs.balanced hu).move rfl rfl rfl fun _ => rfl, hs.lost, hs.ended, hs.stopped⟩

theorem sysCall_spec : Triple (Ledger F e) sysCall (fun _ => Ledger F e) E :=
  nextAnswer_spec.bind fun a => (handleAll_spec a.meanwhile).seq (.ret fun _ h => h)

theorem stopThreads_spec : Triple (Ledger F e) stopThreads (fun _ => Ledger F e) E :=
  sysCall_spec.bind fun _ => .ret fun _ h => h

theorem openFile_spec {r : Reply} :
    Triple (Ledger F e) (openFile k r)
      (fun r s => Ledger F (own k r.ret ++ e) s ∧ (r.ret = -1 ∨ 0 ≤ r.ret)) E := by
  intro s hs
  unfold openFile
  split_ifs with hnew
  · refine ⟨⟨hs.socket, ?_, hs.lost, hs.ended, hs.stopped⟩, Or.inr hnew.1⟩
    intro hu
    obtain ⟨hbal, hdist, hclean⟩ := hs.balanced hu
    refine ⟨?_, ?_, hclean⟩
    · intro f
      have hb := hbal f
      rw [own_of_ne (by omega)]
      show ((r.ret, k) :: s.files).count f = s.held.count f + ([(r.ret, k)] ++ e).count f + s.leaked.count f
      rw [List.count_append, List.count_cons, List.count_cons, List.count_nil]
      omega
    · rw [List.map_cons]
      exact List.nodup_cons.mpr ⟨hnew.2, hdist⟩
  · exact ⟨hs, Or.inl rfl⟩

/-- A descriptor that was opened is in the hands of the caller. -/
theorem sysOpen_spec : Triple (Ledger F e) (sysOpen k)
    (fun r s => Ledger F (own k r.ret ++ e) s ∧ (r.ret = -1 ∨ 0 ≤ r.ret)) E :=
  sysCall_spec.bind fun _ => openFile_spec

/-! ### What throws keeps the ledger -/

theorem socketCheck_spec {r : Reply} {op : String} {P : Process → Prop}
    (hE : r.ret = -1 → ∀ s, P s → E s) : Triple P (socketCheck r op) (fun _ => P) E :=
  Triple.ite (fun hr => .fail (hE hr)) (fun _ => .ret fun _ h => h)

theorem epollCheck_spec {r : Reply} {op : String} {P : Process → Prop}
    (hE : r.ret < 0 → ∀ s, P s → E s) : Triple P (epollCheck r op) (fun _ => P) E :=
  Triple.ite (fun hr => .fail (hE hr)) (fun _ => .ret fun _ h => h)

theorem socketCall_spec {op : String} : Triple (Ledger F e) (socketCall op) (fun _ => Ledger F e) (Ledger F e) :=
  sysCall_spec.bind fun _ => socketCheck_spec fun _ _ h => h

theorem addFd_spec : Triple (Ledger F e) addFd (fun _ => Ledger F e) (Ledger F e) :=
  sysCall_spec.bind fun _ => epollCheck_spec fun _ _ h => h

theorem mayThrow_spec {x : Thrown} : Triple (Ledger F e) (mayThrow x) (fun _ => Ledger F e) (Ledger F e) :=
  sysCall_spec.bind fun _ => Triple.ite (fun _ => .fail fun _ h => h) (fun _ => .ret fun _ h => h)

theorem makeEpoll_spec :
    Triple (Ledger F e) makeEpoll (fun fd => Ledger F (own .epoll fd ++ e)) (Ledger F e) := by
  refine sysOpen_spec.bind fun r => ?_
  refine Triple.seq (epollCheck_spec ?_) (.ret fun _ h => h.1)
  rintro hneg s ⟨h, hr⟩
  have hret : r.ret = -1 := by omega
  rw [hret, own_none] at h
  exact h

theorem destroyEventLoop_spec (l : EventLoop) :
    Triple (Ledger F (l.held ++ e)) (destroyEventLoop l) (fun _ => Ledger F e) E := by
  unfold EventLoop.held
  rw [List.append_assoc]
  exact close_spec.seq dropEvent_spec

/-- A loop whose constructor throws leaves nothing in the hands of its caller. -/
theorem makeEventLoop_spec :
    Triple (Ledger F e) makeEventLoop (fun l => Ledger F (l.held ++ e)) (Ledger F e) := by
  refine makeEpoll_spec.bind fun epollFd => ?_
  refine sysOpen_spec.bind fun r => Triple.ite (fun hr => .ret ?_) (fun hr => ?_)
  · rintro s ⟨h, -⟩
    rw [hr, own_none] at h
    unfold EventLoop.held
    rw [own_none, List.append_nil]
    exact h
  · have hheld : ∀ s, Ledger F (own .event r.ret ++ (own .epoll epollFd ++ e)) s ∧ (r.ret = -1 ∨ 0 ≤ r.ret) →
        Ledger F (EventLoop.held ⟨epollFd, r.ret⟩ ++ e) s := by
      rintro s ⟨h, -⟩
      apply h.congr
      intro f
      simp only [EventLoop.held, List.count_append]
      omega
    apply Triple.pre _ hheld
    apply Triple.seq (addFd_spec.onThrow (destroyEventLoop_spec _))
    exact .ret fun _ h => h

theorem destroyEventLoops_spec (ls : List EventLoop) :
    Triple (Ledger F (heldLoops ls ++ e)) (destroyEventLoops ls) (fun _ => Ledger F e) E := by
  induction ls with
  | nil => exact .ret fun _ h => h
  | cons l ls ih =>
      unfold heldLoops
      rw [List.flatMap_cons, List.append_assoc]
      exact (destroyEventLoop_spec l).seq ih

/-- **The constructor of the IO thread pool**: when one of its loops cannot be made, those made before it
are destroyed. -/
theorem makeEventLoops_spec (n : ℕ) (ls : List EventLoop) :
    Triple (Ledger F (heldLoops ls ++ e)) (makeEventLoops n ls) (fun ls' => Ledger F (heldLoops ls' ++ e))
      (Ledger F e) := by
  induction n generalizing ls with
  | zero => exact .ret fun _ h => h
  | succ n ih =>
      refine (makeEventLoop_spec.onThrow (destroyEventLoops_spec ls)).bind fun l => ?_
      refine (ih (ls ++ [l])).pre fun s h => h.congr ?_
      intro f
      simp only [heldLoops, List.flatMap_append, List.flatMap_singleton, List.count_append]
      omega

theorem makeIOThreadPool_spec (threadNum : ℕ) :
    Triple (Ledger F e) (makeIOThreadPool threadNum) (fun ls => Ledger F (heldLoops ls ++ e)) (Ledger F e) :=
  makeEventLoops_spec _ []

/-! ### The members -/

theorem swapMainLoop_spec (o : Option EventLoop) :
    Triple (Ledger F (heldMainLoop o ++ e)) (swapMainLoop o) (fun old => Ledger F (heldMainLoop old ++ e)) E := by
  refine fun s hs => ⟨hs.socket, fun hu => ?_, hs.lost, hs.ended, hs.stopped⟩
  refine (hs.balanced hu).move rfl rfl rfl fun f => ?_
  simp only [Process.held, List.count_append]
  omega

theorem swapIOThreadPool_spec (o : Option (List EventLoop)) :
    Triple (Ledger F (heldPool o ++ e)) (swapIOThreadPool o) (fun old => Ledger F (heldPool old ++ e)) E := by
  refine fun s hs => ⟨hs.socket, fun hu => ?_, hs.lost, hs.ended, hs.stopped⟩
  refine (hs.balanced hu).move rfl rfl rfl fun f => ?_
  simp only [Process.held, List.count_append]
  omega

theorem swapSignalFd_spec (fd : ℤ) :
    Triple (Ledger F (own .event fd ++ e)) (swapSignalFd fd) (fun old => Ledger F (own .event old ++ e)) E := by
  refine fun s hs => ⟨hs.socket, fun hu => ?_, hs.lost, hs.ended, hs.stopped⟩
  refine (hs.balanced hu).move rfl rfl rfl fun f => ?_
  simp only [Process.held, List.count_append]
  omega

/-- What is known about the old socket is known of the value returned. -/
theorem swapListenSocket_spec (o : Option ℤ) :
    Triple (Ledger F (heldSocket o ++ e)) (swapListenSocket o)
      (fun old s => F old ∧ Ledger (fun now => now = o) (heldSocket old ++ e) s) E := by
  refine fun s hs => ⟨hs.socket, rfl, fun hu => ?_, hs.lost, hs.ended, hs.stopped⟩
  refine (hs.balanced hu).move rfl rfl rfl fun f => ?_
  simp only [Process.held, List.count_append]
  omega

theorem setFlags_spec (g : Process → Process) : Triple (Ledger F e) (setFlags g) (fun _ => Ledger F e) E :=
  fun _ hs =>
    ⟨hs.socket, fun hu => (hs.balanced hu).move rfl rfl rfl fun _ => rfl, hs.lost, hs.ended, hs.stopped⟩

theorem destroySocket_spec (o : Option ℤ) :
    Triple (Ledger F (heldSocket o ++ e)) (destroySocket o) (fun _ => Ledger F e) E := by
  cases o with
  | none => exact .ret fun _ h => h
  | some fd => exact close_spec

theorem destroyMainLoop_spec (o : Option EventLoop) :
    Triple (Ledger F (heldMainLoop o ++ e)) (destroyMainLoop o) (fun _ => Ledger F e) E := by
  cases o with
  | none => exact .ret fun _ h => h
  | some l => exact destroyEventLoop_spec l

theorem destroyIOThreadPool_spec (o : Option (List EventLoop)) :
    Triple (Ledger F (heldPool o ++ e)) (destroyIOThreadPool o) (fun _ => Ledger F e) E := by
  cases o with
  | none => exact .ret fun _ h => h
  | some ls => exact stopThreads_spec.seq (destroyEventLoops_spec ls)

/-! ### `Init`, `Stop` and the destructor -/

/-- Nothing is known about the socket. -/
def Any : Option ℤ → Prop := fun _ => True

theorem Ledger.any (h : Ledger F e s) : Ledger Any e s := ⟨trivial, h.balanced, h.lost, h.ended, h.stopped⟩

/-- `Create` is called on a `Socket` that owns nothing. -/
theorem create_spec :
    Triple (Ledger (fun o => o = some (-1)) e) create (fun _ => Ledger Any e) (Ledger Any e) := by
  have hcalls : Triple (Ledger Any e) (do
      socketCall "fcntl(F_GETFL)"
      socketCall "fcntl(F_SETFL)"
      socketCall "setsockopt(SO_REUSEADDR)"
      socketCall "setsockopt(SO_REUSEPORT)"
      socketCall "setsockopt(TCP_NODELAY)") (fun _ => Ledger Any e) (Ledger Any e) :=
    socketCall_spec.seq (socketCall_spec.seq (socketCall_spec.seq (socketCall_spec.seq socketCall_spec)))
  refine sysOpen_spec.bind fun r => ?_
  have hstore : Triple (fun s => Ledger (fun o => o = some (-1)) (own .socket r.ret ++ e) s ∧ (r.ret = -1 ∨ 0 ≤ r.ret))
      (swapListenSocket (some r.ret)) (fun _ => Ledger Any e) (Ledger Any e) := by
    rintro s ⟨hs, -⟩
    have h := swapListenSocket_spec (some r.ret) (E := Ledger Any e) s hs
    obtain ⟨hold, h⟩ := h
    rw [hold] at h
    exact h.any
  exact hstore.bind fun _ => (socketCheck_spec fun _ _ h => h).seq hcalls

theorem listenOn_spec (validIp : Bool) :
    Triple (Ledger F e) (listenOn validIp) (fun _ => Ledger F e) (Ledger F e) := by
  have hip : Triple (Ledger F e) (checkIp validIp) (fun _ => Ledger F e) (Ledger F e) :=
    Triple.ite (fun _ => .ret fun _ h => h) (fun _ => .fail fun _ h => h)
  exact socketCall_spec.seq (socketCall_spec.seq (socketCall_spec.seq (socketCall_spec.seq
    (hip.seq (socketCall_spec.seq socketCall_spec)))))

/-- **`Init` keeps the ledger**, wherever it throws. -/
theorem initServer_spec (ioThreadNum maxConnections : ℕ) (validIp : Bool) :
    Triple (Ledger Any []) (initServer ioThreadNum maxConnections validIp) (fun _ => Ledger Any [])
      (Ledger Any []) := by
  refine (setFlags_spec _).seq ?_
  have hsocket : Triple (Ledger Any []) (swapListenSocket (some (-1)))
      (fun old => Ledger (fun o => o = some (-1)) (heldSocket old ++ [])) (Ledger Any []) :=
    fun s hs => (swapListenSocket_spec (some (-1)) (E := Ledger Any []) s hs).2
  refine hsocket.bind fun oldSocket => (destroySocket_spec oldSocket).seq ?_
  refine create_spec.seq ((listenOn_spec validIp).seq ?_)
  refine makeEventLoop_spec.bind fun loop => ?_
  refine (swapMainLoop_spec (some loop)).bind fun oldLoop => (destroyMainLoop_spec oldLoop).seq ?_
  refine addFd_spec.seq (mayThrow_spec.seq ?_)
  refine (makeIOThreadPool_spec ioThreadNum).bind fun loops => ?_
  refine (swapIOThreadPool_spec (some loops)).bind fun oldPool => (destroyIOThreadPool_spec oldPool).seq ?_
  refine (initPool_spec maxConnections).seq (mayThrow_spec.seq (mayThrow_spec.seq ?_))
  refine sysOpen_spec.bind fun r => ?_
  refine Triple.pre ?_ fun s hs => hs.1
  refine (swapSignalFd_spec r.ret).bind fun oldFd => dropEvent_spec.seq ?_
  exact Triple.ite (fun _ => .ret fun _ h => h) (fun _ => addFd_spec)

theorem stopServer_spec : Triple (Ledger Any []) stopServer (fun _ => Ledger Any []) E := by
  refine (setFlags_spec _).seq (stopThreads_spec.seq (shutdownPool_spec.seq ?_))
  refine Triple.bind (R := fun fd => Ledger Any (own .event fd ++ [])) ?_ fun fd => close_spec.seq ?_
  · intro s hs
    have := swapSignalFd_spec (-1) (E := E) s (by rw [own_none]; exact hs)
    exact this
  · refine Triple.bind (R := fun old => Ledger Any (heldSocket old ++ [])) ?_ fun old => destroySocket_spec old
    exact fun s hs => (swapListenSocket_spec none (E := E) s hs).2.any

/-! ### Clients -/

theorem clientOptions_spec : Triple (Ledger F e) clientOptions (fun _ => Ledger F e) (Ledger F e) :=
  socketCall_spec.seq (socketCall_spec.seq socketCall_spec)

/-- The socket of a client is closed when something throws before the pool has it. -/
theorem clientThrows_spec {m : M Unit}
    (hm : Triple (Ledger F (own .client fd ++ e)) m (fun _ => Ledger F (own .client fd ++ e))
      (Ledger F (own .client fd ++ e))) :
    Triple (Ledger F (own .client fd ++ e)) (onThrow m (close .client fd)) (fun _ => Ledger F (own .client fd ++ e))
      (Ledger F e) :=
  hm.onThrow close_spec

theorem socketAccept_spec :
    Triple (Ledger F e) socketAccept
      (fun client s => match client with
        | none => Ledger F e s
        | some fd => Ledger F (own .client fd ++ e) s ∧ fd ≠ -1) (Ledger F e) := by
  refine sysOpen_spec.bind fun r => Triple.pre ?_ fun s hs => hs.1
  refine Triple.ite (fun hr => ?_) (fun hr => ?_)
  · rw [hr, own_none]
    exact Triple.ite (fun _ => .ret fun _ h => h) (fun _ => .fail fun _ h => h)
  · exact (clientThrows_spec clientOptions_spec).seq (.ret fun _ h => ⟨h, hr⟩)

/-- A number that is free is closed in vain. -/
theorem close_free (hfd : fd ≠ -1) (hfree : fd ∉ s.files.map Prod.fst) :
    close k fd s = .ok () { s with stray := fd :: s.stray } := by
  have hfiles : s.files.filter (fun f => decide (f.1 ≠ fd)) = s.files := by
    apply List.filter_eq_self.mpr
    intro f hf
    refine decide_eq_true fun hff => hfree ?_
    exact List.mem_map.mpr ⟨f, hf, hff⟩
  have hmem : (fd, k) ∉ s.files := fun h => hfree (List.mem_map.mpr ⟨_, h, rfl⟩)
  unfold close
  rw [if_neg hfd, hfiles, if_neg hmem]

/-- **A refused client**: the second `close` finds its number free. -/
theorem refuse_spec (hfd : fd ≠ -1) :
    Triple (Ledger F (own .client fd ++ e)) (refuse fd) (fun _ => Ledger F e) E := by
  have hagain : Triple (fun s => ∃ s₀, (Ledger F e s₀ ∧ (fd ≠ -1 → fd ∉ s₀.files.map Prod.fst)) ∧
      s = { s₀ with refused := fd :: s₀.refused }) (close .client fd) (fun _ => Ledger F e) E := by
    rintro _ ⟨s, ⟨hs, hfree⟩, rfl⟩
    rw [close_free (s := { s with refused := fd :: s.refused }) hfd (hfree hfd)]
    refine ⟨hs.socket, fun hu => ?_, hs.lost, hs.ended, hs.stopped⟩
    obtain ⟨hbal, hdist, hclean⟩ := hs.balanced hu
    exact ⟨hbal, hdist, congrArg (List.cons fd) hclean⟩
  refine close_frees.seq (Triple.seq ?_ hagain)
  exact fun s hs => ⟨s, hs, rfl⟩

/-- From here on the ledger need not balance. -/
theorem abandon_spec : Triple (Ledger F e) (abandon fd) (fun _ => Ledger F e') E := by
  refine Triple.seq (R := fun s => Ledger F e' s ∧ s.unregistered ≠ []) ?_ ?_
  · have hne : ∀ s : Process, fd :: s.unregistered ≠ [] := fun s => List.cons_ne_nil _ _
    exact fun s hs => ⟨⟨hs.socket, fun hu => absurd hu (hne s), hs.lost, hs.ended, hs.stopped⟩, hne s⟩
  · refine Triple.post (close_keeps ?_) fun _ _ h => h.1
    rintro s files stray ⟨hs, hne⟩
    exact ⟨⟨hs.socket, fun hu => absurd hu hne, hs.lost, hs.ended, hs.stopped⟩, hne⟩

theorem register_spec : Triple (Ledger F e) (register fd) (fun _ => Ledger F e) (Ledger F e) := by
  refine Triple.bind (R := fun _ => Ledger F e) (fun s hs => hs) fun s => ?_
  exact Triple.ite (fun _ => abandon_spec.seq removeConnection_spec) (fun _ => addFd_spec.onThrow abandon_spec)

/-- **A client**, whatever becomes of it. -/
theorem acceptClient_spec (hfd : fd ≠ -1) :
    Triple (Ledger F (own .client fd ++ e)) (acceptClient fd) (fun _ => Ledger F e) (Ledger F e) := by
  refine sysCall_spec.bind fun _ => sysCall_spec.bind fun _ => ?_
  refine (clientThrows_spec clientOptions_spec).seq ((clientThrows_spec mayThrow_spec).seq ?_)
  refine addConnection_spec.bind fun added => ?_
  cases added with
  | true => exact register_spec
  | false => exact refuse_spec hfd

theorem acceptLoop_spec (n : ℕ) : Triple (Ledger F e) (acceptLoop n) (fun _ => Ledger F e) (Ledger F e) := by
  induction n with
  | zero => exact .ret fun _ h => h
  | succ n ih =>
      refine socketAccept_spec.bind fun client => ?_
      cases client with
      | none => exact .ret fun _ h => h
      | some fd => exact Triple.given fun hfd => (acceptClient_spec hfd).seq ih

theorem handleAccept_spec : Triple (Ledger F e) handleAccept (fun _ => Ledger F e) (Ledger F e) :=
  fun s hs => acceptLoop_spec (s.answers.length + 1) s hs

/-! ### The calls -/

theorem mainEventLoop_spec (n : ℕ) (ends : LoopEnd) :
    Triple (Ledger Any []) (mainEventLoop n ends) (fun _ => Ledger Any []) (Ledger Any []) := by
  induction n with
  | zero =>
      cases ends with
      | test => exact stopServer_spec
      | eventfd => exact setFlags_spec _
  | succ n ih => exact handleAccept_spec.seq ih

theorem startServer_spec (accepts : ℕ) (ends : LoopEnd) :
    Triple (Ledger Any []) (startServer accepts ends) (fun _ => Ledger Any []) (Ledger Any []) := by
  refine (setFlags_spec _).seq (mayThrow_spec.seq ?_)
  refine Triple.bind (R := fun _ => Ledger Any []) (fun s hs => hs) fun s => ?_
  exact Triple.ite (fun _ => mainEventLoop_spec accepts ends) (fun _ => .ret fun _ h => h)

theorem destroyMembers_spec : Triple (Ledger Any []) destroyMembers (fun _ => Ledger Any []) E := by
  refine (swapIOThreadPool_spec none).bind fun pool => (destroyIOThreadPool_spec pool).seq ?_
  refine (swapMainLoop_spec none).bind fun loop => (destroyMainLoop_spec loop).seq ?_
  refine Triple.bind (R := fun old => Ledger Any (heldSocket old ++ [])) ?_ fun old =>
    (destroySocket_spec old).seq (setFlags_spec _)
  exact fun s hs => (swapListenSocket_spec none (E := E) s hs).2.any

theorem stop_spec (s : Process) : Triple (Ledger Any []) (stop s) (fun _ => Ledger Any []) E :=
  Triple.ite (fun _ => stopServer_spec) (fun _ => .ret fun _ h => h)

theorem perform_spec (s : Process) (c : Call) :
    Triple (Ledger Any []) (perform s c) (fun _ => Ledger Any []) (Ledger Any []) := by
  cases c with
  | init ioThreadNum maxConnections validIp =>
      exact Triple.ite (fun _ => .ret fun _ h => h) (fun _ => initServer_spec ioThreadNum maxConnections validIp)
  | start accepts ends =>
      exact Triple.ite (fun _ => .ret fun _ h => h) (fun _ => startServer_spec accepts ends)
  | stop => exact stop_spec s
  | destroy => exact (stop_spec s).seq destroyMembers_spec
  | shutdownPool => exact shutdownPool_spec
  | elsewhere => exact stopThreads_spec

end ledger

/-! ### Every sequence of calls -/

section calls

variable {s s' : Process} {l : Label}

theorem after_spec {P Q : Process → Prop} {m : M Unit} (hm : Triple P m (fun _ => Q) Q) (hs : P s) : Q (after m s) := by
  unfold after
  obtain ⟨a, s', hr, h⟩ | ⟨e, s', hr, h⟩ := hm.outcome hs
  · rw [hr]
    exact h
  · rw [hr]
    exact h

theorem step_eq_some (hs : step s l = some s') : s' = after (perform s l.call) { s with answers := l.answers } := by
  unfold step at hs
  split_ifs at hs
  exact (Option.some.inj hs).symm

theorem ledger_answers (h : Ledger Any [] s) (answers : List Answer) : Ledger Any [] { s with answers := answers } :=
  ⟨trivial, fun hu => (h.balanced hu).move rfl rfl rfl fun _ => rfl, h.lost, h.ended, h.stopped⟩

theorem ledger_step (h : Ledger Any [] s) (hs : step s l = some s') : Ledger Any [] s' := by
  rw [step_eq_some hs]
  exact after_spec (perform_spec s l.call) (ledger_answers h l.answers)

theorem ledger_begin : Ledger Any [] begin where
  socket := trivial
  balanced := fun _ => ⟨fun _ => rfl, List.nodup_nil, rfl⟩
  lost := fun f hf => by cases hf
  ended := fun c hc => by cases hc
  stopped := fun _ => rfl

theorem ledger_reach (h : Reach step always begin s) : Ledger Any [] s :=
  h.invariant (Ledger Any []) ledger_begin fun _ _ _ hl _ hs => ledger_step hl hs

/-! ### What the destructor leaves -/

/-- A fact about the members that own descriptors, the state of the pool and the clients that could not be
registered. -/
def Members (F : Option ℤ → Option EventLoop → Option (List EventLoop) → Bool → List ℤ → Prop) (s : Process) : Prop :=
  F s.listenSocket s.mainLoop s.ioThreadPool s.poolRunning s.unregistered

variable {E : Process → Prop} {F : Option ℤ → Option EventLoop → Option (List EventLoop) → Bool → List ℤ → Prop}

theorem members_close (k : Kind) (fd : ℤ) : Triple (Members F) (close k fd) (fun _ => Members F) E :=
  close_keeps fun _ _ _ hs => hs

theorem members_closeConnection (c : Connection) : Triple (Members F) (closeConnection c) (fun _ => Members F) E :=
  Triple.ite (fun _ _ hs => hs) (fun _ => members_close .client c.fd)

theorem members_recvEnds (fd : ℤ) : Triple (Members F) (recvEnds fd) (fun _ => Members F) E := by
  intro s hs
  unfold recvEnds
  split_ifs
  · exact hs
  · exact hs

theorem members_removeConnection (fd : ℤ) : Triple (Members F) (removeConnection fd) (fun _ => Members F) E := by
  intro s hs
  unfold removeConnection
  cases s.connections.find? (fun c => decide (c.fd = fd)) with
  | none => exact hs
  | some c => exact members_closeConnection c { s with connections := s.connections.erase c } hs

theorem members_handleAll (hs : List Handler) : Triple (Members F) (handleAll hs) (fun _ => Members F) E := by
  induction hs with
  | nil => exact .ret fun _ h => h
  | cons h hs ih =>
      refine Triple.seq ?_ ih
      cases h with
      | recvEnds fd => exact members_recvEnds fd
      | removeConnection fd => exact members_removeConnection fd

theorem members_stopThreads : Triple (Members F) stopThreads (fun _ => Members F) E := by
  have hanswer : Triple (Members F) nextAnswer (fun _ => Members F) E := by
    intro s hs
    unfold nextAnswer
    cases s.answers with
    | nil => exact hs
    | cons a as => exact hs
  refine Triple.bind (R := fun _ => Members F) ?_ fun _ => .ret fun _ h => h
  exact hanswer.bind fun a => (members_handleAll a.meanwhile).seq (.ret fun _ h => h)

theorem members_closeConnections (cs : List Connection) :
    Triple (Members F) (closeConnections cs) (fun _ => Members F) E := by
  induction cs with
  | nil => exact .ret fun _ h => h
  | cons c cs ih => exact (members_closeConnection c).seq ih

/-- `Shutdown` leaves a pool that does not run. -/
theorem members_shutdownPool :
    Triple (Members fun o m p _ u => F o m p false u) shutdownPool (fun _ => Members F) E := by
  intro s hs
  unfold shutdownPool
  split_ifs with hr
  · exact members_closeConnections s.connections _ hs
  · have hr' : s.poolRunning = false := by simpa using hr
    have hs' : F s.listenSocket s.mainLoop s.ioThreadPool false s.unregistered := hs
    rw [← hr'] at hs'
    exact hs'

theorem members_destroyEventLoop (l : EventLoop) :
    Triple (Members F) (destroyEventLoop l) (fun _ => Members F) E :=
  (members_close .epoll l.epollFd).seq fun _ hs => hs

theorem members_destroyEventLoops (ls : List EventLoop) :
    Triple (Members F) (destroyEventLoops ls) (fun _ => Members F) E := by
  induction ls with
  | nil => exact .ret fun _ h => h
  | cons l ls ih => exact (members_destroyEventLoop l).seq ih

theorem members_destroyIOThreadPool (o : Option (List EventLoop)) :
    Triple (Members F) (destroyIOThreadPool o) (fun _ => Members F) E := by
  cases o with
  | none => exact .ret fun _ h => h
  | some ls => exact members_stopThreads.seq (members_destroyEventLoops ls)

theorem members_destroyMainLoop (o : Option EventLoop) :
    Triple (Members F) (destroyMainLoop o) (fun _ => Members F) E := by
  cases o with
  | none => exact .ret fun _ h => h
  | some l => exact members_destroyEventLoop l

theorem members_destroySocket (o : Option ℤ) : Triple (Members F) (destroySocket o) (fun _ => Members F) E := by
  cases o with
  | none => exact .ret fun _ h => h
  | some fd => exact members_close .socket fd

/-- `K` is what is known about the pool and the clients that could not be registered. -/
def Pool (K : Bool → List ℤ → Prop) : Process → Prop := Members fun _ _ _ r u => K r u

/-- After the destructor no member refers to a file, and `K` is still known. -/
def Destroyed (K : Bool → List ℤ → Prop) : Process → Prop :=
  Members fun o m p r u => o = none ∧ m = none ∧ p = none ∧ K r u

variable {K : Bool → List ℤ → Prop}

theorem members_stop (hK : ∀ r u, K r u → K false u) (s : Process) :
    Triple (Pool K) (stop s) (fun _ => Pool K) E := by
  refine Triple.ite (fun _ => ?_) (fun _ => .ret fun _ h => h)
  refine Triple.seq (R := Pool K) (fun _ hs => hs) (members_stopThreads.seq ?_)
  have hpool : Triple (Pool K) shutdownPool (fun _ => Pool K) E :=
    (members_shutdownPool (F := fun _ _ _ r u => K r u)).pre fun s hs => hK _ _ hs
  refine hpool.seq ?_
  refine Triple.bind (R := fun _ => Pool K) (fun _ hs => hs) fun fd => (members_close .event fd).seq ?_
  exact Triple.bind (R := fun _ => Pool K) (fun _ hs => hs) fun socket => members_destroySocket socket

theorem members_destroyMembers : Triple (Pool K) destroyMembers (fun _ => Destroyed K) E := by
  refine Triple.bind (R := fun _ => Members fun _ _ p r u => p = none ∧ K r u) (fun s hs => ⟨rfl, hs⟩) fun pool => ?_
  refine (members_destroyIOThreadPool pool).seq ?_
  refine Triple.bind (R := fun _ => Members fun _ m p r u => m = none ∧ p = none ∧ K r u)
    (fun s hs => ⟨rfl, hs⟩) fun loop => ?_
  refine (members_destroyMainLoop loop).seq ?_
  refine Triple.bind (R := fun _ => Destroyed K) (fun s hs => ⟨rfl, hs⟩) fun socket => ?_
  exact (members_destroySocket socket).seq fun s hs => hs

theorem destroyed_step {answers : List Answer} (hK : ∀ r u, K r u → K false u)
    (h : K s.poolRunning s.unregistered) (hs : step s ⟨.destroy, answers⟩ = some s') : Destroyed K s' := by
  have hm : Triple (Pool K) (perform s .destroy) (fun _ => Destroyed K) (Destroyed K) :=
    (members_stop hK s).seq members_destroyMembers
  rw [step_eq_some hs]
  exact after_spec hm h

/-- After the destructor, the open files are that of `signal_fd_`, those of the pooled connections, and the
leaked ones. -/
theorem files_destroyed (h : Ledger Any [] s) (hd : Destroyed K s) (hu : s.unregistered = []) :
    s.files.Perm (own .event s.signalFd ++ heldClients s.connections ++ s.leaked) := by
  obtain ⟨ho, hm, hp, -⟩ := hd
  apply List.perm_iff_count.mpr
  intro f
  have hb := (h.balanced hu).balance f
  unfold Process.held at hb
  rw [ho, hm, hp] at hb
  simp only [heldSocket, heldMainLoop, heldPool, List.count_append, List.count_nil] at hb ⊢
  omega

theorem kind_of_mem_heldClients {cs : List Connection} {f : File} (h : f ∈ heldClients cs) : f.2 = .client := by
  obtain ⟨c, -, hf⟩ := List.mem_flatMap.mp h
  exact kind_of_mem_own hf

end calls

/-- A call that returns `n` with no handler before it. -/
def ret (n : ℤ) : Answer := ⟨[], ⟨n, 0⟩⟩

/-- The calls for the listening socket that all succeed. -/
def listening : List Answer := ret 3 :: List.replicate 11 (ret 0)

/-- The calls for a client that is accepted as `n` and registered, after `meanwhile`. -/
def admitted (n : ℤ) (meanwhile : List Handler) : List Answer := ⟨meanwhile, ⟨n, 0⟩⟩ :: List.replicate 10 (ret 0)

/-- An `Init` whose last `epoll_ctl` for two IO loops fails, then one with a single IO loop and room for two
connections, and a `Start` with four clients: the third is refused, and the fourth has the place of the first,
which `Recv` has ended by then.  Numbers that were closed come back. -/
def secondTry : List Label :=
  [⟨.init 2 2 true, listening ++ [4, 5, 0, 0, 0, 6, 7, 0, 8, 9, -1].map ret⟩,
    ⟨.init 1 2 true, listening ++ [6, 8, 0, 0, 0, 4, 10, 0, 0, 0, 11, 0].map ret⟩,
    ⟨.start 2 .eventfd, ret 0 :: admitted 12 [] ++ admitted 13 [] ++ (ret 14 :: List.replicate 9 (ret 0)) ++
      [⟨[], ⟨-1, EAGAIN⟩⟩] ++ admitted 14 [.recvEnds 12, .removeConnection 12] ++ [⟨[], ⟨-1, EAGAIN⟩⟩]⟩]

/-- The one client of this run cannot be registered. -/
def failedRegistration : List Label :=
  [⟨.init 1 2 true, listening ++ [4, 5, 0, 0, 0, 6, 7, 0, 0, 0, 8, 0].map ret⟩,
    ⟨.start 1 .test, ret 0 :: ret 9 :: List.replicate 9 (ret 0) ++ [⟨[], ⟨-1, 28⟩⟩]⟩]

/-- The pool refers to a number that its `Socket` has closed, and closes it again. -/
theorem failedRegistration_unbalanced :
    ∃ s s', run step begin failedRegistration = some s ∧ s.unregistered = [9] ∧ (9, .client) ∈ s.held ∧
      (9, .client) ∉ s.files ∧ step s ⟨.stop, []⟩ = some s' ∧ s'.stray = [9] ∧ s'.refused = [] := by
  obtain ⟨s, hs, ⟨hu, hheld, hfiles⟩, hstop⟩ := exists_of_any (o := run step begin failedRegistration)
    (fun s => (s.unregistered = [9] ∧ (9, .client) ∈ s.held ∧ (9, .client) ∉ s.files) ∧
      (step s ⟨.stop, []⟩).any fun s' => s'.stray = [9] ∧ s'.refused = []) (by decide +kernel)
  obtain ⟨s', hs', hstray, href⟩ := exists_of_any _ hstop
  exact ⟨s, s', hs, hu, hheld, hfiles, hs', hstray, href⟩

end Startup

end TcpServer
