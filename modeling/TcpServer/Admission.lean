import TcpServer.Accept

/-! # Whole calls of `HandleAccept`

One call goes through the answers of `accept(2)` until nothing is pending or an exception leaves
it.  `survives_iff` says which failures of `accept(2)` the call survives; `admission` says exactly
which clients of a queue are admitted, and to which loop they go.

Both start from a pool in order (`Acceptor.Ready`); `Sys.ready_of_reach` shows that the
interleaved server calls `HandleAccept` with its pool in order whenever no removal is under way. -/

namespace TcpServer

namespace Acceptor

open World

variable {α : Type}

/-! ### What a whole call leaves alone -/

/-- The connections pooled in `w` are untouched in `w'`, and what `w'` pools besides them was
accepted later. -/
structure Extends (w w' : World α) : Prop where
  accepted : w.accepted ≤ w'.accepted
  pooled : ∀ m y, w.pool.getConnection m = some y → w'.pool.getConnection m = some y ∧
    w'.conns y = w.conns y ∧ w'.files m = w.files m ∧ ∀ i, w'.epoll i m = w.epoll i m
  later : ∀ m y, w'.pool.getConnection m = some y → w.pool.getConnection m = some y ∨ w.accepted ≤ y
  size : w.pool.connections.entries.length ≤ w'.pool.connections.entries.length
  max : w'.pool.maxConnections = w.pool.maxConnections

theorem Extends.refl (w : World α) : Extends w w :=
  ⟨Nat.le_refl _, fun _ _ h => ⟨h, rfl, rfl, fun _ => rfl⟩, fun _ _ h => Or.inl h, Nat.le_refl _, rfl⟩

theorem Extends.trans {w₁ w₂ w₃ : World α} (h : Extends w₁ w₂) (h' : Extends w₂ w₃) : Extends w₁ w₃ := by
  refine ⟨Nat.le_trans h.accepted h'.accepted, ?_, ?_, Nat.le_trans h.size h'.size, h'.max.trans h.max⟩
  · intro m y hy
    obtain ⟨hp, hc, hf, he⟩ := h.pooled m y hy
    obtain ⟨hp', hc', hf', he'⟩ := h'.pooled m y hp
    exact ⟨hp', hc'.trans hc, hf'.trans hf, fun i => (he' i).trans (he i)⟩
  · intro m y hy
    rcases h'.later m y hy with hy | hy
    · exact h.later m y hy
    · exact Or.inr (Nat.le_trans h.accepted hy)

/-- Pooled connections have nothing to do with a number that is not open. -/
theorem Elsewhere.pooled {s : Acceptor α} {n : ℤ} {w' : World α} (h : Elsewhere n s.world w') (hr : Ready s)
    (hf : s.world.files n = none) {m : ℤ} {y : Client} (hy : s.world.pool.getConnection m = some y) :
    m ≠ n ∧ w'.conns y = s.world.conns y ∧ w'.files m = s.world.files m ∧
      ∀ i, w'.epoll i m = s.world.epoll i m := by
  obtain ⟨hfile, hlt⟩ := hr.open_of_pooled m y hy
  have hm : m ≠ n := by
    rintro rfl
    rw [hf] at hfile
    cases hfile
  exact ⟨hm, h.conns y (Nat.ne_of_lt hlt), h.files m hm, fun i => h.epoll i m hm⟩

theorem extends_keep {s : Acceptor α} {n : ℤ} (h : Ready s) (hn : 0 ≤ n) (hf : s.world.files n = none) :
    Extends s.world (s.keep n).world := by
  have hkept := kept_keep (h.fresh hn hf)
  refine ⟨by rw [hkept.elsewhere.accepted]; exact Nat.le_succ _, ?_, ?_, ?_, rfl⟩
  · intro m y hy
    obtain ⟨hm, hrest⟩ := hkept.elsewhere.pooled h hf hy
    refine ⟨?_, hrest⟩
    show (s.pooled n).getConnection m = some y
    rw [getConnection_pooled_ne s hm, hy]
  · intro m y hy
    have hy' : (s.pooled n).getConnection m = some y := hy
    by_cases hm : m = n
    · subst hm
      rw [getConnection_pooled_self] at hy'
      cases hy'
      exact Or.inr (Nat.le_refl _)
    · rw [getConnection_pooled_ne s hm] at hy'
      exact Or.inl hy'
  · show _ ≤ (s.pooled n).connections.entries.length
    rw [length_pooled (h.getConnection_none hf)]
    exact Nat.le_succ _

theorem extends_turnAway {s : Acceptor α} {n : ℤ} (h : Ready s) (hn : 0 ≤ n) (hf : s.world.files n = none) :
    Extends s.world (s.turnAway n).world := by
  have hclosed : Closed n (twice s.world.accepted) s.world (s.turnAway n).world := closed_refuse hn
  have hpool : (s.turnAway n).world.pool = s.world.pool := refuse_pool hn
  refine ⟨by rw [hclosed.elsewhere.accepted]; exact Nat.le_succ _, ?_, ?_, by rw [hpool], by rw [hpool]⟩
  · intro m y hy
    rw [hpool]
    exact ⟨hy, (hclosed.elsewhere.pooled h hf hy).2⟩
  · intro m y hy
    rw [hpool] at hy
    exact Or.inl hy

/-! ### Failures of `accept(2)` -/

/-- The client is in the pool, open and registered, or it was turned away by a full pool. -/
def Served (w : World α) (x : Client) : Prop :=
  (∃ n i, w.pool.getConnection n = some x ∧ w.files n = some x ∧ (w.epoll i n).isSome = true) ∨
    ((∀ m, w.pool.getConnection m ≠ some x) ∧ w.pool.maxConnections ≤ w.pool.connections.entries.length)

theorem Served.extends {w w' : World α} {x : Client} (h : Served w x) (hx : x < w.accepted) (he : Extends w w') :
    Served w' x := by
  rcases h with ⟨n, i, hp, hf, hi⟩ | ⟨hp, hfull⟩
  · obtain ⟨hp', -, hf', he'⟩ := he.pooled n x hp
    exact Or.inl ⟨n, i, hp', hf'.trans hf, by rw [he' i]; exact hi⟩
  · refine Or.inr ⟨?_, ?_⟩
    · intro m hm
      rcases he.later m x hm with hm | hm
      · exact hp m hm
      · exact Nat.lt_irrefl _ (Nat.lt_of_lt_of_le hx hm)
    · rw [he.max]
      exact Nat.le_trans hfull he.size

/-- One iteration of a pool in order: it returns, keeps the pool in order, and serves its client. -/
theorem iteration_served {s : Acceptor α} {n : ℤ} (h : Ready s) (hn : 0 ≤ n) (hf : s.world.files n = none) :
    ∃ s', s.iteration n none none = (s', .returned) ∧ Ready s' ∧ Extends s.world s'.world ∧
      s'.world.accepted = s.world.accepted + 1 ∧ s'.running = s.running ∧ Served s'.world s.world.accepted := by
  obtain ⟨hkeep, haway⟩ := iteration_ready h hn hf
  rcases Nat.lt_or_ge s.world.pool.connections.entries.length s.world.pool.maxConnections with hlt | hge
  · have hkept := kept_keep (h.fresh hn hf)
    refine ⟨_, hkeep hlt, ready_keep h hn hf hlt, extends_keep h hn hf, hkept.elsewhere.accepted, rfl, ?_⟩
    exact Or.inl ⟨n, s.nextLoopIdx, getConnection_pooled_self s n, hkept.file, (hkept.registered _).mpr rfl⟩
  · have hclosed : Closed n (twice s.world.accepted) s.world (s.turnAway n).world := closed_refuse hn
    have hpool : (s.turnAway n).world.pool = s.world.pool := refuse_pool hn
    refine ⟨_, haway hge, ready_turnAway h hn hf, extends_turnAway h hn hf, hclosed.elsewhere.accepted, rfl, ?_⟩
    right
    rw [hpool]
    exact ⟨(h.fresh hn hf).unpooled, hge⟩

/-- The first failure among the answers of `accept(2)`. -/
def firstFailure : List AcceptResult → Option Errno
  | [] => none
  | .error e :: _ => some e
  | .client _ :: rest => firstFailure rest

/-- How a call is left, by the first failure. -/
def exitOf : Option Errno → Exit
  | none => .returned
  | some e => if wouldBlock e then .returned else .thrown ⟨"accept", e⟩

/-- The call up to its first failure, by induction on the answers of `accept(2)`. -/
theorem handleAccept_run {s s' : Acceptor α} {rs rest : List AcceptResult} {exit : Exit} (h : Ready s)
    (hr : s.handleAccept rs = some (s', rest, exit)) :
    exit = exitOf (firstFailure rs) ∧ Extends s.world s'.world ∧ s'.running = s.running ∧
      ∀ x, s.world.accepted ≤ x → x < s'.world.accepted → Served s'.world x := by
  induction rs generalizing s with
  | nil =>
      cases hr
      refine ⟨rfl, Extends.refl _, rfl, ?_⟩
      intro x h1 h2
      exact absurd h2 (Nat.not_lt_of_le h1)
  | cons r rs ih =>
      cases r with
      | error e =>
          have hstay : s' = s ∧ exit = exitOf (some e) := by
            unfold handleAccept socketAccept at hr
            unfold exitOf
            cases hb : wouldBlock e with
            | true =>
                simp only [hb, if_true, Option.some.injEq, Prod.mk.injEq] at hr ⊢
                exact ⟨hr.1.symm, hr.2.2.symm⟩
            | false =>
                simp only [hb, Bool.false_eq_true, if_false, Option.some.injEq, Prod.mk.injEq] at hr ⊢
                exact ⟨hr.1.symm, hr.2.2.symm⟩
          obtain ⟨rfl, rfl⟩ := hstay
          refine ⟨rfl, Extends.refl _, rfl, ?_⟩
          intro x h1 h2
          exact absurd h2 (Nat.not_lt_of_le h1)
      | client n =>
          simp only [handleAccept, socketAccept] at hr
          split at hr
          · next hn =>
              obtain ⟨s₁, hs₁, hready, hext, hacc, hrun, hserved⟩ := iteration_served h hn.1 hn.2
              rw [hs₁] at hr
              obtain ⟨h1, h2, h3, h4⟩ := ih hready hr
              refine ⟨h1, hext.trans h2, h3.trans hrun, ?_⟩
              intro x hx hlt
              rcases Nat.eq_or_lt_of_le hx with rfl | hx
              · exact hserved.extends (by rw [hacc]; exact Nat.lt_succ_self _) h2
              · exact h4 x (by rw [hacc]; exact hx) hlt
          · cases hr

/-- **Which failures of `accept(2)` a call survives.**  For every sequence of answers: the call
returns, the clients it accepted are in the pool and registered or were turned away by a full
pool, and `running_` is unchanged, if and only if the first failure, if there is one, is `EAGAIN`
or `EWOULDBLOCK`. -/
theorem survives_iff (s s' : Acceptor α) (rs rest : List AcceptResult) (exit : Exit) (h : Ready s)
    (hr : s.handleAccept rs = some (s', rest, exit)) :
    (exit = .returned ∧ (∀ x, s.world.accepted ≤ x → x < s'.world.accepted → Served s'.world x) ∧
        s'.running = s.running) ↔ ∀ e, firstFailure rs = some e → wouldBlock e = true := by
  obtain ⟨hexit, -, hrun, hserved⟩ := handleAccept_run h hr
  constructor
  · rintro ⟨hret, -, -⟩ e he
    rw [hret, he, exitOf] at hexit
    by_contra hb
    rw [if_neg hb] at hexit
    cases hexit
  · intro hall
    refine ⟨?_, hserved, hrun⟩
    rw [hexit]
    cases hf : firstFailure rs with
    | none => rfl
    | some e => exact if_pos (hall e hf)

/-- A client, a second one that is turned away, and an empty queue. -/
theorem survives_again :
    ∃ s', (start 1 2).handleAccept [.client 5, .client 6, .error EAGAIN] = some (s', [], .returned) ∧
      s'.running = true ∧ Served s'.world 0 ∧ Served s'.world 1 := by
  obtain ⟨r, hr, hexit, hrest, hacc⟩ := Transition.exists_of_any
    (o := (start 1 2).handleAccept [.client 5, .client 6, .error EAGAIN])
    (fun r => r.2.2 = .returned ∧ r.2.1 = [] ∧ r.1.world.accepted = 2) (by decide +kernel)
  obtain ⟨s', rest, exit⟩ := r
  have hiff := (survives_iff (start 1 2) s' [.client 5, .client 6, .error EAGAIN] rest exit
    (ready_start 1 (by decide)) hr).mpr (by decide)
  simp only at hrest hacc
  rw [hrest, hiff.1] at hr
  exact ⟨s', hr, hiff.2.2, hiff.2.1 0 (Nat.zero_le _) (by rw [hacc]; decide),
    hiff.2.1 1 (Nat.zero_le _) (by rw [hacc]; decide)⟩

def ECONNABORTED : Errno := 103

/-- A client that gives up in the queue: the exception leaves `HandleAccept`. -/
theorem aborted_escapes : ¬ ∀ (s s' : Acceptor ℕ) (rs rest : List AcceptResult) (exit : Exit), Ready s →
    s.handleAccept rs = some (s', rest, exit) →
      exit = .returned ∧ (∀ x, s.world.accepted ≤ x → x < s'.world.accepted → Served s'.world x) ∧
        s'.running = s.running := by
  intro hall
  obtain ⟨r, hr, hexit⟩ := Transition.exists_of_any
    (o := (start 1 2).handleAccept [.client 5, .error ECONNABORTED])
    (fun r => r.2.2 = .thrown ⟨"accept", ECONNABORTED⟩) (by decide +kernel)
  obtain ⟨s', rest, exit⟩ := r
  have hret := (hall _ s' _ rest exit (ready_start 1 (by decide)) hr).1
  simp only at hexit
  rw [hret] at hexit
  cases hexit

/-! ### Draining a queue -/

/-- The kernel gives the pending clients numbers that are not open when they are accepted. -/
def Legal : Acceptor α → List ℤ → Prop
  | _, [] => True
  | s, n :: ns => 0 ≤ n ∧ s.world.files n = none ∧ Legal (s.iteration n none none).1 ns

instance decidableLegal : ∀ (s : Acceptor α) (ns : List ℤ), Decidable (Legal s ns)
  | _, [] => isTrue trivial
  | s, n :: ns =>
      have := decidableLegal (s.iteration n none none).1 ns
      inferInstanceAs (Decidable (0 ≤ n ∧ s.world.files n = none ∧ Legal (s.iteration n none none).1 ns))

/-- The free places of the pool. -/
def room (s : Acceptor α) : ℕ := s.world.pool.maxConnections - s.world.pool.connections.entries.length

theorem room_keep {s : Acceptor α} {n : ℤ} (h : Ready s) (hf : s.world.files n = none) :
    (s.keep n).room = s.room - 1 := by
  show s.world.pool.maxConnections - (s.pooled n).connections.entries.length = _
  rw [length_pooled (h.getConnection_none hf), room]
  omega

/-- What a call that admits `k` clients of the queue `ns` in arrival order leaves: the first `k`
are pooled and registered round-robin, the others are neither, and what was there before is
unchanged. -/
structure Drained (s : Acceptor α) (ns : List ℤ) (k : ℕ) (s' : Acceptor α) : Prop where
  extends_old : Extends s.world s'.world
  clients : s'.world.accepted = s.world.accepted + ns.length
  taken : ∀ j n, ns[j]? = some n → j < k →
    s'.world.pool.getConnection n = some (s.world.accepted + j) ∧
      s'.world.files n = some (s.world.accepted + j) ∧
      ∀ i, (s'.world.epoll i n).isSome = true ↔ i = (s.nextLoopIdx + j) % s.loops
  refused : ∀ j n, ns[j]? = some n → k ≤ j →
    (∀ m, s'.world.pool.getConnection m ≠ some (s.world.accepted + j)) ∧
      s'.world.pool.getConnection n = none ∧ ∀ i, s'.world.epoll i n = none
  loops : s'.loops = s.loops
  next : s'.nextLoopIdx = (s.nextLoopIdx + k) % s.loops

theorem le_of_room {s : Acceptor α} (hfull : s.room = 0) :
    s.world.pool.maxConnections ≤ s.world.pool.connections.entries.length := by
  unfold room at hfull
  omega

theorem room_turnAway {s : Acceptor α} {n : ℤ} (hn : 0 ≤ n) : (s.turnAway n).room = s.room := by
  unfold room turnAway
  rw [refuse_pool hn]

/-- A call that finds the pool full changes neither the pool nor the epoll sets. -/
theorem drain_full {s : Acceptor α} {ns : List ℤ} (h : Ready s) (hq : Legal s ns) (hfull : s.room = 0) :
    ∃ s', s.handleAccept (ns.map .client) = some (s', [], .returned) ∧ Ready s' ∧ Extends s.world s'.world ∧
      s'.world.accepted = s.world.accepted + ns.length ∧ s'.world.pool = s.world.pool ∧
      (∀ i m, s'.world.epoll i m = s.world.epoll i m) ∧ s'.loops = s.loops ∧ s'.nextLoopIdx = s.nextLoopIdx := by
  induction ns generalizing s with
  | nil => exact ⟨s, rfl, h, Extends.refl _, rfl, rfl, fun _ _ => rfl, rfl, rfl⟩
  | cons n ns ih =>
      obtain ⟨hn, hf, hq'⟩ := hq
      have hit := (iteration_ready h hn hf).2 (le_of_room hfull)
      rw [hit] at hq'
      have hclosed : Closed n (twice s.world.accepted) s.world (s.turnAway n).world := closed_refuse hn
      have hpool : (s.turnAway n).world.pool = s.world.pool := refuse_pool hn
      have hfull' : (s.turnAway n).room = 0 := (room_turnAway hn).trans hfull
      obtain ⟨s', hs', hready, hext, hacc, hp, he, hl, hi⟩ := ih (ready_turnAway h hn hf) hq' hfull'
      refine ⟨s', ?_, hready, (extends_turnAway h hn hf).trans hext, ?_, hp.trans hpool, ?_, hl, hi⟩
      · simp only [List.map_cons, handleAccept, socketAccept, hn, hf, and_self, if_true, hit]
        exact hs'
      · rw [hacc, hclosed.elsewhere.accepted, List.length_cons]
        exact Nat.add_right_comm _ _ _
      · intro i m
        rw [he i m]
        by_cases hm : m = n
        · rw [hm, hclosed.unregistered i, h.unregistered i n hf]
        · exact hclosed.elsewhere.epoll i m hm

/-- Numbers of a legal queue for a full pool are not open before the call, so they stay out of
the pool and the epoll sets. -/
theorem legal_full {s : Acceptor α} {ns : List ℤ} (h : Ready s) (hq : Legal s ns) (hfull : s.room = 0) {j : ℕ}
    {n : ℤ} (hj : ns[j]? = some n) : s.world.files n = none := by
  induction ns generalizing s j with
  | nil => simp at hj
  | cons a ns ih =>
      obtain ⟨ha, hf, hq'⟩ := hq
      cases j with
      | zero =>
          cases hj
          exact hf
      | succ j =>
          rw [(iteration_ready h ha hf).2 (le_of_room hfull)] at hq'
          have hclosed : Closed a (twice s.world.accepted) s.world (s.turnAway a).world := closed_refuse ha
          have hfull' : (s.turnAway a).room = 0 := (room_turnAway ha).trans hfull
          have hopen := ih (ready_turnAway h ha hf) hq' hfull' hj
          by_cases hna : n = a
          · rw [hna]
            exact hf
          · rw [← hclosed.elsewhere.files n hna]
            exact hopen

theorem drained_full {s : Acceptor α} {ns : List ℤ} (h : Ready s) (hq : Legal s ns) (hfull : s.room = 0) :
    ∃ s', s.handleAccept (ns.map .client) = some (s', [], .returned) ∧ Drained s ns 0 s' := by
  obtain ⟨s', hs', -, hext, hacc, hp, he, hl, hi⟩ := drain_full h hq hfull
  refine ⟨s', hs', hext, hacc, ?_, ?_, hl, ?_⟩
  · intro j n _ hj
    omega
  · intro j n hj _
    have hopen := legal_full h hq hfull hj
    refine ⟨?_, ?_, ?_⟩
    · intro m hm
      rw [hp] at hm
      exact Nat.not_lt_of_le (Nat.le_add_right _ _) (h.open_of_pooled m _ hm).2
    · rw [hp]
      exact h.getConnection_none hopen
    · intro i
      rw [he i n]
      exact h.unregistered i n hopen
  · rw [hi, Nat.add_zero, Nat.mod_eq_of_lt h.idx]

/-- **Exact admission.**  For every pool in order and every finite queue with legal numbers,
the call returns with the queue empty; with `k` the smaller of the length of the queue and the
free places, the first `k` clients are pooled and registered, round-robin from
`next_loop_idx_`, the later ones are neither, and the pooled connections are unchanged. -/
theorem admission (s : Acceptor α) (ns : List ℤ) (h : Ready s) (hq : Legal s ns) :
    ∃ s', s.handleAccept (ns.map .client) = some (s', [], .returned) ∧
      Drained s ns (min ns.length s.room) s' := by
  induction ns generalizing s with
  | nil =>
      refine ⟨s, rfl, Extends.refl _, rfl, by simp, by simp, rfl, ?_⟩
      simp [Nat.mod_eq_of_lt h.idx]
  | cons n ns ih =>
      rcases Nat.eq_zero_or_pos s.room with hfull | hroom
      · rw [hfull, Nat.min_zero]
        exact drained_full h hq hfull
      · obtain ⟨hn, hf, hq'⟩ := hq
        have hlt : s.world.pool.connections.entries.length < s.world.pool.maxConnections := by
          unfold room at hroom
          omega
        have hit := (iteration_ready h hn hf).1 hlt
        rw [hit] at hq'
        have hkept := kept_keep (h.fresh hn hf)
        have hready := ready_keep h hn hf hlt
        obtain ⟨s', hs', hd⟩ := ih (s.keep n) hready hq'
        have hmin : min (n :: ns).length s.room = min ns.length (s.keep n).room + 1 := by
          rw [room_keep h hf, List.length_cons]
          omega
        have hidx : ∀ j, ((s.keep n).nextLoopIdx + j) % s.loops = (s.nextLoopIdx + (j + 1)) % s.loops := by
          intro j
          show ((s.nextLoopIdx + 1) % s.loops + j) % s.loops = _
          rw [Nat.mod_add_mod]
          congr 1
          omega
        have hacc : ∀ j, (s.keep n).world.accepted + j = s.world.accepted + (j + 1) := by
          intro j
          rw [hkept.elsewhere.accepted]
          omega
        rw [hmin]
        refine ⟨s', ?_, (extends_keep h hn hf).trans hd.extends_old, ?_, ?_, ?_, hd.loops, ?_⟩
        · simp only [List.map_cons, handleAccept, socketAccept, hn, hf, and_self, if_true, hit]
          exact hs'
        · rw [hd.clients, hacc, List.length_cons]
        · intro j m hj hjk
          cases j with
          | zero =>
              cases hj
              obtain ⟨hp, -, hfile, hepoll⟩ :=
                hd.extends_old.pooled n s.world.accepted (getConnection_pooled_self s n)
              refine ⟨hp, hfile.trans hkept.file, ?_⟩
              intro i
              rw [hepoll i, hkept.registered i, Nat.add_zero, Nat.mod_eq_of_lt h.idx]
          | succ j =>
              have htaken := hd.taken j m hj (by omega)
              rw [hacc] at htaken
              refine ⟨htaken.1, htaken.2.1, ?_⟩
              intro i
              rw [htaken.2.2 i, ← hidx j]
              rfl
        · intro j m hj hjk
          cases j with
          | zero => omega
          | succ j =>
              have hrefused := hd.refused j m hj (by omega)
              rw [hacc] at hrefused
              exact hrefused
        · rw [hd.next, ← hidx]
          rfl

/-- Two loops and two places; the third client is turned away, and the fourth one gets the number
the third one had. -/
theorem admission_two :
    ∃ s', (start 2 2).handleAccept ([5, 6, 7, 7].map .client) = some (s', [], .returned) ∧
      s'.world.pool.getConnection 5 = some 0 ∧ (s'.world.epoll 1 6).isSome = true ∧
      s'.world.pool.getConnection 7 = none ∧ s'.nextLoopIdx = 0 := by
  obtain ⟨s', hs', hd⟩ := admission (start 2 2) [5, 6, 7, 7] (ready_start 2 (by decide))
    (by decide +kernel)
  refine ⟨s', hs', (hd.taken 0 5 rfl (by decide)).1, ((hd.taken 1 6 rfl (by decide)).2.2 1).mpr rfl,
    (hd.refused 3 7 rfl (by decide)).2.1, hd.next⟩

end Acceptor

/-! ### The interleaved server calls `HandleAccept` with its pool in order -/

namespace Sys

open World Transition

/-- The pool runs until the shutdown, is never overfull, and the index is a loop. -/
structure Tally (s : Sys) : Prop where
  runs : s.stopped = false → s.world.pool.running = true
  size : s.world.pool.connections.entries.length ≤ s.world.pool.maxConnections
  idx : s.nextLoopIdx < s.loops

theorem Tally.same {s s' : Sys} (h : Tally s) (hp : s'.world.pool = s.world.pool) (hl : s'.loops = s.loops)
    (hi : s'.nextLoopIdx = s.nextLoopIdx) (hs : s'.stopped = s.stopped) : Tally s' :=
  ⟨by rw [hp, hs]; exact h.runs, by rw [hp]; exact h.size, by rw [hi, hl]; exact h.idx⟩

theorem tally_step {s s' : Sys} {l : Label} (h : Tally s) (hs : step s l = some s') : Tally s' := by
  obtain ⟨-, -, he⟩ := step_effect hs
  cases he with
  | quiet hi ht hq => exact h.same hq.core.pool rfl rfl rfl
  | rejectDrop hpc => exact h.same (closeConn_pool _ _) rfl rfl rfl
  | @erase t n x ht hpc =>
      refine ⟨h.runs, Nat.le_trans ?_ h.size, h.idx⟩
      exact (List.kerase_sublist n s.world.pool.connections.entries).length_le
  | @add n x pool hl hpc hlock hadd =>
      rw [ConnectionPool.addConnection_eq] at hadd
      split at hadd
      · next ht =>
          cases hadd
          simp only [ConnectionPool.takesIn, Bool.and_eq_true, decide_eq_true_eq, Option.isNone_iff_eq_none] at ht
          obtain ⟨⟨hr, hroom⟩, hnone⟩ := ht
          have hmem : (s.world.conns x).fd ∉ s.world.pool.connections := AList.lookup_eq_none.mp hnone
          refine ⟨fun _ => hr, ?_, Nat.mod_lt _ (Nat.lt_of_le_of_lt (Nat.zero_le _) h.idx)⟩
          show (s.world.pool.connections.insert (s.world.conns x).fd x).entries.length ≤ _
          rw [AList.entries_insert_of_notMem hmem]
          exact hroom
      · cases hadd
  | shutdown hpc hj hlock => exact ⟨fun hstop => (by cases hstop), Nat.zero_le _, h.idx⟩
  | _ => exact h.same rfl rfl rfl rfl

theorem tally_init (maxConnections : ℕ) (heartbeatTimeoutMs : ℤ) (threadNum : ℕ) :
    Tally (init maxConnections heartbeatTimeoutMs threadNum) := by
  refine ⟨fun _ => rfl, Nat.zero_le _, ?_⟩
  show 0 < if threadNum = 0 then 1 else threadNum
  split
  · exact Nat.one_pos
  · omega

/-- What `HandleAccept` works on in the interleaved server. -/
def acceptor (s : Sys) : Acceptor Byte := ⟨s.world, s.loops, s.nextLoopIdx, true⟩

/-- In every run, whenever no removal is under way and the server has not stopped, the pool is
in order for `HandleAccept`. -/
theorem ready_of_reach {ok : Sys → Label → Prop} {maxConnections threadNum : ℕ} {heartbeatTimeoutMs : ℤ} {s : Sys}
    (h : Reach step ok (init maxConnections heartbeatTimeoutMs threadNum) s) (hlock : s.lock = none)
    (hstop : s.stopped = false) : s.acceptor.Ready := by
  have hc : Core s := core_reach h
  have ht : Tally s := h.invariant Tally (tally_init _ _ _) (fun _ _ _ hi _ hs => tally_step hi hs)
  refine ⟨?_, ?_, ht.runs hstop, ht.size, ht.idx⟩
  · intro m y hy
    have hopen := hc.open_of_unlocked hlock hy
    have hnum := (hc.pooled m y hy).1
    exact ⟨by rw [← hnum]; exact hopen.file, hc.lt_of_pooled hy⟩
  · intro i m hm
    rw [← Option.not_isSome_iff_eq_none]
    intro hreg
    obtain ⟨y, hy, -⟩ := hc.epoll i m hreg
    have hm' : s.world.files m = none := hm
    rw [hm'] at hy
    cases hy

end Sys

end TcpServer
