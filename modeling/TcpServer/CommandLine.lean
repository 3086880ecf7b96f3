import TcpServer.Logger
import Mathlib.Algebra.Order.Ring.Int
import Mathlib.Data.List.TakeWhile
import Mathlib.Logic.Function.Basic

/-! # The command line (`main.cpp`)

The loop of `main` walks through the arguments; an option with a value takes the next argument,
whatever it is, and an option at the very end is ignored.  Numbers go through `std::stoi`,
`std::stoll` and `std::stoull`, which skip white space, read an optional sign and the longest run
of digits, and throw when there is no digit or the value does not fit.  `std::stoull` takes a minus
sign and negates modulo `2 ^ 64`; the port is cast from `int` to `uint16_t`.

`occurrences` are the options of a command line with the values the loop takes for them, and
`faceValue` is the number a numeral stands for.  `face_value_iff`: when all numeric options have
numerals, the numbers of the configuration are those of the last occurrences *iff* the loop is left
by help or by an exception, or the last port is a port and the last connection limit is not
negative. -/

namespace TcpServer

namespace CommandLine

/-! ### Conversions of the standard library -/

inductive Exception where
  | invalidArgument (what : String)
  | outOfRange (what : String)
deriving DecidableEq, Repr

/-- `isspace` in the C locale. -/
def isSpace (c : Char) : Bool :=
  c = ' ' || c = '\t' || c = '\n' || c = '\x0b' || c = '\x0c' || c = '\r'

/-- The number a run of digits stands for. -/
def decimal (ds : List Char) : ℕ := ds.foldl (fun n c => n * 10 + (c.toNat - '0'.toNat)) 0

/-- The sign and what follows it. -/
def splitSign : List Char → Bool × List Char
  | '-' :: cs => (true, cs)
  | '+' :: cs => (false, cs)
  | cs => (false, cs)

/-- What `strtol` and its relatives read in base ten: whether there is a minus sign, and the
magnitude. -/
def leadingNumber (s : String) : Option (Bool × ℕ) :=
  let (neg, cs) := splitSign (s.toList.dropWhile isSpace)
  let ds := cs.takeWhile Char.isDigit
  if ds = [] then none else some (neg, decimal ds)

def signed (neg : Bool) (m : ℕ) : ℤ := if neg then -m else m

/-- A conversion to a signed type with values from `lo` to `hi`. -/
def stoSigned (what : String) (lo hi : ℤ) (s : String) : Except Exception ℤ :=
  match leadingNumber s with
  | none => .error (.invalidArgument what)
  | some (neg, m) =>
      if lo ≤ signed neg m ∧ signed neg m ≤ hi then .ok (signed neg m) else .error (.outOfRange what)

/-- `std::stoi`. -/
def stoi : String → Except Exception ℤ := stoSigned "stoi" (-2 ^ 31) (2 ^ 31 - 1)

/-- `std::stoll`. -/
def stoll : String → Except Exception ℤ := stoSigned "stoll" (-2 ^ 63) (2 ^ 63 - 1)

/-- `std::stoull`. -/
def stoull (s : String) : Except Exception ℕ :=
  match leadingNumber s with
  | none => .error (.invalidArgument "stoull")
  | some (neg, m) => if m < 2 ^ 64 then .ok (signed neg m % 2 ^ 64).toNat else .error (.outOfRange "stoull")

/-! ### The loop of `main` -/

/-- `Server::Config`, as far as `main` sets it. -/
structure Config where
  ip : String := "0.0.0.0"
  port : ℕ := 9999
  backlog : ℤ := 128
  maxConnections : ℕ := 100000
  heartbeatTimeoutMs : ℤ := 60000
  logLevel : LogLevel := .info
deriving DecidableEq, Repr

/-- The options that take a value. -/
inductive Key where
  | port
  | ip
  | backlog
  | maxConn
  | timeout
deriving DecidableEq, Repr

inductive Opt where
  | help
  | takes (k : Key)
  | verbose
  | unknown
deriving DecidableEq, Repr

/-- The comparisons of the loop body. -/
def optionOf (arg : String) : Opt :=
  if arg = "-h" ∨ arg = "--help" then .help
  else if arg = "-p" ∨ arg = "--port" then .takes .port
  else if arg = "-i" ∨ arg = "--ip" then .takes .ip
  else if arg = "-b" ∨ arg = "--backlog" then .takes .backlog
  else if arg = "-c" ∨ arg = "--max-conn" then .takes .maxConn
  else if arg = "-t" ∨ arg = "--timeout" then .takes .timeout
  else if arg = "-v" ∨ arg = "--verbose" then .verbose
  else .unknown

/-- How the loop is left early. -/
inductive Exit where
  | help
  | thrown (e : Exception)
deriving DecidableEq, Repr

/-- An exception of a conversion leaves `main`. -/
def orThrow {β : Type} : Except Exception β → Except Exit β
  | .ok b => .ok b
  | .error e => .error (.thrown e)

/-- The assignment of the value `v`. -/
def assign (k : Key) (v : String) (c : Config) : Except Exit Config :=
  match k with
  | .port => (orThrow (stoi v)).map fun n => { c with port := (n % 2 ^ 16).toNat }
  | .ip => .ok { c with ip := v }
  | .backlog => (orThrow (stoi v)).map fun n => { c with backlog := n }
  | .maxConn => (orThrow (stoull v)).map fun n => { c with maxConnections := n }
  | .timeout => (orThrow (stoll v)).map fun n => { c with heartbeatTimeoutMs := n }

/-- The loop of `main` over the arguments that are left. -/
def parse : List String → Config → Except Exit Config
  | [], c => .ok c
  | arg :: rest, c =>
      match optionOf arg with
      | .help => .error .help
      | .verbose => parse rest { c with logLevel := .debug }
      | .unknown => parse rest c
      | .takes k =>
          match rest with
          | [] => .ok c
          | v :: rest => (assign k v c).bind fun c => parse rest c

/-! ### What a command line says -/

/-- The options with their values, in the order in which the loop meets them. -/
def occurrences : List String → List (Key × String)
  | [] => []
  | arg :: rest =>
      match optionOf arg with
      | .help => []
      | .verbose => occurrences rest
      | .unknown => occurrences rest
      | .takes k =>
          match rest with
          | [] => []
          | v :: rest => (k, v) :: occurrences rest

/-- The loop comes to a help option. -/
def helpReached : List String → Bool
  | [] => false
  | arg :: rest =>
      match optionOf arg with
      | .help => true
      | .verbose => helpReached rest
      | .unknown => helpReached rest
      | .takes _ =>
          match rest with
          | [] => false
          | _ :: rest => helpReached rest

/-- The number a list of digits stands for, if it is one. -/
def digitsValue (ds : List Char) : Option ℕ :=
  if ds ≠ [] ∧ ds.all Char.isDigit = true then some (decimal ds) else none

/-- The integer an optionally signed decimal numeral stands for. -/
def faceValue (v : String) : Option ℤ :=
  match v.toList with
  | '-' :: ds => (digitsValue ds).map fun n : ℕ => -(n : ℤ)
  | '+' :: ds => (digitsValue ds).map fun n : ℕ => (n : ℤ)
  | ds => (digitsValue ds).map fun n : ℕ => (n : ℤ)

/-- The last value of option `k`. -/
def lastValue (k : Key) (ps : List (Key × String)) : Option String :=
  ((ps.filter fun p => decide (p.1 = k)).getLast?).map Prod.snd

/-- The number of the last occurrence of option `k`, or the default. -/
def face (k : Key) (default : ℤ) (args : List String) : ℤ :=
  ((lastValue k (occurrences args)).bind faceValue).getD default

/-- The four numbers of a configuration are taken at face value. -/
structure AtFaceValue (args : List String) (c : Config) : Prop where
  port : (c.port : ℤ) = face .port 9999 args
  backlog : c.backlog = face .backlog 128 args
  maxConnections : (c.maxConnections : ℤ) = face .maxConn 100000 args
  heartbeatTimeoutMs : c.heartbeatTimeoutMs = face .timeout 60000 args

/-- The value of option `k` is a number its conversion refuses. -/
def refused (p : Key × String) : Bool :=
  match p.1, faceValue p.2 with
  | .port, some n => decide (n < -2 ^ 31 ∨ 2 ^ 31 ≤ n)
  | .backlog, some n => decide (n < -2 ^ 31 ∨ 2 ^ 31 ≤ n)
  | .timeout, some n => decide (n < -2 ^ 63 ∨ 2 ^ 63 ≤ n)
  | .maxConn, some n => decide (2 ^ 64 ≤ n.natAbs)
  | _, _ => false

/-! ### Conversions of numerals -/

section numerals

variable {v : String} {n : ℤ} {ds : List Char} {m : ℕ}

theorem digitsValue_some (h : digitsValue ds = some m) :
    ds ≠ [] ∧ (∀ c ∈ ds, c.isDigit = true) ∧ ds.takeWhile Char.isDigit = ds ∧ decimal ds = m := by
  unfold digitsValue at h
  split_ifs at h with hd
  have hall : ∀ c ∈ ds, c.isDigit = true := List.all_eq_true.mp hd.2
  exact ⟨hd.1, hall, List.takeWhile_eq_self_iff.mpr hall, Option.some.inj h⟩

theorem isSpace_of_isDigit {c : Char} (h : c.isDigit = true) : isSpace c = false := by
  unfold isSpace
  simp only [Bool.or_eq_false_iff, decide_eq_false_iff_not]
  refine ⟨⟨⟨⟨⟨?_, ?_⟩, ?_⟩, ?_⟩, ?_⟩, ?_⟩ <;> rintro rfl <;> revert h <;> decide

theorem splitSign_of_isDigit {c : Char} {cs : List Char} (h : c.isDigit = true) :
    splitSign (c :: cs) = (false, c :: cs) := by
  unfold splitSign
  split
  · rename_i heq
    cases heq
    cases h
  · rename_i heq
    cases heq
    cases h
  · rfl

/-- A numeral is read to its end. -/
theorem leadingNumber_numeral (h : faceValue v = some n) :
    ∃ neg m, leadingNumber v = some (neg, m) ∧ signed neg m = n := by
  unfold faceValue at h
  split at h
  · rename_i ds hv
    obtain ⟨m, hm, rfl⟩ := Option.map_eq_some_iff.mp h
    obtain ⟨hne, -, htake, hdec⟩ := digitsValue_some hm
    refine ⟨true, m, ?_, rfl⟩
    have hsp : isSpace '-' = false := by decide
    simp [leadingNumber, hv, hsp, splitSign, htake, hne, hdec]
  · rename_i ds hv
    obtain ⟨m, hm, rfl⟩ := Option.map_eq_some_iff.mp h
    obtain ⟨hne, -, htake, hdec⟩ := digitsValue_some hm
    refine ⟨false, m, ?_, rfl⟩
    have hsp : isSpace '+' = false := by decide
    simp [leadingNumber, hv, hsp, splitSign, htake, hne, hdec]
  · obtain ⟨m, hm, rfl⟩ := Option.map_eq_some_iff.mp h
    obtain ⟨hne, hall, htake, hdec⟩ := digitsValue_some hm
    refine ⟨false, m, ?_, rfl⟩
    cases hv : v.toList with
    | nil => exact absurd hv hne
    | cons c cs =>
        have hc : c.isDigit = true := hall c (by rw [hv]; exact List.mem_cons_self)
        have hsp : isSpace c = false := isSpace_of_isDigit hc
        have hsign : splitSign (c :: cs) = (false, c :: cs) := splitSign_of_isDigit hc
        rw [hv] at htake hdec
        simp [leadingNumber, hv, hsp, hsign, htake, hdec]

theorem stoSigned_numeral (h : faceValue v = some n) (what : String) (lo hi : ℤ) :
    stoSigned what lo hi v = if lo ≤ n ∧ n ≤ hi then .ok n else .error (.outOfRange what) := by
  obtain ⟨neg, m, hl, rfl⟩ := leadingNumber_numeral h
  simp only [stoSigned, hl]

theorem stoull_numeral (h : faceValue v = some n) :
    stoull v = if n.natAbs < 2 ^ 64 then .ok (n % 2 ^ 64).toNat else .error (.outOfRange "stoull") := by
  obtain ⟨neg, m, hl, rfl⟩ := leadingNumber_numeral h
  have habs : (signed neg m).natAbs = m := by
    unfold signed
    split <;> omega
  simp only [stoull, hl, habs]

end numerals

/-! ### The last value wins -/

/-- The number of a configuration that option `k` stores to. -/
def Config.number (c : Config) : Key → ℤ
  | .port => c.port
  | .ip => 0
  | .backlog => c.backlog
  | .maxConn => c.maxConnections
  | .timeout => c.heartbeatTimeoutMs

/-- What becomes of a number that is not refused. -/
def conv : Key → ℤ → ℤ
  | .port, n => n % 2 ^ 16
  | .ip, _ => 0
  | .backlog, n => n
  | .maxConn, n => n % 2 ^ 64
  | .timeout, n => n

/-- An option that is not refused, on the numbers of the configuration. -/
def store (a : Key → ℤ) (p : Key × String) : Key → ℤ :=
  Function.update a p.1 (conv p.1 ((faceValue p.2).getD 0))

theorem lastValue_cons_self (k : Key) (v : String) (ps : List (Key × String)) :
    lastValue k ((k, v) :: ps) = some ((lastValue k ps).getD v) := by
  simp only [lastValue, List.filter_cons, decide_true, if_true, List.getLast?_cons, Option.map_some]
  cases (ps.filter fun p => decide (p.1 = k)).getLast? <;> rfl

theorem lastValue_cons_ne {k : Key} {p : Key × String} (hp : p.1 ≠ k) (ps : List (Key × String)) :
    lastValue k (p :: ps) = lastValue k ps := by
  simp [lastValue, hp]

theorem foldl_store (k : Key) (ps : List (Key × String)) (a : Key → ℤ) :
    (ps.foldl store a) k = ((lastValue k ps).map fun v => conv k ((faceValue v).getD 0)).getD (a k) := by
  induction ps generalizing a with
  | nil => rfl
  | cons p ps ih =>
      rw [List.foldl_cons, ih]
      by_cases hp : p.1 = k
      · obtain ⟨k', v⟩ := p
        obtain rfl : k' = k := hp
        rw [lastValue_cons_self, store, Function.update_self]
        cases lastValue k' ps <;> rfl
      · rw [lastValue_cons_ne hp, store, Function.update_of_ne (Ne.symm hp)]

theorem mem_of_lastValue {k : Key} {v : String} {ps : List (Key × String)} (h : lastValue k ps = some v) :
    (k, v) ∈ ps := by
  obtain ⟨⟨k', v'⟩, hp, rfl⟩ := Option.map_eq_some_iff.mp h
  obtain ⟨hmem, hk⟩ := List.mem_filter.mp (List.mem_of_getLast? hp)
  obtain rfl : k' = k := of_decide_eq_true hk
  exact hmem

/-! ### The loop -/

/-- The loop is left before its end: by a help option, or by a number that does not fit. -/
def exits (args : List String) : Prop := helpReached args = true ∨ ∃ p ∈ occurrences args, refused p = true

/-- Every numeric option has a numeral for its value. -/
def Numerals (args : List String) : Prop := ∀ p ∈ occurrences args, p.1 ≠ .ip → (faceValue p.2).isSome

/-- A conversion that is refused outside a condition, and what is stored otherwise. -/
theorem refused_or_stored {P : Prop} [Decidable P] {r : Bool} {x : Except Exit Config} {c' : Config} {e : Exit}
    {a : Key → ℤ} (hx : x = if P then .ok c' else .error e) (hr : r = true ↔ ¬ P) (hc : c'.number = a) :
    (r = true ∧ ∃ e, x = .error e) ∨ (r = false ∧ ∃ c', x = .ok c' ∧ c'.number = a) := by
  by_cases hP : P
  · rw [if_pos hP] at hx
    refine Or.inr ⟨?_, c', hx, hc⟩
    simpa [hP] using hr
  · rw [if_neg hP] at hx
    exact Or.inl ⟨hr.mpr hP, e, hx⟩

theorem orThrow_stoSigned {v : String} {n : ℤ} (hn : faceValue v = some n) (what : String) (lo hi : ℤ)
    (set : ℤ → Config) :
    (orThrow (stoSigned what lo hi v)).map set =
      if lo ≤ n ∧ n ≤ hi then .ok (set n) else .error (.thrown (.outOfRange what)) := by
  rw [stoSigned_numeral hn]
  split_ifs <;> rfl

theorem orThrow_stoull {v : String} {n : ℤ} (hn : faceValue v = some n) (set : ℕ → Config) :
    (orThrow (stoull v)).map set =
      if n.natAbs < 2 ^ 64 then .ok (set (n % 2 ^ 64).toNat) else .error (.thrown (.outOfRange "stoull")) := by
  rw [stoull_numeral hn]
  split_ifs <;> rfl

/-- A configuration with one number changed. -/
theorem number_eq_store {c c' : Config} {k : Key} {v : String} {n : ℤ} (hn : faceValue v = some n)
    (hk : c'.number k = conv k n) (hne : ∀ j, j ≠ k → c'.number j = c.number j) :
    c'.number = store c.number (k, v) := by
  funext j
  by_cases hj : j = k
  · subst hj
    rw [store, Function.update_self, hn]
    exact hk
  · rw [store, Function.update_of_ne hj]
    exact hne j hj

/-- One assignment: refused, or stored. -/
theorem assign_numeral {k : Key} {v : String} (hv : k ≠ .ip → (faceValue v).isSome) (c : Config) :
    (refused (k, v) = true ∧ ∃ e, assign k v c = .error e) ∨
      (refused (k, v) = false ∧ ∃ c', assign k v c = .ok c' ∧ c'.number = store c.number (k, v)) := by
  cases k with
  | ip =>
      refine Or.inr ⟨rfl, _, rfl, ?_⟩
      funext j
      cases j <;> rfl
  | port =>
      obtain ⟨n, hn⟩ := Option.isSome_iff_exists.mp (hv (by decide))
      have hx := orThrow_stoSigned hn "stoi" (-2 ^ 31) (2 ^ 31 - 1)
        fun n : ℤ => ({ c with port := (n % 2 ^ 16).toNat } : Config)
      refine refused_or_stored hx ?_ (number_eq_store hn ?_ ?_)
      · simp only [refused, hn, decide_eq_true_eq]
        omega
      · simp only [Config.number, conv]
        omega
      · intro j hj
        cases j <;> first | rfl | exact absurd rfl hj
  | backlog =>
      obtain ⟨n, hn⟩ := Option.isSome_iff_exists.mp (hv (by decide))
      refine refused_or_stored (orThrow_stoSigned hn _ _ _ fun n => { c with backlog := n }) ?_
        (number_eq_store hn rfl ?_)
      · simp only [refused, hn, decide_eq_true_eq]
        omega
      · intro j hj
        cases j <;> first | rfl | exact absurd rfl hj
  | maxConn =>
      obtain ⟨n, hn⟩ := Option.isSome_iff_exists.mp (hv (by decide))
      refine refused_or_stored (orThrow_stoull hn fun n => { c with maxConnections := n }) ?_
        (number_eq_store hn ?_ ?_)
      · simp only [refused, hn, decide_eq_true_eq]
        omega
      · simp only [Config.number, conv]
        omega
      · intro j hj
        cases j <;> first | rfl | exact absurd rfl hj
  | timeout =>
      obtain ⟨n, hn⟩ := Option.isSome_iff_exists.mp (hv (by decide))
      refine refused_or_stored (orThrow_stoSigned hn _ _ _ fun n => { c with heartbeatTimeoutMs := n }) ?_
        (number_eq_store hn rfl ?_)
      · simp only [refused, hn, decide_eq_true_eq]
        omega
      · intro j hj
        cases j <;> first | rfl | exact absurd rfl hj

/-- The loop is left early exactly when `exits` says so, and otherwise the numbers of the
configuration are those of the options, stored one after the other. -/
theorem parse_numerals (args : List String) (c : Config) (hnum : Numerals args) :
    (exits args ∧ ∃ e, parse args c = .error e) ∨
      (¬ exits args ∧ ∃ c', parse args c = .ok c' ∧ c'.number = (occurrences args).foldl store c.number) := by
  unfold exits
  unfold Numerals at hnum
  fun_induction parse args c with
  | case1 c => exact Or.inr ⟨by simp [helpReached, occurrences], c, rfl, rfl⟩
  | case2 arg rest c ho =>
      rw [helpReached.eq_def]
      exact Or.inl ⟨Or.inl (by simp [ho]), _, rfl⟩
  | case3 arg rest c ho ih =>
      have hsame : Config.number { c with logLevel := .debug } = c.number := by
        funext j
        cases j <;> rfl
      rw [helpReached.eq_def]
      simp only [occurrences, ho] at hnum ⊢
      rw [← hsame]
      exact ih hnum
  | case4 arg rest c ho ih =>
      rw [helpReached.eq_def]
      simp only [occurrences, ho] at hnum ⊢
      exact ih hnum
  | case5 arg c k ho => exact Or.inr ⟨by simp [helpReached, occurrences, ho], c, rfl, by simp [occurrences, ho]⟩
  | case6 arg c k ho v rest ih =>
      simp only [helpReached, occurrences, ho, List.mem_cons, exists_eq_or_imp, List.foldl_cons] at hnum ⊢
      obtain ⟨href, e, he⟩ | ⟨href, c₁, hc₁, hstore⟩ := assign_numeral (hnum (k, v) (Or.inl rfl)) c
      · exact Or.inl ⟨Or.inr (Or.inl href), e, by rw [he]; rfl⟩
      · rw [← hstore, hc₁]
        simp only [href, Bool.false_eq_true, false_or]
        exact ih c₁ fun p hp => hnum p (Or.inr hp)

/-! ### Face values -/

section face

variable {args : List String} {k : Key}

/-- The number of an option is its default or the value of its last numeral. -/
theorem face_cases (hk : k ≠ .ip) (hnum : Numerals args) (default : ℤ) :
    (lastValue k (occurrences args) = none ∧ face k default args = default) ∨
      ∃ v n, lastValue k (occurrences args) = some v ∧ (k, v) ∈ occurrences args ∧ faceValue v = some n ∧
        face k default args = n := by
  cases hl : lastValue k (occurrences args) with
  | none => exact Or.inl ⟨rfl, by simp [face, hl]⟩
  | some v =>
      have hm := mem_of_lastValue hl
      obtain ⟨n, hn⟩ := Option.isSome_iff_exists.mp (hnum (k, v) hm hk)
      exact Or.inr ⟨v, n, rfl, hm, hn, by simp [face, hl, hn]⟩

/-- A default is a value its field can hold. -/
theorem conv_default (k : Key) : conv k (({} : Config).number k) = ({} : Config).number k := by
  cases k <;> decide

/-- The configuration of a command line that does not exit. -/
theorem number_eq_conv_face {c : Config} (hk : k ≠ .ip) (hnum : Numerals args)
    (hc : c.number = (occurrences args).foldl store ({} : Config).number) :
    c.number k = conv k (face k (({} : Config).number k) args) := by
  rw [hc, foldl_store]
  obtain ⟨hl, hf⟩ | ⟨v, n, hl, -, hn, hf⟩ := face_cases hk hnum (({} : Config).number k)
  · rw [hl, hf, conv_default]
    rfl
  · rw [hl, hf]
    simp [hn]

/-- A connection limit that is not refused is below `2 ^ 64`. -/
theorem face_maxConn_lt (hnum : Numerals args) (hno : ¬ exits args) : face .maxConn 100000 args < 2 ^ 64 := by
  obtain ⟨-, hf⟩ | ⟨v, n, -, hm, hn, hf⟩ := face_cases (k := .maxConn) (by decide) hnum 100000
  · rw [hf]
    decide
  · have hfits : ¬ refused (.maxConn, v) = true := fun hr => hno (Or.inr ⟨_, hm, hr⟩)
    simp only [refused, hn, decide_eq_true_eq] at hfits
    rw [hf]
    omega

end face

/-- **Numbers at face value.**  For every command line on which all numeric options have numerals:
the configuration, if there is one, has the numbers of the last occurrences if and only if the loop
exits, or the last port is from `0` to `65535` and the last connection limit is not negative. -/
theorem face_value_iff (args : List String) (hnum : Numerals args) :
    (∀ c, parse args {} = .ok c → AtFaceValue args c) ↔
      exits args ∨ (0 ≤ face .port 9999 args ∧ face .port 9999 args < 2 ^ 16 ∧
        0 ≤ face .maxConn 100000 args) := by
  obtain ⟨hex, e, he⟩ | ⟨hno, c, hc, hstore⟩ := parse_numerals args {} hnum
  · refine ⟨fun _ => Or.inl hex, fun _ c hc => ?_⟩
    rw [he] at hc
    cases hc
  · have hport : (c.port : ℤ) = face .port 9999 args % 2 ^ 16 :=
      number_eq_conv_face (k := .port) (by decide) hnum hstore
    have hbacklog : c.backlog = face .backlog 128 args := number_eq_conv_face (k := .backlog) (by decide) hnum hstore
    have hmax : (c.maxConnections : ℤ) = face .maxConn 100000 args % 2 ^ 64 :=
      number_eq_conv_face (k := .maxConn) (by decide) hnum hstore
    have htimeout : c.heartbeatTimeoutMs = face .timeout 60000 args :=
      number_eq_conv_face (k := .timeout) (by decide) hnum hstore
    have hfits := face_maxConn_lt hnum hno
    constructor
    · intro h
      have hface := h c hc
      have h1 := hface.port
      have h2 := hface.maxConnections
      refine Or.inr ⟨?_, ?_, ?_⟩ <;> omega
    · rintro (hex | ⟨h1, h2, h3⟩) c' hc'
      · exact absurd hex hno
      · rw [hc] at hc'
        cases hc'
        refine ⟨?_, hbacklog, ?_, htimeout⟩ <;> omega

/-- The port is given twice, the address swallows an option, and the last option has no value. -/
def portTwice : List String := ["-p", "1", "-i", "-p", "--port", "+8080", "-c", "007", "-t"]

theorem portTwice_atFaceValue : ∃ c, parse portTwice {} = .ok c ∧ AtFaceValue portTwice c := by
  have hc : parse portTwice {} = .ok { ip := "-p", port := 8080, maxConnections := 7 } := by decide +kernel
  have hnum : Numerals portTwice := by
    unfold Numerals
    decide +kernel
  have hcond : 0 ≤ face .port 9999 portTwice ∧ face .port 9999 portTwice < 2 ^ 16 ∧
      0 ≤ face .maxConn 100000 portTwice := by decide +kernel
  exact ⟨_, hc, (face_value_iff portTwice hnum).mpr (Or.inr hcond) _ hc⟩

/-- `-p 70000` listens on port 4464, and `-c -1` allows `2 ^ 64 - 1` connections. -/
theorem face_value_wraps :
    Numerals ["-p", "70000"] ∧ parse ["-p", "70000"] {} = .ok { port := 4464 } ∧
      ¬ AtFaceValue ["-p", "70000"] { port := 4464 } ∧
      Numerals ["-c", "-1"] ∧ parse ["-c", "-1"] {} = .ok { maxConnections := 2 ^ 64 - 1 } ∧
      ¬ AtFaceValue ["-c", "-1"] { maxConnections := 2 ^ 64 - 1 } := by
  refine ⟨by unfold Numerals; decide +kernel, by decide +kernel, ?_, by unfold Numerals; decide +kernel,
    by decide +kernel, ?_⟩
  · intro h
    exact absurd h.port (by decide +kernel)
  · intro h
    exact absurd h.maxConnections (by decide +kernel)

end CommandLine

end TcpServer
