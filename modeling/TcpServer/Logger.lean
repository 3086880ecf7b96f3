import TcpServer.Transition

/-! # The asynchronous logger (`util/log.cpp`)

Two buffers and one log thread.  `WriteLog` appends a line to the active buffer; when the
line does not fit it calls `SwapBuffers` first.  `Flush` (also called by `WriteLog` for a
`FATAL` line and by `Shutdown`) swaps, and every iteration of `LogThreadFunc` swaps and
hands the backup buffer to `WriteToFile`.  `SwapBuffers` sets the size of the buffer it
makes active to zero, so a backup buffer that still holds bytes loses them.

The steps of the system are the appends, the flushes, the loop test, one iteration of the
log thread, `Shutdown` up to its join, and the join itself; they interleave in any order.
The log thread tests `running_`, then waits, then swaps and writes, so an iteration may
still run after `Shutdown` has cleared `running_`.

`written_eq_lines_iff`: when `Shutdown` has joined the log thread, the bytes handed to
`WriteToFile` are the lines in order *exactly when* no swap ever found unwritten bytes in
the backup buffer. -/

namespace TcpServer

open Transition

/-! ### Log lines -/

/-- `enum class LogLevel`. -/
inductive LogLevel where
  | debug
  | info
  | warn
  | error
  | fatal
deriving DecidableEq, Repr

/-- The enumerator's value. -/
def LogLevel.value : LogLevel → ℕ
  | debug => 0
  | info => 1
  | warn => 2
  | error => 3
  | fatal => 4

/-- `Logger::LevelToString`. -/
def levelToString : LogLevel → String
  | .debug => "DEBUG"
  | .info => "INFO"
  | .warn => "WARN"
  | .error => "ERROR"
  | .fatal => "FATAL"

/-- The arguments of a `WriteLog` call, with the time stamp, the thread id and the line
number as the texts the stream prints for them. -/
structure LogRecord where
  level : LogLevel
  timestamp : String
  threadId : String
  file : String
  line : String
  message : String
deriving DecidableEq, Repr

/-- The bytes of `log_line`, one `Char` for each `char`. -/
def logLine (r : LogRecord) : List Char :=
  "[".toList ++ r.timestamp.toList ++ "] [Thread:".toList ++ r.threadId.toList ++
    "] [".toList ++ (levelToString r.level).toList ++ "] [".toList ++ r.file.toList ++
    ":".toList ++ r.line.toList ++ "] ".toList ++ r.message.toList ++ "\n".toList

/-! ### Buffers and the logger -/

/-- `Logger::LogBuffer`: `data` is `buffer[0 .. size)`. -/
structure LogBuffer where
  data : List Char
  capacity : ℕ
deriving DecidableEq, Repr

def LogBuffer.size (b : LogBuffer) : ℕ := b.data.length

/-- `size = 0`. -/
def LogBuffer.clear (b : LogBuffer) : LogBuffer := { b with data := [] }

/-- Where the log thread stands: at the test of `while (running_)`, in `cv_.wait_for`, or
returned. -/
inductive LogThread where
  | test
  | waiting
  | done
deriving DecidableEq, Repr

/-- The logger with its log thread.  `written` is everything handed to `WriteToFile`;
`joined` says that `Shutdown` got past the join. -/
structure Logger where
  logLevel : LogLevel
  running : Bool
  activeBuffer : LogBuffer
  backupBuffer : LogBuffer
  thread : LogThread
  joined : Bool
  written : List Char
deriving DecidableEq, Repr

namespace Logger

/-- The logger after `Init`, with buffers of the given capacity. -/
def init (bufferCapacity : ℕ) (level : LogLevel) : Logger where
  logLevel := level
  running := true
  activeBuffer := ⟨[], bufferCapacity⟩
  backupBuffer := ⟨[], bufferCapacity⟩
  thread := .test
  joined := false
  written := []

/-- `Logger::WriteToFile`, which returns at once on an empty buffer. -/
def writeToFile (b : LogBuffer) (s : Logger) : Logger := { s with written := s.written ++ b.data }

/-- `Logger::SwapBuffers`. -/
def swapBuffers (s : Logger) : Logger :=
  { s with backupBuffer := s.activeBuffer, activeBuffer := s.backupBuffer.clear }

/-- `Logger::Flush`; the notification only wakes the log thread. -/
def flush (s : Logger) : Logger := s.swapBuffers

/-- The line does not fit into the active buffer. -/
def overflows (s : Logger) (r : LogRecord) : Bool :=
  s.activeBuffer.capacity < s.activeBuffer.size + (logLine r).length

/-- The `memcpy` and the size update of `WriteLog`. -/
def append (r : LogRecord) (s : Logger) : Logger :=
  { s with activeBuffer := { s.activeBuffer with data := s.activeBuffer.data ++ logLine r } }

/-- The critical section of `WriteLog`; the flag is false when it returns without
appending. -/
def appendLine (r : LogRecord) (s : Logger) : Logger × Bool :=
  if s.overflows r then
    if s.swapBuffers.overflows r then (s.swapBuffers, false)
    else (s.swapBuffers.append r, true)
  else (s.append r, true)

/-- `Logger::WriteLog`. -/
def writeLog (r : LogRecord) (s : Logger) : Logger :=
  if r.level.value < s.logLevel.value then s
  else
    match s.appendLine r with
    | (s', false) => s'
    | (s', true) => if r.level = .fatal then s'.flush else s'

/-- The body of `LogThreadFunc`'s loop after the wait. -/
def iterate (s : Logger) : Logger :=
  let s := s.swapBuffers
  if 0 < s.backupBuffer.size then
    { s.writeToFile s.backupBuffer with backupBuffer := s.backupBuffer.clear }
  else s

/-- What `LogThreadFunc` writes after its loop: the active buffer, then the backup one. -/
def drain (s : Logger) : Logger :=
  let s := if 0 < s.activeBuffer.size then s.writeToFile s.activeBuffer else s
  if 0 < s.backupBuffer.size then s.writeToFile s.backupBuffer else s

/-! ### Steps -/

inductive Label where
  | append (r : LogRecord)
  | flush
  | loopTest
  | iterate
  | shutdown
  | join
deriving DecidableEq, Repr

/-- One atomic step.  `append r` is a `WriteLog` call up to the end of its critical
section; the flush of a `FATAL` line is a `flush` step of its own (`writeLog_eq_run`). -/
def step (s : Logger) : Label → Option Logger
  | .append r => some (if r.level.value < s.logLevel.value then s else (s.appendLine r).1)
  | .flush => some s.flush
  | .loopTest =>
      match s.thread with
      | .test => some (if s.running then { s with thread := .waiting }
          else { s.drain with thread := .done })
      | _ => none
  | .iterate =>
      match s.thread with
      | .waiting => some { s.iterate with thread := .test }
      | _ => none
  | .shutdown => some { s with running := false }.flush
  | .join => if s.running = false ∧ s.thread = .done then some { s with joined := true } else none

/-- The steps of one `WriteLog` call. -/
def writeLogSteps (r : LogRecord) (s : Logger) : List Label :=
  if s.logLevel.value ≤ r.level.value ∧ (s.appendLine r).2 = true ∧ r.level = .fatal
  then [.append r, .flush] else [.append r]

theorem writeLog_eq_run (r : LogRecord) (s : Logger) :
    run step s (writeLogSteps r s) = some (s.writeLog r) := by
  unfold writeLog writeLogSteps
  by_cases hl : r.level.value < s.logLevel.value
  · have hn : ¬ s.logLevel.value ≤ r.level.value := by omega
    simp [hl, hn, run, step]
  · have hn : s.logLevel.value ≤ r.level.value := by omega
    rcases ha : s.appendLine r with ⟨s', b⟩
    cases b with
    | false => simp [hl, ha, run, step]
    | true =>
        by_cases hf : r.level = .fatal
        · rw [if_pos ⟨hn, rfl, hf⟩, if_neg hl]
          simp only [run, step, if_neg hl, ha, Option.bind_some, if_pos hf]
        · rw [if_neg (fun h => hf h.2.2), if_neg hl]
          simp [run, step, hl, ha, hf]

/-! ### What a run must not do -/

/-- The step swaps the buffers. -/
def swaps (s : Logger) : Label → Bool
  | .append r => !decide (r.level.value < s.logLevel.value) && s.overflows r
  | .flush => true
  | .loopTest => false
  | .iterate => true
  | .shutdown => true
  | .join => false

/-- The step swaps the buffers while the backup buffer holds bytes the log thread has still
to write. -/
def overwrites (s : Logger) (l : Label) : Bool :=
  s.swaps l && decide (s.thread ≠ .done) && !s.backupBuffer.data.isEmpty

theorem overwrites_eq_true {s : Logger} {l : Label} : s.overwrites l = true ↔
    s.swaps l = true ∧ s.thread ≠ .done ∧ s.backupBuffer.data ≠ [] := by
  simp [overwrites, and_assoc]

/-- Lines are logged before `Shutdown` only. -/
def beforeShutdown (s : Logger) : Label → Bool
  | .append _ => s.running
  | _ => true

/-- No swap of the run overwrites, no line comes after `Shutdown`. -/
def NoOverwrite (s : Logger) (l : Label) : Prop := s.overwrites l = false

def BeforeShutdown (s : Logger) (l : Label) : Prop := s.beforeShutdown l = true

instance : ∀ s l, Decidable (NoOverwrite s l) := fun _ _ => inferInstanceAs (Decidable (_ = _))

instance : ∀ s l, Decidable (BeforeShutdown s l) := fun _ _ => inferInstanceAs (Decidable (_ = _))

/-- The bytes a step is to contribute to the log file. -/
def lineOf (level : LogLevel) : Label → List Char
  | .append r => if r.level.value < level.value then [] else logLine r
  | _ => []

/-- The lines of a run at or above the log level, in order. -/
def lines (level : LogLevel) (ls : List Label) : List Char := ls.flatMap (lineOf level)

/-- Everything written or still to be written, oldest first. -/
def held (s : Logger) : List Char :=
  if s.thread = .done then s.written
  else s.written ++ s.backupBuffer.data ++ s.activeBuffer.data

/-! ### Invariant -/

/-- What holds in every state of a run whose lines are all logged before `Shutdown`. -/
structure Wf (cap : ℕ) (level : LogLevel) (s : Logger) : Prop where
  levelEq : s.logLevel = level
  activeCap : s.activeBuffer.capacity = cap
  backupCap : s.backupBuffer.capacity = cap
  activeEmpty : s.running = false → s.activeBuffer.data = []
  doneStopped : s.thread = .done → s.running = false
  joinedDone : s.joined = true → s.thread = .done

theorem wf_init (cap : ℕ) (level : LogLevel) : Wf cap level (init cap level) where
  levelEq := rfl
  activeCap := rfl
  backupCap := rfl
  activeEmpty := by simp [init]
  doneStopped := by simp [init]
  joinedDone := by simp [init]

/-! ### The buffer operations and the bytes held -/

@[simp] theorem thread_swapBuffers (s : Logger) : s.swapBuffers.thread = s.thread := rfl

theorem held_of_ne_done {s : Logger} (h : s.thread ≠ .done) :
    s.held = s.written ++ s.backupBuffer.data ++ s.activeBuffer.data := if_neg h

theorem held_of_done {s : Logger} (h : s.thread = .done) : s.held = s.written := if_pos h

/-- A swap with an empty backup buffer keeps every byte. -/
theorem held_swapBuffers {s : Logger} (h : s.thread ≠ .done → s.backupBuffer.data = []) :
    s.swapBuffers.held = s.held := by
  by_cases hd : s.thread = .done
  · rw [held_of_done hd, held_of_done (by simpa using hd)]
    rfl
  · rw [held_of_ne_done hd, held_of_ne_done (by simpa using hd), h hd]
    simp [swapBuffers, LogBuffer.clear]

/-- A swap over a backup buffer with bytes loses them. -/
theorem held_swapBuffers_lt {s : Logger} (hd : s.thread ≠ .done) (hb : s.backupBuffer.data ≠ []) :
    s.swapBuffers.held.length < s.held.length := by
  have hpos : 0 < s.backupBuffer.data.length := List.length_pos_iff.mpr hb
  rw [held_of_ne_done hd, held_of_ne_done (by simpa using hd)]
  simp only [swapBuffers, LogBuffer.clear, List.length_append, List.length_nil]
  omega

theorem held_append {s : Logger} (r : LogRecord) (hd : s.thread ≠ .done) :
    (s.append r).held = s.held ++ logLine r := by
  rw [held_of_ne_done hd, held_of_ne_done (s := s.append r) hd]
  simp [append]

/-- The iteration writes what its swap put into the backup buffer. -/
theorem held_iterate {s : Logger} (hd : s.thread = .waiting) :
    ({ s.iterate with thread := .test } : Logger).held = s.swapBuffers.held := by
  have hn : s.swapBuffers.thread ≠ .done := by simp [hd]
  rw [held_of_ne_done hn, held_of_ne_done (by simp)]
  simp only [iterate]
  split_ifs with hb
  · simp [writeToFile, LogBuffer.clear]
  · have : s.swapBuffers.backupBuffer.data = [] := by
      simpa [LogBuffer.size] using hb
    simp [this]

/-- With an empty active buffer the final drain writes exactly what is still held. -/
theorem held_drain {s : Logger} (hd : s.thread = .test) (ha : s.activeBuffer.data = []) :
    ({ s.drain with thread := .done } : Logger).held = s.held := by
  rw [held_of_done rfl, held_of_ne_done (by simp [hd]), ha]
  simp only [drain, LogBuffer.size, ha, List.length_nil, Nat.lt_irrefl, if_false]
  split_ifs with hb
  · simp [writeToFile]
  · have : s.backupBuffer.data = [] := by simpa using hb
    simp [this]

/-- A line no longer than the buffers fits after a swap. -/
theorem appendLine_eq {cap : ℕ} {level : LogLevel} {s : Logger} (hw : Wf cap level s) {r : LogRecord}
    (hr : (logLine r).length ≤ cap) :
    (s.appendLine r).1 = if s.overflows r then s.swapBuffers.append r else s.append r := by
  unfold appendLine
  split_ifs with h1 h2
  · exfalso
    simp only [overflows, swapBuffers, LogBuffer.clear, LogBuffer.size, List.length_nil, hw.backupCap,
      decide_eq_true_eq] at h2
    omega
  · rfl
  · rfl

/-! ### One step -/

theorem wf_append {cap : ℕ} {level : LogLevel} {s : Logger} (hw : Wf cap level s) (r : LogRecord)
    (hr : s.running = true) : Wf cap level (s.append r) where
  levelEq := hw.levelEq
  activeCap := hw.activeCap
  backupCap := hw.backupCap
  activeEmpty := by
    intro h
    rw [show (s.append r).running = s.running from rfl, hr] at h
    cases h
  doneStopped := hw.doneStopped
  joinedDone := hw.joinedDone

theorem wf_swapBuffers {cap : ℕ} {level : LogLevel} {s : Logger} (hw : Wf cap level s) :
    Wf cap level s.swapBuffers where
  levelEq := hw.levelEq
  activeCap := hw.backupCap
  backupCap := hw.activeCap
  activeEmpty := fun _ => rfl
  doneStopped := hw.doneStopped
  joinedDone := hw.joinedDone

theorem wf_step {cap : ℕ} {level : LogLevel} {s s' : Logger} {l : Label} (hw : Wf cap level s)
    (hb : BeforeShutdown s l) (hs : step s l = some s') : Wf cap level s' := by
  cases l with
  | append r =>
      have hr : s.running = true := hb
      simp only [step, Option.some.injEq] at hs
      subst hs
      split_ifs with hl
      · exact hw
      · unfold appendLine
        split_ifs
        · exact wf_swapBuffers hw
        · exact wf_append (wf_swapBuffers hw) r hr
        · exact wf_append hw r hr
  | flush =>
      simp only [step, flush, Option.some.injEq] at hs
      subst hs
      exact wf_swapBuffers hw
  | loopTest =>
      simp only [step] at hs
      split at hs
      · rename_i ht
        simp only [Option.some.injEq] at hs
        subst hs
        have hj : s.joined = false := by
          cases hj : s.joined with
          | false => rfl
          | true => rw [hw.joinedDone hj] at ht; cases ht
        split_ifs with hr
        · exact ⟨hw.levelEq, hw.activeCap, hw.backupCap, hw.activeEmpty, by simp, by simp [hj]⟩
        · have hrf : s.running = false := by simpa using hr
          have ha := hw.activeEmpty hrf
          refine ⟨?_, ?_, ?_, ?_, ?_, ?_⟩ <;> simp only [drain] <;> split_ifs <;>
            simp [writeToFile, hw.levelEq, hw.activeCap, hw.backupCap, ha, hrf]
      · cases hs
  | iterate =>
      simp only [step] at hs
      split at hs
      · rename_i ht
        simp only [Option.some.injEq] at hs
        subst hs
        have hw' := wf_swapBuffers hw
        have hj : s.joined = false := by
          cases hj : s.joined with
          | false => rfl
          | true => rw [hw.joinedDone hj] at ht; cases ht
        simp only [iterate]
        split_ifs
        · exact ⟨hw'.levelEq, hw'.activeCap, hw'.backupCap, fun _ => rfl, by simp,
            by simp [writeToFile, swapBuffers, hj]⟩
        · exact ⟨hw'.levelEq, hw'.activeCap, hw'.backupCap, fun _ => rfl, by simp,
            by simp [swapBuffers, hj]⟩
      · cases hs
  | shutdown =>
      simp only [step, flush, Option.some.injEq] at hs
      subst hs
      exact ⟨hw.levelEq, hw.backupCap, hw.activeCap, fun _ => rfl, fun _ => rfl, hw.joinedDone⟩
  | join =>
      simp only [step] at hs
      split_ifs at hs with h
      simp only [Option.some.injEq] at hs
      subst hs
      exact ⟨hw.levelEq, hw.activeCap, hw.backupCap, hw.activeEmpty, hw.doneStopped, fun _ => h.2⟩

/-- A step that swaps nothing away adds its line to the bytes held, and nothing else. -/
theorem held_step {cap : ℕ} {level : LogLevel} {s s' : Logger} {l : Label} (hw : Wf cap level s)
    (hb : BeforeShutdown s l) (hlen : (lineOf level l).length ≤ cap)
    (hs : step s l = some s') (hno : NoOverwrite s l) : s'.held = s.held ++ lineOf level l := by
  have hempty : s.swaps l = true → s.thread ≠ .done → s.backupBuffer.data = [] := by
    intro h1 h2
    by_contra h3
    have := overwrites_eq_true.mpr ⟨h1, h2, h3⟩
    rw [hno] at this
    cases this
  cases l with
  | append r =>
      have hd : s.thread ≠ .done := by
        intro h
        have h1 := hw.doneStopped h
        rw [show s.running = true from hb] at h1
        cases h1
      simp only [step, Option.some.injEq] at hs
      subst hs
      simp only [lineOf, ← hw.levelEq] at hlen ⊢
      split_ifs at hlen ⊢ with hl
      · simp
      · rw [appendLine_eq hw hlen]
        split_ifs with ho
        · rw [held_append r (by simpa using hd), held_swapBuffers (hempty (by simp [swaps, hl, ho]))]
        · rw [held_append r hd]
  | flush =>
      simp only [step, flush, Option.some.injEq] at hs
      subst hs
      rw [held_swapBuffers (hempty rfl)]
      simp [lineOf]
  | loopTest =>
      simp only [step] at hs
      split at hs
      · rename_i ht
        simp only [Option.some.injEq] at hs
        subst hs
        split_ifs with hr
        · simp [lineOf, held, ht]
        · rw [held_drain ht (hw.activeEmpty (by simpa using hr))]
          simp [lineOf]
      · cases hs
  | iterate =>
      simp only [step] at hs
      split at hs
      · rename_i ht
        simp only [Option.some.injEq] at hs
        subst hs
        rw [held_iterate ht, held_swapBuffers (hempty rfl)]
        simp [lineOf]
      · cases hs
  | shutdown =>
      simp only [step, flush, Option.some.injEq] at hs
      subst hs
      rw [held_swapBuffers (s := { s with running := false }) (hempty rfl)]
      simp [lineOf, held]
  | join =>
      simp only [step] at hs
      split_ifs at hs with h
      simp only [Option.some.injEq] at hs
      subst hs
      simp [lineOf, held]

/-- A step that swaps bytes away leaves fewer bytes held than it should. -/
theorem held_step_lt {cap : ℕ} {level : LogLevel} {s s' : Logger} {l : Label} (hw : Wf cap level s)
    (hlen : (lineOf level l).length ≤ cap)
    (hs : step s l = some s') (hover : s.overwrites l = true) :
    s'.held.length < s.held.length + (lineOf level l).length := by
  obtain ⟨hsw, hd, hne⟩ := overwrites_eq_true.mp hover
  have hlt := held_swapBuffers_lt hd hne
  cases l with
  | append r =>
      simp only [swaps, Bool.and_eq_true, Bool.not_eq_true', decide_eq_false_iff_not] at hsw
      simp only [step, if_neg hsw.1, Option.some.injEq] at hs
      subst hs
      simp only [lineOf, ← hw.levelEq, if_neg hsw.1] at hlen ⊢
      rw [appendLine_eq hw hlen, if_pos hsw.2, held_append r (by simpa using hd), List.length_append]
      omega
  | flush =>
      simp only [step, flush, Option.some.injEq] at hs
      subst hs
      simpa [lineOf] using hlt
  | loopTest => cases hsw
  | iterate =>
      simp only [step] at hs
      split at hs
      · rename_i ht
        simp only [Option.some.injEq] at hs
        subst hs
        rw [held_iterate ht]
        simpa [lineOf] using hlt
      · cases hs
  | shutdown =>
      simp only [step, flush, Option.some.injEq] at hs
      subst hs
      have := held_swapBuffers_lt (s := { s with running := false }) hd hne
      simpa [lineOf, held] using this
  | join => cases hsw

/-! ### Whole runs -/

section runs

variable {cap : ℕ} {level : LogLevel} {ls : List Label} {s s' : Logger}

theorem lines_cons (l : Label) (ls : List Label) : lines level (l :: ls) = lineOf level l ++ lines level ls :=
  rfl

/-- No run invents bytes: what is held at the end is at most what was held plus the lines. -/
theorem held_run_le (hw : Wf cap level s) (hb : Along step BeforeShutdown s ls)
    (hlen : ∀ l ∈ ls, (lineOf level l).length ≤ cap) (hr : run step s ls = some s') :
    s'.held.length ≤ s.held.length + (lines level ls).length := by
  induction ls generalizing s with
  | nil =>
      rw [run_nil] at hr
      cases hr
      simp
  | cons l ls ih =>
      obtain ⟨s₁, hs, hr'⟩ := run_cons_some.mp hr
      have hlen1 := hlen l List.mem_cons_self
      have h2 := ih (wf_step hw hb.1 hs) (hb.2 s₁ hs) (fun l h => hlen l (List.mem_cons_of_mem _ h)) hr'
      rw [lines_cons, List.length_append]
      cases hov : s.overwrites l with
      | true =>
          have := held_step_lt hw hlen1 hs hov
          omega
      | false =>
          rw [held_step hw hb.1 hlen1 hs hov, List.length_append] at h2
          omega

/-- Along a run without an overwriting swap the bytes held grow by the lines, in order; with
one they fall short. -/
theorem held_run_iff (hw : Wf cap level s) (hb : Along step BeforeShutdown s ls)
    (hlen : ∀ l ∈ ls, (lineOf level l).length ≤ cap) (hr : run step s ls = some s') :
    s'.held = s.held ++ lines level ls ↔ Along step NoOverwrite s ls := by
  induction ls generalizing s with
  | nil =>
      rw [run_nil] at hr
      cases hr
      simp [lines, Along]
  | cons l ls ih =>
      obtain ⟨s₁, hs, hr'⟩ := run_cons_some.mp hr
      have hlen1 := hlen l List.mem_cons_self
      have hlen2 : ∀ l ∈ ls, (lineOf level l).length ≤ cap := fun l h => hlen l (List.mem_cons_of_mem _ h)
      have hw₁ := wf_step hw hb.1 hs
      rw [lines_cons]
      cases hov : s.overwrites l with
      | true =>
          -- too few bytes are held after this step, and no later step makes up for it
          have h1 := held_step_lt hw hlen1 hs hov
          have h2 := held_run_le hw₁ (hb.2 s₁ hs) hlen2 hr'
          constructor
          · intro h
            have := congrArg List.length h
            simp only [List.length_append] at this
            omega
          · intro h
            have h3 : s.overwrites l = false := h.1
            rw [hov] at h3
            cases h3
      | false =>
          rw [← List.append_assoc, ← held_step hw hb.1 hlen1 hs hov,
            ih hw₁ (hb.2 s₁ hs) hlen2 hr']
          constructor
          · intro h
            refine ⟨hov, fun s₂ hs₂ => ?_⟩
            rw [hs] at hs₂
            cases hs₂
            exact h
          · intro h
            exact h.2 s₁ hs

theorem wf_run (hw : Wf cap level s) (hb : Along step BeforeShutdown s ls)
    (hr : run step s ls = some s') : Wf cap level s' :=
  (hb.reach hr).invariant (Wf cap level) hw (fun _ _ _ hw hb hs => wf_step hw hb hs)

end runs

/-- **What reaches the log file.**  Take any run of appends, flushes, log-thread iterations and
`Shutdown`, with lines no longer than the buffers and logged before `Shutdown`.  Once
`Shutdown` has joined the log thread, the bytes handed to `WriteToFile` are the lines in
order if and only if no `SwapBuffers` ever found unwritten bytes in the backup buffer. -/
theorem written_eq_lines_iff {cap : ℕ} {level : LogLevel} {ls : List Label} {s : Logger}
    (hr : run step (init cap level) ls = some s) (hjoin : s.joined = true)
    (hlen : ∀ l ∈ ls, (lineOf level l).length ≤ cap)
    (hb : Along step BeforeShutdown (init cap level) ls) :
    s.written = lines level ls ↔ Along step NoOverwrite (init cap level) ls := by
  have hw := wf_init cap level
  have hdone := (wf_run hw hb hr).joinedDone hjoin
  rw [← held_run_iff hw hb hlen hr, held_of_done hdone]
  simp [init, held]

/-! ### Two runs -/

/-- A line of the server's start-up. -/
def startLine : LogRecord where
  level := .info
  timestamp := "2026-04-21 10:00:00"
  threadId := "1"
  file := "server.cpp"
  line := "106"
  message := "IO thread pool started"

/-- One line, picked up by an iteration before `Shutdown`. -/
def keptRun : List Label := [.loopTest, .append startLine, .iterate, .shutdown, .loopTest, .join]

/-- One line followed by an explicit `Flush`; the iteration it wakes swaps the line away. -/
def flushedRun : List Label :=
  [.append startLine, .flush, .loopTest, .iterate, .shutdown, .loopTest, .join]

theorem keptRun_written :
    ∃ s, run step (init 1048576 .info) keptRun = some s ∧ s.joined = true ∧
      (s.written = lines .info keptRun ↔ Along step NoOverwrite (init 1048576 .info) keptRun) ∧
      Along step NoOverwrite (init 1048576 .info) keptRun :=
  ⟨_, rfl, rfl, written_eq_lines_iff rfl rfl (by decide) (by decide), by decide⟩

theorem flushedRun_loses_line :
    ∃ s, run step (init 1048576 .info) flushedRun = some s ∧ s.joined = true ∧
      (∀ l ∈ flushedRun, (lineOf .info l).length ≤ 1048576) ∧
      Along step BeforeShutdown (init 1048576 .info) flushedRun ∧
      s.written ≠ lines .info flushedRun := by
  refine ⟨_, rfl, rfl, ?_, ?_, ?_⟩ <;> decide

end Logger

end TcpServer
