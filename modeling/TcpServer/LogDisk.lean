import TcpServer.Filing
import TcpServer.LogFile
import Mathlib.Algebra.Group.Nat.Defs

/-! # The day files (`util/log.cpp`)

`LogFile.lean` follows the lengths of the files when every open succeeds.  Here `WriteToFile` is
followed with its bytes, the console and the opens that fail.

It writes what it is given to the console in any case, and to the file of the day if one is open.
`RotateLogFile` reports an open that fails on `std::cerr` and leaves the stream closed.  As it has
set the counter to zero, and as `WriteToFile` then stores the date, nothing opens the file again
before the date changes (`outage_lasts`).  The first call rotates whatever `InitLogFile` has done,
because `current_date_` is still empty.

`filed` records for each piece the file it went to, so that the files are the folders of
`Filing.lean` (`Kept`).  When every open succeeds the lengths are those of `LogFile.lean`
(`lengths_run`). -/

namespace TcpServer

open Transition Filing

/-! ### The files and the console -/

/-- What the environment decides in a call of `WriteToFile`: the date read by the call and by
`GetLogFilePath` in a rotation by date and in one by size, and whether the opens succeed. -/
structure Reading where
  date : Date
  dayPath : Date
  sizePath : Date
  dayOpens : Bool
  sizeOpens : Bool
deriving DecidableEq, Repr

/-- The files, named by their dates, and the streams.  `logFile` is the date of the file that
`log_file_` has open; `cerr` are the dates in the paths of the reports `Failed to open log file`;
`clock` is the last reading of the date, and `filed` records where each piece went. -/
structure LogFiles where
  disk : Date → List Char
  logFile : Option Date
  currentLogFileSize : ℕ
  currentDate : Option Date
  clock : Date
  console : List Char
  cerr : List Date
  filed : Folders Char

namespace LogFiles

/-- `log_file_.open` of the path with the date `d`, and the report when it fails. -/
def openLogFile (d : Date) (opens : Bool) (f : LogFiles) : LogFiles :=
  { f with
    logFile := if opens then some d else none
    clock := d
    cerr := if opens then f.cerr else f.cerr ++ [d] }

/-- `InitLogFile`.  On a stream that is not open `tellp` returns -1, which is stored as a `size_t`. -/
def initLogFile (disk : Date → List Char) (d : Date) (opens : Bool) : LogFiles :=
  openLogFile d opens
    { disk := disk
      logFile := none
      currentLogFileSize := if opens then (disk d).length else 2 ^ 64 - 1
      currentDate := none
      clock := d
      console := []
      cerr := []
      filed := [] }

/-- `RotateLogFile`. -/
def rotateLogFile (d : Date) (opens : Bool) (f : LogFiles) : LogFiles :=
  { f.openLogFile d opens with currentLogFileSize := 0 }

/-- `CheckLogFileSize`. -/
def checkLogFileSize (d : Date) (opens : Bool) (f : LogFiles) : LogFiles :=
  if maxLogFileSize ≤ f.currentLogFileSize then f.rotateLogFile d opens else f

/-- The writes to the file, if one is open, and to the console. -/
def put (data : List Char) (f : LogFiles) : LogFiles :=
  match f.logFile with
  | some d =>
      { f with
        disk := Function.update f.disk d (f.disk d ++ data)
        currentLogFileSize := f.currentLogFileSize + data.length
        console := f.console ++ data
        filed := f.filed ++ [(some d, data)] }
  | none => { f with console := f.console ++ data, filed := f.filed ++ [(none, data)] }

/-- `WriteToFile`. -/
def writeToFile (data : List Char) (r : Reading) (f : LogFiles) : LogFiles :=
  if data = [] then f
  else
    let f := { f with clock := r.date }
    let f := if f.currentDate ≠ some r.date then
        { f.rotateLogFile r.dayPath r.dayOpens with currentDate := some r.date } else f
    (f.checkLogFileSize r.sizePath r.sizeOpens).put data

/-- A call of `WriteToFile`; the clock does not go back. -/
def step (f : LogFiles) (c : List Char × Reading) : Option LogFiles :=
  if f.clock ≤ c.2.date ∧ c.2.date ≤ c.2.dayPath ∧ c.2.dayPath ≤ c.2.sizePath then
    some (f.writeToFile c.1 c.2)
  else none

/-- The date whose file a call opens, if it rotates, and whether the open succeeds. -/
def rotation (f : LogFiles) (r : Reading) : Option (Date × Bool) :=
  if f.currentDate ≠ some r.date then some (r.dayPath, r.dayOpens)
  else if maxLogFileSize ≤ f.currentLogFileSize then some (r.sizePath, r.sizeOpens)
  else none

/-- The call has something to write, and the open of its rotation fails. -/
def fails (f : LogFiles) (c : List Char × Reading) : Bool :=
  !c.1.isEmpty && (f.rotation c.2).any (fun p => !p.2)

/-! ### One call -/

section call

variable {f f' : LogFiles} {c : List Char × Reading}

/-- The stream after a rotation. -/
def rotated (d : Date) (opens : Bool) (date : Date) (f : LogFiles) : LogFiles :=
  { f.rotateLogFile d opens with currentDate := some date }

/-- What a call that has something to write does: it writes to the stream as it is, or it rotates
once and writes then. -/
theorem step_cases (hs : step f c = some f') (hne : c.1 ≠ []) :
    f.clock ≤ c.2.date ∧
      ((f.rotation c.2 = none ∧ f.currentDate = some c.2.date ∧
          f' = put c.1 { f with clock := c.2.date }) ∨
        ∃ d opens, f.rotation c.2 = some (d, opens) ∧ c.2.date ≤ d ∧
          f' = put c.1 (f.rotated d opens c.2.date)) := by
  have hmax : ¬ maxLogFileSize ≤ 0 := by decide
  unfold step at hs
  split_ifs at hs with hg
  cases hs
  refine ⟨hg.1, ?_⟩
  unfold writeToFile rotation
  rw [if_neg hne]
  by_cases hd : f.currentDate = some c.2.date
  · have hd' : ¬ ({ f with clock := c.2.date } : LogFiles).currentDate ≠ some c.2.date := fun h => h hd
    rw [if_neg (fun h => h hd)]
    simp only [if_neg hd', checkLogFileSize]
    by_cases hfull : maxLogFileSize ≤ f.currentLogFileSize
    · rw [if_pos hfull, if_pos hfull]
      refine Or.inr ⟨c.2.sizePath, c.2.sizeOpens, rfl, hg.2.1.trans hg.2.2, ?_⟩
      simp only [rotated, rotateLogFile, openLogFile, hd]
    · rw [if_neg hfull, if_neg hfull]
      exact Or.inl ⟨rfl, hd, rfl⟩
  · have hd' : ({ f with clock := c.2.date } : LogFiles).currentDate ≠ some c.2.date := hd
    rw [if_pos hd]
    refine Or.inr ⟨c.2.dayPath, c.2.dayOpens, rfl, hg.2.1, ?_⟩
    -- the counter is zero after the rotation by date, so there is no second one
    simp only [if_pos hd', checkLogFileSize, rotated, rotateLogFile, openLogFile, if_neg hmax]

theorem step_nil (hs : step f c = some f') (hnil : c.1 = []) : f' = f := by
  unfold step at hs
  split_ifs at hs
  cases hs
  rw [writeToFile, if_pos hnil]

end call

/-! ### Where the pieces are -/

/-- The console has every piece, every file what was filed under its date, and the dates of the
files never go back.  `disk` are the files at the start. -/
structure Kept (disk : Date → List Char) (f : LogFiles) : Prop where
  consoleEq : f.console = text f.filed
  diskEq : ∀ d, f.disk d = disk d ++ under d f.filed
  ordered : Ordered f.filed
  last : ∀ d, f.logFile = some d → ∀ k ∈ numbers f.filed, k ≤ d
  past : ∀ k ∈ numbers f.filed, k ≤ f.clock
  openPast : ∀ d, f.logFile = some d → d ≤ f.clock
  dated : ∀ d e, f.currentDate = some d → f.logFile = some e → d ≤ e

section kept

variable {disk : Date → List Char} {f f' : LogFiles} {c : List Char × Reading}

theorem kept_initLogFile (disk : Date → List Char) (d : Date) (opens : Bool) :
    Kept disk (initLogFile disk d opens) where
  consoleEq := rfl
  diskEq := by simp [initLogFile, openLogFile, under]
  ordered := List.Pairwise.nil
  last := by simp [initLogFile, openLogFile, numbers]
  past := by simp [initLogFile, openLogFile, numbers]
  openPast := by
    intro e he
    simp only [initLogFile, openLogFile] at he ⊢
    split_ifs at he
    cases he
    exact le_refl d
  dated := by simp [initLogFile, openLogFile]

/-- Later readings of the clock change nothing. -/
theorem kept_clock (h : Kept disk f) {d : Date} (hd : f.clock ≤ d) : Kept disk { f with clock := d } where
  consoleEq := h.consoleEq
  diskEq := h.diskEq
  ordered := h.ordered
  last := h.last
  past := fun k hk => (h.past k hk).trans hd
  openPast := fun e he => (h.openPast e he).trans hd
  dated := h.dated

/-- A rotation opens a file no older than any it has written to. -/
theorem kept_rotated (h : Kept disk f) {d date : Date} (opens : Bool) (hd : f.clock ≤ d) (hdate : date ≤ d) :
    Kept disk (f.rotated d opens date) where
  consoleEq := h.consoleEq
  diskEq := h.diskEq
  ordered := h.ordered
  last := by
    intro e he k hk
    simp only [rotated, rotateLogFile, openLogFile] at he hk
    split_ifs at he
    cases he
    exact (h.past k hk).trans hd
  past := fun k hk => (h.past k hk).trans hd
  openPast := by
    intro e he
    simp only [rotated, rotateLogFile, openLogFile] at he ⊢
    split_ifs at he
    cases he
    exact le_refl d
  dated := by
    intro d' e hd' he
    simp only [rotated, rotateLogFile, openLogFile] at hd' he
    split_ifs at he
    cases hd'
    cases he
    exact hdate

theorem put_filed (data : List Char) (f : LogFiles) : (f.put data).filed = f.filed ++ [(f.logFile, data)] := by
  unfold put
  split <;> simp [*]

@[simp] theorem put_logFile (data : List Char) (f : LogFiles) : (f.put data).logFile = f.logFile := by
  unfold put
  split <;> simp [*]

@[simp] theorem put_clock (data : List Char) (f : LogFiles) : (f.put data).clock = f.clock := by
  unfold put
  split <;> rfl

@[simp] theorem put_currentDate (data : List Char) (f : LogFiles) : (f.put data).currentDate = f.currentDate := by
  unfold put
  split <;> rfl

theorem put_console (data : List Char) (f : LogFiles) : (f.put data).console = f.console ++ data := by
  unfold put
  split <;> rfl

@[simp] theorem put_cerr (data : List Char) (f : LogFiles) : (f.put data).cerr = f.cerr := by
  unfold put
  split <;> rfl

theorem kept_put (h : Kept disk f) (data : List Char) : Kept disk (f.put data) where
  consoleEq := by simp [put_console, put_filed, h.consoleEq]
  diskEq := by
    intro d
    rw [put_filed, under_append, ← List.append_assoc, ← h.diskEq d]
    unfold put
    split
    next e he =>
      rw [he, under_singleton_some]
      by_cases hd : e = d
      · subst hd
        simp
      · simp [Function.update_of_ne (Ne.symm hd), hd]
    next he => simp [he]
  ordered := by
    rw [put_filed]
    exact h.ordered.append_singleton (fun j hj => h.last j hj)
  last := by
    intro d hd k hk
    rw [put_logFile] at hd
    rw [put_filed, numbers_append, numbers_singleton, hd, List.mem_append] at hk
    rcases hk with hk | hk
    · exact h.last d hd k hk
    · rw [Option.mem_toList] at hk
      cases hk
      exact le_refl d
  past := by
    intro k hk
    rw [put_clock]
    rw [put_filed, numbers_append, numbers_singleton, List.mem_append] at hk
    rcases hk with hk | hk
    · exact h.past k hk
    · exact h.openPast k (Option.mem_toList.mp hk)
  openPast := by simpa using h.openPast
  dated := by simpa using h.dated

theorem kept_step (h : Kept disk f) (hs : step f c = some f') : Kept disk f' := by
  by_cases hne : c.1 = []
  · rw [step_nil hs hne]
    exact h
  · obtain ⟨hclock, ⟨-, -, rfl⟩ | ⟨d, opens, -, hd, rfl⟩⟩ := step_cases hs hne
    · exact kept_put (kept_clock h hclock) c.1
    · exact kept_put (kept_rotated h opens (hclock.trans hd) hd) c.1

/-- A piece goes behind all others, into a file that is not dated before the call. -/
theorem filed_step (h : Kept disk f) (hs : step f c = some f') (hne : c.1 ≠ []) :
    f'.filed = f.filed ++ [(f'.logFile, c.1)] ∧ ∀ e, f'.logFile = some e → f.clock ≤ e := by
  obtain ⟨hclock, ⟨-, hdate, rfl⟩ | ⟨d, opens, -, hd, rfl⟩⟩ := step_cases hs hne
  · refine ⟨by rw [put_filed, put_logFile], ?_⟩
    intro e he
    rw [put_logFile] at he
    exact hclock.trans (h.dated _ e hdate he)
  · refine ⟨by rw [put_filed, put_logFile]; rfl, ?_⟩
    intro e he
    rw [put_logFile] at he
    exact hclock.trans ((kept_rotated h opens (hclock.trans hd) hd).dated _ e rfl he)

theorem clock_step (hs : step f c = some f') : f.clock ≤ f'.clock := by
  by_cases hne : c.1 = []
  · rw [step_nil hs hne]
  · obtain ⟨hclock, ⟨-, -, rfl⟩ | ⟨d, opens, -, hd, rfl⟩⟩ := step_cases hs hne
    · rwa [put_clock]
    · rw [put_clock]
      exact hclock.trans hd

theorem console_step (hs : step f c = some f') : f'.console = f.console ++ c.1 := by
  by_cases hne : c.1 = []
  · rw [step_nil hs hne, hne, List.append_nil]
  · obtain ⟨-, ⟨-, -, rfl⟩ | ⟨d, opens, -, -, rfl⟩⟩ := step_cases hs hne
    · rw [put_console]
    · rw [put_console]
      rfl

end kept

/-! ### What is not filed -/

/-- Nothing is missing from the files, and after the first call one of them is open. -/
structure Unbroken (f : LogFiles) : Prop where
  filed : unfiled f.filed = []
  isOpen : ∀ d, f.currentDate = some d → f.logFile ≠ none

section unfiled

variable {f f' : LogFiles} {c : List Char × Reading}

theorem unbroken_initLogFile (disk : Date → List Char) (d : Date) (opens : Bool) :
    Unbroken (initLogFile disk d opens) :=
  ⟨rfl, by simp [initLogFile, openLogFile]⟩

theorem unfiled_put_of_open {d : Date} (h : f.logFile = some d) (data : List Char) :
    unfiled (f.put data).filed = unfiled f.filed := by
  rw [put_filed, h]
  simp

theorem unfiled_put_of_closed (h : f.logFile = none) (data : List Char) :
    unfiled (f.put data).filed = unfiled f.filed ++ data := by
  rw [put_filed, h]
  simp

theorem fails_eq_true : f.fails c = true ↔ c.1 ≠ [] ∧ ∃ d, f.rotation c.2 = some (d, false) := by
  unfold fails
  rcases f.rotation c.2 with _ | ⟨d, opens⟩ <;> simp

/-- A call whose open succeeds, or that does not rotate, files its piece. -/
theorem unbroken_step (h : Unbroken f) (hok : f.fails c = false) (hs : step f c = some f') : Unbroken f' := by
  by_cases hne : c.1 = []
  · rw [step_nil hs hne]
    exact h
  · obtain ⟨-, ⟨-, hdate, rfl⟩ | ⟨d, opens, hrot, -, rfl⟩⟩ := step_cases hs hne
    · obtain ⟨e, he⟩ := Option.ne_none_iff_exists'.mp (h.isOpen _ hdate)
      have he' : ({ f with clock := c.2.date } : LogFiles).logFile = some e := he
      refine ⟨by rw [unfiled_put_of_open he']; exact h.filed, ?_⟩
      intro _ _
      rw [put_logFile, he']
      exact Option.some_ne_none e
    · have hopens : opens = true := by
        by_contra hn
        have hfail : f.fails c = true := by
          rw [fails_eq_true]
          exact ⟨hne, d, by rw [hrot, Bool.eq_false_iff.mpr hn]⟩
        rw [hok] at hfail
        cases hfail
      have he : (f.rotated d opens c.2.date).logFile = some d := by
        simp [rotated, rotateLogFile, openLogFile, hopens]
      refine ⟨by rw [unfiled_put_of_open he]; exact h.filed, ?_⟩
      intro _ _
      rw [put_logFile, he]
      exact Option.some_ne_none d

theorem unfiled_prefix_step (hs : step f c = some f') : unfiled f.filed <+: unfiled f'.filed := by
  by_cases hne : c.1 = []
  · cases step_nil hs hne
    exact List.prefix_refl _
  · have hput : ∀ g : LogFiles, g.filed = f.filed → unfiled f.filed <+: unfiled (g.put c.1).filed := by
      intro g hg
      rw [put_filed, unfiled_append, hg]
      exact List.prefix_append _ _
    obtain ⟨-, ⟨-, -, rfl⟩ | ⟨d, opens, -, -, rfl⟩⟩ := step_cases hs hne
    · exact hput _ rfl
    · exact hput _ rfl

/-- The piece of a call whose open fails is missing. -/
theorem unfiled_ne_nil_of_fails (hf : f.fails c = true) (hs : step f c = some f') :
    unfiled f'.filed ≠ [] := by
  obtain ⟨hne, d, hd⟩ := fails_eq_true.mp hf
  obtain ⟨-, ⟨hrot, -, -⟩ | ⟨d', opens, hrot, -, rfl⟩⟩ := step_cases hs hne
  · rw [hd] at hrot
    cases hrot
  · rw [hd] at hrot
    cases hrot
    rw [unfiled_put_of_closed (by simp [rotated, rotateLogFile, openLogFile])]
    exact List.append_ne_nil_of_right_ne_nil _ hne

end unfiled

/-! ### After a failed open -/

section outage

variable {f f' : LogFiles} {c : List Char × Reading}

/-- While no file is open after the first call, the counter is zero. -/
def Idle (f : LogFiles) : Prop :=
  ∀ d, f.currentDate = some d → f.logFile = none → f.currentLogFileSize = 0

theorem put_currentLogFileSize_of_closed (h : f.logFile = none) (data : List Char) :
    (f.put data).currentLogFileSize = f.currentLogFileSize := by
  unfold put
  split
  next d hd =>
    rw [h] at hd
    cases hd
  next => rfl

theorem put_disk_of_closed (h : f.logFile = none) (data : List Char) : (f.put data).disk = f.disk := by
  unfold put
  split
  next d hd =>
    rw [h] at hd
    cases hd
  next => rfl

theorem idle_step (h : Idle f) (hs : step f c = some f') : Idle f' := by
  by_cases hne : c.1 = []
  · rw [step_nil hs hne]
    exact h
  · obtain ⟨-, ⟨-, hdate, rfl⟩ | ⟨d, opens, -, -, rfl⟩⟩ := step_cases hs hne
    · intro _ _ hclosed
      rw [put_logFile] at hclosed
      rw [put_currentLogFileSize_of_closed hclosed]
      exact h _ hdate hclosed
    · intro _ _ hclosed
      rw [put_logFile] at hclosed
      rw [put_currentLogFileSize_of_closed hclosed]
      rfl

/-- The stream is closed since a rotation on the date `d`. -/
structure Outage (d : Date) (f : LogFiles) : Prop where
  closed : f.logFile = none
  date : f.currentDate = some d
  size : f.currentLogFileSize = 0

/-- A call on the same date does not rotate. -/
theorem outage_step {d : Date} (h : Outage d f) (hd : c.2.date = d) (hs : step f c = some f') :
    Outage d f' ∧ f'.disk = f.disk ∧ f'.cerr = f.cerr ∧ f'.console = f.console ++ c.1 := by
  by_cases hne : c.1 = []
  · rw [step_nil hs hne, hne]
    exact ⟨h, rfl, rfl, by simp⟩
  · have hrot : f.rotation c.2 = none := by
      have hmax : ¬ maxLogFileSize ≤ 0 := by decide
      rw [rotation, h.date, h.size, hd, if_neg (fun hn => hn rfl), if_neg hmax]
    obtain ⟨-, ⟨-, hdate, rfl⟩ | ⟨d', opens, hrot', -, -⟩⟩ := step_cases hs hne
    · have hclosed : ({ f with clock := c.2.date } : LogFiles).logFile = none := h.closed
      refine ⟨⟨?_, ?_, ?_⟩, ?_, ?_, ?_⟩
      · rw [put_logFile, hclosed]
      · rw [put_currentDate]
        exact h.date
      · rw [put_currentLogFileSize_of_closed hclosed]
        exact h.size
      · rw [put_disk_of_closed hclosed]
      · rw [put_cerr]
      · rw [put_console]
    · rw [hrot] at hrot'
      cases hrot'

theorem outage_run {d : Date} {cs : List (List Char × Reading)} (h : Outage d f) (hcs : ∀ c ∈ cs, c.2.date = d)
    (hr : run step f cs = some f') :
    Outage d f' ∧ f'.disk = f.disk ∧ f'.cerr = f.cerr ∧ f'.console = f.console ++ cs.flatMap Prod.fst := by
  induction cs generalizing f with
  | nil =>
      rw [run_nil] at hr
      cases hr
      exact ⟨h, rfl, rfl, by simp⟩
  | cons c cs ih =>
      obtain ⟨f₁, hs, hr'⟩ := run_cons_some.mp hr
      obtain ⟨h₁, hdisk, hcerr, hconsole⟩ := outage_step h (hcs c List.mem_cons_self) hs
      obtain ⟨h', hdisk', hcerr', hconsole'⟩ := ih h₁ (fun c' hc' => hcs c' (List.mem_cons_of_mem _ hc')) hr'
      refine ⟨h', by rw [hdisk', hdisk], by rw [hcerr', hcerr], ?_⟩
      rw [hconsole', hconsole, List.flatMap_cons, List.append_assoc]

end outage

/-- **An outage lasts for the day.**  Whatever the calls before: once the stream is closed after a
call on the date `d`, no later call on that date changes a file or reports anything, all its bytes go
to the console only, and the first call with something to write on another date opens a file again,
if the open succeeds then. -/
theorem outage_lasts {disk : Date → List Char} {d₀ d : Date} {opens : Bool} {f f' : LogFiles}
    {cs : List (List Char × Reading)} (h : Reach step always (initLogFile disk d₀ opens) f)
    (hclosed : f.logFile = none) (hdate : f.currentDate = some d) (hcs : ∀ c ∈ cs, c.2.date = d)
    (hr : run step f cs = some f') :
    f'.disk = f.disk ∧ f'.cerr = f.cerr ∧ f'.console = f.console ++ cs.flatMap Prod.fst ∧
      f'.logFile = none ∧
      ∀ c f'', c.1 ≠ [] → c.2.date ≠ d → step f' c = some f'' →
        f''.logFile = if c.2.dayOpens then some c.2.dayPath else none := by
  have hidle : Idle f := by
    apply h.invariant Idle
    · intro e he
      simp [initLogFile, openLogFile] at he
    · intro _ _ _ hI _ hs
      exact idle_step hI hs
  have hout : Outage d f := ⟨hclosed, hdate, hidle d hdate hclosed⟩
  obtain ⟨hout', hdisk, hcerr, hconsole⟩ := outage_run hout hcs hr
  refine ⟨hdisk, hcerr, hconsole, hout'.closed, ?_⟩
  intro c f'' hne hother hs
  have hchanged : f'.currentDate ≠ some c.2.date := by
    rw [hout'.date]
    intro heq
    cases heq
    exact hother rfl
  have hrot : f'.rotation c.2 = some (c.2.dayPath, c.2.dayOpens) := by rw [rotation, if_pos hchanged]
  obtain ⟨-, ⟨hnone, -, -⟩ | ⟨d', opens', hrot', -, rfl⟩⟩ := step_cases hs hne
  · rw [hrot] at hnone
    cases hnone
  · rw [hrot] at hrot'
    cases hrot'
    rw [put_logFile]
    rfl

/-- A piece written on the date 1 when the open fails, and one when it would succeed. -/
def failedOpen : List Char × Reading := (['a'], ⟨1, 1, 1, false, false⟩)

def laterPiece : List Char × Reading := (['b'], ⟨1, 1, 1, true, true⟩)

theorem failedOpen_outage_lasts :
    ∃ f f', run step (initLogFile (fun _ => []) 1 true) [failedOpen] = some f ∧
      run step f [laterPiece] = some f' ∧ f'.console = ['a', 'b'] ∧ f'.cerr = [1] ∧ f'.disk = f.disk ∧
      f'.logFile = none := by
  have hr : run step (initLogFile (fun _ => []) 1 true) [failedOpen] =
      some ((initLogFile (fun _ => []) 1 true).writeToFile failedOpen.1 failedOpen.2) := rfl
  have hday : ∀ c ∈ [laterPiece], c.2.date = 1 := by decide
  obtain ⟨hdisk, -, -, hclosed, -⟩ := outage_lasts (reach_of_run hr) rfl rfl hday rfl
  exact ⟨_, _, hr, rfl, rfl, rfl, hdisk, hclosed⟩

/-! ### The lengths -/

section lengths

variable {f f' : LogFiles} {c : List Char × Reading} {r : Reading} {e d : Date} {overrun : Bool}

/-- The lengths of the files, with the file of the date `e` open. -/
def lengths (e : Date) (overrun : Bool) (f : LogFiles) : LogFile where
  disk := fun d => (f.disk d).length
  openDate := e
  currentLogFileSize := f.currentLogFileSize
  currentDate := f.currentDate
  clock := f.clock
  overrun := overrun

/-- The call as `LogFile.lean` has it. -/
def callOf (c : List Char × Reading) : LogFile.Call := ⟨c.1.length, c.2.date, c.2.dayPath, c.2.sizePath⟩

theorem lengths_put (h : f.logFile = some e) (data : List Char) :
    (f.lengths e overrun).append data.length =
      (f.put data).lengths e (overrun || decide (maxLogFileSize ≤ (f.disk e).length)) := by
  have hdisk : Function.update (fun d => (f.disk d).length) e ((f.disk e).length + data.length) =
      fun d => (Function.update f.disk e (f.disk e ++ data) d).length := by
    funext d
    by_cases hd : d = e
    · subst hd
      simp
    · simp [Function.update_of_ne hd]
  simp only [put, h, lengths, LogFile.append, hdisk]
  rfl

theorem lengths_writeToFile_of_none {n : ℕ} (hn : n ≠ 0) (h : f.rotation r = none) :
    (f.lengths e overrun).writeToFile n r.date r.dayPath r.sizePath =
      (({ f with clock := r.date } : LogFiles).lengths e overrun).append n := by
  unfold rotation at h
  split_ifs at h with hd hfull
  have hsame : f.currentDate = some r.date := not_not.mp hd
  simp [LogFile.writeToFile, hn, LogFile.dateChanged, LogFile.checkLogFileSize, lengths, hsame, hfull]

theorem lengths_writeToFile_of_some {n : ℕ} {opens : Bool} (hn : n ≠ 0) (h : f.rotation r = some (d, opens)) :
    (f.lengths e overrun).writeToFile n r.date r.dayPath r.sizePath =
      ((f.rotated d opens r.date).lengths d overrun).append n := by
  have hmax : ¬ maxLogFileSize ≤ 0 := by decide
  unfold rotation at h
  split_ifs at h with hd hfull
  · cases h
    simp [LogFile.writeToFile, hn, LogFile.dateChanged, LogFile.checkLogFileSize, lengths, hd, hmax,
      LogFile.rotateLogFile, rotated, rotateLogFile, openLogFile]
  · cases h
    have hsame : f.currentDate = some r.date := not_not.mp hd
    simp [LogFile.writeToFile, hn, LogFile.dateChanged, LogFile.checkLogFileSize, lengths, hsame, hfull,
      LogFile.rotateLogFile, rotated, rotateLogFile, openLogFile]

theorem lengths_step (hopen : f.logFile = some e) (hok : f.fails c = false) (hlen : c.1.length ≤ bufferCapacity)
    (hs : step f c = some f') (overrun : Bool) :
    ∃ e' overrun', f'.logFile = some e' ∧
      LogFile.step (f.lengths e overrun) (callOf c) = some (f'.lengths e' overrun') := by
  have hguard : f.clock ≤ c.2.date ∧ c.2.date ≤ c.2.dayPath ∧ c.2.dayPath ≤ c.2.sizePath := by
    unfold step at hs
    split_ifs at hs with hg
    exact hg
  have hstep : LogFile.step (f.lengths e overrun) (callOf c) =
      some ((f.lengths e overrun).writeToFile c.1.length c.2.date c.2.dayPath c.2.sizePath) :=
    if_pos ⟨hlen, hguard⟩
  rw [hstep]
  by_cases hne : c.1 = []
  · rw [step_nil hs hne, hne]
    exact ⟨e, overrun, hopen, rfl⟩
  · have hpos : c.1.length ≠ 0 := fun h => hne (List.length_eq_zero_iff.mp h)
    obtain ⟨-, ⟨hrot, -, rfl⟩ | ⟨d, opens, hrot, -, rfl⟩⟩ := step_cases hs hne
    · have hopen' : ({ f with clock := c.2.date } : LogFiles).logFile = some e := hopen
      rw [lengths_writeToFile_of_none hpos hrot, lengths_put hopen']
      exact ⟨e, _, by rw [put_logFile, hopen'], rfl⟩
    · cases opens with
      | false =>
          have hfail : f.fails c = true := fails_eq_true.mpr ⟨hne, d, hrot⟩
          rw [hok] at hfail
          cases hfail
      | true =>
          rw [lengths_writeToFile_of_some hpos hrot, lengths_put rfl]
          exact ⟨d, _, by rw [put_logFile]; rfl, rfl⟩

/-- While every open succeeds the lengths of the files go through a run of `LogFile.lean`. -/
theorem lengths_run {cs : List (List Char × Reading)} (hopen : f.logFile = some e)
    (hok : Along step (fun f c => f.fails c = false) f cs) (hlen : ∀ c ∈ cs, c.1.length ≤ bufferCapacity)
    (hr : run step f cs = some f') (overrun : Bool) :
    ∃ e' overrun', f'.logFile = some e' ∧
      run LogFile.step (f.lengths e overrun) (cs.map callOf) = some (f'.lengths e' overrun') := by
  induction cs generalizing f e overrun with
  | nil =>
      rw [run_nil] at hr
      cases hr
      exact ⟨e, overrun, hopen, rfl⟩
  | cons c cs ih =>
      obtain ⟨f₁, hs, hr'⟩ := run_cons_some.mp hr
      obtain ⟨e₁, o₁, hopen₁, hs₁⟩ := lengths_step hopen hok.1 (hlen c List.mem_cons_self) hs overrun
      obtain ⟨e', o', hopen', hr₁⟩ :=
        ih hopen₁ (hok.2 f₁ hs) (fun c' hc' => hlen c' (List.mem_cons_of_mem _ hc')) hr' o₁
      exact ⟨e', o', hopen', run_cons_some.mpr ⟨_, hs₁, hr₁⟩⟩

end lengths

end LogFiles

end TcpServer
