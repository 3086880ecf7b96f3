import TcpServer.Transition
import Mathlib.Logic.Function.Basic

/-! # The log file on disk (`util/log.cpp`)

`WriteToFile` appends to the file of the day.  It keeps the length of the open file in
`current_log_file_size_` and opens a file anew when the date has changed, and when the counter has
reached `max_log_file_size_`.  The path depends on the date alone, so that a rotation by size opens
the file it has just closed, and every rotation sets the counter to zero, whatever the file holds.

The date is read up to three times in one call: in `WriteToFile`, and in `GetLogFilePath` for each
rotation; the readings never go back.  `current_date_` is empty until the first call, which
therefore rotates too.

`limit_enforced_iff`: the counter is the length of the open file after every call, and no file that
has reached the limit is extended, *iff* every rotation of the run opens an empty file. -/

namespace TcpServer

open Transition

/-- A calendar date; dates are numbered in order. -/
abbrev Date := ℕ

/-- `max_log_file_size_`: 100MB per file. -/
def maxLogFileSize : ℕ := 100 * 1024 * 1024

/-- `buffer_capacity_`: 1MB buffer. -/
def bufferCapacity : ℕ := 1024 * 1024

/-- The files, named by their dates, and what the logger knows about the one it has open.
`clock` is the last reading of the date; `overrun` records that a file that had reached the limit
was extended. -/
structure LogFile where
  disk : Date → ℕ
  openDate : Date
  currentLogFileSize : ℕ
  currentDate : Option Date
  clock : Date
  overrun : Bool

namespace LogFile

/-- `InitLogFile` on the date `d`, with files of these lengths on disk. -/
def initLogFile (disk : Date → ℕ) (d : Date) : LogFile where
  disk := disk
  openDate := d
  currentLogFileSize := disk d
  currentDate := none
  clock := d
  overrun := false

/-- `RotateLogFile`, where `GetLogFilePath` reads the date `d`. -/
def rotateLogFile (d : Date) (s : LogFile) : LogFile :=
  { s with openDate := d, currentLogFileSize := 0, clock := d }

/-- `CheckLogFileSize`. -/
def checkLogFileSize (d : Date) (s : LogFile) : LogFile :=
  if maxLogFileSize ≤ s.currentLogFileSize then s.rotateLogFile d else s

/-- The date has changed since the last call, or there was none. -/
def dateChanged (d : Date) (s : LogFile) : Bool := decide (s.currentDate ≠ some d)

/-- `log_file_.write(buffer.data(), size)` and the count. -/
def append (size : ℕ) (s : LogFile) : LogFile :=
  { s with
    disk := Function.update s.disk s.openDate (s.disk s.openDate + size)
    currentLogFileSize := s.currentLogFileSize + size
    overrun := s.overrun || decide (maxLogFileSize ≤ s.disk s.openDate) }

/-- `WriteToFile` of `size` bytes.  The date reads `d` first, `dayPath` in the rotation by date and
`sizePath` in the rotation by size. -/
def writeToFile (size : ℕ) (d dayPath sizePath : Date) (s : LogFile) : LogFile :=
  if size = 0 then s
  else
    let s := { s with clock := d }
    let s := if s.dateChanged d then { s.rotateLogFile dayPath with currentDate := some d } else s
    (s.checkLogFileSize sizePath).append size

/-- A call of `WriteToFile` and the dates read during it. -/
structure Call where
  size : ℕ
  date : Date
  dayPath : Date
  sizePath : Date
deriving DecidableEq, Repr

/-- `WriteToFile` writes out a buffer, and the clock does not go back. -/
def step (s : LogFile) (c : Call) : Option LogFile :=
  if c.size ≤ bufferCapacity ∧ s.clock ≤ c.date ∧ c.date ≤ c.dayPath ∧ c.dayPath ≤ c.sizePath then
    some (s.writeToFile c.size c.date c.dayPath c.sizePath)
  else none

/-- The date whose file the next call opens anew, if it rotates. -/
def rotation (s : LogFile) (c : Call) : Option Date :=
  if c.size = 0 then none
  else if s.dateChanged c.date then some c.dayPath
  else if maxLogFileSize ≤ s.currentLogFileSize then some c.sizePath
  else none

/-- The call does not rotate, or it opens an empty file. -/
def opensEmpty (s : LogFile) (c : Call) : Prop := ∀ d, s.rotation c = some d → s.disk d = 0

instance decidableOpensEmpty (s : LogFile) (c : Call) : Decidable (s.opensEmpty c) :=
  match h : s.rotation c with
  | none => isTrue fun d hd => by rw [h] at hd; cases hd
  | some d => decidable_of_iff (s.disk d = 0)
      ⟨fun h0 d' hd => by rw [h] at hd; cases hd; exact h0, fun hall => hall d h⟩

/-- The counter is the length of the open file, no full file has been extended, and the files that
started below the limit (`disk`) exceed it by a buffer at most. -/
structure Enforced (disk : Date → ℕ) (s : LogFile) : Prop where
  counter : s.currentLogFileSize = s.disk s.openDate
  below : s.overrun = false
  bound : ∀ d, disk d < maxLogFileSize → s.disk d ≤ maxLogFileSize + bufferCapacity

theorem enforced_initLogFile (disk : Date → ℕ) (d : Date) : Enforced disk (initLogFile disk d) := by
  refine ⟨rfl, rfl, ?_⟩
  intro d' hd
  exact Nat.le_add_right_of_le (Nat.le_of_lt hd)

/-! ### One call -/

section call

variable {disk : Date → ℕ} {s s' : LogFile} {c : Call}

/-- What a call with something to write does: it appends to the file it has open, or to the one it
opens with the counter at zero. -/
theorem writeToFile_cases (hsize : c.size ≠ 0) :
    (s.rotation c = none ∧ s.currentLogFileSize < maxLogFileSize ∧
      s.writeToFile c.size c.date c.dayPath c.sizePath = append c.size { s with clock := c.date }) ∨
      ∃ d o, s.rotation c = some d ∧
        s.writeToFile c.size c.date c.dayPath c.sizePath =
          append c.size { s with openDate := d, currentLogFileSize := 0, currentDate := o, clock := d } := by
  have hmax : ¬ maxLogFileSize ≤ 0 := by decide
  unfold writeToFile rotation
  rw [if_neg hsize, if_neg hsize]
  by_cases hd : s.dateChanged c.date = true
  · have hd' : dateChanged c.date { s with clock := c.date } = true := hd
    refine Or.inr ⟨c.dayPath, some c.date, by rw [if_pos hd], ?_⟩
    simp only [hd', if_true, checkLogFileSize, rotateLogFile, if_neg hmax]
  · have hd' : ¬ dateChanged c.date { s with clock := c.date } = true := hd
    by_cases hfull : maxLogFileSize ≤ s.currentLogFileSize
    · refine Or.inr ⟨c.sizePath, s.currentDate, by rw [if_neg hd, if_pos hfull], ?_⟩
      simp only [if_neg hd', checkLogFileSize, if_pos hfull, rotateLogFile]
    · refine Or.inl ⟨by rw [if_neg hd, if_neg hfull], Nat.lt_of_not_le hfull, ?_⟩
      simp only [if_neg hd', checkLogFileSize, if_neg hfull]

/-- Appending a buffer to a file below the limit whose length is known. -/
theorem enforced_append (h : ∀ d, disk d < maxLogFileSize → s.disk d ≤ maxLogFileSize + bufferCapacity)
    (hcount : s.currentLogFileSize = s.disk s.openDate) (hover : s.overrun = false)
    (hlt : s.disk s.openDate < maxLogFileSize) {size : ℕ} (hsize : size ≤ bufferCapacity) :
    Enforced disk (s.append size) := by
  refine ⟨?_, ?_, ?_⟩
  · simp only [append, Function.update_self, hcount]
  · simp only [append, hover, Bool.false_or, decide_eq_false_iff_not]
    omega
  · intro d hd
    by_cases hopen : d = s.openDate
    · simp only [append, hopen, Function.update_self]
      omega
    · simp only [append, Function.update_of_ne hopen]
      exact h d hd

theorem step_eq_some (hs : step s c = some s') :
    c.size ≤ bufferCapacity ∧ s' = s.writeToFile c.size c.date c.dayPath c.sizePath := by
  unfold step at hs
  split_ifs at hs with hg
  cases hs
  exact ⟨hg.1, rfl⟩

theorem enforced_step (h : Enforced disk s) (hok : s.opensEmpty c) (hs : step s c = some s') : Enforced disk s' := by
  obtain ⟨hcap, rfl⟩ := step_eq_some hs
  by_cases hsize : c.size = 0
  · rw [writeToFile, if_pos hsize]
    exact h
  · obtain ⟨-, hlt, heq⟩ | ⟨d, o, hd, heq⟩ := writeToFile_cases (s := s) hsize
    · rw [heq]
      have hfile : s.disk s.openDate < maxLogFileSize := by rwa [← h.counter]
      apply enforced_append
      · exact h.bound
      · exact h.counter
      · exact h.below
      · exact hfile
      · exact hcap
    · rw [heq]
      have hempty : s.disk d = 0 := hok d hd
      have hfile : s.disk d < maxLogFileSize := by
        rw [hempty]
        decide
      apply enforced_append
      · exact h.bound
      · exact hempty.symm
      · exact h.below
      · exact hfile
      · exact hcap

/-- A rotation into a file that is not empty: the counter starts at zero, the file does not. -/
theorem not_enforced_step (hok : ¬ s.opensEmpty c) (hs : step s c = some s') : ¬ Enforced disk s' := by
  obtain ⟨-, rfl⟩ := step_eq_some hs
  simp only [opensEmpty, not_forall] at hok
  obtain ⟨d, hd, hne⟩ := hok
  have hsize : c.size ≠ 0 := by
    intro h0
    simp [rotation, h0] at hd
  intro h
  obtain ⟨hnone, -, -⟩ | ⟨d', o, hd', heq⟩ := writeToFile_cases (s := s) hsize
  · rw [hd] at hnone
    cases hnone
  · rw [hd] at hd'
    cases hd'
    have hcount := h.counter
    rw [heq] at hcount
    simp only [append, Function.update_self] at hcount
    omega

end call

/-- **The limit.**  For all files on disk, every date of the start and every sequence of calls with
dates that do not go back: after every call the counter is the length of the open file, no file at
the limit has been extended and no file that started below the limit exceeds it by more than a
buffer, if and only if every rotation of the run opens an empty file. -/
theorem limit_enforced_iff (disk : Date → ℕ) (d : Date) {cs : List Call} {s : LogFile}
    (hr : run step (initLogFile disk d) cs = some s) :
    (∀ cs₁ s₁, cs₁ <+: cs → run step (initLogFile disk d) cs₁ = some s₁ → Enforced disk s₁) ↔
      Along step opensEmpty (initLogFile disk d) cs :=
  always_iff_along (I := fun _ => True) (fun _ _ _ _ _ => trivial)
    (fun _ _ _ _ hP hok hs => enforced_step hP hok hs) (fun _ _ _ _ hok hs => not_enforced_step hok hs)
    trivial (enforced_initLogFile disk d) hr

/-- A new directory, two calls on the first day and one on the second. -/
def twoDays : List Call := [⟨500, 1, 1, 1⟩, ⟨700, 1, 1, 1⟩, ⟨300, 2, 2, 2⟩]

theorem twoDays_enforced :
    ∃ s, run step (initLogFile (fun _ => 0) 1) twoDays = some s ∧ s.currentLogFileSize = 300 ∧
      Enforced (fun _ => 0) s := by
  obtain ⟨s, hs, hsize⟩ := exists_of_any (o := run step (initLogFile (fun _ => 0) 1) twoDays)
    (fun s => s.currentLogFileSize = 300) (by decide)
  have hok : Along step opensEmpty (initLogFile (fun _ => 0) 1) twoDays := by decide
  exact ⟨s, hs, hsize, (limit_enforced_iff _ 1 hs).mpr hok _ s (List.prefix_refl _) hs⟩

/-- A restart on a day whose file is full: the first call opens the file again, counts from zero
and extends it. -/
theorem restart_overruns :
    ∃ s, run step (initLogFile (fun _ => maxLogFileSize) 1) [⟨500, 1, 1, 1⟩] = some s ∧
      s.currentLogFileSize = 500 ∧ s.disk s.openDate = maxLogFileSize + 500 ∧ s.overrun = true ∧
      ¬ Enforced (fun _ => maxLogFileSize) s := by
  obtain ⟨s, hs, hsize, hdisk, hover⟩ :=
    exists_of_any (o := run step (initLogFile (fun _ => maxLogFileSize) 1) [⟨500, 1, 1, 1⟩])
      (fun s => s.currentLogFileSize = 500 ∧ s.disk s.openDate = maxLogFileSize + 500 ∧ s.overrun = true)
      (by decide +kernel)
  refine ⟨s, hs, hsize, hdisk, hover, ?_⟩
  intro h
  rw [h.below] at hover
  cases hover

end LogFile

end TcpServer
