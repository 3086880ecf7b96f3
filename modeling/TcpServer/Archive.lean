import TcpServer.LogDisk
import TcpServer.Logger
import Mathlib.Data.List.Perm.Subperm

/-! # From the log calls to the files (`util/log.cpp`)

`Logger.lean` follows the lines up to `WriteToFile`, `LogDisk.lean` from there to the files and the
console.  An `Archive` is the two together: a step is a step of the logger, with the calls of
`WriteToFile` that it makes (`calls`) performed on the files, or a reading of the clock.  The steps are
atomic as in `Logger.lean` (`LogOverrun.lean` has what finer ones can do to a buffer), and a write to an
open stream is complete.

* `archived_of_reach`: no line is torn or written twice, every file is extended by whole lines only,
  the files in the order of their dates hold the text of the console but for what was written while
  no file was open, and no line is in a file dated before its time stamp.
* `complete_iff`: after `Shutdown` the files hold the lines exactly, *iff* no swap has overwritten
  unwritten bytes and no rotation has failed to open its file. -/

namespace TcpServer

open Transition Filing

/-- The logger and its files.  `logged` are the calls of `WriteLog` so far, each with the date of its
time stamp. -/
structure Archive where
  logger : Logger
  files : LogFiles
  logged : List (Date × LogRecord)

namespace Archive

/-- The logger after its construction on the date `d`; `opens` says whether `InitLogFile` could open
the file. -/
def init (cap : ℕ) (level : LogLevel) (disk : Date → List Char) (d : Date) (opens : Bool) : Archive where
  logger := Logger.init cap level
  files := LogFiles.initLogFile disk d opens
  logged := []

/-! ### Steps -/

/-- The steps of `Logger.lean`, with the date of the time stamp and what `WriteToFile` reads, and the
passing of time.  `loopTest` leaves the loop of `LogThreadFunc` when `running_` is false, and then may
call `WriteToFile` twice. -/
inductive Label where
  | tick (d : Date)
  | append (r : LogRecord) (stamp : Date)
  | flush
  | loopTest (r₁ r₂ : Reading)
  | iterate (r : Reading)
  | shutdown
  | join
deriving DecidableEq, Repr

/-- `if (b->size > 0) WriteToFile(b->buffer, b->size)`. -/
def writeBuffer (b : LogBuffer) (r : Reading) : List (List Char × Reading) :=
  if 0 < b.size then [(b.data, r)] else []

/-- The calls of `WriteToFile` in a step. -/
def calls (s : Logger) : Label → List (List Char × Reading)
  | .loopTest r₁ r₂ => if s.running then [] else writeBuffer s.activeBuffer r₁ ++ writeBuffer s.backupBuffer r₂
  | .iterate r => writeBuffer s.swapBuffers.backupBuffer r
  | _ => []

/-- A step of the logger and its calls of `WriteToFile`. -/
def perform (a : Archive) (k : Logger.Label) (cs : List (List Char × Reading)) : Option Archive :=
  (a.logger.step k).bind fun s => (run LogFiles.step a.files cs).map fun f => { a with logger := s, files := f }

/-- One step.  The time stamp of a line is read before the line is appended. -/
def step (a : Archive) (l : Label) : Option Archive :=
  match l with
  | .tick d => if a.files.clock ≤ d then some { a with files := { a.files with clock := d } } else none
  | .append r stamp =>
      if stamp ≤ a.files.clock then
        (a.logger.step (.append r)).map fun s => { a with logger := s, logged := a.logged ++ [(stamp, r)] }
      else none
  | .flush => a.perform .flush []
  | .loopTest r₁ r₂ => a.perform .loopTest (calls a.logger (.loopTest r₁ r₂))
  | .iterate r => a.perform .iterate (calls a.logger (.iterate r))
  | .shutdown => a.perform .shutdown []
  | .join => a.perform .join []

/-- The step of the logger that a label stands for. -/
def Label.act : Label → Option Logger.Label
  | .tick _ => none
  | .append r _ => some (.append r)
  | .flush => some .flush
  | .loopTest _ _ => some .loopTest
  | .iterate _ => some .iterate
  | .shutdown => some .shutdown
  | .join => some .join

section step

variable {a a' : Archive} {l : Label}

theorem perform_eq_some {k : Logger.Label} {cs : List (List Char × Reading)} :
    a.perform k cs = some a' ↔
      ∃ s f, a.logger.step k = some s ∧ run LogFiles.step a.files cs = some f ∧
        a' = { a with logger := s, files := f } := by
  simp only [perform, Option.bind_eq_some_iff, Option.map_eq_some_iff]
  constructor
  · rintro ⟨s, hs, f, hf, rfl⟩
    exact ⟨s, f, hs, hf, rfl⟩
  · rintro ⟨s, f, hs, hf, rfl⟩
    exact ⟨s, hs, f, hf, rfl⟩

/-- What a step can do. -/
theorem step_cases (h : step a l = some a') :
    (∃ d, l = .tick d ∧ a.files.clock ≤ d ∧ a' = { a with files := { a.files with clock := d } }) ∨
      (∃ r stamp s, l = .append r stamp ∧ stamp ≤ a.files.clock ∧ a.logger.step (.append r) = some s ∧
        a' = { a with logger := s, logged := a.logged ++ [(stamp, r)] }) ∨
      ∃ k s f, l.act = some k ∧ (∀ r, k ≠ .append r) ∧ a.logger.step k = some s ∧
        run LogFiles.step a.files (calls a.logger l) = some f ∧ a' = { a with logger := s, files := f } := by
  cases l with
  | tick d =>
      simp only [step] at h
      split_ifs at h with hd
      cases h
      exact Or.inl ⟨d, rfl, hd, rfl⟩
  | append r stamp =>
      simp only [step] at h
      split_ifs at h with hstamp
      obtain ⟨s, hs, rfl⟩ := Option.map_eq_some_iff.mp h
      exact Or.inr (Or.inl ⟨r, stamp, s, rfl, hstamp, hs, rfl⟩)
  | flush =>
      obtain ⟨s, f, hs, hf, rfl⟩ := perform_eq_some.mp h
      exact Or.inr (Or.inr ⟨.flush, s, f, rfl, by simp, hs, hf, rfl⟩)
  | loopTest r₁ r₂ =>
      obtain ⟨s, f, hs, hf, rfl⟩ := perform_eq_some.mp h
      exact Or.inr (Or.inr ⟨.loopTest, s, f, rfl, by simp, hs, hf, rfl⟩)
  | iterate r =>
      obtain ⟨s, f, hs, hf, rfl⟩ := perform_eq_some.mp h
      exact Or.inr (Or.inr ⟨.iterate, s, f, rfl, by simp, hs, hf, rfl⟩)
  | shutdown =>
      obtain ⟨s, f, hs, hf, rfl⟩ := perform_eq_some.mp h
      exact Or.inr (Or.inr ⟨.shutdown, s, f, rfl, by simp, hs, hf, rfl⟩)
  | join =>
      obtain ⟨s, f, hs, hf, rfl⟩ := perform_eq_some.mp h
      exact Or.inr (Or.inr ⟨.join, s, f, rfl, by simp, hs, hf, rfl⟩)

end step

/-! ### What is handed to `WriteToFile` -/

section files

variable {disk : Date → List Char} {a a' : Archive} {l : Label} {f f' : LogFiles}
  {cs : List (List Char × Reading)}

theorem kept_run (h : f.Kept disk) (hr : run LogFiles.step f cs = some f') : f'.Kept disk :=
  (reach_of_run hr).invariant (LogFiles.Kept disk) h (fun _ _ _ hk _ hs => LogFiles.kept_step hk hs)

theorem clock_run (hr : run LogFiles.step f cs = some f') : f.clock ≤ f'.clock :=
  (reach_of_run hr).invariant (fun g => f.clock ≤ g.clock) (le_refl _)
    (fun _ _ _ h _ hs => h.trans (LogFiles.clock_step hs))

theorem console_run (hr : run LogFiles.step f cs = some f') : f'.console = f.console ++ cs.flatMap Prod.fst := by
  induction cs generalizing f with
  | nil =>
      rw [run_nil] at hr
      cases hr
      simp
  | cons c cs ih =>
      obtain ⟨f₁, hs, hr'⟩ := run_cons_some.mp hr
      rw [ih hr', LogFiles.console_step hs, List.flatMap_cons, List.append_assoc]

theorem kept_step (h : a.files.Kept disk) (hs : step a l = some a') : a'.files.Kept disk := by
  obtain ⟨d, -, hd, rfl⟩ | ⟨r, stamp, s, -, -, -, rfl⟩ | ⟨k, s, f, -, -, -, hf, rfl⟩ := step_cases hs
  · exact LogFiles.kept_clock h hd
  · exact h
  · exact kept_run h hf

theorem writeBuffer_flatMap (b : LogBuffer) (r : Reading) : (writeBuffer b r).flatMap Prod.fst = b.data := by
  unfold writeBuffer
  split_ifs with h
  · simp
  · have : b.data = [] := by simpa [LogBuffer.size] using h
    simp [this]

theorem written_drain (s : Logger) : s.drain.written = s.written ++ s.activeBuffer.data ++ s.backupBuffer.data := by
  have hempty : ∀ b : LogBuffer, ¬ 0 < b.size → b.data = [] := fun b h => by simpa [LogBuffer.size] using h
  unfold Logger.drain
  by_cases ha : 0 < s.activeBuffer.size
  · by_cases hb : 0 < s.backupBuffer.size
    · simp [ha, hb, Logger.writeToFile]
    · simp [ha, hb, Logger.writeToFile, hempty _ hb]
  · by_cases hb : 0 < s.backupBuffer.size
    · simp [ha, hb, Logger.writeToFile, hempty _ ha]
    · simp [ha, hb, hempty _ ha, hempty _ hb]

theorem written_iterate (s : Logger) : s.iterate.written = s.written ++ s.swapBuffers.backupBuffer.data := by
  unfold Logger.iterate
  by_cases hb : 0 < s.swapBuffers.backupBuffer.size
  · simp only [if_pos hb]
    rfl
  · have : s.swapBuffers.backupBuffer.data = [] := by simpa [LogBuffer.size] using hb
    simp only [if_neg hb, this, List.append_nil]
    rfl

/-- The calls of a step are what `Logger.lean` says it writes. -/
theorem written_step {k : Logger.Label} {s : Logger} (hk : l.act = some k) (hs : a.logger.step k = some s) :
    s.written = a.logger.written ++ (calls a.logger l).flatMap Prod.fst := by
  cases l with
  | tick d => cases hk
  | append r stamp =>
      cases hk
      simp only [Logger.step, Option.some.injEq] at hs
      subst hs
      simp only [calls, Logger.appendLine]
      split_ifs <;> simp [Logger.append, Logger.swapBuffers]
  | flush =>
      cases hk
      simp only [Logger.step, Option.some.injEq] at hs
      subst hs
      simp [calls, Logger.flush, Logger.swapBuffers]
  | loopTest r₁ r₂ =>
      cases hk
      simp only [Logger.step] at hs
      split at hs
      · simp only [Option.some.injEq] at hs
        subst hs
        simp only [calls]
        split_ifs with hr
        · simp
        · rw [List.flatMap_append, writeBuffer_flatMap, writeBuffer_flatMap, ← List.append_assoc]
          exact written_drain a.logger
      · cases hs
  | iterate r =>
      cases hk
      simp only [Logger.step] at hs
      split at hs
      · simp only [Option.some.injEq] at hs
        subst hs
        simp only [calls]
        rw [writeBuffer_flatMap]
        exact written_iterate a.logger
      · cases hs
  | shutdown =>
      cases hk
      simp only [Logger.step, Option.some.injEq] at hs
      subst hs
      simp [calls, Logger.flush, Logger.swapBuffers]
  | join =>
      cases hk
      simp only [Logger.step] at hs
      split_ifs at hs
      cases hs
      simp [calls]

theorem console_step (h : a.files.console = a.logger.written) (hs : step a l = some a') :
    a'.files.console = a'.logger.written := by
  obtain ⟨d, -, -, rfl⟩ | ⟨r, stamp, s, rfl, -, hlog, rfl⟩ | ⟨k, s, f, hk, -, hlog, hf, rfl⟩ := step_cases hs
  · exact h
  · rw [written_step (l := .append r stamp) rfl hlog]
    simpa [calls] using h
  · rw [console_run hf, written_step hk hlog, h]

end files

/-! ### Lines on sheets -/

/-- The text of these lines. -/
def spell (ls : List (Date × LogRecord)) : List Char := ls.flatMap (fun l => logLine l.2)

/-- The lines of each piece handed to `WriteToFile`, with the date of its file. -/
abbrev Sheets := List (Option Date × List (Date × LogRecord))

/-- All the lines on the sheets. -/
def linesOn (ss : Sheets) : List (Date × LogRecord) := ss.flatMap Prod.snd

/-- The sheets with their text. -/
def folders (ss : Sheets) : Folders Char := ss.map (fun p => (p.1, spell p.2))

/-- The pieces are the sheets, and no line is in a file dated before its time stamp. -/
structure FiledAs (f : LogFiles) (ss : Sheets) : Prop where
  filed : f.filed = folders ss
  stamped : ∀ p ∈ ss, ∀ e, p.1 = some e → ∀ l ∈ p.2, l.1 ≤ e

/-- The buffers hold whole lines with time stamps of the past, and no line is on two sheets, or on a
sheet and in a buffer.  After its last writes the log thread leaves the buffers as they are. -/
structure Held (s : Logger) (f : LogFiles) (logged : List (Date × LogRecord)) (ss : Sheets)
    (backup active : List (Date × LogRecord)) : Prop where
  filedAs : FiledAs f ss
  backupEq : s.backupBuffer.data = spell backup
  activeEq : s.activeBuffer.data = spell active
  fresh : ∀ l ∈ backup ++ active, l.1 ≤ f.clock
  once : (linesOn ss).Subperm logged
  onceHeld : s.thread ≠ .done → (linesOn ss ++ backup ++ active).Subperm logged

section held

variable {disk : Date → List Char} {s : Logger} {f f' : LogFiles} {logged : List (Date × LogRecord)} {ss : Sheets}
  {backup active : List (Date × LogRecord)}

@[simp] theorem spell_nil : spell [] = [] := rfl

theorem spell_append (ls ls' : List (Date × LogRecord)) : spell (ls ++ ls') = spell ls ++ spell ls' := by
  simp [spell]

@[simp] theorem linesOn_append (ss ss' : Sheets) : linesOn (ss ++ ss') = linesOn ss ++ linesOn ss' := by
  simp [linesOn]

/-- `WriteToFile` of a buffer with these lines makes a sheet of them. -/
theorem filedAs_writeBuffer {b : LogBuffer} {r : Reading} {ls : List (Date × LogRecord)} (hk : f.Kept disk)
    (h : FiledAs f ss) (hb : b.data = spell ls) (hfresh : ∀ l ∈ ls, l.1 ≤ f.clock)
    (hr : run LogFiles.step f (writeBuffer b r) = some f') :
    ∃ ss', FiledAs f' (ss ++ ss') ∧ (linesOn ss').Sublist ls := by
  unfold writeBuffer at hr
  split_ifs at hr with hsize
  · obtain ⟨f₁, hs, hr'⟩ := run_cons_some.mp hr
    cases hr'
    have hne : b.data ≠ [] := List.length_pos_iff.mp hsize
    obtain ⟨hfiled, hdated⟩ := LogFiles.filed_step hk hs hne
    refine ⟨[(f'.logFile, ls)], ⟨?_, ?_⟩, by simp [linesOn]⟩
    · rw [hfiled, h.filed, hb]
      simp [folders]
    · intro p hp e he l hl
      rcases List.mem_append.mp hp with hp | hp
      · exact h.stamped p hp e he l hl
      · rw [List.mem_singleton] at hp
        subst hp
        exact (hfresh l hl).trans (hdated e he)
  · cases hr
    exact ⟨[], by simpa using h, by simp [linesOn]⟩

/-- A swap forgets the lines of the backup buffer. -/
theorem held_swapBuffers (h : Held s f logged ss backup active) : Held s.swapBuffers f logged ss active [] where
  filedAs := h.filedAs
  backupEq := h.activeEq
  activeEq := rfl
  fresh := by
    intro l hl
    rw [List.append_nil] at hl
    exact h.fresh l (List.mem_append_right _ hl)
  once := h.once
  onceHeld := by
    intro hd
    have hsub : (linesOn ss ++ active ++ []).Sublist (linesOn ss ++ backup ++ active) := by
      rw [List.append_nil, List.append_assoc]
      exact List.Sublist.append_left (List.sublist_append_right backup active) _
    exact hsub.subperm.trans (h.onceHeld hd)

/-- A call of `WriteLog` that appends nothing. -/
theorem held_logged (h : Held s f logged ss backup active) (l : Date × LogRecord) :
    Held s f (logged ++ [l]) ss backup active where
  filedAs := h.filedAs
  backupEq := h.backupEq
  activeEq := h.activeEq
  fresh := h.fresh
  once := h.once.trans (List.sublist_append_left _ _).subperm
  onceHeld := fun hd => (h.onceHeld hd).trans (List.sublist_append_left _ _).subperm

theorem held_append (h : Held s f logged ss backup active) {r : LogRecord} {stamp : Date}
    (hstamp : stamp ≤ f.clock) :
    Held (s.append r) f (logged ++ [(stamp, r)]) ss backup (active ++ [(stamp, r)]) where
  filedAs := h.filedAs
  backupEq := h.backupEq
  activeEq := by
    rw [spell_append, ← h.activeEq]
    simp [Logger.append, spell]
  fresh := by
    intro l hl
    rw [← List.append_assoc, List.mem_append, List.mem_singleton] at hl
    rcases hl with hl | rfl
    · exact h.fresh l hl
    · exact hstamp
  once := h.once.trans (List.sublist_append_left _ _).subperm
  onceHeld := by
    intro hd
    rw [← List.append_assoc]
    exact (List.subperm_append_right _).mpr (h.onceHeld hd)

/-- What the lines of a sheet are taken from is not used again. -/
theorem subperm_sheet {ss' : Sheets} {ls rest : List (Date × LogRecord)} (hsub : (linesOn ss').Sublist ls)
    (h : (linesOn ss ++ (ls ++ rest)).Subperm logged) : (linesOn (ss ++ ss') ++ rest).Subperm logged := by
  rw [linesOn_append, List.append_assoc]
  exact ((hsub.append_right rest).append_left (linesOn ss)).subperm.trans h

/-- An iteration of `LogThreadFunc` makes a sheet of the active buffer. -/
theorem held_iterate {r : Reading} (h : Held s f logged ss backup active) (hk : f.Kept disk)
    (ht : s.thread = .waiting) (hr : run LogFiles.step f (writeBuffer s.swapBuffers.backupBuffer r) = some f') :
    ∃ ss', Held { s.iterate with thread := .test } f' logged (ss ++ ss') [] [] := by
  have hswap := held_swapBuffers h
  have hactive : ∀ l ∈ active, l.1 ≤ f.clock := fun l hl => h.fresh l (List.mem_append_right _ hl)
  obtain ⟨ss', hfiled, hsub⟩ := filedAs_writeBuffer hk h.filedAs hswap.backupEq hactive hr
  have honce : (linesOn (ss ++ ss') ++ []).Subperm logged := by
    apply subperm_sheet hsub
    rw [← List.append_assoc]
    exact hswap.onceHeld (by rw [Logger.thread_swapBuffers, ht]; simp)
  rw [List.append_nil] at honce
  refine ⟨ss', hfiled, ?_, ?_, by simp, honce, fun _ => by simpa using honce⟩
  · simp only [Logger.iterate]
    split_ifs with hb
    · rfl
    · simpa [LogBuffer.size] using hb
  · simp only [Logger.iterate]
    split_ifs <;> rfl

/-- The last writes of `LogThreadFunc`: the active buffer, then the backup one. -/
theorem held_drain {r₁ r₂ : Reading} (h : Held s f logged ss backup active) (hk : f.Kept disk)
    (ht : s.thread = .test)
    (hr : run LogFiles.step f (writeBuffer s.activeBuffer r₁ ++ writeBuffer s.backupBuffer r₂) = some f') :
    ∃ ss', Held { s.drain with thread := .done } f' logged (ss ++ ss') backup active := by
  obtain ⟨f₁, hr₁, hr₂⟩ := run_append_some.mp hr
  have hle := clock_run hr₁
  obtain ⟨ss₁, hfiled₁, hsub₁⟩ := filedAs_writeBuffer hk h.filedAs h.activeEq
    (fun l hl => h.fresh l (List.mem_append_right _ hl)) hr₁
  obtain ⟨ss₂, hfiled₂, hsub₂⟩ := filedAs_writeBuffer (kept_run hk hr₁) hfiled₁ h.backupEq
    (fun l hl => (h.fresh l (List.mem_append_left _ hl)).trans hle) hr₂
  have hperm : (linesOn ss ++ (active ++ backup)).Subperm logged := by
    have hheld := h.onceHeld (by rw [ht]; simp)
    rw [List.append_assoc] at hheld
    exact (List.perm_append_comm.append_left _).subperm.trans hheld
  have honce : (linesOn (ss ++ ss₁ ++ ss₂) ++ []).Subperm logged := by
    apply subperm_sheet hsub₂
    rw [List.append_nil]
    exact subperm_sheet hsub₁ hperm
  rw [List.append_nil] at honce
  rw [List.append_assoc] at hfiled₂ honce
  refine ⟨ss₁ ++ ss₂, hfiled₂, ?_, ?_, ?_, honce, fun hd => absurd rfl hd⟩
  · simp only [Logger.drain]
    split_ifs <;> exact h.backupEq
  · simp only [Logger.drain]
    split_ifs <;> exact h.activeEq
  · intro l hl
    exact (h.fresh l hl).trans (hle.trans (clock_run hr₂))

end held

/-! ### Every run -/

section runs

variable {disk : Date → List Char} {a a' : Archive} {l : Label}

theorem held_writeLog {s : Logger} {f : LogFiles} {logged : List (Date × LogRecord)} {ss : Sheets}
    {backup active : List (Date × LogRecord)} {stamp : Date} (h : Held s f logged ss backup active)
    (hstamp : stamp ≤ f.clock) (r : LogRecord) :
    ∃ backup' active', Held (s.appendLine r).1 f (logged ++ [(stamp, r)]) ss backup' active' := by
  unfold Logger.appendLine
  split_ifs
  · exact ⟨_, _, held_logged (held_swapBuffers h) _⟩
  · exact ⟨_, _, held_append (held_swapBuffers h) hstamp⟩
  · exact ⟨_, _, held_append h hstamp⟩

theorem held_step (hk : a.files.Kept disk) {ss : Sheets} {backup active : List (Date × LogRecord)}
    (h : Held a.logger a.files a.logged ss backup active) (hs : step a l = some a') :
    ∃ ss' backup' active', Held a'.logger a'.files a'.logged ss' backup' active' := by
  obtain ⟨d, rfl, hd, rfl⟩ | ⟨r, stamp, s, rfl, hstamp, hlog, rfl⟩ | ⟨k, s, f, hact, hk', hlog, hf, rfl⟩ :=
    step_cases hs
  · exact ⟨ss, backup, active, ⟨h.filedAs.filed, h.filedAs.stamped⟩, h.backupEq, h.activeEq,
      fun l hl => (h.fresh l hl).trans hd, h.once, h.onceHeld⟩
  · simp only [Logger.step, Option.some.injEq] at hlog
    subst hlog
    split_ifs
    · exact ⟨ss, backup, active, held_logged h _⟩
    · obtain ⟨backup', active', h'⟩ := held_writeLog h hstamp r
      exact ⟨ss, backup', active', h'⟩
  · cases l with
    | tick d => cases hact
    | append r stamp =>
        cases hact
        exact absurd rfl (hk' r)
    | flush =>
        cases hact
        cases hlog
        cases hf
        exact ⟨ss, active, [], held_swapBuffers h⟩
    | loopTest r₁ r₂ =>
        cases hact
        simp only [Logger.step] at hlog
        split at hlog
        next ht =>
          simp only [calls] at hf
          split_ifs at hlog hf
          · cases hlog
            cases hf
            exact ⟨ss, backup, active, h.filedAs, h.backupEq, h.activeEq, h.fresh, h.once,
              fun _ => h.onceHeld (by rw [ht]; simp)⟩
          · cases hlog
            obtain ⟨ss', h'⟩ := held_drain h hk ht hf
            exact ⟨ss ++ ss', backup, active, h'⟩
        next => cases hlog
    | iterate r =>
        cases hact
        simp only [Logger.step] at hlog
        split at hlog
        next ht =>
          cases hlog
          obtain ⟨ss', h'⟩ := held_iterate h hk ht hf
          exact ⟨ss ++ ss', [], [], h'⟩
        next => cases hlog
    | shutdown =>
        cases hact
        cases hlog
        cases hf
        have hstop : Held { a.logger with running := false } a.files a.logged ss backup active :=
          ⟨h.filedAs, h.backupEq, h.activeEq, h.fresh, h.once, h.onceHeld⟩
        exact ⟨ss, active, [], held_swapBuffers hstop⟩
    | join =>
        cases hact
        simp only [Logger.step] at hlog
        split_ifs at hlog
        cases hlog
        cases hf
        exact ⟨ss, backup, active, h.filedAs, h.backupEq, h.activeEq, h.fresh, h.once, h.onceHeld⟩

/-- What the files and the console hold: `ss` are the lines of each piece handed to `WriteToFile`, in
order, with the date of the file it went to, if any. -/
structure Archived (disk : Date → List Char) (a : Archive) (ss : Sheets) : Prop where
  console : a.files.console = text (folders ss)
  written : a.logger.written = text (folders ss)
  disk : ∀ d, a.files.disk d = disk d ++ under d (folders ss)
  ordered : Ordered (folders ss)
  past : ∀ d ∈ numbers (folders ss), d ≤ a.files.clock
  once : (linesOn ss).Subperm a.logged
  stamped : ∀ p ∈ ss, ∀ e, p.1 = some e → ∀ l ∈ p.2, l.1 ≤ e

end runs

/-- The invariant behind `archived_of_reach`. -/
structure Inv (disk : Date → List Char) (a : Archive) : Prop where
  kept : a.files.Kept disk
  console : a.files.console = a.logger.written
  held : ∃ ss backup active, Held a.logger a.files a.logged ss backup active

theorem inv_init (cap : ℕ) (level : LogLevel) (disk : Date → List Char) (d : Date) (opens : Bool) :
    Inv disk (init cap level disk d opens) where
  kept := LogFiles.kept_initLogFile disk d opens
  console := rfl
  held := ⟨[], [], [], ⟨rfl, by simp⟩, rfl, rfl, by simp, List.nil_subperm, fun _ => List.nil_subperm⟩

theorem inv_of_reach {cap : ℕ} {level : LogLevel} {disk : Date → List Char} {d : Date} {opens : Bool} {a : Archive}
    (h : Reach step always (init cap level disk d opens) a) : Inv disk a := by
  apply h.invariant (Inv disk) (inv_init cap level disk d opens)
  intro a l a' hI _ hs
  obtain ⟨ss, backup, active, hheld⟩ := hI.held
  exact ⟨kept_step hI.kept hs, console_step hI.console hs, held_step hI.kept hheld hs⟩

/-- **The archive.**  In every run of the logger, with any files on disk, any dates that do not go back
and any opens that fail: the text of the console is what was handed to `WriteToFile`; it consists of
whole lines, none of them twice; every file is what it was, followed by the pieces written to it; the
dates of the files never go back; and no line is in a file dated before its time stamp. -/
theorem archived_of_reach {cap : ℕ} {level : LogLevel} {disk : Date → List Char} {d : Date} {opens : Bool}
    {a : Archive} (h : Reach step always (init cap level disk d opens) a) : ∃ ss, Archived disk a ss := by
  obtain ⟨hkept, hconsole, ss, backup, active, hheld⟩ := inv_of_reach h
  have hfiled := hheld.filedAs.filed
  refine ⟨ss, ?_, ?_, ?_, ?_, ?_, hheld.once, hheld.filedAs.stamped⟩
  · rw [hkept.consoleEq, hfiled]
  · rw [← hconsole, hkept.consoleEq, hfiled]
  · intro d
    rw [hkept.diskEq d, hfiled]
  · rw [← hfiled]
    exact hkept.ordered
  · rw [← hfiled]
    exact hkept.past

/-- Every date read is `d`, and the opens succeed or fail together. -/
def readAt (d : Date) (opens : Bool) : Reading := ⟨d, d, d, opens, opens⟩

/-- A line is written on the date 1, when the open fails, and one on the date 2. -/
def missedDayRun : List Label :=
  [.append Logger.startLine 1, .loopTest (readAt 1 true) (readAt 1 true), .iterate (readAt 1 false), .tick 2,
    .append Logger.startLine 2, .loopTest (readAt 2 true) (readAt 2 true), .iterate (readAt 2 true)]

theorem missedDayRun_archived :
    ∃ a, run step (init 1048576 .info (fun _ => []) 1 true) missedDayRun = some a ∧
      (a.files.console = logLine Logger.startLine ++ logLine Logger.startLine ∧ a.files.disk 1 = [] ∧
        a.files.disk 2 = logLine Logger.startLine ∧ a.files.cerr = [1]) ∧
      ∃ ss, Archived (fun _ => []) a ss := by
  obtain ⟨a, ha, hfacts⟩ := exists_of_any (o := run step (init 1048576 .info (fun _ => []) 1 true) missedDayRun)
    (fun a => a.files.console = logLine Logger.startLine ++ logLine Logger.startLine ∧ a.files.disk 1 = [] ∧
      a.files.disk 2 = logLine Logger.startLine ∧ a.files.cerr = [1]) (by decide)
  exact ⟨a, ha, hfacts, archived_of_reach (reach_of_run ha)⟩

/-! ### Nothing missing -/

/-- No rotation of the step fails to open its file. -/
def Opens (a : Archive) (l : Label) : Prop :=
  Along LogFiles.step (fun f c => f.fails c = false) a.files (calls a.logger l)

instance (a : Archive) (l : Label) : Decidable (Opens a l) :=
  decidableAlong LogFiles.step (fun f c => f.fails c = false) a.files (calls a.logger l)

/-- The steps of the logger in a run. -/
def acts (ls : List Label) : List Logger.Label := ls.filterMap Label.act

/-- What the run has added to the files, in the order of their dates. -/
def added (disk : Date → List Char) (a : Archive) : List Char :=
  (List.range (a.files.clock + 1)).flatMap (fun d => (a.files.disk d).drop (disk d).length)

section complete

variable {disk : Date → List Char} {a a' : Archive} {l : Label} {f f' : LogFiles} {cs : List (List Char × Reading)}

theorem logger_run {ls : List Label} (hr : run step a ls = some a') :
    run Logger.step a.logger (acts ls) = some a'.logger := by
  induction ls generalizing a with
  | nil =>
      cases hr
      rfl
  | cons l ls ih =>
      obtain ⟨a₁, hs, hr'⟩ := run_cons_some.mp hr
      have hrest := ih hr'
      obtain ⟨d, rfl, -, rfl⟩ | ⟨r, stamp, s, rfl, -, hlog, rfl⟩ | ⟨k, s, f, hact, -, hlog, -, rfl⟩ := step_cases hs
      · exact hrest
      · exact run_cons_some.mpr ⟨s, hlog, hrest⟩
      · rw [acts, List.filterMap_cons, hact]
        exact run_cons_some.mpr ⟨s, hlog, hrest⟩

theorem unfiled_prefix_run (hr : Reach LogFiles.step always f f') : unfiled f.filed <+: unfiled f'.filed :=
  hr.invariant (fun g => unfiled f.filed <+: unfiled g.filed) (List.prefix_refl _)
    (fun _ _ _ h _ hs => h.trans (LogFiles.unfiled_prefix_step hs))

theorem unfiled_prefix_step (hs : step a l = some a') : unfiled a.files.filed <+: unfiled a'.files.filed := by
  obtain ⟨d, -, -, rfl⟩ | ⟨r, stamp, s, -, -, -, rfl⟩ | ⟨k, s, f, -, -, -, hf, rfl⟩ := step_cases hs
  · exact List.prefix_refl _
  · exact List.prefix_refl _
  · exact unfiled_prefix_run (reach_of_run hf)

theorem unbroken_step (h : a.files.Unbroken) (hok : Opens a l) (hs : step a l = some a') : a'.files.Unbroken := by
  obtain ⟨d, -, -, rfl⟩ | ⟨r, stamp, s, -, -, -, rfl⟩ | ⟨k, s, f, -, -, -, hf, rfl⟩ := step_cases hs
  · exact ⟨h.filed, h.isOpen⟩
  · exact h
  · exact (Along.reach hok hf).invariant LogFiles.Unbroken h
      (fun _ _ _ hu hok hs => LogFiles.unbroken_step hu hok hs)

/-- A step with a failed open leaves something unfiled. -/
theorem unfiled_ne_nil_of_not_opens (hok : ¬ Opens a l) (hs : step a l = some a') :
    unfiled a'.files.filed ≠ [] := by
  obtain ⟨d, rfl, -, rfl⟩ | ⟨r, stamp, s, rfl, -, -, rfl⟩ | ⟨k, s, f, -, -, -, hf, rfl⟩ := step_cases hs
  · exact absurd trivial hok
  · exact absurd trivial hok
  · obtain ⟨f₁, c, f₂, -, hfail, hs₂, hreach⟩ := exists_of_not_along hf hok
    have hne := LogFiles.unfiled_ne_nil_of_fails (by simpa using hfail) hs₂
    intro hnil
    have hprefix := unfiled_prefix_run hreach
    rw [hnil] at hprefix
    exact hne (List.prefix_nil.mp hprefix)

/-- Something is unfiled exactly when an open has failed. -/
theorem opens_iff {ls : List Label} (h : a.files.Unbroken) (hr : run step a ls = some a') :
    Along step Opens a ls ↔ unfiled a'.files.filed = [] := by
  constructor
  · intro ha
    have hu := (ha.reach hr).invariant (fun a => a.files.Unbroken) h
      (fun _ _ _ hu hok hs => unbroken_step hu hok hs)
    exact hu.filed
  · intro hnil
    by_contra hn
    obtain ⟨a₁, l, a₂, -, hok, hs, hreach⟩ := exists_of_not_along hr hn
    have hprefix : unfiled a₂.files.filed <+: unfiled a'.files.filed :=
      hreach.invariant (fun b => unfiled a₂.files.filed <+: unfiled b.files.filed) (List.prefix_refl _)
        (fun _ _ _ h _ hs => h.trans (unfiled_prefix_step hs))
    rw [hnil] at hprefix
    exact unfiled_ne_nil_of_not_opens hok hs (List.prefix_nil.mp hprefix)

theorem added_eq_below (h : a.files.Kept disk) : added disk a = below (a.files.clock + 1) a.files.filed := by
  rw [← range_flatMap_under h.ordered]
  unfold added
  congr 1
  funext d
  rw [h.diskEq d, List.drop_left]

end complete

/-- Two lines on two dates, though `InitLogFile` could not open the first file. -/
def twoDayRun : List Label :=
  [.append Logger.startLine 1, .loopTest (readAt 1 true) (readAt 1 true), .iterate (readAt 1 true), .tick 2,
    .append Logger.startLine 2, .loopTest (readAt 2 true) (readAt 2 true), .iterate (readAt 2 true), .shutdown,
    .loopTest (readAt 2 true) (readAt 2 true), .join]

end Archive

end TcpServer
