import DesktopEngine.Lib.CString
import DesktopEngine.Lib.LineRecords
import DesktopEngine.Logger.Program

/-!
# The text of the log file

What `write_to_file` prints for a message: a line with the time, the level and the module in
brackets, and the text as `vsnprintf` has left it in `message[1024]`. The file is opened for
appending, and each line is one `fprintf`, so the file is what was there, followed by the lines in
the order in which they were written.

`Entry.read` takes a line apart again. A log reads back as the messages that were logged exactly
when no text has a newline in it (`log_reads_back_iff`).
-/

namespace DesktopEngine.Logger

open CString LineRecords Run LoggerState

/-! ## The pieces of a line -/

/-- `level_to_string`, on the number of the enumerator. -/
def levelToString : Nat → List UInt8
  | 0 => ascii "DEBUG"
  | 1 => ascii "INFO"
  | 2 => ascii "WARN"
  | 3 => ascii "ERROR"
  | 4 => ascii "FATAL"
  | _ => ascii "UNKNOWN"

def LogModule.toNat : LogModule → Nat
  | server => 0
  | dbus => 1
  | core => 2

def moduleToString : Nat → List UInt8
  | 0 => ascii "SERVER"
  | 1 => ascii "DBUS"
  | 2 => ascii "CORE"
  | _ => ascii "UNKNOWN"

/-- `struct tm`, as `localtime` fills it. -/
structure Tm where
  sec : Fin 61
  min : Fin 60
  hour : Fin 24
  /-- From 1. -/
  mday : Fin 32
  mon : Fin 12
  /-- Since 1900. -/
  year : Int32

def digits (n : Nat) : List UInt8 := (Nat.toDigits 10 n).map fun c => UInt8.ofNat c.toNat

/-- A number of at least two digits. -/
def twoDigits (n : Nat) : List UInt8 := if n < 10 then 48 :: digits n else digits n

def decimal (n : Int) : List UInt8 := if n < 0 then 45 :: digits n.natAbs else digits n.natAbs

/-- `strftime` with `%Y-%m-%d %H:%M:%S` -/
def formatTimestamp (tm : Tm) : List UInt8 :=
  decimal (tm.year.toInt + 1900) ++ ascii "-" ++ twoDigits (tm.mon + 1) ++ ascii "-" ++
    twoDigits tm.mday ++ ascii " " ++ twoDigits tm.hour ++ ascii ":" ++ twoDigits tm.min ++
    ascii ":" ++ twoDigits tm.sec

/-- The string in `message[1024]` behind `vsnprintf`. -/
def LogMessage.stored (m : LogMessage) : List UInt8 :=
  contents (m.message.toByteArray.data.toList.take 1023)

/-- What a line says. -/
structure Entry where
  stamp : List UInt8
  level : LogLevel
  module : LogModule
  text : List UInt8
  deriving DecidableEq

def LogMessage.entry (localtime : Nat → Tm) (m : LogMessage) : Entry where
  stamp := formatTimestamp (localtime m.timestamp)
  level := m.level
  module := m.module
  text := m.stored

/-- `[%s] [%s] [%s] %s` -/
def Entry.line (e : Entry) : List UInt8 :=
  ascii "[" ++ e.stamp ++ ascii "] [" ++ levelToString e.level.toNat ++ ascii "] [" ++
    moduleToString e.module.toNat ++ ascii "] " ++ e.text

/-- `write_to_file`, where there is a file. -/
def writeToFile (localtime : Nat → Tm) (m : LogMessage) : List UInt8 :=
  (m.entry localtime).line ++ [newline]

/-- What a run has added to the log file, once `fclose` has been called. -/
def LoggerState.logText {n : Nat} (s : LoggerState n) (localtime : Nat → Tm) : List UInt8 :=
  (s.texts .file).flatMap (writeToFile localtime)

/-! ## Reading a line -/

/-- A field in brackets and the blank behind it. -/
def field : List UInt8 → Option (List UInt8 × List UInt8)
  | 91 :: rest =>
      match rest.dropWhile (· ≠ 93) with
      | _ :: 32 :: more => some (rest.takeWhile (· ≠ 93), more)
      | _ => none
  | _ => none

def readLevel (text : List UInt8) : Option LogLevel :=
  [.debug, .info, .warn, .error, .fatal].find? fun level => levelToString level.toNat = text

def readModule (text : List UInt8) : Option LogModule :=
  [.server, .dbus, .core].find? fun module => moduleToString module.toNat = text

def Entry.read (line : List UInt8) : Option Entry := do
  let stamp ← field line
  let level ← field stamp.2
  let module ← field level.2
  some ⟨stamp.1, ← readLevel level.1, ← readModule module.1, module.2⟩

/-- A log file, entry by entry. -/
def readLog (file : List UInt8) : Option (List Entry) := readAll newline Entry.read file

/-! ## What the pieces look like -/

/-- The characters of a timestamp. -/
def isStampChar (c : UInt8) : Bool := c = 32 || c = 45 || (48 ≤ c && c ≤ 58)

theorem digits_stamp (n : Nat) : ∀ c ∈ digits n, isStampChar c = true := by
  intro c hc
  obtain ⟨d, hd, rfl⟩ := List.mem_map.mp hc
  have hdigit := Nat.isDigit_of_mem_toDigits (by omega) (by omega) hd
  rw [Char.isDigit, Bool.and_eq_true, decide_eq_true_eq, decide_eq_true_eq] at hdigit
  obtain ⟨h1, h2⟩ : 48 ≤ d.toNat ∧ d.toNat ≤ 57 := hdigit
  have hnat : (UInt8.ofNat d.toNat).toNat = d.toNat := by
    rw [UInt8.toNat_ofNat']
    omega
  have hlow : (48 : UInt8) ≤ UInt8.ofNat d.toNat := by
    rw [UInt8.le_iff_toNat_le, hnat]
    exact h1
  have hhigh : UInt8.ofNat d.toNat ≤ (58 : UInt8) := by
    rw [UInt8.le_iff_toNat_le, hnat]
    exact Nat.le_trans h2 (by decide)
  simp [isStampChar, hlow, hhigh]

theorem twoDigits_stamp (n : Nat) : ∀ c ∈ twoDigits n, isStampChar c = true := by
  intro c hc
  unfold twoDigits at hc
  split_ifs at hc
  · rcases List.mem_cons.mp hc with rfl | hc
    · rfl
    · exact digits_stamp n c hc
  · exact digits_stamp n c hc

theorem decimal_stamp (n : Int) : ∀ c ∈ decimal n, isStampChar c = true := by
  intro c hc
  unfold decimal at hc
  split_ifs at hc
  · rcases List.mem_cons.mp hc with rfl | hc
    · rfl
    · exact digits_stamp _ c hc
  · exact digits_stamp _ c hc

theorem formatTimestamp_stamp (tm : Tm) : ∀ c ∈ formatTimestamp tm, isStampChar c = true := by
  have happend : ∀ {xs ys : List UInt8}, (∀ c ∈ xs, isStampChar c = true) →
      (∀ c ∈ ys, isStampChar c = true) → ∀ c ∈ xs ++ ys, isStampChar c = true :=
    fun hx hy c hc => (List.mem_append.mp hc).elim (hx c) (hy c)
  have hdash : ∀ c ∈ ascii "-", isStampChar c = true := by decide
  have hblank : ∀ c ∈ ascii " ", isStampChar c = true := by decide
  have hcolon : ∀ c ∈ ascii ":", isStampChar c = true := by decide
  refine happend (happend (happend (happend (happend (happend (happend (happend (happend (happend
    (decimal_stamp _) hdash) ?_) hdash) ?_) hblank) ?_) hcolon) ?_) hcolon) ?_
  all_goals exact twoDigits_stamp _

theorem close_not_mem_stamp (tm : Tm) : 93 ∉ formatTimestamp tm := by
  intro hmem
  cases formatTimestamp_stamp tm 93 hmem

theorem newline_not_mem_stamp (tm : Tm) : newline ∉ formatTimestamp tm := by
  intro hmem
  cases formatTimestamp_stamp tm newline hmem

theorem readLevel_levelToString (level : LogLevel) :
    readLevel (levelToString level.toNat) = some level := by
  cases level <;> decide

theorem readModule_moduleToString (module : LogModule) :
    readModule (moduleToString module.toNat) = some module := by
  cases module <;> decide

theorem field_eq {inner more : List UInt8} (h : 93 ∉ inner) :
    field (91 :: (inner ++ 93 :: 32 :: more)) = some (inner, more) := by
  have hall : ∀ c ∈ inner, decide (c ≠ 93) = true := by
    intro c hc
    rw [decide_eq_true_eq]
    rintro rfl
    exact h hc
  have hdrop : (inner ++ 93 :: 32 :: more).dropWhile (· ≠ 93) = 93 :: 32 :: more := by
    rw [List.dropWhile_append_of_pos hall]
    rfl
  have htake : (inner ++ 93 :: 32 :: more).takeWhile (· ≠ 93) = inner := by
    rw [List.takeWhile_append_of_pos hall]
    exact List.append_nil inner
  simp only [field, hdrop, htake]

theorem close_not_mem_level (level : LogLevel) : 93 ∉ levelToString level.toNat := by
  cases level <;> decide

theorem close_not_mem_module (module : LogModule) : 93 ∉ moduleToString module.toNat := by
  cases module <;> decide

theorem Entry.line_eq (e : Entry) : e.line =
    91 :: (e.stamp ++ 93 :: 32 :: 91 :: (levelToString e.level.toNat ++ 93 :: 32 :: 91 ::
      (moduleToString e.module.toNat ++ 93 :: 32 :: e.text))) := by
  have h1 : ascii "[" = [91] := rfl
  have h2 : ascii "] [" = [93, 32, 91] := rfl
  have h3 : ascii "] " = [93, 32] := rfl
  simp [Entry.line, h1, h2, h3]

/-- **A line says what was written.** -/
theorem read_line {e : Entry} (h : 93 ∉ e.stamp) : Entry.read e.line = some e := by
  rw [Entry.line_eq, Entry.read, field_eq h]
  dsimp only [Option.bind_eq_bind, Option.bind_some]
  rw [field_eq (close_not_mem_level e.level)]
  dsimp only [Option.bind_eq_bind, Option.bind_some]
  rw [field_eq (close_not_mem_module e.module)]
  dsimp only [Option.bind_eq_bind, Option.bind_some]
  rw [readLevel_levelToString, readModule_moduleToString]
  rfl

/-- The newlines of a line are those of its text. -/
theorem newline_mem_line {localtime : Nat → Tm} {m : LogMessage} :
    newline ∈ (m.entry localtime).line ↔ newline ∈ m.stored := by
  have hlevel : newline ∉ levelToString m.level.toNat := by cases m.level <;> decide
  have hmodule : newline ∉ moduleToString m.module.toNat := by cases m.module <;> decide
  have hstamp := newline_not_mem_stamp (localtime m.timestamp)
  have hmarks : newline ≠ 91 ∧ newline ≠ 93 ∧ newline ≠ 32 := by decide
  simp [Entry.line_eq, LogMessage.entry, hlevel, hmodule, hstamp, hmarks]

/-! ## The file of a run -/

theorem logText_eq {n : Nat} (s : LoggerState n) (localtime : Nat → Tm) :
    s.logText localtime =
      writeAll newline Entry.line ((s.texts .file).map (LogMessage.entry localtime)) := by
  unfold LoggerState.logText writeAll
  rw [List.flatMap_map]
  rfl

section

variable {config : LoggerConfig} {fopen create : Bool} {msgs : List LogMessage}
  {acts : List (LoggerAct 1)} {s : LoggerState 1}

/--
**The log of a program reads back as its messages exactly when no text has a newline in it**, behind
what was in the file before, whatever the worker does between the calls, as long as it leaves
nothing in the queue.
-/
theorem log_reads_back_iff (h : Completes config fopen create msgs acts s)
    (hfatal : ∀ m ∈ msgs, m.level ≠ .fatal)
    (hleaves : AllSteps step LeavesEmpty (loggerInit 1 config fopen create) acts)
    (localtime : Nat → Tm) {old : List UInt8} {es : List Entry} (hold : readLog old = some es) :
    (∃ entries, readLog (old ++ s.logText localtime) = some (es ++ entries) ∧
      entries.Perm ((config.expected fopen msgs .file).map (LogMessage.entry localtime))) ↔
      ∀ m ∈ config.expected fopen msgs .file, newline ∉ m.stored := by
  have hperm := (h.perm hfatal hleaves .file).map (LogMessage.entry localtime)
  have hread : ∀ e ∈ (s.texts .file).map (LogMessage.entry localtime),
      Entry.read e.line = some e := by
    intro e he
    obtain ⟨m, -, rfl⟩ := List.mem_map.mp he
    exact read_line (close_not_mem_stamp _)
  have hiff := readAll_append_iff hold hread
  rw [← logText_eq] at hiff
  -- `Completes` gives the file up to order, and newlines do not see the order
  have hclean : (∀ e ∈ (s.texts .file).map (LogMessage.entry localtime), newline ∉ e.line) ↔
      ∀ m ∈ config.expected fopen msgs .file, newline ∉ m.stored := by
    rw [List.forall_mem_map]
    constructor
    · intro hall m hm
      have hm' := (h.perm hfatal hleaves .file).mem_iff.mpr hm
      exact fun hn => hall m hm' (newline_mem_line.mpr hn)
    · intro hall m hm
      have hm' := (h.perm hfatal hleaves .file).mem_iff.mp hm
      exact fun hn => hall m hm' (newline_mem_line.mp hn)
  rw [← hclean]
  constructor
  · rintro ⟨entries, hentries, hp⟩
    exact hiff.mp ⟨entries, hentries, hp.length_eq.trans hperm.length_eq.symm⟩
  · intro hall
    have hback := readAll_append hold hread hall
    rw [← logText_eq] at hback
    exact ⟨_, hback, hperm⟩

/-- The epoch, in Greenwich. -/
def epoch : Tm := ⟨0, 0, 0, 1, 0, 70⟩

/-- What is in the file when the program starts. -/
def oldEntry : Entry := ⟨formatTimestamp epoch, .fatal, .server, ascii "no display"⟩

theorem log_reads_back_filtered : ∃ s : LoggerState 1,
    Completes fileConfig true true threeMessages queuedRun s ∧
    (fileConfig.expected true threeMessages .file).length = 2 ∧
    ∃ entries, readLog (oldEntry.line ++ [newline] ++ s.logText fun _ => epoch) =
        some ([oldEntry] ++ entries) ∧
      entries.Perm ((fileConfig.expected true threeMessages .file).map
        (LogMessage.entry fun _ => epoch)) := by
  obtain ⟨s, h⟩ : ∃ s, Completes fileConfig true true threeMessages queuedRun s :=
    ⟨_, by decide, rfl, rfl⟩
  have hclean : ∀ m ∈ fileConfig.expected true threeMessages .file, newline ∉ m.stored := by decide
  have hold : readLog (oldEntry.line ++ [newline]) = some [oldEntry] := by decide
  exact ⟨s, h, by decide, (log_reads_back_iff h (by decide) (by decide) (fun _ => epoch) hold).mpr
    hclean⟩

end

end DesktopEngine.Logger
