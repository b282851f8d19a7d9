import DesktopEngine.Config.LogPath
import DesktopEngine.Logger.Program

/-!
# From the command line to the log

`main` fills a `logger_config_t` with `load_default_config` and `parse_args` and hands it to
`logger_init`. What a run of the program then writes is put in the terms of the user here: for each
setting the last option, or line of a configuration file, that says something about it
(`messages_asked`).
-/

namespace DesktopEngine

open Config CString Latest Logger Run

/-! ## The hand-over -/

/-- The bytes of a path, one character each. -/
def pathString (path : List UInt8) : String :=
  String.ofList (path.map fun c => Char.ofNat c.toNat)

/-- `g_config = *config`, as far as `logger.c` reads it in its decisions. -/
def Config.LoggerConfig.handOver (config : Config.LoggerConfig) : Logger.LoggerConfig where
  level := config.level
  logToFile := config.logToFile ≠ 0
  logToConsole := config.logToConsole ≠ 0
  asyncEnabled := config.asyncEnabled ≠ 0
  logFilePath := pathString (contents config.logFilePath.toList)

/-- A run of the program from its arguments on: the options are read, the logger is started, the
messages are logged and the cleanup returns. -/
structure RunsWith (files : Files) (argv : List Arg) (initial : Config.LoggerConfig)
    (config : Config.LoggerConfig) (fopen create : Bool) (msgs : List LogMessage)
    (acts : List (LoggerAct 1)) (s : LoggerState 1) : Prop where
  args : ∃ server, parseArgs files argv (loadDefaultConfig initial).1
    (loadDefaultConfig initial).2 = some (config, server)
  completes : Completes config.handOver fopen create msgs acts s

/-! ## What the user has asked for -/

section Asked

variable (files : Files) (argv : List Arg)

/-- What is last said of a setting. -/
def lastSaid (f : Field) : Option f.Written :=
  latest? (ArgOption.writes files f) (readOptions argv.tail)

def levelAsked : LogLevel := (lastSaid files argv .logLevel).elim .info id

/-- A flag, with its default. -/
def flagAsked (said : Option Int32) (default : Int32) : Bool := said.getD default ≠ 0

/-- A sink is asked for; the file must have a name. -/
def sinkAsked : Sink → Bool
  | .console => flagAsked (lastSaid files argv .logToConsole) 1
  | .file => flagAsked (lastSaid files argv .logToFile) 0 && suppliedPath files argv ≠ some []

def asyncAsked : Bool := flagAsked (lastSaid files argv .asyncEnabled) 1

/-- The messages that should be in a sink, if the file can be opened. -/
def messagesAsked (fopen : Bool) (msgs : List LogMessage) (k : Sink) : List LogMessage :=
  if sinkAsked files argv k && (k = .console || fopen) then
    msgs.filter fun m => (levelAsked files argv).toNat ≤ m.level.toNat
  else []

end Asked

/-! ## The hand-over keeps what was asked for -/

theorem pathString_eq_empty {path : List UInt8} : pathString path = "" ↔ path = [] := by
  simp [pathString]

section Handed

variable {files : Files} {argv : List Arg} {initial config : Config.LoggerConfig}
  {server : ServerConfig}

/-- Only an empty path leaves the array empty. -/
theorem contents_logFilePath_eq_nil
    (h : parseArgs files argv (loadDefaultConfig initial).1 (loadDefaultConfig initial).2 =
      some (config, server)) :
    contents config.logFilePath.toList = [] ↔ suppliedPath files argv = some [] := by
  have hpath := logFilePath_parseArgs h
  cases hs : suppliedPath files argv with
  | none =>
      rw [hs] at hpath
      have hdefault := (holdsPath_setDefault initial.logFilePath).2
      rw [hpath]
      refine iff_of_false ?_ (by simp)
      intro hnil
      rw [Option.elim_none] at hnil
      rw [show (loadDefaultConfig initial).1.logFilePath = initial.logFilePath.setDefault from rfl,
        hdefault] at hnil
      exact absurd hnil (by decide)
  | some path =>
      rw [hs, Option.elim_some] at hpath
      rw [hpath]
      cases path with
      | nil =>
          rw [contents_strncpy_of_lt _ (by simp) (by simp)]
          simp
      | cons c rest =>
          have hc : c ≠ 0 := fun hc => zero_not_mem_suppliedPath hs (hc ▸ List.mem_cons_self)
          obtain ⟨more, hmore⟩ : ∃ more,
              ((loadDefaultConfig initial).1.logFilePath.strncpy (c :: rest)).toList = c :: more :=
            ⟨_, rfl⟩
          rw [hmore]
          simp [contents, hc]

theorem flagAsked_eq {said : Option Int32} {default x : Int32} (h : x = said.elim default id) :
    decide (x ≠ 0) = flagAsked said default := by
  cases said <;> rw [h] <;> rfl

/-- **The logger gets what was asked for.** -/
theorem handOver_eq
    (h : parseArgs files argv (loadDefaultConfig initial).1 (loadDefaultConfig initial).2 =
      some (config, server)) :
    config.handOver.level = levelAsked files argv ∧
      config.handOver.asyncEnabled = asyncAsked files argv ∧
        ∀ fopen k, config.handOver.provides fopen k =
          (sinkAsked files argv k && (k = .console || fopen)) := by
  have hconsole : decide (config.logToConsole ≠ 0) = sinkAsked files argv .console :=
    flagAsked_eq (get_parseArgs h .logToConsole)
  have hfile : decide (config.logToFile ≠ 0) = flagAsked (lastSaid files argv .logToFile) 0 :=
    flagAsked_eq (get_parseArgs h .logToFile)
  have hpath : pathString (contents config.logFilePath.toList) = "" ↔
      suppliedPath files argv = some [] :=
    pathString_eq_empty.trans (contents_logFilePath_eq_nil h)
  refine ⟨get_parseArgs h .logLevel, flagAsked_eq (get_parseArgs h .asyncEnabled), ?_⟩
  intro fopen k
  cases k with
  | console =>
      show decide (config.logToConsole ≠ 0) = _
      rw [hconsole]
      simp
  | file =>
      show (decide (config.logToFile ≠ 0) &&
        decide (pathString (contents config.logFilePath.toList) ≠ "") && fopen) = _
      rw [hfile, sinkAsked]
      simp [hpath]

end Handed

/-! ## What is written -/

section Written

variable {files : Files} {argv : List Arg} {initial config : Config.LoggerConfig}
  {fopen create : Bool} {msgs : List LogMessage} {acts : List (LoggerAct 1)} {s : LoggerState 1}

theorem RunsWith.expected_eq (h : RunsWith files argv initial config fopen create msgs acts s)
    (k : Sink) : config.handOver.expected fopen msgs k = messagesAsked files argv fopen msgs k := by
  obtain ⟨server, hargs⟩ := h.args
  obtain ⟨hlevel, -, hprovides⟩ := handOver_eq hargs
  unfold Logger.LoggerConfig.expected messagesAsked
  rw [hprovides]
  congr 1
  refine List.filter_congr fun m _ => ?_
  simp only [Logger.LoggerConfig.drops, hlevel, ← decide_not, Nat.not_lt]

/--
**The log is what the command line asks for.** Without a worker thread each sink gets the messages
that were asked for, in order; with one it gets them all, if the worker leaves nothing in the queue.
Asked for are those of the level that is last said, for the sinks that are last said to be on; the
file also needs a name, and has to open.
-/
theorem messages_asked (h : RunsWith files argv initial config fopen create msgs acts s)
    (hfatal : ∀ m ∈ msgs, m.level ≠ .fatal) (k : Sink) :
    (asyncAsked files argv = false ∨ create = false →
        s.texts k = messagesAsked files argv fopen msgs k) ∧
      (AllSteps LoggerState.step LeavesEmpty (loggerInit 1 config.handOver fopen create)
          acts →
        (s.texts k).Perm (messagesAsked files argv fopen msgs k)) := by
  rw [← h.expected_eq k]
  refine ⟨fun hsync => ?_, fun hleaves => h.completes.perm hfatal hleaves k⟩
  refine h.completes.direct hfatal ?_ k
  obtain ⟨server, hargs⟩ := h.args
  obtain ⟨-, hasync, -⟩ := handOver_eq hargs
  rw [h.completes.frame.1]
  show (config.handOver.asyncEnabled && create) = false
  rw [hasync]
  rcases hsync with hsync | hsync
  · rw [hsync, Bool.false_and]
  · rw [hsync, Bool.and_false]

end Written

/-- `--file-only --no-async --log-file a.log` -/
def fileArgs : List Arg :=
  [⟨ascii "engine", by decide⟩, ⟨ascii "--file-only", by decide⟩, ⟨ascii "--no-async", by decide⟩,
    ⟨ascii "--log-file", by decide⟩, ⟨ascii "a.log", by decide⟩]

/-- The message at level DEBUG is not asked for. -/
theorem messages_asked_fileArgs : ∃ config s,
    RunsWith (fun _ => none) fileArgs ⟨.info, 0, 0, 0, 0, 0, List.Vector.replicate 256 1⟩ config
      true true threeMessages directRun s ∧
    s.texts .file = [hello, ⟨.warn, .dbus, 2, "no reply"⟩] := by
  obtain ⟨config, s, h⟩ : ∃ config s, RunsWith (fun _ => none) fileArgs
      ⟨.info, 0, 0, 0, 0, 0, List.Vector.replicate 256 1⟩ config true true threeMessages
      directRun s := ⟨_, _, ⟨_, rfl⟩, by decide, rfl, rfl⟩
  have hasync : asyncAsked (fun _ => none) fileArgs = false := rfl
  exact ⟨config, s, h, (messages_asked h (by decide) .file).1 (Or.inl hasync)⟩

end DesktopEngine
