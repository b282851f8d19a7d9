import DesktopEngine.Config.Fields

/-!
# Options

The command line as a list of options. `parse_args` looks at one argument at a time; four of its
options take the next one with them, whatever it looks like. `readOptions` is the command line cut
into options, and `parse_args` applies them one after the other (`parseArgsFrom_eq`), so a field of
the configuration holds what the last option that writes it has left (`get_parseArgs`).
-/

namespace DesktopEngine.Config

open CString Logger Latest

/-- An option, with the argument that it takes. -/
inductive ArgOption where
  | logConfig (path : Arg)
  | logLevel (level : Arg)
  | logFile (path : Arg)
  | startup (cmd : Arg)
  | noColors
  | noAsync
  | consoleOnly
  | fileOnly
  /-- `--help`, or `--startup` at the end -/
  | exit
  | ignored
  deriving DecidableEq

namespace ArgOption

/-- An argument that takes no other. -/
def ofArg (arg : Arg) : ArgOption :=
  if arg.bytes = ascii "--no-colors" then .noColors
  else if arg.bytes = ascii "--no-async" then .noAsync
  else if arg.bytes = ascii "--console-only" then .consoleOnly
  else if arg.bytes = ascii "--file-only" then .fileOnly
  else if arg.bytes = ascii "--startup" then .exit
  else if arg.bytes = ascii "--help" then .exit
  else .ignored

/-- What the option does to the configuration. -/
def apply (files : Files) (config : LoggerConfig) : ArgOption → LoggerConfig
  | logConfig path => loggerConfigRead files path.bytes config
  | logLevel level => { config with level := parseLogLevel level.bytes }
  | logFile path =>
      { config with logFilePath := config.logFilePath.strncpy path.bytes, logToFile := 1 }
  | noColors => { config with useColors := 0 }
  | noAsync => { config with asyncEnabled := 0 }
  | consoleOnly => { config with logToFile := 0 }
  | fileOnly => { config with logToConsole := 0 }
  | startup _ | exit | ignored => config

/-- The command that the option sets. -/
def startup? : ArgOption → Option Arg
  | startup cmd => some cmd
  | _ => none

/-- What the option writes into a field. -/
def writes (files : Files) : (f : Field) → ArgOption → Option f.Written
  | f, logConfig path => (files path.bytes).bind fun file => (fileValue f file).map f.parse
  | .logLevel, logLevel level => some (parseLogLevel level.bytes)
  | .logFilePath, logFile path => some (padded 255 path.bytes)
  | .logToFile, logFile _ => some (1 : Int32)
  | .useColors, noColors => some (0 : Int32)
  | .asyncEnabled, noAsync => some (0 : Int32)
  | .logToFile, consoleOnly => some (0 : Int32)
  | .logToConsole, fileOnly => some (0 : Int32)
  | _, _ => none

theorem writes_logConfig (files : Files) (f : Field) (path : Arg) :
    writes files f (logConfig path) =
      (files path.bytes).bind fun file => (fileValue f file).map f.parse := by
  cases f <;> rfl

end ArgOption

/-- The options of a command line. -/
def readOptions : List Arg → List ArgOption
  | [] => []
  | [arg] => [.ofArg arg]
  | arg :: value :: rest =>
      if arg.bytes = ascii "--log-config" then .logConfig value :: readOptions rest
      else if arg.bytes = ascii "--log-level" then .logLevel value :: readOptions rest
      else if arg.bytes = ascii "--log-file" then .logFile value :: readOptions rest
      else if arg.bytes = ascii "--startup" then .startup value :: readOptions rest
      else .ofArg arg :: readOptions (value :: rest)

/-! ## The options are applied in order -/

theorem parseArg_eq (files : Files) (arg : Arg) (config : LoggerConfig) :
    parseArg arg config =
      if ArgOption.ofArg arg = .exit then none
      else some ((ArgOption.ofArg arg).apply files config) := by
  unfold parseArg ArgOption.ofArg
  split
  · rfl
  split
  · rfl
  split
  · rfl
  split
  · rfl
  split
  · rfl
  split <;> rfl

theorem startup?_ofArg (arg : Arg) : (ArgOption.ofArg arg).startup? = none := by
  unfold ArgOption.ofArg
  split
  · rfl
  split
  · rfl
  split
  · rfl
  split
  · rfl
  split
  · rfl
  split <;> rfl

/-- What a list of options makes of the two records; `none` is `exit`. -/
def runOptions (files : Files) (options : List ArgOption) (config : LoggerConfig)
    (server : ServerConfig) : Option (LoggerConfig × ServerConfig) :=
  if .exit ∈ options then none
  else some (options.foldl (ArgOption.apply files) config,
    ⟨(latest? ArgOption.startup? options).or server.startupCmd⟩)

section Run

variable {files : Files} {config : LoggerConfig} {server : ServerConfig}

theorem runOptions_cons {option : ArgOption} (h : option ≠ .exit) (options : List ArgOption) :
    runOptions files (option :: options) config server =
      runOptions files options (option.apply files config)
        ⟨option.startup?.or server.startupCmd⟩ := by
  have hmem : .exit ∈ option :: options ↔ .exit ∈ options := by
    rw [List.mem_cons, or_iff_right fun e => h e.symm]
  unfold runOptions
  rw [List.foldl_cons, latest?_cons, Option.or_assoc]
  simp only [hmem]

/-- An argument that takes no other, at the head of a list of options. -/
theorem runOptions_ofArg (arg : Arg) (options : List ArgOption) :
    runOptions files (.ofArg arg :: options) config server =
      (parseArg arg config).bind fun config => runOptions files options config server := by
  rw [parseArg_eq files]
  by_cases hexit : ArgOption.ofArg arg = .exit
  · rw [if_pos hexit, hexit, runOptions, if_pos List.mem_cons_self]
    rfl
  · rw [if_neg hexit, runOptions_cons hexit, startup?_ofArg, Option.none_or]
    rfl

/-- **`parse_args` applies its options in order.** -/
theorem parseArgsFrom_eq (argv : List Arg) :
    parseArgsFrom files config server argv = runOptions files (readOptions argv) config server := by
  fun_induction parseArgsFrom files config server argv with
  | case1 config server => rfl
  | case2 config server arg =>
      rw [readOptions, runOptions_ofArg]
      cases parseArg arg config <;> rfl
  | case3 config server arg value rest h1 ih =>
      rw [ih, readOptions, if_pos h1, runOptions_cons ArgOption.noConfusion]
      rfl
  | case4 config server arg value rest h1 h2 ih =>
      rw [ih, readOptions, if_neg h1, if_pos h2, runOptions_cons ArgOption.noConfusion]
      rfl
  | case5 config server arg value rest h1 h2 h3 ih =>
      rw [ih, readOptions, if_neg h1, if_neg h2, if_pos h3, runOptions_cons ArgOption.noConfusion]
      rfl
  | case6 config server arg value rest h1 h2 h3 h4 ih =>
      rw [ih, readOptions, if_neg h1, if_neg h2, if_neg h3, if_pos h4,
        runOptions_cons ArgOption.noConfusion]
      rfl
  | case7 config server arg value rest h1 h2 h3 h4 hexit =>
      rw [readOptions, if_neg h1, if_neg h2, if_neg h3, if_neg h4, runOptions_ofArg, hexit]
      rfl
  | case8 config server arg value rest h1 h2 h3 h4 config' hnext ih =>
      rw [ih, readOptions, if_neg h1, if_neg h2, if_neg h3, if_neg h4, runOptions_ofArg, hnext]
      rfl

/-! ## The last option that writes a field wins -/

theorem get_apply (option : ArgOption) (f : Field) :
    (option.apply files config).get f =
      (option.writes files f).elim (config.get f) fun w => f.store w (config.get f) := by
  cases option
  case logConfig path =>
    show (loggerConfigRead files path.bytes config).get f = _
    rw [ArgOption.writes_logConfig, loggerConfigRead]
    cases files path.bytes with
    | none => rfl
    | some file => exact get_readFile config file f
  case logFile path =>
    cases f
    case logFilePath => exact (strncpy_padded config.logFilePath path.bytes).symm
    all_goals rfl
  all_goals cases f <;> rfl

/-- **A field holds what the last option that writes it has left.** -/
theorem get_parseArgs {argv : List Arg} {config' : LoggerConfig} {server' : ServerConfig}
    (h : parseArgs files argv config server = some (config', server')) (f : Field) :
    config'.get f =
      (latest? (ArgOption.writes files f) (readOptions argv.tail)).elim (config.get f) fun w =>
        f.store w (config.get f) := by
  rw [parseArgs, parseArgsFrom_eq, runOptions] at h
  obtain ⟨-, heq⟩ := Option.ite_none_left_eq_some.mp h
  simp only [Option.some.injEq, Prod.mk.injEq] at heq
  rw [← heq.1]
  exact get_foldl (fun config option f => get_apply option f) Field.store_store config _ f

end Run

end DesktopEngine.Config
