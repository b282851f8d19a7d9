import DesktopEngine.Config.Args

/-!
# Where the log goes

`--file-only` and `--console-only` switch the other output off, and nothing on. Where the output they
are named after is off already (the file is, by default), no output is left. `outputs_iff` says which
command lines get what they ask for.
-/

namespace DesktopEngine.Config

open CString Latest

namespace ArgOption

/-- The option writes the field. -/
def Writes (files : Files) (f : Field) (option : ArgOption) : Prop :=
  (option.writes files f).isSome

/-- The option has to do with where the log goes. -/
def Selects (files : Files) : ArgOption → Prop
  | fileOnly | consoleOnly | logFile _ => True
  | logConfig path =>
      Writes files .logToFile (logConfig path) ∨ Writes files .logToConsole (logConfig path)
  | _ => False

variable {files : Files} {option : ArgOption}

/-- What does not have to do with it leaves both flags alone. -/
theorem writes_of_not_selects (h : ¬ option.Selects files) :
    option.writes files .logToFile = none ∧ option.writes files .logToConsole = none := by
  cases option
  case logConfig path =>
    obtain ⟨hfile, hconsole⟩ := not_or.mp h
    exact ⟨Option.not_isSome_iff_eq_none.mp hfile, Option.not_isSome_iff_eq_none.mp hconsole⟩
  case fileOnly => exact absurd trivial h
  case consoleOnly => exact absurd trivial h
  case logFile path => exact absurd trivial h
  all_goals exact ⟨rfl, rfl⟩

end ArgOption

/-- If the last option that has to do with it asks for one output, that is the one. -/
structure OutputAsAsked (files : Files) (options : List ArgOption) (config : LoggerConfig) :
    Prop where
  fileOnly : IsLatest options (ArgOption.Selects files) .fileOnly →
    config.logToConsole = 0 ∧ config.logToFile = 1
  consoleOnly : IsLatest options (ArgOption.Selects files) .consoleOnly →
    config.logToFile = 0 ∧ config.logToConsole = 1
  not_none : (∃ option ∈ [ArgOption.fileOnly, .consoleOnly],
      IsLatest options (ArgOption.Selects files) option) →
    ¬ (config.logToFile = 0 ∧ config.logToConsole = 0)

section Outputs

variable {files : Files} {options : List ArgOption}

/-- What `--file-only` writes to the other flag stays there. -/
theorem latest?_of_fileOnly (h : IsLatest options (ArgOption.Selects files) .fileOnly) :
    latest? (ArgOption.writes files .logToConsole) options = some (0 : Int32) := by
  obtain ⟨before, after, hlog, -, hafter⟩ := h
  exact latest?_eq_some_iff.mpr
    ⟨before, .fileOnly, after, hlog, rfl, fun o ho =>
      (ArgOption.writes_of_not_selects (hafter o ho)).2⟩

theorem latest?_of_consoleOnly (h : IsLatest options (ArgOption.Selects files) .consoleOnly) :
    latest? (ArgOption.writes files .logToFile) options = some (0 : Int32) := by
  obtain ⟨before, after, hlog, -, hafter⟩ := h
  exact latest?_eq_some_iff.mpr
    ⟨before, .consoleOnly, after, hlog, rfl, fun o ho =>
      (ArgOption.writes_of_not_selects (hafter o ho)).1⟩

/-- The flag is on at the end, where it was off by default. -/
theorem elim_zero_eq_one_iff {f : ArgOption → Option Int32} :
    (latest? f options).elim 0 id = 1 ↔
      ∃ option, IsLatest options (fun o => (f o).isSome) option ∧ f option = some 1 := by
  constructor
  · intro h
    cases hw : latest? f options with
    | none =>
        rw [hw] at h
        exact absurd h (by decide)
    | some w =>
        rw [hw] at h
        obtain ⟨option, hf, hlast⟩ := latest?_eq_some_iff_isLatest.mp hw
        have hone : w = 1 := h
        exact ⟨option, hlast, by rw [hf, hone]⟩
  · intro hex
    obtain ⟨option, hlast, hf⟩ := hex
    rw [latest?_eq_some_iff_isLatest.mpr ⟨option, hf, hlast⟩]
    rfl

/-- The flag is on at the end, where it was on by default. -/
theorem elim_one_eq_one_iff {f : ArgOption → Option Int32} :
    (latest? f options).elim 1 id = 1 ↔
      ∀ option, IsLatest options (fun o => (f o).isSome) option → f option = some 1 := by
  constructor
  · intro h option hlast
    obtain ⟨before, after, hlog, hsome, hafter⟩ := hlast
    obtain ⟨w, hw⟩ := Option.isSome_iff_exists.mp hsome
    rw [latest?_eq_some_iff_isLatest.mpr ⟨option, hw, before, after, hlog, hsome, hafter⟩] at h
    have hone : w = 1 := h
    rw [hw, hone]
  · intro h
    cases hw : latest? f options with
    | none => rfl
    | some w =>
        obtain ⟨option, hf, hlast⟩ := latest?_eq_some_iff_isLatest.mp hw
        have hone := h option hlast
        rw [hf] at hone
        exact Option.some.inj hone

variable {argv : List Arg} {initial config : LoggerConfig} {server : ServerConfig}

/-- The two flags after `parse_args`, which start as the defaults. -/
theorem flags_parseArgs
    (h : parseArgs files argv (loadDefaultConfig initial).1 (loadDefaultConfig initial).2 =
      some (config, server)) :
    config.logToFile =
        (latest? (ArgOption.writes files .logToFile) (readOptions argv.tail)).elim (0 : Int32) id ∧
      config.logToConsole =
        (latest? (ArgOption.writes files .logToConsole) (readOptions argv.tail)).elim
          (1 : Int32) id :=
  ⟨get_parseArgs h .logToFile, get_parseArgs h .logToConsole⟩

/--
**Who gets the output that was asked for.** `--file-only` does when the last option that writes
`log_to_file` turns it on, which is `--log-file` or a configuration file, and `--console-only` does
when the last option that writes `log_to_console` turns it on, which is a configuration file, or when
there is none.
-/
theorem outputs_iff
    (h : parseArgs files argv (loadDefaultConfig initial).1 (loadDefaultConfig initial).2 =
      some (config, server)) :
    OutputAsAsked files (readOptions argv.tail) config ↔
    (IsLatest (readOptions argv.tail) (ArgOption.Selects files) .fileOnly →
      ∃ option, IsLatest (readOptions argv.tail) (ArgOption.Writes files .logToFile) option ∧
        option.writes files .logToFile = some (1 : Int32)) ∧
    (IsLatest (readOptions argv.tail) (ArgOption.Selects files) .consoleOnly →
      ∀ option, IsLatest (readOptions argv.tail) (ArgOption.Writes files .logToConsole) option →
        option.writes files .logToConsole = some (1 : Int32)) := by
  obtain ⟨hfile, hconsole⟩ := flags_parseArgs h
  have hfile1 : config.logToFile = 1 ↔
      ∃ option, IsLatest (readOptions argv.tail) (ArgOption.Writes files .logToFile) option ∧
        option.writes files .logToFile = some (1 : Int32) := by
    rw [hfile]
    exact elim_zero_eq_one_iff
  have hconsole1 : config.logToConsole = 1 ↔
      ∀ option, IsLatest (readOptions argv.tail) (ArgOption.Writes files .logToConsole) option →
        option.writes files .logToConsole = some (1 : Int32) := by
    rw [hconsole]
    exact elim_one_eq_one_iff
  rw [← hfile1, ← hconsole1]
  constructor
  · intro hand
    obtain ⟨hf, hc, -⟩ := hand
    exact ⟨fun hlast => (hf hlast).2, fun hlast => (hc hlast).2⟩
  · intro hand
    obtain ⟨hf, hc⟩ := hand
    have hf0 : IsLatest (readOptions argv.tail) (ArgOption.Selects files) .fileOnly →
        config.logToConsole = 0 := fun hlast => by
      rw [hconsole, latest?_of_fileOnly hlast]
      rfl
    have hc0 : IsLatest (readOptions argv.tail) (ArgOption.Selects files) .consoleOnly →
        config.logToFile = 0 := fun hlast => by
      rw [hfile, latest?_of_consoleOnly hlast]
      rfl
    refine ⟨fun hlast => ⟨hf0 hlast, hf hlast⟩, fun hlast => ⟨hc0 hlast, hc hlast⟩, ?_⟩
    rintro ⟨option, hmem, hlast⟩ ⟨hnofile, hnoconsole⟩
    rcases List.mem_cons.mp hmem with rfl | hmem
    · rw [hf hlast] at hnofile
      exact absurd hnofile (by decide)
    · rw [List.mem_singleton] at hmem
      subst hmem
      rw [hc hlast] at hnoconsole
      exact absurd hnoconsole (by decide)

/-- A file is named before it is asked for. -/
theorem outputs_iff_logFile : ∃ config server,
    parseArgs (fun _ => none)
      [⟨ascii "engine", by decide⟩, ⟨ascii "--log-file", by decide⟩, ⟨ascii "a.log", by decide⟩,
        ⟨ascii "--file-only", by decide⟩]
      (loadDefaultConfig ⟨.info, 0, 0, 0, 0, 0, List.Vector.replicate 256 0⟩).1 ⟨none⟩ =
        some (config, server) ∧
    config.logToConsole = 0 ∧ config.logToFile = 1 := by
  have hargs : parseArgs (fun _ => none)
      [⟨ascii "engine", by decide⟩, ⟨ascii "--log-file", by decide⟩, ⟨ascii "a.log", by decide⟩,
        ⟨ascii "--file-only", by decide⟩]
      (loadDefaultConfig ⟨.info, 0, 0, 0, 0, 0, List.Vector.replicate 256 0⟩).1 ⟨none⟩ =
        some (_, _) := rfl
  have hlast : IsLatest [ArgOption.logFile ⟨ascii "a.log", by decide⟩, .fileOnly]
      (ArgOption.Selects fun _ => none) .fileOnly :=
    ⟨[.logFile _], [], rfl, trivial, fun o ho => by cases ho⟩
  have hwrites : IsLatest [ArgOption.logFile ⟨ascii "a.log", by decide⟩, .fileOnly]
      (ArgOption.Writes (fun _ => none) .logToFile) (.logFile ⟨ascii "a.log", by decide⟩) :=
    ⟨[], [.fileOnly], rfl, rfl, fun o ho => by
      obtain rfl := List.mem_singleton.mp ho
      exact Bool.false_ne_true⟩
  have hconsole : ¬ IsLatest [ArgOption.logFile ⟨ascii "a.log", by decide⟩, .fileOnly]
      (ArgOption.Selects fun _ => none) .consoleOnly := by
    intro hex
    obtain ⟨before, after, hlog, -⟩ := hex
    have hmem : ArgOption.consoleOnly ∈
        [ArgOption.logFile ⟨ascii "a.log", by decide⟩, .fileOnly] := by
      rw [hlog]
      simp
    exact absurd hmem (by decide)
  have hasked := (outputs_iff hargs).mpr
    ⟨fun _ => ⟨_, hwrites, rfl⟩, fun hlast => absurd hlast hconsole⟩
  exact ⟨_, _, hargs, hasked.fileOnly hlast⟩

/-- `--file-only` alone: no output is left. -/
theorem fileOnly_alone :
    ¬ ∀ (files : Files) (argv : List Arg) (initial config : LoggerConfig) (server : ServerConfig),
      parseArgs files argv (loadDefaultConfig initial).1 (loadDefaultConfig initial).2 =
        some (config, server) →
      OutputAsAsked files (readOptions argv.tail) config := by
  intro h
  have hlast : IsLatest (readOptions [⟨ascii "--file-only", by decide⟩])
      (ArgOption.Selects fun _ => none) .fileOnly := ⟨[], [], rfl, trivial, fun o ho => by cases ho⟩
  have hargs := h (fun _ => none) [⟨ascii "engine", by decide⟩, ⟨ascii "--file-only", by decide⟩]
    ⟨.info, 0, 0, 0, 0, 0, List.Vector.replicate 256 0⟩ _ _ rfl
  exact absurd (hargs.fileOnly hlast).2 (by decide)

end Outputs

end DesktopEngine.Config
