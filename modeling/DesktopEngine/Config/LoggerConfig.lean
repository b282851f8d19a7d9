import DesktopEngine.Lib.CString
import DesktopEngine.Logger.Logger
import Mathlib.Data.Vector.Defs

/-!
# The configuration of the logger

`logger_config_t` and `config.c`: the defaults, the reader of configuration files and the command
line. Strings are their bytes. A file is read in the pieces that `fgets` returns, and each piece is
taken for a line.

`log_file_path` is an array of 256 bytes that is never cleared; the two `strncpy` calls write 255 of
them.
-/

namespace DesktopEngine.Config

open CString Logger

/-- `char log_file_path[256]` -/
abbrev PathArray := List.Vector UInt8 256

/-- `logger_config_t` -/
structure LoggerConfig where
  level : LogLevel
  useColors : Int32
  logToFile : Int32
  logToConsole : Int32
  asyncEnabled : Int32
  flushImmediately : Int32
  logFilePath : PathArray
  deriving DecidableEq

/-- `strncpy(log_file_path, path, sizeof(log_file_path) - 1)` -/
def PathArray.strncpy (a : PathArray) (path : List UInt8) : PathArray :=
  ⟨CString.strncpy a.toList path 255, by rw [length_strncpy] <;> simp⟩

/-- A command line argument. -/
structure Arg where
  bytes : List UInt8
  noNul : 0 ∉ bytes
  deriving DecidableEq

/-- `server_config_t` -/
structure ServerConfig where
  startupCmd : Option Arg
  deriving DecidableEq

/-! ## Defaults -/

def defaultLogFile : List UInt8 := ascii "application.log"

/-- `strcpy(log_file_path, "application.log")` -/
def PathArray.setDefault (a : PathArray) : PathArray :=
  ⟨strcpy a.toList defaultLogFile, by
    rw [length_strcpy]
    · simp
    · rw [List.Vector.toList_length]; decide⟩

/-- The records are those on the stack of `main`, with any contents. -/
def loadDefaultConfig (config : LoggerConfig) : LoggerConfig × ServerConfig :=
  ({ level := .info
     useColors := 1
     logToFile := 0
     logToConsole := 1
     asyncEnabled := 1
     flushImmediately := 0
     logFilePath := config.logFilePath.setDefault }, ⟨none⟩)

/-! ## Configuration files -/

def parseLogLevel (s : List UInt8) : LogLevel :=
  if s = ascii "debug" then .debug
  else if s = ascii "info" then .info
  else if s = ascii "warn" then .warn
  else if s = ascii "error" then .error
  else if s = ascii "fatal" then .fatal
  else .info

def parseBoolean (s : List UInt8) : Int32 :=
  if s = ascii "true" ∨ s = ascii "yes" ∨ s = ascii "1" ∨ s = ascii "on" then 1 else 0

/--
`trim_string`, as its caller sees the string afterwards: the spaces at the end are cut off, those at
the beginning are only skipped by the local pointer. A string of spaces is all beginning.
-/
def trimString (s : List UInt8) : List UInt8 :=
  s.takeWhile (isspace ·) ++ (s.dropWhile (isspace ·)).rdropWhile (isspace ·)

/-- `'='` -/
def equalsSign : UInt8 := 61

/-- `'#'` -/
def hash : UInt8 := 35

/-- `'\r'` -/
def carriageReturn : UInt8 := 13

/-- A comment or an empty line. -/
def isSkipped (line : List UInt8) : Bool :=
  line.head? = some hash || line.head? = some newline || line.head? = some carriageReturn

/-- The key and the value that the body of the loop finds in what `fgets` has returned. -/
def splitLine (line : List UInt8) : Option (List UInt8 × List UInt8) :=
  if isSkipped line then none
  else
    let (key, rest) := strtok equalsSign (contents line)
    let (value, _) := strtok newline rest
    match key, value with
    | some key, some value => some (trimString key, trimString value)
    | _, _ => none

/-- The chain of comparisons over the key. -/
def setField (config : LoggerConfig) (key value : List UInt8) : LoggerConfig :=
  if key = ascii "log_level" then { config with level := parseLogLevel value }
  else if key = ascii "use_colors" then { config with useColors := parseBoolean value }
  else if key = ascii "log_to_file" then { config with logToFile := parseBoolean value }
  else if key = ascii "log_to_console" then { config with logToConsole := parseBoolean value }
  else if key = ascii "log_file_path" then
    { config with logFilePath := config.logFilePath.strncpy value }
  else if key = ascii "async_enabled" then { config with asyncEnabled := parseBoolean value }
  else if key = ascii "flush_immediately" then
    { config with flushImmediately := parseBoolean value }
  else config

/-- The body of the loop. -/
def readLine (config : LoggerConfig) (line : List UInt8) : LoggerConfig :=
  match splitLine line with
  | some (key, value) => setField config key value
  | none => config

/-- The loop of `logger_config_read` over an open file; the buffer has 256 bytes. -/
def readFile (config : LoggerConfig) (file : List UInt8) : LoggerConfig :=
  (fgetsAll 255 file).foldl readLine config

/-- What the configuration files hold; `none` cannot be opened. -/
abbrev Files := List UInt8 → Option (List UInt8)

/-- `logger_config_read` -/
def loggerConfigRead (files : Files) (configPath : List UInt8) (config : LoggerConfig) :
    LoggerConfig :=
  match files configPath with
  | none => config
  | some file => readFile config file

/-! ## The command line -/

/-- An argument that takes no value, or one at the end of the command line; `none` is `exit`. -/
def parseArg (arg : Arg) (config : LoggerConfig) : Option LoggerConfig :=
  if arg.bytes = ascii "--no-colors" then some { config with useColors := 0 }
  else if arg.bytes = ascii "--no-async" then some { config with asyncEnabled := 0 }
  else if arg.bytes = ascii "--console-only" then some { config with logToFile := 0 }
  else if arg.bytes = ascii "--file-only" then some { config with logToConsole := 0 }
  else if arg.bytes = ascii "--startup" then none
  else if arg.bytes = ascii "--help" then none
  else some config

/-- The loop of `parse_args`, from an argument on; `none` is `exit`. -/
def parseArgsFrom (files : Files) (config : LoggerConfig) (server : ServerConfig) :
    List Arg → Option (LoggerConfig × ServerConfig)
  | [] => some (config, server)
  | [arg] => (parseArg arg config).map fun config => (config, server)
  | arg :: value :: rest =>
      if arg.bytes = ascii "--log-config" then
        parseArgsFrom files (loggerConfigRead files value.bytes config) server rest
      else if arg.bytes = ascii "--log-level" then
        parseArgsFrom files { config with level := parseLogLevel value.bytes } server rest
      else if arg.bytes = ascii "--log-file" then
        parseArgsFrom files
          { config with logFilePath := config.logFilePath.strncpy value.bytes, logToFile := 1 }
          server rest
      else if arg.bytes = ascii "--startup" then
        parseArgsFrom files config { server with startupCmd := some value } rest
      else
        match parseArg arg config with
        | none => none
        | some config => parseArgsFrom files config server (value :: rest)

/-- `parse_args`; the first argument is the name of the program. -/
def parseArgs (files : Files) (argv : List Arg) (config : LoggerConfig) (server : ServerConfig) :
    Option (LoggerConfig × ServerConfig) :=
  parseArgsFrom files config server argv.tail

end DesktopEngine.Config
