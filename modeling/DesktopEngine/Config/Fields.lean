import DesktopEngine.Config.LoggerConfig
import DesktopEngine.Lib.Latest

/-!
# Settings and the fields they set

A configuration file is a sequence of settings, each for one of the seven fields of `logger_config_t`.
`Field` puts the chain of comparisons in `logger_config_read` into a table: the key of a field, what a
value means for it, and what is in the field afterwards. A file then says for each field what its
latest setting says (`get_readFile`), and two files mean the same when they agree on the latest
setting of every field (`readFile_eq_iff`).
-/

namespace DesktopEngine.Config

open CString Logger Latest

/-- The fields of `logger_config_t`, in the order in which the keys are compared. -/
inductive Field where
  | logLevel
  | useColors
  | logToFile
  | logToConsole
  | logFilePath
  | asyncEnabled
  | flushImmediately
  deriving DecidableEq, Repr

namespace Field

/-- What the field holds. -/
def Value : Field → Type
  | logLevel => LogLevel
  | logFilePath => PathArray
  | _ => Int32

/-- What a setting writes: for the path, 255 of the 256 bytes. -/
def Written : Field → Type
  | logLevel => LogLevel
  | logFilePath => List UInt8
  | _ => Int32

def key : Field → List UInt8
  | logLevel => ascii "log_level"
  | useColors => ascii "use_colors"
  | logToFile => ascii "log_to_file"
  | logToConsole => ascii "log_to_console"
  | logFilePath => ascii "log_file_path"
  | asyncEnabled => ascii "async_enabled"
  | flushImmediately => ascii "flush_immediately"

/-- The field that a key names. -/
def ofKey (k : List UInt8) : Option Field :=
  [logLevel, useColors, logToFile, logToConsole, logFilePath, asyncEnabled, flushImmediately].find?
    fun f => f.key = k

/-- What a value writes into the field. -/
def parse : (f : Field) → List UInt8 → f.Written
  | logLevel, v => parseLogLevel v
  | useColors, v => parseBoolean v
  | logToFile, v => parseBoolean v
  | logToConsole, v => parseBoolean v
  | logFilePath, v => padded 255 v
  | asyncEnabled, v => parseBoolean v
  | flushImmediately, v => parseBoolean v

/-- What is in the field after the write. -/
def store : (f : Field) → f.Written → f.Value → f.Value
  | logLevel, w, _ => w
  | useColors, w, _ => w
  | logToFile, w, _ => w
  | logToConsole, w, _ => w
  | logFilePath, w, a => a.strncpy w
  | asyncEnabled, w, _ => w
  | flushImmediately, w, _ => w

instance (f : Field) : DecidableEq f.Written := by
  cases f <;> (unfold Written; infer_instance)

end Field

/-- Read a field. -/
def LoggerConfig.get (config : LoggerConfig) : (f : Field) → f.Value
  | .logLevel => config.level
  | .useColors => config.useColors
  | .logToFile => config.logToFile
  | .logToConsole => config.logToConsole
  | .logFilePath => config.logFilePath
  | .asyncEnabled => config.asyncEnabled
  | .flushImmediately => config.flushImmediately

/-- Write a field. -/
def LoggerConfig.set (config : LoggerConfig) : (f : Field) → f.Value → LoggerConfig
  | .logLevel, v => { config with level := v }
  | .useColors, v => { config with useColors := v }
  | .logToFile, v => { config with logToFile := v }
  | .logToConsole, v => { config with logToConsole := v }
  | .logFilePath, v => { config with logFilePath := v }
  | .asyncEnabled, v => { config with asyncEnabled := v }
  | .flushImmediately, v => { config with flushImmediately := v }

namespace LoggerConfig

@[simp] theorem get_set_self (config : LoggerConfig) (f : Field) (v : f.Value) :
    (config.set f v).get f = v := by
  cases f <;> rfl

@[simp] theorem get_set_other (config : LoggerConfig) {f g : Field} (v : f.Value) (h : g ≠ f) :
    (config.set f v).get g = config.get g := by
  cases f <;> cases g <;> first | rfl | exact absurd rfl h

theorem ext_get {config config' : LoggerConfig} (h : ∀ f, config.get f = config'.get f) :
    config = config' := by
  cases config
  cases config'
  have h1 := h .logLevel
  have h2 := h .useColors
  have h3 := h .logToFile
  have h4 := h .logToConsole
  have h5 := h .logFilePath
  have h6 := h .asyncEnabled
  have h7 := h .flushImmediately
  simp only [get] at h1 h2 h3 h4 h5 h6 h7
  rw [h1, h2, h3, h4, h5, h6, h7]

end LoggerConfig

/-! ## What is written to the path -/

theorem padded_padded (n : Nat) (v : List UInt8) : padded n (padded n v) = padded n v := by
  have hlen := length_padded n v
  rw [padded, List.take_append_of_le_length (Nat.le_of_eq hlen.symm),
    List.take_of_length_le (Nat.le_of_eq hlen)]

/-- `strncpy` writes the padded string. -/
theorem strncpy_padded (a : PathArray) (v : List UInt8) :
    a.strncpy (padded 255 v) = a.strncpy v := by
  refine Subtype.ext ?_
  exact congrArg (· ++ a.toList.drop 255) (padded_padded 255 v)

theorem strncpy_strncpy (a : PathArray) (v w : List UInt8) :
    (a.strncpy v).strncpy w = a.strncpy w := by
  refine Subtype.ext ?_
  have hdrop : (padded 255 v ++ a.toList.drop 255).drop 255 = a.toList.drop 255 := by
    have hlen := length_padded 255 v
    rw [List.drop_append_of_le_length (Nat.le_of_eq hlen.symm),
      List.drop_eq_nil_of_le (Nat.le_of_eq hlen), List.nil_append]
  exact congrArg (padded 255 w ++ ·) hdrop

/-- A path that fits is read back as it is, whatever was there before. -/
theorem contents_strncpy_of_lt (a : PathArray) {v : List UInt8} (h0 : 0 ∉ v) (h : v.length < 255) :
    contents (a.strncpy v).toList = v := by
  obtain ⟨k, hk⟩ := padded_of_lt h
  have hlist : (a.strncpy v).toList = v ++ 0 :: (List.replicate k 0 ++ a.toList.drop 255) := by
    refine (congrArg (· ++ a.toList.drop 255) hk).trans ?_
    rw [List.append_assoc]
    rfl
  rw [hlist, contents_append_zero h0]

namespace Field

/-- What is stored replaces what was stored before. -/
theorem store_store (f : Field) (w w' : f.Written) (v : f.Value) :
    f.store w (f.store w' v) = f.store w v := by
  cases f
  case logFilePath => exact strncpy_strncpy v w' w
  all_goals rfl

/-- A written value can be told from what was there before. -/
theorem exists_store_ne (f : Field) (w : f.Written) : ∃ v : f.Value, f.store w v ≠ v := by
  have hflag : ∀ w : Int32, ∃ v : Int32, w ≠ v := fun w => by
    by_cases h : w = 0
    · exact ⟨1, by rw [h]; decide⟩
    · exact ⟨0, h⟩
  cases f
  case logLevel =>
    by_cases h : w = LogLevel.debug
    · refine ⟨LogLevel.info, ?_⟩
      rw [h]
      exact LogLevel.noConfusion
    · exact ⟨LogLevel.debug, h⟩
  case logFilePath =>
    -- an array that differs in the first byte
    have hpad : ∃ c rest, padded 255 w = c :: rest := by
      cases h : padded 255 w with
      | nil =>
          have hlen := length_padded 255 w
          rw [h] at hlen
          cases hlen
      | cons c rest => exact ⟨c, rest, rfl⟩
    obtain ⟨c, rest, hpad⟩ := hpad
    have hother : ∃ d : UInt8, c ≠ d := by
      by_cases h : c = 0
      · exact ⟨1, by rw [h]; decide⟩
      · exact ⟨0, h⟩
    obtain ⟨d, hd⟩ := hother
    refine ⟨⟨List.replicate 256 d, List.length_replicate⟩, fun h => hd ?_⟩
    have hhead : (padded 255 w ++ (List.replicate 256 d).drop 255).head? = some d :=
      congrArg (fun a : PathArray => a.toList.head?) h
    rw [hpad] at hhead
    exact Option.some.inj hhead
  all_goals exact hflag w

/-- What is stored tells what was written. -/
theorem parse_eq_of_store_eq (f : Field) {v v' : List UInt8} {x : f.Value}
    (h : f.store (f.parse v) x = f.store (f.parse v') x) : f.parse v = f.parse v' := by
  cases f
  case logFilePath =>
    have hlist : padded 255 (padded 255 v) ++ x.toList.drop 255 =
        padded 255 (padded 255 v') ++ x.toList.drop 255 :=
      congrArg (fun a : PathArray => a.toList) h
    have hpad := List.append_cancel_right hlist
    rwa [padded_padded, padded_padded] at hpad
  all_goals exact h

end Field

/-! ## Settings -/

/-- A field and the text of its value. -/
abbrev Setting := Field × List UInt8

/-- The setting in what `fgets` has returned, if there is one. -/
def lineSetting (line : List UInt8) : Option Setting :=
  (splitLine line).bind fun kv => (Field.ofKey kv.1).map fun f => (f, kv.2)

/-- What a setting says about a field. -/
def Setting.value? (f : Field) (s : Setting) : Option (List UInt8) :=
  if s.1 = f then some s.2 else none

/-- The value that a line has for a field. -/
def lineValue (f : Field) (line : List UInt8) : Option (List UInt8) :=
  (lineSetting line).bind (Setting.value? f)

/-- The latest value for a field in a file, as text. -/
def fileValue (f : Field) (file : List UInt8) : Option (List UInt8) :=
  latest? (lineValue f) (fgetsAll 255 file)

theorem Field.ofKey_eq_some {k : List UInt8} {f : Field} (h : Field.ofKey k = some f) :
    k = f.key := by
  have hkey : f.key = k := by simpa using List.find?_some h
  exact hkey.symm

theorem Field.ofKey_key (f : Field) : Field.ofKey f.key = some f := by
  cases f <;> decide

/-- The chain of comparisons looks the key up in the table. -/
theorem setField_eq (config : LoggerConfig) (key value : List UInt8) :
    setField config key value =
      (Field.ofKey key).elim config fun f =>
        config.set f (f.store (f.parse value) (config.get f)) := by
  cases h : Field.ofKey key with
  | none =>
      have hne : ∀ f : Field, key ≠ f.key := by
        rintro f rfl
        rw [Field.ofKey_key] at h
        cases h
      exact (if_neg (hne .logLevel)).trans <| (if_neg (hne .useColors)).trans <|
        (if_neg (hne .logToFile)).trans <| (if_neg (hne .logToConsole)).trans <|
        (if_neg (hne .logFilePath)).trans <| (if_neg (hne .asyncEnabled)).trans <|
        if_neg (hne .flushImmediately)
  | some f =>
      rw [Field.ofKey_eq_some h]
      cases f
      case logFilePath =>
        have hset : setField config Field.logFilePath.key value =
            { config with logFilePath := config.logFilePath.strncpy value } := rfl
        rw [hset, ← strncpy_padded]
        rfl
      all_goals rfl

/-- **A line sets one field, or none.** -/
theorem readLine_eq (config : LoggerConfig) (line : List UInt8) :
    readLine config line =
      (lineSetting line).elim config fun s =>
        config.set s.1 (s.1.store (s.1.parse s.2) (config.get s.1)) := by
  unfold readLine lineSetting
  cases splitLine line with
  | none => rfl
  | some kv =>
      rw [Option.bind_some]
      dsimp only
      rw [setField_eq]
      cases Field.ofKey kv.1 <;> rfl

theorem get_readLine (config : LoggerConfig) (line : List UInt8) (f : Field) :
    (readLine config line).get f =
      ((lineValue f line).map f.parse).elim (config.get f) fun w =>
        f.store w (config.get f) := by
  rw [readLine_eq, lineValue]
  cases lineSetting line with
  | none => rfl
  | some s =>
      obtain ⟨g, v⟩ := s
      rw [Option.bind_some, Option.elim_some]
      unfold Setting.value?
      by_cases h : g = f
      · subst h
        rw [if_pos rfl, LoggerConfig.get_set_self]
        rfl
      · rw [if_neg h, LoggerConfig.get_set_other _ _ fun e => h e.symm]
        rfl

/-! ## Files -/

/-- **The last line that names a field wins.** -/
theorem get_readFile (config : LoggerConfig) (file : List UInt8) (f : Field) :
    (readFile config file).get f =
      ((fileValue f file).map f.parse).elim (config.get f) fun w =>
        f.store w (config.get f) := by
  unfold readFile fileValue
  rw [map_latest?]
  exact get_foldl get_readLine Field.store_store config _ f

/-- **Two files are read alike when they agree on the latest setting of every field.** -/
theorem readFile_eq_iff (file file' : List UInt8) :
    (∀ config, readFile config file = readFile config file') ↔
      ∀ f : Field, (fileValue f file).map f.parse = (fileValue f file').map f.parse := by
  constructor
  · intro h f
    have hget : ∀ x : f.Value,
        ((fileValue f file).map f.parse).elim x (fun w => f.store w x) =
          ((fileValue f file').map f.parse).elim x fun w => f.store w x := by
      intro x
      obtain ⟨config⟩ : Nonempty LoggerConfig :=
        ⟨⟨.debug, 0, 0, 0, 0, 0, ⟨List.replicate 256 0, List.length_replicate⟩⟩⟩
      have hfile := congrArg (fun c => LoggerConfig.get c f) (h (config.set f x))
      simp only [get_readFile, LoggerConfig.get_set_self] at hfile
      exact hfile
    cases hv : fileValue f file with
    | none =>
        cases hv' : fileValue f file' with
        | none => rfl
        | some v' =>
            obtain ⟨x, hx⟩ := f.exists_store_ne (f.parse v')
            rw [hv, hv'] at hget
            exact absurd (hget x).symm hx
    | some v =>
        cases hv' : fileValue f file' with
        | none =>
            obtain ⟨x, hx⟩ := f.exists_store_ne (f.parse v)
            rw [hv, hv'] at hget
            exact absurd (hget x) hx
        | some v' =>
            obtain ⟨x, -⟩ := f.exists_store_ne (f.parse v)
            rw [hv, hv'] at hget
            exact congrArg some (f.parse_eq_of_store_eq (hget x))
  · intro h config
    refine LoggerConfig.ext_get fun f => ?_
    rw [get_readFile, get_readFile, h f]

end DesktopEngine.Config
