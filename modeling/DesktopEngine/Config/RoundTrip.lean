import DesktopEngine.Config.Lines

/-!
# Writing a configuration and reading it back

The format that `logger_config_read` is for: comments, blank lines and lines `key=value`, each short
enough for the buffer. A file in it means the last value of every field (`ConfigFile.get_readFile`),
so a configuration that is written in it, in any order, is what the reader makes of it.
-/

namespace DesktopEngine.Config

open CString Logger Latest

/-- No white space at either end. -/
def Trimmed (s : List UInt8) : Prop :=
  (∀ c ∈ s.head?, isspace c = false) ∧ ∀ c ∈ s.getLast?, isspace c = false

instance (s : List UInt8) : Decidable (Trimmed s) :=
  inferInstanceAs (Decidable (_ ∧ _))

/-- A line of the format. -/
inductive ConfigLine where
  | skipped (text : List UInt8)
  | setting (key value : List UInt8)
  deriving DecidableEq

namespace ConfigLine

def text : ConfigLine → List UInt8
  | skipped text => text
  | setting key value => key ++ equalsSign :: value

/-- What the line says about a field. -/
def value? (f : Field) : ConfigLine → Option (List UInt8)
  | skipped _ => none
  | setting key value => if key = f.key then some value else none

/-- What distinguishes a comment, a blank line and a setting. -/
def Kind : ConfigLine → Prop
  | skipped text => text = [] ∨ text.head? = some hash ∨ text.head? = some carriageReturn
  | setting key value =>
      (key ≠ [] ∧ equalsSign ∉ key ∧ key.head? ≠ some hash ∧ Trimmed key) ∧
        value ≠ [] ∧ Trimmed value

structure WellFormed (line : ConfigLine) : Prop where
  noNewline : newline ∉ line.text
  noNul : 0 ∉ line.text
  kind : line.Kind

variable {line : ConfigLine} {key value : List UInt8}

theorem isKey (h : (setting key value).WellFormed) : IsKey key where
  ne_nil := h.kind.1.1
  noEquals := h.kind.1.2.1
  noNewline hmem := h.noNewline (List.mem_append_left _ hmem)
  notSkipped := by
    obtain ⟨⟨-, -, hhash, hhead, -⟩, -⟩ := h.kind
    cases key with
    | nil => rfl
    | cons c key =>
        -- `\n` and `\r` are white space
        have hc : isspace c = false := hhead c rfl
        have h1 : c ≠ newline := fun e => absurd (e ▸ hc) (by decide)
        have h2 : c ≠ carriageReturn := fun e => absurd (e ▸ hc) (by decide)
        have h3 : c ≠ hash := fun e => hhash (congrArg some e)
        simp [isSkipped, h1, h2, h3]

/-- **A line says what it looks like.** -/
theorem lineValue_text (h : line.WellFormed) (f : Field) :
    lineValue f line.text = line.value? f := by
  cases line with
  | skipped text =>
      rcases h.kind with hnil | hhead
      · show lineValue f text = none
        rw [hnil, lineValue_nil]
      · have hskip : isSkipped text = true := by
          rcases hhead with hhead | hhead <;> simp [isSkipped, hhead]
        have hsplit : splitLine text = none := if_pos hskip
        show lineValue f text = none
        rw [lineValue, lineSetting, hsplit]
        rfl
  | setting key value =>
      have hkey := isKey h
      have hvalue : newline ∉ value := fun hmem =>
        h.noNewline (List.mem_append_right _ (List.mem_cons_of_mem _ hmem))
      have h0 : 0 ∉ value := fun hmem =>
        h.noNul (List.mem_append_right _ (List.mem_cons_of_mem _ hmem))
      obtain ⟨⟨-, -, -, hkhead, hklast⟩, hne, hvhead, hvlast⟩ := h.kind
      show lineValue f (key ++ equalsSign :: value) = if key = f.key then some value else none
      rw [lineValue_setting hkey hvalue, contents_of_not_mem h0,
        trimString_eq_self hkhead hklast, trimString_eq_self hvhead hvlast]
      by_cases hf : key = f.key
      · rw [if_pos ⟨hf, hne⟩, if_pos hf]
      · rw [if_neg fun e => hf e.1, if_neg hf]

end ConfigLine

/-- A file of the format; the last line may lack its newline. -/
structure ConfigFile where
  lines : List ConfigLine
  last : Option ConfigLine

namespace ConfigFile

def all (file : ConfigFile) : List ConfigLine := file.lines ++ file.last.toList

def bytes (file : ConfigFile) : List UInt8 :=
  fileOf (file.lines.map ConfigLine.text) ((file.last.map ConfigLine.text).getD [])

/-- Every line is at most 255 bytes long, with its newline. -/
structure WellFormed (file : ConfigFile) : Prop where
  lines : ∀ line ∈ file.all, line.WellFormed
  fits : ∀ line ∈ file.lines, line.text.length + 1 ≤ 255
  last_fits : ∀ line ∈ file.last, line.text.length ≤ 255

variable {file : ConfigFile}

/-- **A file says what its lines say.** -/
theorem fileValue_bytes (h : file.WellFormed) (f : Field) :
    fileValue f file.bytes = latest? (ConfigLine.value? f) file.all := by
  have hlines : ∀ line ∈ file.lines, line.WellFormed := fun line hl =>
    h.lines line (List.mem_append_left _ hl)
  have hfront : latest? (fun line => lineValue f (ConfigLine.text line)) file.lines =
      latest? (ConfigLine.value? f) file.lines :=
    latest?_congr fun line hl => ConfigLine.lineValue_text (hlines line hl) f
  have htexts : ∀ text ∈ file.lines.map ConfigLine.text, newline ∉ text ∧ text.length < 255 := by
    intro text ht
    obtain ⟨line, hl, rfl⟩ := List.mem_map.mp ht
    exact ⟨(hlines line hl).noNewline, h.fits line hl⟩
  unfold bytes all
  cases hlast : file.last with
  | none =>
      rw [fileValue_fileOf htexts (by simp) (by simp), latest?_append, latest?_append, latest?_map,
        hfront]
      rfl
  | some line =>
      have hwf : line.WellFormed := h.lines line (by simp [all, hlast])
      have hlen : line.text.length ≤ 255 := h.last_fits line hlast
      have hback : latest? (lineValue f) [line.text] = latest? (ConfigLine.value? f) [line] := by
        rw [latest?_cons, latest?_cons, ConfigLine.lineValue_text hwf f]
        rfl
      rw [Option.map_some, Option.getD_some, fileValue_fileOf htexts hwf.noNewline hlen,
        latest?_append, latest?_append, latest?_map, hfront, hback]
      rfl

/-- **The last line that names a field is what is read.** -/
theorem get_readFile (h : file.WellFormed) (prior : LoggerConfig) (f : Field) :
    (readFile prior file.bytes).get f =
      (latest? (ConfigLine.value? f) file.all).elim (prior.get f) fun v =>
        f.store (f.parse v) (prior.get f) := by
  rw [Config.get_readFile, fileValue_bytes h]
  cases latest? (ConfigLine.value? f) file.all <;> rfl

theorem length_le_of_mem (h : file.WellFormed) {line : ConfigLine} (hmem : line ∈ file.all) :
    line.text.length ≤ 255 := by
  rcases List.mem_append.mp hmem with hmem | hmem
  · exact Nat.le_of_succ_le (h.fits line hmem)
  · exact h.last_fits line (Option.mem_toList.mp hmem)

/-- A path in a line of a file fits its array. -/
theorem contents_path (h : file.WellFormed) (prior : LoggerConfig) {path : List UInt8}
    (hpath : latest? (ConfigLine.value? .logFilePath) file.all = some path) :
    contents (readFile prior file.bytes).logFilePath.toList = path := by
  obtain ⟨before, line, after, hall, hline, -⟩ := latest?_eq_some_iff.mp hpath
  have hmem : line ∈ file.all := by rw [hall]; simp
  have hwf := h.lines line hmem
  have hlen := length_le_of_mem h hmem
  have hget := get_readFile h prior .logFilePath
  rw [hpath, Option.elim_some] at hget
  cases line with
  | skipped text => cases hline
  | setting key value =>
      obtain ⟨rfl, rfl⟩ : key = Field.logFilePath.key ∧ value = path := by
        simpa [ConfigLine.value?, Option.ite_none_right_eq_some] using hline
      have h0 : 0 ∉ value := fun hmem =>
        hwf.noNul (List.mem_append_right _ (List.mem_cons_of_mem _ hmem))
      have hlt : value.length < 255 := by
        have hkey : Field.logFilePath.key.length = 13 := by decide
        simp only [ConfigLine.text, List.length_append, List.length_cons] at hlen
        omega
      have hstore : (readFile prior file.bytes).logFilePath =
          prior.logFilePath.strncpy (padded 255 value) := hget
      rw [hstore, strncpy_padded, contents_strncpy_of_lt _ h0 hlt]

end ConfigFile

/-! ## Writing a configuration -/

def levelName : LogLevel → List UInt8
  | .debug => ascii "debug"
  | .info => ascii "info"
  | .warn => ascii "warn"
  | .error => ascii "error"
  | .fatal => ascii "fatal"

/-- The ways to write a flag; only 0 and 1 can be written. -/
def flagTexts (flag : Int32) : List (List UInt8) :=
  if flag = 0 then [ascii "false", ascii "no", ascii "0", ascii "off"]
  else if flag = 1 then [ascii "true", ascii "yes", ascii "1", ascii "on"]
  else []

/-- The ways to write what is in a field. -/
def Field.texts (config : LoggerConfig) : Field → List (List UInt8)
  | .logLevel => [levelName config.level]
  | .useColors => flagTexts config.useColors
  | .logToFile => flagTexts config.logToFile
  | .logToConsole => flagTexts config.logToConsole
  | .logFilePath => [contents config.logFilePath.toList]
  | .asyncEnabled => flagTexts config.asyncEnabled
  | .flushImmediately => flagTexts config.flushImmediately

def Field.all : List Field :=
  [.logLevel, .useColors, .logToFile, .logToConsole, .logFilePath, .asyncEnabled, .flushImmediately]

/-- A text that can stand behind `key=`. -/
structure IsValue (value : List UInt8) : Prop where
  ne_nil : value ≠ []
  noNewline : newline ∉ value
  trimmed : Trimmed value

/-- The same configuration; the paths are the same strings. -/
structure LoggerConfig.Same (config config' : LoggerConfig) : Prop where
  fields : ∀ f, f ≠ .logFilePath → config.get f = config'.get f
  path : contents config.logFilePath.toList = contents config'.logFilePath.toList

/-- The line for a field. -/
def Field.line (text : Field → List UInt8) (f : Field) : ConfigLine := .setting f.key (text f)

section Write

variable {config : LoggerConfig} {text : Field → List UInt8}

theorem flagTexts_spec {flag : Int32} {v : List UInt8} (h : v ∈ flagTexts flag) :
    parseBoolean v = flag ∧ IsValue v ∧ 0 ∉ v ∧ v.length ≤ 5 := by
  have h0 : ∀ v ∈ flagTexts 0, parseBoolean v = 0 ∧ (v ≠ [] ∧ newline ∉ v ∧ Trimmed v) ∧ 0 ∉ v ∧
      v.length ≤ 5 := by decide
  have h1 : ∀ v ∈ flagTexts 1, parseBoolean v = 1 ∧ (v ≠ [] ∧ newline ∉ v ∧ Trimmed v) ∧ 0 ∉ v ∧
      v.length ≤ 5 := by decide
  by_cases hflag0 : flag = 0
  · obtain ⟨hp, ⟨hne, hnl, htrim⟩, hrest⟩ := h0 v (hflag0 ▸ h)
    exact ⟨hp.trans hflag0.symm, ⟨hne, hnl, htrim⟩, hrest⟩
  · by_cases hflag1 : flag = 1
    · obtain ⟨hp, ⟨hne, hnl, htrim⟩, hrest⟩ := h1 v (hflag1 ▸ h)
      exact ⟨hp.trans hflag1.symm, ⟨hne, hnl, htrim⟩, hrest⟩
    · rw [flagTexts, if_neg hflag0, if_neg hflag1] at h
      cases h

theorem levelName_spec (level : LogLevel) :
    parseLogLevel (levelName level) = level ∧ IsValue (levelName level) ∧
      0 ∉ levelName level ∧ (levelName level).length ≤ 5 := by
  have h : (levelName level ≠ [] ∧ newline ∉ levelName level ∧ Trimmed (levelName level)) ∧
      0 ∉ levelName level ∧ (levelName level).length ≤ 5 := by
    cases level <;> decide
  obtain ⟨⟨hne, hnl, htrim⟩, hrest⟩ := h
  exact ⟨by cases level <;> decide, ⟨hne, hnl, htrim⟩, hrest⟩

theorem key_spec (f : Field) :
    (f.key ≠ [] ∧ equalsSign ∉ f.key ∧ f.key.head? ≠ some hash ∧ Trimmed f.key) ∧
      newline ∉ f.key ∧ 0 ∉ f.key := by
  cases f <;> decide

/-- What is written for a field can be written, and the line fits the buffer. -/
theorem text_spec (htext : ∀ f, text f ∈ f.texts config)
    (hpath : IsValue (contents config.logFilePath.toList))
    (hlen : (contents config.logFilePath.toList).length ≤ 240) (f : Field) :
    IsValue (text f) ∧ 0 ∉ text f ∧ f.key.length + 1 + (text f).length ≤ 254 := by
  have hf := htext f
  cases f
  case logLevel =>
    have heq : text .logLevel = levelName config.level := List.mem_singleton.mp hf
    obtain ⟨-, hval, h0, hle⟩ := levelName_spec config.level
    have hkey : Field.logLevel.key.length = 9 := by decide
    rw [heq]
    exact ⟨hval, h0, by omega⟩
  case logFilePath =>
    have heq : text .logFilePath = contents config.logFilePath.toList := List.mem_singleton.mp hf
    have hkey : Field.logFilePath.key.length = 13 := by decide
    rw [heq]
    exact ⟨hpath, zero_not_mem_contents _, by omega⟩
  all_goals
    obtain ⟨-, hval, h0, hle⟩ := flagTexts_spec hf
    refine ⟨hval, h0, ?_⟩
    refine Nat.le_trans (Nat.add_le_add_left hle _) ?_
    decide

/-- What is read from a text is what was written. -/
theorem store_parse_text (htext : ∀ f, text f ∈ f.texts config) {f : Field}
    (hf : f ≠ .logFilePath) (x : f.Value) : f.store (f.parse (text f)) x = config.get f := by
  have hmem := htext f
  cases f
  case logLevel =>
    have heq : text .logLevel = levelName config.level := List.mem_singleton.mp hmem
    rw [heq]
    exact (levelName_spec config.level).1
  case logFilePath => exact absurd rfl hf
  all_goals exact (flagTexts_spec hmem).1

/-- The lines of a configuration are lines of the format. -/
theorem wellFormed_line {f : Field} (hval : IsValue (text f)) (h0 : 0 ∉ text f) :
    (f.line text).WellFormed where
  noNewline hmem := by
    rcases List.mem_append.mp hmem with hmem | hmem
    · exact (key_spec f).2.1 hmem
    · rcases List.mem_cons.mp hmem with hmem | hmem
      · exact absurd hmem (by decide)
      · exact hval.noNewline hmem
  noNul hmem := by
    rcases List.mem_append.mp hmem with hmem | hmem
    · exact (key_spec f).2.2 hmem
    · rcases List.mem_cons.mp hmem with hmem | hmem
      · exact absurd hmem (by decide)
      · exact h0 hmem
  kind := ⟨(key_spec f).1, hval.ne_nil, hval.trimmed⟩

theorem value?_line (f g : Field) :
    (g.line text).value? f = if g = f then some (text g) else none := by
  show (if g.key = f.key then some (text g) else none) = _
  by_cases h : g = f
  · rw [if_pos h, if_pos (congrArg Field.key h)]
  · have hkey : g.key ≠ f.key := fun e => h <| Option.some.inj <| by
      rw [← Field.ofKey_key g, ← Field.ofKey_key f, e]
    rw [if_neg h, if_neg hkey]

variable {file : ConfigFile}

theorem mem_all_iff (hall : file.all.Perm (Field.all.map (Field.line text))) {line : ConfigLine} :
    line ∈ file.all ↔ ∃ f : Field, f.line text = line := by
  rw [hall.mem_iff, List.mem_map]
  constructor
  · intro hex
    obtain ⟨f, -, hf⟩ := hex
    exact ⟨f, hf⟩
  · intro hex
    obtain ⟨f, hf⟩ := hex
    exact ⟨f, by cases f <;> decide, hf⟩

/-- A file of the lines of a configuration, in any order, is one of the format. -/
theorem wellFormed_of_perm (htext : ∀ f, text f ∈ f.texts config)
    (hpath : IsValue (contents config.logFilePath.toList))
    (hlen : (contents config.logFilePath.toList).length ≤ 240)
    (hall : file.all.Perm (Field.all.map (Field.line text))) : file.WellFormed := by
  have hle : ∀ line ∈ file.all, line.text.length ≤ 254 := fun line hmem => by
    obtain ⟨f, rfl⟩ := (mem_all_iff hall).mp hmem
    have hf := (text_spec htext hpath hlen f).2.2
    simp only [Field.line, ConfigLine.text, List.length_append, List.length_cons]
    omega
  constructor
  case lines =>
    intro line hmem
    obtain ⟨f, rfl⟩ := (mem_all_iff hall).mp hmem
    obtain ⟨hval, h0, -⟩ := text_spec htext hpath hlen f
    exact wellFormed_line hval h0
  case fits =>
    intro line hmem
    have := hle line (List.mem_append_left _ hmem)
    omega
  case last_fits =>
    intro line hmem
    have := hle line (List.mem_append_right _ (Option.mem_toList.mpr hmem))
    omega

/-- Each field has one line, whatever the order. -/
theorem latest?_of_perm (hall : file.all.Perm (Field.all.map (Field.line text))) (f : Field) :
    latest? (ConfigLine.value? f) file.all = some (text f) := by
  refine latest?_eq_some_of_unique ?_ ⟨f.line text, (mem_all_iff hall).mpr ⟨f, rfl⟩, ?_⟩
  · intro line hmem v hv
    obtain ⟨g, rfl⟩ := (mem_all_iff hall).mp hmem
    rw [value?_line] at hv
    obtain ⟨rfl, htext⟩ := Option.ite_none_right_eq_some.mp hv
    exact (Option.some.inj htext).symm
  · rw [value?_line, if_pos rfl]
    rfl

end Write

/--
**What a file says is what its last lines say.** A file of the format replaces each field that it
names by the value of the last line naming it, and leaves the others alone; the path is read as the
string that it is. A configuration written in the format, its seven lines in any order, is read back
whatever was there before.
-/
theorem readFile_roundTrip (prior : LoggerConfig) :
    (∀ file : ConfigFile, file.WellFormed →
      (∀ f, (readFile prior file.bytes).get f =
        (latest? (ConfigLine.value? f) file.all).elim (prior.get f) fun v =>
          f.store (f.parse v) (prior.get f)) ∧
      ∀ path, latest? (ConfigLine.value? .logFilePath) file.all = some path →
        contents (readFile prior file.bytes).logFilePath.toList = path) ∧
    ∀ (config : LoggerConfig) (text : Field → List UInt8),
      (∀ f, text f ∈ f.texts config) →
      IsValue (contents config.logFilePath.toList) →
      (contents config.logFilePath.toList).length ≤ 240 →
      ∀ file : ConfigFile, file.all.Perm (Field.all.map (Field.line text)) →
        (readFile prior file.bytes).Same config := by
  constructor
  · intro file h
    exact ⟨ConfigFile.get_readFile h prior, fun path => ConfigFile.contents_path h prior⟩
  · intro config text htext hpath hlen file hall
    have hwf := wellFormed_of_perm htext hpath hlen hall
    constructor
    case fields =>
      intro f hf
      rw [ConfigFile.get_readFile hwf, latest?_of_perm hall f, Option.elim_some,
        store_parse_text htext hf]
    case path =>
      rw [ConfigFile.contents_path hwf prior (latest?_of_perm hall .logFilePath)]
      exact List.mem_singleton.mp (htext .logFilePath)

/-- The defaults, written down. -/
def defaultText : Field → List UInt8
  | .logLevel => ascii "info"
  | .useColors => ascii "yes"
  | .logToFile => ascii "off"
  | .logToConsole => ascii "1"
  | .logFilePath => defaultLogFile
  | .asyncEnabled => ascii "true"
  | .flushImmediately => ascii "false"

/-- A comment and a setting, and the defaults read over a record of other bytes. -/
theorem readFile_roundTrip_defaults :
    (readFile ⟨.fatal, 1, 1, 0, 0, 1, List.Vector.replicate 256 1⟩
      (ConfigFile.bytes ⟨[.skipped [hash], .setting (ascii "use_colors") (ascii "no")],
        some (.setting (ascii "log_file_path") (ascii "a=b"))⟩)).useColors = 0 ∧
    contents (readFile ⟨.fatal, 1, 1, 0, 0, 1, List.Vector.replicate 256 1⟩
      (ConfigFile.bytes ⟨[.skipped [hash], .setting (ascii "use_colors") (ascii "no")],
        some (.setting (ascii "log_file_path") (ascii "a=b"))⟩)).logFilePath.toList =
      ascii "a=b" ∧
    (readFile ⟨.fatal, 0, 1, 0, 0, 1, List.Vector.replicate 256 1⟩
      (ConfigFile.bytes ⟨(Field.all.map (Field.line defaultText)).dropLast,
        (Field.all.map (Field.line defaultText)).getLast?⟩)).Same
      (loadDefaultConfig ⟨.fatal, 0, 1, 0, 0, 1, List.Vector.replicate 256 1⟩).1 := by
  have hline : ∀ line ∈ ([.skipped [hash], .setting (ascii "use_colors") (ascii "no"),
      .setting (ascii "log_file_path") (ascii "a=b")] : List ConfigLine),
      newline ∉ line.text ∧ 0 ∉ line.text ∧ line.text.length + 1 ≤ 255 := by decide
  have hwf : ConfigFile.WellFormed ⟨[.skipped [hash], .setting (ascii "use_colors") (ascii "no")],
      some (.setting (ascii "log_file_path") (ascii "a=b"))⟩ := by
    constructor
    case lines =>
      intro line hmem
      obtain ⟨hnl, h0, -⟩ := hline line hmem
      refine ⟨hnl, h0, ?_⟩
      rcases List.mem_cons.mp hmem with rfl | hmem
      · exact Or.inr (Or.inl rfl)
      · rcases List.mem_cons.mp hmem with rfl | hmem
        · exact ⟨by decide, by decide⟩
        · obtain rfl := List.mem_singleton.mp hmem
          exact ⟨by decide, by decide⟩
    case fits => exact fun line hmem => (hline line (List.mem_append_left _ hmem)).2.2
    case last_fits =>
      intro line hmem
      obtain rfl := Option.some.inj hmem
      decide
  have hpath : contents (loadDefaultConfig
      ⟨.fatal, 0, 1, 0, 0, 1, List.Vector.replicate 256 1⟩).1.logFilePath.toList =
      defaultLogFile := contents_append_zero (by decide) _
  obtain ⟨hfile, -⟩ := readFile_roundTrip ⟨.fatal, 1, 1, 0, 0, 1, List.Vector.replicate 256 1⟩
  obtain ⟨hget, hread⟩ := hfile _ hwf
  obtain ⟨-, hwrite⟩ := readFile_roundTrip ⟨.fatal, 0, 1, 0, 0, 1, List.Vector.replicate 256 1⟩
  refine ⟨hget .useColors, hread _ rfl, hwrite _ defaultText ?_ ?_ ?_ _ ?_⟩
  · intro f
    cases f
    case logFilePath => exact List.mem_singleton.mpr hpath.symm
    all_goals decide
  · rw [hpath]
    exact ⟨by decide, by decide, by decide⟩
  · rw [hpath]
    decide
  · exact List.Perm.refl _

end DesktopEngine.Config
