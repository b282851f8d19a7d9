import DesktopEngine.Config.Args
import Mathlib.Data.Vector.Basic

/-!
# The path of the log file

`log_file_path` is written by `strcpy` with the default and by `strncpy` with everything else. A
`strncpy` of 255 bytes ends the string only when the path is shorter than that; behind a longer path
stands the last byte of the array, which no one has ever written. `logFilePath_iff` says when the
array holds the path that was asked for.
-/

namespace DesktopEngine.Config

open CString Latest

/-! ## Paths have no NUL -/

theorem trimString_subset (s : List UInt8) : trimString s ⊆ s := by
  intro c hc
  rcases List.mem_append.mp hc with hc | hc
  · exact (List.takeWhile_prefix _).subset hc
  · exact (List.dropWhile_suffix _).subset ((List.rdropWhile_prefix _ _).subset hc)

/-- A value is part of a string. -/
theorem zero_not_mem_of_splitLine {line key value : List UInt8}
    (h : splitLine line = some (key, value)) : 0 ∉ value := by
  unfold splitLine at h
  split at h
  · cases h
  · dsimp only at h
    split at h
    · rename_i keyToken token hkey htoken
      simp only [Option.some.injEq, Prod.mk.injEq] at h
      intro h0
      rw [← h.2] at h0
      have hrest := strtok_subset htoken (trimString_subset token h0)
      exact zero_not_mem_contents line (strtok_rest_subset _ _ hrest)
    · cases h

theorem zero_not_mem_of_fileValue {f : Field} {file v : List UInt8}
    (h : fileValue f file = some v) : 0 ∉ v := by
  obtain ⟨before, line, after, -, hline, -⟩ := latest?_eq_some_iff.mp h
  obtain ⟨s, hs, hvalue⟩ := Option.bind_eq_some_iff.mp hline
  obtain ⟨⟨key, value⟩, hsplit, hmap⟩ := Option.bind_eq_some_iff.mp hs
  obtain ⟨g, -, rfl⟩ := Option.map_eq_some_iff.mp hmap
  obtain ⟨-, hv⟩ := Option.ite_none_right_eq_some.mp hvalue
  rw [← Option.some.inj hv]
  exact zero_not_mem_of_splitLine hsplit

/-- The path that an option supplies. -/
def ArgOption.path? (files : Files) : ArgOption → Option (List UInt8)
  | logConfig path => (files path.bytes).bind (fileValue .logFilePath)
  | logFile path => some path.bytes
  | _ => none

/-- The last path that a command line supplies. -/
def suppliedPath (files : Files) (argv : List Arg) : Option (List UInt8) :=
  latest? (ArgOption.path? files) (readOptions argv.tail)

section Supplied

variable {files : Files} {argv : List Arg} {path : List UInt8}

theorem zero_not_mem_suppliedPath (h : suppliedPath files argv = some path) : 0 ∉ path := by
  obtain ⟨before, option, after, -, hoption, -⟩ := latest?_eq_some_iff.mp h
  cases option
  case logConfig p =>
    obtain ⟨file, -, hfile⟩ := Option.bind_eq_some_iff.mp hoption
    exact zero_not_mem_of_fileValue hfile
  case logFile p =>
    rw [← Option.some.inj hoption]
    exact p.noNul
  all_goals cases hoption

theorem writes_logFilePath (option : ArgOption) :
    option.writes files .logFilePath = (option.path? files).map Field.logFilePath.parse := by
  cases option
  case logConfig p =>
    rw [ArgOption.writes_logConfig, ArgOption.path?]
    cases files p.bytes <;> rfl
  all_goals rfl

/-- The array after `parse_args`. -/
theorem logFilePath_parseArgs {config config' : LoggerConfig} {server server' : ServerConfig}
    (h : parseArgs files argv config server = some (config', server')) :
    config'.logFilePath =
      (suppliedPath files argv).elim config.logFilePath config.logFilePath.strncpy := by
  have hget := get_parseArgs h .logFilePath
  have hwrites : ArgOption.writes files .logFilePath =
      fun option => (option.path? files).map Field.logFilePath.parse := funext writes_logFilePath
  rw [hwrites, ← map_latest?] at hget
  refine hget.trans ?_
  unfold suppliedPath
  cases latest? (ArgOption.path? files) (readOptions argv.tail) with
  | none => rfl
  | some path => exact strncpy_padded config.logFilePath path

end Supplied

/-! ## What the array holds -/

theorem drop_toList (a : PathArray) : a.toList.drop 255 = [a.get 255] := by
  have hlen : a.toList.length = 256 := a.toList_length
  rw [List.drop_eq_getElem_cons (by omega), List.drop_eq_nil_of_le (by omega),
    List.Vector.get_eq_get_toList]
  rfl

/-- The default does not reach the last byte. -/
theorem get_setDefault (a : PathArray) : a.setDefault.get 255 = a.get 255 := by
  have hdrop : a.setDefault.toList.drop 255 = a.toList.drop 255 := by
    show (defaultLogFile ++ 0 :: a.toList.drop (defaultLogFile.length + 1)).drop 255 = _
    have hlen : defaultLogFile.length = 15 := by decide
    rw [List.drop_append, hlen, List.drop_eq_nil_of_le (by omega), List.nil_append,
      List.drop_succ_cons, List.drop_drop]
  rw [drop_toList, drop_toList] at hdrop
  exact List.singleton_inj.mp hdrop

/-- A path that does not fit fills the array up to its last byte. -/
theorem toList_strncpy_of_le (a : PathArray) {path : List UInt8} (h : 255 ≤ path.length) :
    (a.strncpy path).toList = path.take 255 ++ [a.get 255] := by
  rw [← drop_toList, ← padded_of_le h]
  rfl

/-- The array is a string, and it is the path, cut off if need be. -/
def HoldsPath (a : PathArray) (path : List UInt8) : Prop :=
  0 ∈ a.toList ∧ contents a.toList = path.take 255

theorem holdsPath_setDefault (a : PathArray) : HoldsPath a.setDefault defaultLogFile := by
  have hlist : a.setDefault.toList =
      defaultLogFile ++ 0 :: a.toList.drop (defaultLogFile.length + 1) := rfl
  refine ⟨by rw [hlist]; simp, ?_⟩
  rw [hlist, contents_append_zero (by decide)]
  decide

/-- **The last byte decides.** -/
theorem holdsPath_strncpy_iff (a : PathArray) {path : List UInt8} (h0 : 0 ∉ path) :
    HoldsPath (a.strncpy path) path ↔ path.length < 255 ∨ a.get 255 = 0 := by
  by_cases hlen : path.length < 255
  · have hcontents := contents_strncpy_of_lt a h0 hlen
    refine iff_of_true ⟨?_, ?_⟩ (Or.inl hlen)
    · obtain ⟨k, hk⟩ := padded_of_lt hlen
      have hlist : (a.strncpy path).toList = padded 255 path ++ a.toList.drop 255 := rfl
      rw [hlist, hk]
      simp
    · rw [hcontents, List.take_of_length_le (by omega)]
  · have htake : 0 ∉ path.take 255 := fun h => h0 (List.mem_of_mem_take h)
    rw [or_iff_right hlen, HoldsPath, toList_strncpy_of_le a (by omega)]
    constructor
    · intro hand
      obtain ⟨hmem, -⟩ := hand
      rcases List.mem_append.mp hmem with hmem | hmem
      · exact absurd hmem htake
      · exact (List.mem_singleton.mp hmem).symm
    · intro hlast
      rw [hlast]
      exact ⟨by simp, contents_append_zero htake []⟩

/--
**When the path that was asked for is the one in the array.** The last path supplied is shorter than
255 bytes, or the last byte of the record on the stack happened to be a NUL.
-/
theorem logFilePath_iff {files : Files} {argv : List Arg} {initial config : LoggerConfig}
    {server : ServerConfig}
    (h : parseArgs files argv (loadDefaultConfig initial).1 (loadDefaultConfig initial).2 =
      some (config, server)) :
    HoldsPath config.logFilePath ((suppliedPath files argv).getD defaultLogFile) ↔
      ∀ path, suppliedPath files argv = some path →
        path.length < 255 ∨ initial.logFilePath.get 255 = 0 := by
  have hpath := logFilePath_parseArgs h
  cases hs : suppliedPath files argv with
  | none =>
      rw [hs] at hpath
      refine iff_of_true ?_ fun path hpath => by cases hpath
      rw [hpath]
      exact holdsPath_setDefault initial.logFilePath
  | some path =>
      rw [hs] at hpath
      have hdefault : (loadDefaultConfig initial).1.logFilePath = initial.logFilePath.setDefault := rfl
      rw [hpath, Option.getD_some, Option.elim_some, hdefault,
        holdsPath_strncpy_iff _ (zero_not_mem_suppliedPath hs), get_setDefault]
      constructor
      · rintro hlen p ⟨⟩
        exact hlen
      · intro hlen
        exact hlen path rfl

/-- A short path over a record without a NUL. -/
theorem logFilePath_iff_short : ∃ config server,
    parseArgs (fun _ => none)
      [⟨ascii "engine", by decide⟩, ⟨ascii "--log-file", by decide⟩, ⟨ascii "a.log", by decide⟩]
      (loadDefaultConfig ⟨.info, 0, 0, 0, 0, 0, List.Vector.replicate 256 1⟩).1 ⟨none⟩ =
        some (config, server) ∧
    HoldsPath config.logFilePath (ascii "a.log") := by
  have hargs : parseArgs (fun _ => none)
      [⟨ascii "engine", by decide⟩, ⟨ascii "--log-file", by decide⟩, ⟨ascii "a.log", by decide⟩]
      (loadDefaultConfig ⟨.info, 0, 0, 0, 0, 0, List.Vector.replicate 256 1⟩).1 ⟨none⟩ =
        some (_, _) := rfl
  have hhold := (logFilePath_iff hargs).mpr fun path hpath => by
    rw [← Option.some.inj hpath]
    exact Or.inl (by decide)
  exact ⟨_, _, hargs, hhold⟩

/-- A path of 255 bytes over a record without a NUL: the array is no string. -/
theorem logFilePath_unterminated :
    ¬ ∀ (files : Files) (argv : List Arg) (initial config : LoggerConfig) (server : ServerConfig),
      parseArgs files argv (loadDefaultConfig initial).1 (loadDefaultConfig initial).2 =
        some (config, server) →
      HoldsPath config.logFilePath ((suppliedPath files argv).getD defaultLogFile) := by
  intro h
  have h0 : 0 ∉ List.replicate 255 (97 : UInt8) := fun hmem =>
    absurd (List.eq_of_mem_replicate hmem) (by decide)
  have hhold := h (fun _ => none)
    [⟨ascii "engine", by decide⟩, ⟨ascii "--log-file", by decide⟩, ⟨List.replicate 255 97, h0⟩]
    ⟨.info, 0, 0, 0, 0, 0, List.Vector.replicate 256 1⟩ _ _ rfl
  rcases (holdsPath_strncpy_iff _ h0).mp hhold with hlen | hlast
  · rw [List.length_replicate] at hlen
    omega
  · have hone := (get_setDefault (List.Vector.replicate 256 1)).symm.trans hlast
    rw [List.Vector.get_replicate] at hone
    exact absurd hone (by decide)

end DesktopEngine.Config
