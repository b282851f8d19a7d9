import DesktopEngine.Config.Lines

/-!
# White space around keys and values

`trim_string` cuts off the white space at the end of a string, but skips that at its beginning with a
pointer of its own. So white space behind a key or a value does no harm
(`SpacedLine.spacedValue?_of_trailing`), white space before a key hides the setting, and white space
before a value becomes part of it. `readFile_spaced_iff` says what this comes to for a file.
-/

namespace DesktopEngine.Config

open CString Latest

/-- White space that can be put into a line. -/
def IsSpaces (w : List UInt8) : Prop := ∀ c ∈ w, isspace c = true ∧ c ≠ newline

instance (w : List UInt8) : Decidable (IsSpaces w) := inferInstanceAs (Decidable (∀ c ∈ w, _))

/-- A line of a file; in a line `key=value` there are four places for white space. -/
inductive SpacedLine where
  | other (text : List UInt8)
  | setting (key value beforeKey afterKey beforeValue afterValue : List UInt8)

namespace SpacedLine

/-- The line without the white space. -/
def plain : SpacedLine → List UInt8
  | other text => text
  | setting key value _ _ _ _ => key ++ equalsSign :: value

/-- The line with the white space. -/
def spaced : SpacedLine → List UInt8
  | other text => text
  | setting key value w1 w2 w3 w4 => (w1 ++ key ++ w2) ++ equalsSign :: (w3 ++ value ++ w4)

/-- White space is put only around a key, and around a value that is not empty. -/
def Kind : SpacedLine → Prop
  | other _ => True
  | setting key value w1 w2 w3 w4 =>
      IsKey key ∧ (IsSpaces w1 ∧ IsSpaces w2 ∧ IsSpaces w3 ∧ IsSpaces w4) ∧
        (value = [] → w3 = [] ∧ w4 = [])

structure WellFormed (line : SpacedLine) : Prop where
  kind : line.Kind
  noNewline : newline ∉ line.plain
  fits : line.spaced.length < 255

/-- What the line says about a field without the white space. -/
def plainValue? (f : Field) : SpacedLine → Option (List UInt8)
  | other text => lineValue f text
  | setting key value _ _ _ _ =>
      if trimString key = f.key ∧ contents value ≠ [] then some (trimString (contents value))
      else none

/--
What the line says about a field with the white space. The setting counts if none was put before its
key; what was put before its value is part of the value.
-/
def spacedValue? (f : Field) : SpacedLine → Option (List UInt8)
  | other text => lineValue f text
  | setting key value w1 _ w3 w4 =>
      if w1 = [] ∧ trimString key = f.key ∧ contents (w3 ++ value ++ w4) ≠ [] then
        some (trimString (contents (w3 ++ value ++ w4)))
      else none

variable {line : SpacedLine} {key value w w1 w2 w3 w4 : List UInt8}

theorem newline_not_mem_of_isSpaces (h : IsSpaces w) : newline ∉ w :=
  fun hmem => (h newline hmem).2 rfl

theorem equalsSign_not_mem_of_isSpaces (h : IsSpaces w) : equalsSign ∉ w := fun hmem => by
  have hc := (h equalsSign hmem).1
  exact absurd hc (by decide)

/-- A key with white space behind it is still one. -/
theorem isKey_append (hkey : IsKey key) (hw : IsSpaces w) : IsKey (key ++ w) where
  ne_nil := by simp [hkey.ne_nil]
  noEquals hmem := by
    rcases List.mem_append.mp hmem with hmem | hmem
    · exact hkey.noEquals hmem
    · exact equalsSign_not_mem_of_isSpaces hw hmem
  noNewline hmem := by
    rcases List.mem_append.mp hmem with hmem | hmem
    · exact hkey.noNewline hmem
    · exact newline_not_mem_of_isSpaces hw hmem
  notSkipped := by rw [isSkipped_append hkey.ne_nil, hkey.notSkipped]

/-- White space behind a key does not change what it names. -/
theorem trimString_key_append (hkey : IsKey key) (hw : IsSpaces w) (f : Field) :
    trimString (key ++ w) = f.key ↔ trimString key = f.key := by
  by_cases hall : ∀ c ∈ key, isspace c = true
  · -- a key of white space names nothing
    cases key with
    | nil => exact absurd rfl hkey.ne_nil
    | cons c key =>
        have hc := hall c List.mem_cons_self
        exact iff_of_false (trimString_ne_key hc _ f) (trimString_ne_key hc _ f)
  · rw [trimString_append hall fun c hc => (hw c hc).1]

/-- A line that begins with white space sets nothing. -/
theorem lineValue_beforeKey {c : UInt8} (hc : isspace c = true ∧ c ≠ newline)
    (hkey : equalsSign ∉ c :: key) (hnl : newline ∉ c :: key) (hvalue : newline ∉ value)
    (f : Field) : lineValue f (c :: key ++ equalsSign :: value) = none := by
  by_cases hr : c = carriageReturn
  · -- taken for an empty line
    have hskip : isSkipped (c :: key ++ equalsSign :: value) = true := by
      simp [isSkipped, hr]
    have hsplit : splitLine (c :: key ++ equalsSign :: value) = none := if_pos hskip
    rw [lineValue, lineSetting, hsplit]
    rfl
  · have hhash : c ≠ hash := fun e => absurd (e ▸ hc.1) (by decide)
    have hline : IsKey (c :: key) :=
      ⟨List.cons_ne_nil _ _, hkey, hnl, by simp [isSkipped, hr, hhash, hc.2]⟩
    rw [lineValue_setting hline hvalue, if_neg fun h => trimString_ne_key hc.1 _ f h.1]

theorem newline_not_mem_value (hw3 : IsSpaces w3) (hw4 : IsSpaces w4) (hvalue : newline ∉ value) :
    newline ∉ w3 ++ value ++ w4 := by
  intro hmem
  rcases List.mem_append.mp hmem with hmem | hmem
  · rcases List.mem_append.mp hmem with hmem | hmem
    · exact newline_not_mem_of_isSpaces hw3 hmem
    · exact hvalue hmem
  · exact newline_not_mem_of_isSpaces hw4 hmem

theorem newline_not_mem_spaced (h : line.WellFormed) : newline ∉ line.spaced := by
  obtain ⟨hkind, hnl, -⟩ := h
  cases line with
  | other text => exact hnl
  | setting key value w1 w2 w3 w4 =>
      obtain ⟨hkey, ⟨hw1, hw2, hw3, hw4⟩, -⟩ := hkind
      have hvalue : newline ∉ value := fun hmem =>
        hnl (List.mem_append_right _ (List.mem_cons_of_mem _ hmem))
      intro hmem
      rcases List.mem_append.mp hmem with hmem | hmem
      · rw [List.append_assoc] at hmem
        rcases List.mem_append.mp hmem with hmem | hmem
        · exact newline_not_mem_of_isSpaces hw1 hmem
        · exact (isKey_append hkey hw2).noNewline hmem
      · rcases List.mem_cons.mp hmem with hmem | hmem
        · exact absurd hmem (by decide)
        · exact newline_not_mem_value hw3 hw4 hvalue hmem

theorem length_plain_le (line : SpacedLine) : line.plain.length ≤ line.spaced.length := by
  cases line with
  | other text => exact Nat.le_refl _
  | setting key value w1 w2 w3 w4 =>
      simp only [plain, spaced, List.length_append, List.length_cons]
      omega

theorem lineValue_plain (h : line.WellFormed) (f : Field) :
    lineValue f line.plain = line.plainValue? f := by
  cases line with
  | other text => rfl
  | setting key value w1 w2 w3 w4 =>
      have hvalue : newline ∉ value := fun hmem =>
        h.noNewline (List.mem_append_right _ (List.mem_cons_of_mem _ hmem))
      exact lineValue_setting h.kind.1 hvalue f

/-- **What the reader makes of a line with white space.** -/
theorem lineValue_spaced (h : line.WellFormed) (f : Field) :
    lineValue f line.spaced = line.spacedValue? f := by
  cases line with
  | other text => rfl
  | setting key value w1 w2 w3 w4 =>
      obtain ⟨hkey, ⟨hw1, hw2, hw3, hw4⟩, -⟩ := h.kind
      have hkey2 := isKey_append hkey hw2
      have hvalue : newline ∉ value := fun hmem =>
        h.noNewline (List.mem_append_right _ (List.mem_cons_of_mem _ hmem))
      have hvalue' := newline_not_mem_value hw3 hw4 hvalue
      cases w1 with
      | nil =>
          have hiff := trimString_key_append hkey hw2 f
          show lineValue f ((key ++ w2) ++ equalsSign :: (w3 ++ value ++ w4)) = _
          rw [lineValue_setting hkey2 hvalue' f]
          simp only [spacedValue?, hiff, true_and]
      | cons c w1 =>
          have hw1' : IsSpaces w1 := fun d hd => hw1 d (List.mem_cons_of_mem _ hd)
          have heq : equalsSign ∉ c :: (w1 ++ key ++ w2) := fun hmem => by
            rw [List.append_assoc] at hmem
            rcases List.mem_append.mp (show equalsSign ∈ (c :: w1) ++ (key ++ w2) from hmem) with
              hmem | hmem
            · exact equalsSign_not_mem_of_isSpaces hw1 hmem
            · exact hkey2.noEquals hmem
          have hnl : newline ∉ c :: (w1 ++ key ++ w2) := fun hmem => by
            rw [List.append_assoc] at hmem
            rcases List.mem_append.mp (show newline ∈ (c :: w1) ++ (key ++ w2) from hmem) with
              hmem | hmem
            · exact newline_not_mem_of_isSpaces hw1 hmem
            · exact hkey2.noNewline hmem
          have hnone := lineValue_beforeKey (hw1 c List.mem_cons_self) heq hnl hvalue' f
          have hcons : c :: w1 ≠ [] := List.cons_ne_nil c w1
          rw [spacedValue?, if_neg fun e => hcons e.1]
          exact hnone

/-- **White space behind keys and values does no harm.** -/
theorem spacedValue?_of_trailing (hvalue : ¬ ∀ c ∈ contents value, isspace c = true)
    (hw4 : IsSpaces w4) (f : Field) :
    (setting key value [] w2 [] w4).spacedValue? f =
      (setting key value [] w2 [] w4).plainValue? f := by
  have hne : contents value ≠ [] := fun e => hvalue (by simp [e])
  have hcontents : contents (value ++ w4) ≠ [] ∧
      trimString (contents (value ++ w4)) = trimString (contents value) := by
    by_cases h0 : 0 ∈ value
    · rw [contents_append_of_mem h0]
      exact ⟨hne, rfl⟩
    · have hw40 : 0 ∉ w4 := fun hmem => absurd (hw4 0 hmem).1 (by decide)
      rw [contents_of_not_mem h0] at hne hvalue ⊢
      rw [contents_append h0, contents_of_not_mem hw40,
        trimString_append hvalue fun c hc => (hw4 c hc).1]
      exact ⟨by simp [hne], rfl⟩
  simp [spacedValue?, plainValue?, hcontents, hne]

end SpacedLine

/-- A file with places for white space; the last line may lack its newline. -/
structure SpacedFile where
  lines : List SpacedLine
  last : SpacedLine

namespace SpacedFile

def all (file : SpacedFile) : List SpacedLine := file.lines ++ [file.last]

def plain (file : SpacedFile) : List UInt8 :=
  fileOf (file.lines.map SpacedLine.plain) file.last.plain

def spaced (file : SpacedFile) : List UInt8 :=
  fileOf (file.lines.map SpacedLine.spaced) file.last.spaced

def WellFormed (file : SpacedFile) : Prop := ∀ line ∈ file.all, line.WellFormed

variable {file : SpacedFile}

theorem fileValue_eq {text : SpacedLine → List UInt8} {value? : SpacedLine → Option (List UInt8)}
    {f : Field} (hnl : ∀ line ∈ file.all, newline ∉ text line)
    (hlen : ∀ line ∈ file.all, (text line).length < 255)
    (hvalue : ∀ line ∈ file.all, lineValue f (text line) = value? line) :
    fileValue f (fileOf (file.lines.map text) (text file.last)) = latest? value? file.all := by
  have hlast : file.last ∈ file.all := by simp [all]
  have hlines : ∀ t ∈ file.lines.map text, newline ∉ t ∧ t.length < 255 := by
    intro t ht
    obtain ⟨line, hl, rfl⟩ := List.mem_map.mp ht
    have hmem : line ∈ file.all := List.mem_append_left _ hl
    exact ⟨hnl line hmem, hlen line hmem⟩
  have hmap : file.lines.map text ++ [text file.last] = file.all.map text := by simp [all]
  rw [fileValue_fileOf hlines (hnl _ hlast) (Nat.le_of_lt (hlen _ hlast)), hmap, latest?_map]
  exact latest?_congr hvalue

theorem fileValue_plain (h : file.WellFormed) (f : Field) :
    fileValue f file.plain = latest? (SpacedLine.plainValue? f) file.all :=
  fileValue_eq (fun line hmem => (h line hmem).noNewline)
    (fun line hmem => Nat.lt_of_le_of_lt line.length_plain_le (h line hmem).fits)
    fun line hmem => SpacedLine.lineValue_plain (h line hmem) f

theorem fileValue_spaced (h : file.WellFormed) (f : Field) :
    fileValue f file.spaced = latest? (SpacedLine.spacedValue? f) file.all :=
  fileValue_eq (fun line hmem => SpacedLine.newline_not_mem_spaced (h line hmem))
    (fun line hmem => (h line hmem).fits) fun line hmem => SpacedLine.lineValue_spaced (h line hmem) f

end SpacedFile

/--
**When white space does not matter.** A file is read with the white space as it is read without it
exactly when, for every field, the last line that counts with the white space means the same as the
last line that counts without it.
-/
theorem readFile_spaced_iff {file : SpacedFile} (h : file.WellFormed) :
    (∀ prior, readFile prior file.spaced = readFile prior file.plain) ↔
      ∀ f : Field, (latest? (SpacedLine.spacedValue? f) file.all).map f.parse =
        (latest? (SpacedLine.plainValue? f) file.all).map f.parse := by
  rw [readFile_eq_iff]
  refine forall_congr' fun f => ?_
  rw [SpacedFile.fileValue_spaced h, SpacedFile.fileValue_plain h]

/-- White space behind a key and a value, and none before them. -/
theorem readFile_spaced_iff_trailing :
    readFile ⟨.warn, 0, 0, 0, 0, 0, List.Vector.replicate 256 0⟩
        (SpacedFile.spaced ⟨[], .setting (ascii "log_level") (ascii "debug") [] [32] [] [32, 9]⟩) =
      readFile ⟨.warn, 0, 0, 0, 0, 0, List.Vector.replicate 256 0⟩
        (SpacedFile.plain ⟨[], .setting (ascii "log_level") (ascii "debug") [] [32] [] [32, 9]⟩) := by
  have h : SpacedFile.WellFormed
      ⟨[], .setting (ascii "log_level") (ascii "debug") [] [32] [] [32, 9]⟩ := by
    intro line hmem
    obtain rfl := List.mem_singleton.mp hmem
    exact ⟨⟨⟨by decide, by decide, by decide, by decide⟩, by decide, by decide⟩, by decide, by decide⟩
  refine (readFile_spaced_iff h).mpr (fun f => ?_) _
  cases f <;> decide

/-- White space before a value: the level is not recognised any more. -/
theorem spaced_value_changes :
    ¬ ∀ file : SpacedFile, file.WellFormed →
      ∀ prior, readFile prior file.spaced = readFile prior file.plain := by
  intro h
  have hwf : SpacedFile.WellFormed
      ⟨[], .setting (ascii "log_level") (ascii "debug") [] [] [32] []⟩ := by
    intro line hmem
    obtain rfl := List.mem_singleton.mp hmem
    exact ⟨⟨⟨by decide, by decide, by decide, by decide⟩, by decide, by decide⟩, by decide, by decide⟩
  have hread := congrArg LoggerConfig.level
    (h _ hwf ⟨.warn, 0, 0, 0, 0, 0, List.Vector.replicate 256 0⟩)
  exact absurd hread (by decide)

end DesktopEngine.Config
