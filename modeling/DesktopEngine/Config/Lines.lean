import DesktopEngine.Config.Fields

/-!
# Lines that fit the buffer

A line of a configuration file that fits the buffer of `logger_config_read` is one call of `fgets`.
What it says is then a matter of its own text: the newline behind it does not count
(`lineValue_newline`), a file says what its lines say (`fileValue_fileOf`), and a line `key=value`
gives the trimmed key and the trimmed value (`splitLine_setting`).
-/

namespace DesktopEngine.Config

open CString Latest

/-- The lines of a file, and what follows the last newline. -/
def fileOf (lines : List (List UInt8)) (last : List UInt8) : List UInt8 :=
  (lines.flatMap fun text => text ++ [newline]) ++ last

/-! ## The end of a line -/

theorem isSkipped_append {text : List UInt8} (h : text ≠ []) (rest : List UInt8) :
    isSkipped (text ++ rest) = isSkipped text := by
  unfold isSkipped
  rw [List.head?_append_of_ne_nil _ h]

/-- The newline behind a line does not count. -/
theorem splitLine_newline {text : List UInt8} (h : newline ∉ text) :
    splitLine (text ++ [newline]) = splitLine text := by
  by_cases hne : text = []
  · rw [hne]
    decide
  unfold splitLine
  rw [isSkipped_append hne]
  by_cases h0 : 0 ∈ text
  · rw [contents_append_of_mem h0]
  · rw [contents_append h0, contents_of_not_mem h0, contents_of_not_mem (by decide)]
    have hrest : newline ∉ (strtok equalsSign text).2 := fun hmem =>
      h (strtok_rest_subset equalsSign text hmem)
    rcases strtok_concat (show newline ≠ equalsSign by decide) text with ⟨h1, h2⟩ | h1
    · -- no `=`: there is no value
      dsimp only
      rw [h1, h2, strtok_nil]
      cases (strtok equalsSign (text ++ [newline])).1 <;> cases (strtok equalsSign text).1 <;> rfl
    · rw [h1]
      dsimp only
      rw [strtok_concat_delim hrest]

theorem lineValue_newline {text : List UInt8} (h : newline ∉ text) (f : Field) :
    lineValue f (text ++ [newline]) = lineValue f text := by
  unfold lineValue lineSetting
  rw [splitLine_newline h]

theorem lineValue_nil (f : Field) : lineValue f [] = none := rfl

/-- **A file of lines that fit says what its lines say.** -/
theorem fileValue_fileOf {lines : List (List UInt8)} {last : List UInt8}
    (hlines : ∀ text ∈ lines, newline ∉ text ∧ text.length < 255)
    (hlast : newline ∉ last) (hlen : last.length ≤ 255) (f : Field) :
    fileValue f (fileOf lines last) = latest? (lineValue f) (lines ++ [last]) := by
  unfold fileValue fileOf
  rw [fgetsAll_lines hlines, latest?_append, latest?_append, latest?_map]
  have hfront : latest? (fun text => lineValue f (text ++ [newline])) lines =
      latest? (lineValue f) lines :=
    latest?_congr fun text ht => lineValue_newline (hlines text ht).1 f
  have hback : latest? (lineValue f) (fgetsAll 255 last) = latest? (lineValue f) [last] := by
    by_cases hne : last = []
    · rw [hne, fgetsAll_nil, latest?_cons, lineValue_nil]
      rfl
    · rw [fgetsAll_last hlast hne hlen]
  rw [hfront, hback]

/-! ## Trimming -/

/-- White space at the beginning is only skipped: it stays where it is. -/
theorem head?_trimString {c : UInt8} (hc : isspace c = true) (rest : List UInt8) :
    (trimString (c :: rest)).head? = some c := by
  unfold trimString
  rw [List.takeWhile_cons_of_pos (by simpa using hc)]
  rfl

theorem mem_trimString {s : List UInt8} {c : UInt8} (hc : isspace c = false) (h : c ∈ s) :
    c ∈ trimString s := by
  unfold trimString
  rw [← List.takeWhile_append_dropWhile (p := (isspace ·)) (l := s)] at h
  rcases List.mem_append.mp h with h | h
  · exact List.mem_append_left _ h
  · refine List.mem_append_right _ ?_
    rw [← List.rdropWhile_append_rtakeWhile (p := (isspace ·)) (l := s.dropWhile (isspace ·))] at h
    rcases List.mem_append.mp h with h | h
    · exact h
    · have hspace : isspace c = true := by simpa using List.mem_rtakeWhile_imp h
      rw [hc] at hspace
      cases hspace

/-- White space behind a string that has something else in it is cut off. -/
theorem trimString_append {s w : List UInt8} (hs : ¬ ∀ c ∈ s, isspace c = true)
    (hw : ∀ c ∈ w, isspace c = true) : trimString (s ++ w) = trimString s := by
  have hne : s.dropWhile (isspace ·) ≠ [] := by
    rw [Ne, List.dropWhile_eq_nil_iff]
    exact hs
  have hlen : (s.takeWhile (isspace ·)).length ≠ s.length := fun h => by
    have hsplit := congrArg List.length
      (List.takeWhile_append_dropWhile (p := (isspace ·)) (l := s))
    have hpos := List.length_pos_of_ne_nil hne
    rw [List.length_append] at hsplit
    omega
  have hback : (s.dropWhile (isspace ·) ++ w).rdropWhile (isspace ·) =
      (s.dropWhile (isspace ·)).rdropWhile (isspace ·) := by
    unfold List.rdropWhile
    rw [List.reverse_append, List.dropWhile_append_of_pos]
    exact fun c hc => hw c (List.mem_reverse.mp hc)
  unfold trimString
  rw [List.takeWhile_append, if_neg hlen, List.dropWhile_append, if_neg (by simpa using hne), hback]

/-- A string without white space at its ends stays as it is. -/
theorem trimString_eq_self {s : List UInt8} (hhead : ∀ c ∈ s.head?, isspace c = false)
    (hlast : ∀ c ∈ s.getLast?, isspace c = false) : trimString s = s := by
  unfold trimString
  cases s with
  | nil => rfl
  | cons c s =>
      have hc := hhead c rfl
      rw [List.takeWhile_cons_of_neg (by simp [hc]), List.dropWhile_cons_of_neg (by simp [hc]),
        List.nil_append, List.rdropWhile_eq_self_iff]
      intro hne
      simpa using hlast _ (List.getLast?_eq_some_getLast hne)

theorem zero_not_mem_key (f : Field) : 0 ∉ f.key := by
  cases f <;> decide

/-- No key begins with white space. -/
theorem trimString_ne_key {c : UInt8} (hc : isspace c = true) (rest : List UInt8) (f : Field) :
    trimString (c :: rest) ≠ f.key := by
  intro h
  have hhead : f.key.head? = some c := by
    rw [← h]
    exact head?_trimString hc rest
  have hkey : ∀ d ∈ f.key.head?, isspace d = false := by
    cases f <;> decide
  rw [hkey c hhead] at hc
  cases hc

/-! ## `key=value` -/

/-- A key at the beginning of a line. -/
structure IsKey (key : List UInt8) : Prop where
  ne_nil : key ≠ []
  noEquals : equalsSign ∉ key
  noNewline : newline ∉ key
  notSkipped : isSkipped key = false

/-- **What the loop makes of a line `key=value`**; a value that is empty, or begins with a NUL, is
none. -/
theorem splitLine_setting {key value : List UInt8} (hkey : IsKey key) (hvalue : newline ∉ value) :
    splitLine (key ++ equalsSign :: value) =
      if 0 ∈ key ∨ contents value = [] then none
      else some (trimString key, trimString (contents value)) := by
  unfold splitLine
  rw [isSkipped_append hkey.ne_nil, hkey.notSkipped, if_neg Bool.false_ne_true]
  by_cases h0 : 0 ∈ key
  · -- the line ends inside the key
    rw [if_pos (Or.inl h0), contents_append_of_mem h0]
    have hkey' : equalsSign ∉ contents key := fun h => hkey.noEquals (contents_subset key h)
    by_cases hne : contents key = []
    · rw [hne]
      rfl
    · rw [strtok_last hne hkey']
      rfl
  · have hcons : contents (equalsSign :: value) = equalsSign :: contents value := rfl
    rw [contents_append h0, hcons, strtok_delim hkey.ne_nil hkey.noEquals]
    dsimp only
    by_cases hne : contents value = []
    · rw [if_pos (Or.inr hne), hne]
      rfl
    · have hnl : newline ∉ contents value := fun h => hvalue (contents_subset value h)
      rw [if_neg (by simp [h0, hne]), strtok_last hne hnl]

/-- What a line `key=value` says about a field. -/
theorem lineValue_setting {key value : List UInt8} (hkey : IsKey key) (hvalue : newline ∉ value)
    (f : Field) :
    lineValue f (key ++ equalsSign :: value) =
      if trimString key = f.key ∧ contents value ≠ [] then some (trimString (contents value))
      else none := by
  unfold lineValue lineSetting
  rw [splitLine_setting hkey hvalue]
  by_cases h : 0 ∈ key ∨ contents value = []
  · have hnone : ¬ (trimString key = f.key ∧ contents value ≠ []) := by
      rcases h with h | h
      · -- no field has a NUL in its key
        intro hand
        obtain ⟨hf, -⟩ := hand
        exact zero_not_mem_key f (hf ▸ mem_trimString rfl h)
      · exact fun hf => hf.2 h
    rw [if_pos h, if_neg hnone]
    rfl
  · have hne : contents value ≠ [] := fun e => h (Or.inr e)
    rw [if_neg h, Option.bind_some]
    by_cases hf : trimString key = f.key
    · rw [if_pos ⟨hf, hne⟩, hf, Field.ofKey_key]
      exact if_pos rfl
    · rw [if_neg fun h => hf h.1]
      cases hg : Field.ofKey (trimString key) with
      | none => rfl
      | some g =>
          have hne : g ≠ f := fun e => hf (e ▸ Field.ofKey_eq_some hg)
          exact if_neg hne

end DesktopEngine.Config
