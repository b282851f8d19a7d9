import DesktopEngine.Config.Lines

/-!
# Lines that do not fit the buffer

`logger_config_read` takes every piece that `fgets` returns for a line. A line of more than 255 bytes
comes in several pieces, and only the first of them shows what the line is: the text behind byte 255
of a comment is read as if it were a line of the file, and a long line can set as many fields as it
has pieces. `readFile_comment_iff` and `changesAtMostOne_iff` say when this does no harm.
-/

namespace DesktopEngine.Config

open CString Latest

/-- A physical line: the newline at its end, if it has one, is its only one. -/
structure IsLine (line : List UInt8) : Prop where
  ne_nil : line ≠ []
  noNewline : newline ∉ line.dropLast

structure IsComment (line : List UInt8) : Prop extends IsLine line where
  begins : line.head? = some hash

variable {front comment line back : List UInt8}

/-! ## Parts of a file -/

theorem fileValue_append (h : Terminated front) (back : List UInt8) (f : Field) :
    fileValue f (front ++ back) = (fileValue f back).or (fileValue f front) := by
  unfold fileValue
  rw [fgetsAll_append (by decide) h, latest?_append]

/-- A line is read by itself. -/
theorem readFile_append (h : Terminated front) (prior : LoggerConfig) (back : List UInt8) :
    readFile prior (front ++ back) = readFile (readFile prior front) back := by
  unfold readFile
  rw [fgetsAll_append (by decide) h, List.foldl_append]

/-- **What a comment says is what stands behind its first 255 bytes.** -/
theorem fileValue_comment (h : IsComment comment) (f : Field) :
    fileValue f comment = fileValue f (comment.drop 255) := by
  have hskip : isSkipped (comment.take 255) = true := by
    have hhead : (comment.take 255).head? = some hash := by
      rw [List.head?_take, if_neg (by decide), h.begins]
    simp [isSkipped, hhead]
  have hsplit : splitLine (comment.take 255) = none := if_pos hskip
  have hfirst : lineValue f (comment.take 255) = none := by
    rw [lineValue, lineSetting, hsplit]
    rfl
  unfold fileValue
  rw [fgetsAll_cons (by decide) h.ne_nil, readUpTo_eq_take_drop h.noNewline, latest?_cons, hfirst,
    Option.or_none]

/-- A full buffer, and what is behind it. -/
theorem fileValue_full {text : List UInt8} (hlen : text.length = 255) (hnl : newline ∉ text)
    (back : List UInt8) (f : Field) :
    fileValue f (text ++ back) = (fileValue f back).or (lineValue f text) := by
  have hread := fgetsAll_full (hlen ▸ by decide) hnl back
  rw [hlen] at hread
  rw [fileValue, hread, latest?_cons]
  rfl

/-! ## Comments -/

theorem map_or_eq_iff {α β : Type} (g : α → β) (a c b : Option α) :
    (b.or (c.or a)).map g = (b.or a).map g ↔
      ∀ v, c = some v → b.isSome ∨ a.map g = some (g v) := by
  cases b with
  | some b => simp
  | none =>
      cases c with
      | none => simp
      | some c =>
          simp only [Option.none_or, Option.some_or, Option.map_some, Option.some.injEq]
          constructor
          · rintro h v rfl
            exact Or.inr h.symm
          · intro h
            exact ((h c rfl).resolve_left Bool.false_ne_true).symm

/--
**When a comment does no harm.** For every field that the text behind byte 255 of the comment sets,
the rest of the file sets it again, or the file before the comment has set it to the same.
-/
theorem readFile_comment_iff (hfront : Terminated front) (hcomment : IsComment comment)
    (hback : Terminated comment ∨ back = []) :
    (∀ prior, readFile prior (front ++ comment ++ back) = readFile prior (front ++ back)) ↔
      ∀ (f : Field) v, fileValue f (comment.drop 255) = some v →
        (fileValue f back).isSome ∨ (fileValue f front).map f.parse = some (f.parse v) := by
  rw [readFile_eq_iff]
  refine forall_congr' fun f => ?_
  have hwith : fileValue f (front ++ comment ++ back) =
      (fileValue f back).or ((fileValue f (comment.drop 255)).or (fileValue f front)) := by
    rw [List.append_assoc, fileValue_append hfront, ← fileValue_comment hcomment]
    rcases hback with hback | rfl
    · rw [fileValue_append hback, Option.or_assoc]
    · rw [List.append_nil]
      rfl
  rw [hwith, fileValue_append hfront]
  exact map_or_eq_iff f.parse _ _ _

/-- A comment that fits the buffer does no harm. -/
theorem readFile_short_comment (hfront : Terminated front) (hcomment : IsComment comment)
    (hback : Terminated comment ∨ back = []) (hlen : comment.length ≤ 255) (prior : LoggerConfig) :
    readFile prior (front ++ comment ++ back) = readFile prior (front ++ back) := by
  refine (readFile_comment_iff hfront hcomment hback).mpr (fun f v hv => ?_) prior
  rw [List.drop_eq_nil_of_le hlen] at hv
  cases hv

/-! ## Lines -/

/-- A piece of a line. -/
def piece (line : List UInt8) (i : Nat) : List UInt8 := (line.drop (255 * i)).take 255

/-- At most one field is changed. -/
def ChangesAtMostOne (before after : LoggerConfig) : Prop :=
  ∀ f g : Field, after.get f ≠ before.get f → after.get g ≠ before.get g → f = g

theorem fileValue_isSome_iff (h : IsLine line) (f : Field) :
    (fileValue f line).isSome ↔ ∃ i v, lineSetting (piece line i) = some (f, v) := by
  unfold fileValue
  rw [latest?_isSome_iff]
  constructor
  · intro hex
    obtain ⟨text, hmem, hsome⟩ := hex
    obtain ⟨-, i, rfl⟩ := (mem_fgetsAll_iff (by decide) h.noNewline).mp hmem
    obtain ⟨v, hv⟩ := Option.isSome_iff_exists.mp hsome
    obtain ⟨⟨g, v'⟩, hs, hvalue⟩ := Option.bind_eq_some_iff.mp hv
    obtain ⟨hg, -⟩ := Option.ite_none_right_eq_some.mp hvalue
    exact ⟨i, v', by rw [← hg]; exact hs⟩
  · intro hex
    obtain ⟨i, v, hs⟩ := hex
    have hne : piece line i ≠ [] := fun e => by
      rw [e] at hs
      cases hs
    refine ⟨piece line i, (mem_fgetsAll_iff (by decide) h.noNewline).mpr ⟨hne, i, rfl⟩, ?_⟩
    rw [lineValue, hs, Option.bind_some, Setting.value?, if_pos rfl]
    rfl

theorem isSome_of_get_ne {prior : LoggerConfig} {file : List UInt8} {f : Field}
    (h : (readFile prior file).get f ≠ prior.get f) : (fileValue f file).isSome := by
  rw [get_readFile] at h
  cases hv : fileValue f file with
  | none =>
      rw [hv] at h
      exact absurd rfl h
  | some v => rfl

/-- A field that is set is changed, if something else was there before. -/
theorem exists_get_ne {file : List UInt8} {f : Field} (h : (fileValue f file).isSome) :
    ∃ x : f.Value, ∀ prior : LoggerConfig, prior.get f = x →
      (readFile prior file).get f ≠ prior.get f := by
  obtain ⟨v, hv⟩ := Option.isSome_iff_exists.mp h
  obtain ⟨x, hx⟩ := f.exists_store_ne (f.parse v)
  refine ⟨x, fun prior hprior => ?_⟩
  rw [get_readFile, hv, hprior]
  exact hx

theorem changesAtMostOne_iff_fileValue (file : List UInt8) :
    (∀ prior, ChangesAtMostOne prior (readFile prior file)) ↔
      ∀ f g : Field, (fileValue f file).isSome → (fileValue g file).isSome → f = g := by
  constructor
  · intro h f g hf hg
    by_contra hne
    obtain ⟨x, hx⟩ := exists_get_ne hf
    obtain ⟨y, hy⟩ := exists_get_ne hg
    obtain ⟨config⟩ : Nonempty LoggerConfig :=
      ⟨⟨.debug, 0, 0, 0, 0, 0, List.Vector.replicate 256 0⟩⟩
    have hgetf : ((config.set f x).set g y).get f = x := by
      rw [LoggerConfig.get_set_other _ _ hne, LoggerConfig.get_set_self]
    have hgetg : ((config.set f x).set g y).get g = y := LoggerConfig.get_set_self _ g y
    exact hne (h _ f g (hx _ hgetf) (hy _ hgetg))
  · intro h prior f g hf hg
    exact h f g (isSome_of_get_ne hf) (isSome_of_get_ne hg)

/-- **When a line sets at most one field:** its pieces all set the same. -/
theorem changesAtMostOne_iff (h : IsLine line) :
    (∀ prior, ChangesAtMostOne prior (readFile prior line)) ↔
      ∀ i j f g v w, lineSetting (piece line i) = some (f, v) →
        lineSetting (piece line j) = some (g, w) → f = g := by
  rw [changesAtMostOne_iff_fileValue]
  constructor
  · intro hline i j f g v w hf hg
    exact hline f g ((fileValue_isSome_iff h f).mpr ⟨i, v, hf⟩)
      ((fileValue_isSome_iff h g).mpr ⟨j, w, hg⟩)
  · intro hpieces f g hf hg
    obtain ⟨i, v, hf⟩ := (fileValue_isSome_iff h f).mp hf
    obtain ⟨j, w, hg⟩ := (fileValue_isSome_iff h g).mp hg
    exact hpieces i j f g v w hf hg

/-- A line that fits the buffer is one piece. -/
theorem eq_of_piece (hlen : line.length ≤ 255) {i j : Nat} {s t : Setting}
    (hs : lineSetting (piece line i) = some s) (ht : lineSetting (piece line j) = some t) :
    s = t := by
  have hpiece : ∀ i s, lineSetting (piece line i) = some s → i = 0 := by
    intro i s hs
    by_contra hi
    have hnil : piece line i = [] := by
      unfold piece
      rw [List.drop_eq_nil_of_le (by omega), List.take_nil]
    rw [hnil] at hs
    cases hs
  rw [hpiece i s hs] at hs
  rw [hpiece j t ht] at ht
  exact Option.some.inj (hs.symm.trans ht)

theorem changesAtMostOne_of_length (h : IsLine line) (hlen : line.length ≤ 255)
    (prior : LoggerConfig) : ChangesAtMostOne prior (readFile prior line) :=
  (changesAtMostOne_iff h).mpr
    (fun _ _ _ _ _ _ hf hg => congrArg Prod.fst (eq_of_piece hlen hf hg)) prior

/--
**The lines of a file.** A line between others is read by itself. If it is a comment, it does no harm
exactly when what stands behind its first 255 bytes does none; and it sets at most one field exactly
when its pieces of 255 bytes all set the same.
-/
theorem readFile_lines_iff (hfront : Terminated front) (hline : IsLine line)
    (hback : Terminated line ∨ back = []) :
    (∀ prior, readFile prior (front ++ line ++ back) =
      readFile (readFile (readFile prior front) line) back) ∧
    (line.head? = some hash →
      ((∀ prior, readFile prior (front ++ line ++ back) = readFile prior (front ++ back)) ↔
        ∀ (f : Field) v, fileValue f (line.drop 255) = some v →
          (fileValue f back).isSome ∨ (fileValue f front).map f.parse = some (f.parse v))) ∧
    ((∀ prior, ChangesAtMostOne prior (readFile prior line)) ↔
      ∀ i j f g v w, lineSetting (piece line i) = some (f, v) →
        lineSetting (piece line j) = some (g, w) → f = g) := by
  refine ⟨fun prior => ?_, fun hhash => ?_, changesAtMostOne_iff hline⟩
  · rw [List.append_assoc, readFile_append hfront]
    rcases hback with hback | rfl
    · rw [readFile_append hback]
    · rw [List.append_nil]
      rfl
  · exact readFile_comment_iff hfront ⟨hline, hhash⟩ hback

/-- A comment between two settings, and a line with one setting. -/
theorem readFile_lines_iff_short :
    readFile ⟨.warn, 0, 0, 0, 0, 0, List.Vector.replicate 256 0⟩
        (ascii "log_level=debug\n" ++ ascii "# level\n" ++ ascii "use_colors=1") =
      readFile ⟨.warn, 0, 0, 0, 0, 0, List.Vector.replicate 256 0⟩
        (ascii "log_level=debug\n" ++ ascii "use_colors=1") ∧
    ChangesAtMostOne ⟨.warn, 0, 0, 0, 0, 0, List.Vector.replicate 256 0⟩
      (readFile ⟨.warn, 0, 0, 0, 0, 0, List.Vector.replicate 256 0⟩ (ascii "use_colors=1")) := by
  constructor
  · have hfront : Terminated (ascii "log_level=debug\n") :=
      Or.inr ⟨ascii "log_level=debug", by decide⟩
    have hmid : Terminated (ascii "# level\n") := Or.inr ⟨ascii "# level", by decide⟩
    have hline : IsLine (ascii "# level\n") := ⟨by decide, by decide⟩
    obtain ⟨-, hcomment, -⟩ := readFile_lines_iff hfront hline (Or.inl hmid)
    refine (hcomment (by decide)).mpr (fun f v hv => ?_) _
    cases hv
  · have hline : IsLine (ascii "use_colors=1") := ⟨by decide, by decide⟩
    have hlen : (ascii "use_colors=1").length ≤ 255 := by decide
    obtain ⟨-, -, hone⟩ := readFile_lines_iff (Or.inl rfl) hline (Or.inr rfl)
    exact hone.mpr (fun _ _ _ _ _ _ hf hg => congrArg Prod.fst (eq_of_piece hlen hf hg)) _

/-- A comment that goes on behind byte 255, and a line of two settings. -/
theorem long_line_sets :
    (¬ ∀ front comment back, Terminated front → IsComment comment →
      (Terminated comment ∨ back = []) →
      ∀ prior, readFile prior (front ++ comment ++ back) = readFile prior (front ++ back)) ∧
    ¬ ∀ line, IsLine line → ∀ prior, ChangesAtMostOne prior (readFile prior line) := by
  have hlevel : ∀ text : List UInt8, text.length = 255 → newline ∉ text →
      fileValue .logLevel (text ++ ascii "log_level=debug") = some (ascii "debug") := by
    intro text hlen hnl
    have hback : fileValue .logLevel (ascii "log_level=debug") = some (ascii "debug") := by decide
    rw [fileValue_full hlen hnl, hback, Option.some_or]
  have hline : ∀ text : List UInt8, newline ∉ text → IsLine (text ++ ascii "log_level=debug") := by
    intro text hnl
    refine ⟨by simp [ascii], fun hmem => ?_⟩
    rw [List.dropLast_append_of_ne_nil (by decide)] at hmem
    rcases List.mem_append.mp hmem with hmem | hmem
    · exact hnl hmem
    · exact absurd hmem (by decide)
  constructor
  · intro h
    have hlen : (List.replicate 255 hash).length = 255 := List.length_replicate
    have hnl : newline ∉ List.replicate 255 hash := fun hmem =>
      absurd (List.eq_of_mem_replicate hmem) (by decide)
    have hread := (readFile_eq_iff _ _).mp
      (h [] _ [] (Or.inl rfl) ⟨hline _ hnl, rfl⟩ (Or.inr rfl)) .logLevel
    rw [List.append_nil, List.nil_append, hlevel _ hlen hnl] at hread
    cases hread
  · intro h
    have hlen : (ascii "use_colors=" ++ List.replicate 244 hash).length = 255 := by
      rw [List.length_append, List.length_replicate]
      decide
    have hvalue : newline ∉ List.replicate 244 hash := fun hmem =>
      absurd (List.eq_of_mem_replicate hmem) (by decide)
    have hnl : newline ∉ ascii "use_colors=" ++ List.replicate 244 hash := fun hmem => by
      rcases List.mem_append.mp hmem with hmem | hmem
      · exact absurd hmem (by decide)
      · exact hvalue hmem
    have hkey : IsKey (ascii "use_colors") := ⟨by decide, by decide, by decide, by decide⟩
    have h0 : 0 ∉ List.replicate 244 hash := fun hmem =>
      absurd (List.eq_of_mem_replicate hmem) (by decide)
    have hcolors : (lineValue .useColors
        (ascii "use_colors=" ++ List.replicate 244 hash)).isSome := by
      have hcontents : contents (List.replicate 244 hash) ≠ [] := by
        rw [contents_of_not_mem h0]
        exact List.cons_ne_nil _ _
      have hsplit : ascii "use_colors=" ++ List.replicate 244 hash =
          ascii "use_colors" ++ equalsSign :: List.replicate 244 hash := rfl
      rw [hsplit, lineValue_setting hkey hvalue, if_pos ⟨by decide, hcontents⟩]
      rfl
    have hfalse : Field.logLevel = Field.useColors := by
      refine (changesAtMostOne_iff_fileValue _).mp (h _ (hline _ hnl)) .logLevel .useColors ?_ ?_
      · rw [hlevel _ hlen hnl]
        rfl
      · have hback : fileValue .useColors (ascii "log_level=debug") = none := by decide
        rw [fileValue_full hlen hnl, hback, Option.none_or]
        exact hcolors
    cases hfalse

end DesktopEngine.Config
