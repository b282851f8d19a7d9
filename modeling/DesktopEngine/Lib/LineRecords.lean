import Mathlib.Data.List.Basic
import Mathlib.Tactic.SplitIfs

/-!
# Records, one a line

A file in which every record is a line, and a reader that takes the file apart at its newlines. A
file can be continued: what was read of the old part is read again (`lines_append`). All records
come back exactly when none of them has a newline in it (`readAll_append_iff`); with one, there are
more lines than records.
-/

namespace LineRecords

variable {α β : Type} [DecidableEq β] {newline : β}

/-- The lines of a file whose last line is terminated too; `front` is the line so far, backwards. -/
def linesFrom (newline : β) : List β → List β → Option (List (List β))
  | [], [] => some []
  | _ :: _, [] => none
  | front, c :: file =>
      if c = newline then (linesFrom newline [] file).map (front.reverse :: ·)
      else linesFrom newline (c :: front) file

def lines (newline : β) (file : List β) : Option (List (List β)) := linesFrom newline [] file

theorem linesFrom_append {front old file : List β} {texts : List (List β)}
    (h : linesFrom newline front old = some texts) :
    linesFrom newline front (old ++ file) = (linesFrom newline [] file).map (texts ++ ·) := by
  induction old generalizing front texts with
  | nil =>
      cases front with
      | nil =>
          obtain rfl := Option.some.inj h
          simp
      | cons c front => cases h
  | cons c old ih =>
      rw [List.cons_append, linesFrom]
      rw [linesFrom] at h
      split_ifs at h ⊢ with hc
      · obtain ⟨rest, hrest, rfl⟩ := Option.map_eq_some_iff.mp h
        rw [ih hrest, Option.map_map]
        rfl
      · exact ih h

/-- **A file is continued line by line.** -/
theorem lines_append {old file : List β} {texts : List (List β)}
    (h : lines newline old = some texts) :
    lines newline (old ++ file) = (lines newline file).map (texts ++ ·) := linesFrom_append h

theorem linesFrom_line {front text file : List β} (h : newline ∉ text) :
    linesFrom newline front (text ++ newline :: file) =
      (linesFrom newline [] file).map ((front.reverse ++ text) :: ·) := by
  induction text generalizing front with
  | nil => simp [linesFrom]
  | cons c text ih =>
      have hc : c ≠ newline := fun e => h (by rw [e]; exact List.mem_cons_self)
      rw [List.cons_append, linesFrom, if_neg hc, ih fun hm => h (List.mem_cons_of_mem c hm),
        List.reverse_cons, List.append_assoc]
      rfl

theorem length_linesFrom {front file : List β} {texts : List (List β)}
    (h : linesFrom newline front file = some texts) : texts.length = file.count newline := by
  induction file generalizing front texts with
  | nil =>
      cases front with
      | nil =>
          obtain rfl := Option.some.inj h
          rfl
      | cons c front => cases h
  | cons c file ih =>
      rw [linesFrom] at h
      split_ifs at h with hc
      · obtain ⟨rest, hrest, rfl⟩ := Option.map_eq_some_iff.mp h
        rw [List.length_cons, ih hrest, hc, List.count_cons_self]
      · rw [ih h, List.count_cons_of_ne hc]

/-! ## Records -/

variable {write : α → List β} {read : List β → Option α}

def writeAll (newline : β) (write : α → List β) (as : List α) : List β :=
  as.flatMap fun a => write a ++ [newline]

/-- Every line is a record. -/
def readAll (newline : β) (read : List β → Option α) (file : List β) : Option (List α) :=
  (lines newline file).bind fun texts => texts.mapM read

omit [DecidableEq β] in
theorem writeAll_cons (a : α) (as : List α) :
    writeAll newline write (a :: as) = write a ++ newline :: writeAll newline write as := by
  simp [writeAll]

theorem lines_writeAll {as : List α} (h : ∀ a ∈ as, newline ∉ write a) :
    lines newline (writeAll newline write as) = some (as.map write) := by
  induction as with
  | nil => rfl
  | cons a as ih =>
      rw [writeAll_cons, lines, linesFrom_line (h a List.mem_cons_self)]
      have hrest : linesFrom newline [] (writeAll newline write as) = some (as.map write) :=
        ih fun b hb => h b (List.mem_cons_of_mem a hb)
      rw [hrest]
      rfl

omit [DecidableEq β] in
theorem mapM_read {as : List α} (h : ∀ a ∈ as, read (write a) = some a) :
    (as.map write).mapM read = some as := by
  induction as with
  | nil => rfl
  | cons a as ih =>
      rw [List.map_cons, List.mapM_cons, h a List.mem_cons_self,
        ih fun b hb => h b (List.mem_cons_of_mem a hb)]
      rfl

omit [DecidableEq β] in
theorem mapM_append_eq {texts texts' : List (List β)} {bs : List α}
    (h : texts.mapM read = some bs) :
    (texts ++ texts').mapM read = (texts'.mapM read).map (bs ++ ·) := by
  rw [List.mapM_append, h]
  cases texts'.mapM read <;> rfl

omit [DecidableEq β] in
theorem length_of_mapM {texts : List (List β)} {bs : List α} (h : texts.mapM read = some bs) :
    bs.length = texts.length := by
  induction texts generalizing bs with
  | nil =>
      obtain rfl := Option.some.inj h
      rfl
  | cons text texts ih =>
      rw [List.mapM_cons] at h
      obtain ⟨b, -, h⟩ := Option.bind_eq_some_iff.mp h
      obtain ⟨bs', hbs', h⟩ := Option.bind_eq_some_iff.mp h
      obtain rfl := Option.some.inj h
      rw [List.length_cons, List.length_cons, ih hbs']

section

variable {old : List β} {bs as : List α}

/-- **What was written is read back**, behind what was there. -/
theorem readAll_append (hold : readAll newline read old = some bs)
    (hread : ∀ a ∈ as, read (write a) = some a) (h : ∀ a ∈ as, newline ∉ write a) :
    readAll newline read (old ++ writeAll newline write as) = some (bs ++ as) := by
  obtain ⟨texts, htexts, hbs⟩ := Option.bind_eq_some_iff.mp hold
  rw [readAll, lines_append htexts, lines_writeAll h, Option.map_some, Option.bind_some,
    mapM_append_eq hbs, mapM_read hread]
  rfl

/-- There are as many records as newlines. -/
theorem length_readAll {file : List β} (h : readAll newline read file = some bs) :
    bs.length = file.count newline := by
  obtain ⟨texts, htexts, hbs⟩ := Option.bind_eq_some_iff.mp h
  rw [length_of_mapM hbs]
  exact length_linesFrom htexts

theorem count_writeAll : ∀ as : List α, as.length ≤ (writeAll newline write as).count newline ∧
    ((writeAll newline write as).count newline = as.length → ∀ a ∈ as, newline ∉ write a)
  | [] => ⟨Nat.zero_le _, fun _ _ ha => by cases ha⟩
  | a :: as => by
      obtain ⟨hle, heq⟩ := count_writeAll as
      have hcount : (writeAll newline write (a :: as)).count newline =
          (write a).count newline + (writeAll newline write as).count newline + 1 := by
        rw [writeAll_cons, List.count_append, List.count_cons_self]
        omega
      rw [hcount, List.length_cons]
      refine ⟨by omega, fun hsum b hb => ?_⟩
      rcases List.mem_cons.mp hb with rfl | hb
      · exact List.count_eq_zero.mp (by omega)
      · exact heq (by omega) b hb

/-- **All records come back exactly when none has a newline in it.** -/
theorem readAll_append_iff (hold : readAll newline read old = some bs)
    (hread : ∀ a ∈ as, read (write a) = some a) :
    (∃ cs, readAll newline read (old ++ writeAll newline write as) = some (bs ++ cs) ∧
      cs.length = as.length) ↔ ∀ a ∈ as, newline ∉ write a := by
  constructor
  · rintro ⟨cs, hcs, hlen⟩
    have hall := length_readAll hcs
    have hbs := length_readAll hold
    rw [List.length_append, List.count_append] at hall
    exact (count_writeAll as).2 (by omega)
  · intro h
    exact ⟨as, readAll_append hold hread h, rfl⟩

end

end LineRecords
