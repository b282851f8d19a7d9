import DesktopEngine.Lib.Bounded
import Mathlib.Data.List.DropRight
import Mathlib.Data.List.Induction
import Mathlib.Data.List.TakeDrop

/-!
# Strings and lines in the C library

Arrays of bytes that hold a string up to their first NUL, and the functions of `string.h`, `ctype.h`
and `stdio.h` that programs use to take a text file apart.

`fgets` reads a file in pieces: it stops behind a newline, but also when its buffer is full.
`fgetsAll` is what it returns until the end of the file. A line that fits the buffer is one piece
(`fgetsAll_line`); a longer one is several, and each of them looks like a line
(`fgetsAll_full`). Pieces do not cross a newline, so files can be read part by part
(`fgetsAll_append`).
-/

namespace CString

/-- `'\n'` -/
def newline : UInt8 := 10

/-- `isspace` in the C locale. -/
def isspace (c : UInt8) : Bool := c = 32 || (9 ≤ c && c ≤ 13)

/-- The bytes of an ASCII literal. -/
def ascii (s : String) : List UInt8 := s.toList.map fun c => UInt8.ofNat c.toNat

/-- The string that an array holds: the bytes before its first NUL. -/
def contents (bytes : List UInt8) : List UInt8 := bytes.takeWhile (· ≠ 0)

theorem contents_of_not_mem {bytes : List UInt8} (h : 0 ∉ bytes) : contents bytes = bytes := by
  unfold contents
  rw [List.takeWhile_eq_self_iff]
  intro c hc
  rw [decide_eq_true_eq]
  intro heq
  subst heq
  exact h hc

theorem zero_not_mem_contents (bytes : List UInt8) : 0 ∉ contents bytes := fun h => by
  simpa using List.mem_takeWhile_imp h

/-- A string, its NUL, and whatever lies behind it. -/
theorem contents_append_zero {s : List UInt8} (h : 0 ∉ s) (rest : List UInt8) :
    contents (s ++ 0 :: rest) = s := by
  unfold contents
  rw [List.takeWhile_append_of_pos, List.takeWhile_cons_of_neg (by simp), List.append_nil]
  intro c hc
  rw [decide_eq_true_eq]
  intro heq
  subst heq
  exact h hc

/-- Without a NUL the string goes on. -/
theorem contents_append {s : List UInt8} (h : 0 ∉ s) (rest : List UInt8) :
    contents (s ++ rest) = s ++ contents rest := by
  unfold contents
  rw [List.takeWhile_append_of_pos]
  intro c hc
  rw [decide_eq_true_eq]
  intro heq
  subst heq
  exact h hc

/-- Behind a NUL nothing counts. -/
theorem contents_append_of_mem {s : List UInt8} (h : 0 ∈ s) (rest : List UInt8) :
    contents (s ++ rest) = contents s := by
  obtain ⟨front, back, rfl, hfront⟩ := List.eq_append_cons_of_mem h
  rw [List.append_assoc, List.cons_append, contents_append_zero hfront, contents_append_zero hfront]

theorem contents_subset (bytes : List UInt8) : contents bytes ⊆ bytes :=
  (List.takeWhile_prefix _).subset

/-! ## Copies -/

/-- `strcpy(dst, src)` -/
def strcpy (dst src : List UInt8) : List UInt8 := src ++ 0 :: dst.drop (src.length + 1)

/-- The `n` bytes that `strncpy` writes: the string, cut off or filled up with NULs. -/
def padded (n : Nat) (src : List UInt8) : List UInt8 := (src ++ List.replicate n 0).take n

/-- `strncpy(dst, src, n)` -/
def strncpy (dst src : List UInt8) (n : Nat) : List UInt8 := padded n src ++ dst.drop n

theorem length_padded (n : Nat) (src : List UInt8) : (padded n src).length = n := by
  simp [padded]

theorem length_strcpy {dst src : List UInt8} (h : src.length < dst.length) :
    (strcpy dst src).length = dst.length := by
  simp only [strcpy, List.length_append, List.length_cons, List.length_drop]
  omega

theorem length_strncpy {dst src : List UInt8} {n : Nat} (h : n ≤ dst.length) :
    (strncpy dst src n).length = dst.length := by
  simp only [strncpy, List.length_append, length_padded, List.length_drop]
  omega

/-- A short string is padded. -/
theorem padded_of_lt {src : List UInt8} {n : Nat} (h : src.length < n) :
    ∃ k, padded n src = src ++ 0 :: List.replicate k 0 := by
  refine ⟨n - src.length - 1, ?_⟩
  rw [padded, List.take_append, List.take_of_length_le (Nat.le_of_lt h), List.take_replicate,
    ← List.replicate_succ]
  congr 2
  omega

/-- A long string is cut off. -/
theorem padded_of_le {src : List UInt8} {n : Nat} (h : n ≤ src.length) :
    padded n src = src.take n := by
  rw [padded, List.take_append_of_le_length h]

/-! ## Tokens -/

/-- `strtok` with one delimiter: the token, and where the next call goes on. -/
def strtok (delim : UInt8) (s : List UInt8) : Option (List UInt8) × List UInt8 :=
  let start := s.dropWhile (· = delim)
  if start = [] then (none, [])
  else (some (start.takeWhile (· ≠ delim)), (start.dropWhile (· ≠ delim)).tail)

section Strtok

variable {delim : UInt8} {s rest : List UInt8}

theorem strtok_nil : strtok delim [] = (none, []) := rfl

theorem dropWhile_delim (hs : s ≠ []) (h : delim ∉ s) (rest : List UInt8) :
    (s ++ rest).dropWhile (· = delim) = s ++ rest := by
  cases s with
  | nil => exact absurd rfl hs
  | cons c s =>
      have hc : c ≠ delim := fun e => h (e ▸ List.mem_cons_self)
      rw [List.cons_append, List.dropWhile_cons_of_neg (by simpa using hc)]

/-- A token that ends at a delimiter. -/
theorem strtok_delim (hs : s ≠ []) (h : delim ∉ s) (rest : List UInt8) :
    strtok delim (s ++ delim :: rest) = (some s, rest) := by
  have hpos : ∀ c ∈ s, decide (c ≠ delim) = true := fun c hc => by
    rw [decide_eq_true_eq]
    intro heq
    subst heq
    exact h hc
  unfold strtok
  rw [dropWhile_delim hs h]
  simp only
  rw [if_neg (by simp), List.takeWhile_append_of_pos hpos, List.dropWhile_append_of_pos hpos,
    List.takeWhile_cons_of_neg (by simp), List.dropWhile_cons_of_neg (by simp), List.append_nil,
    List.tail_cons]

/-- A token that ends with the string. -/
theorem strtok_last (hs : s ≠ []) (h : delim ∉ s) : strtok delim s = (some s, []) := by
  have hpos : ∀ c ∈ s, decide (c ≠ delim) = true := fun c hc => by
    rw [decide_eq_true_eq]
    intro heq
    subst heq
    exact h hc
  have hdrop := dropWhile_delim hs h []
  rw [List.append_nil] at hdrop
  unfold strtok
  rw [hdrop]
  simp only
  rw [if_neg hs, List.takeWhile_eq_self_iff.mpr hpos, List.dropWhile_eq_nil_iff.mpr hpos]
  rfl

/-- Where the next call goes on is part of the string. -/
theorem strtok_rest_subset (delim : UInt8) (s : List UInt8) : (strtok delim s).2 ⊆ s := by
  unfold strtok
  dsimp only
  split
  · exact List.nil_subset _
  · exact List.Subset.trans (List.tail_suffix _).subset <|
      List.Subset.trans (List.dropWhile_suffix _).subset (List.dropWhile_suffix _).subset

theorem strtok_subset {tok : List UInt8} (h : (strtok delim s).1 = some tok) : tok ⊆ s := by
  unfold strtok at h
  dsimp only at h
  split at h
  · cases h
  · rw [← Option.some.inj h]
    exact List.Subset.trans (List.takeWhile_prefix _).subset (List.dropWhile_suffix _).subset

/-- One more byte: the token is the last one, or the rest has one more byte. -/
theorem strtok_concat {c : UInt8} (hc : c ≠ delim) (s : List UInt8) :
    ((strtok delim s).2 = [] ∧ (strtok delim (s ++ [c])).2 = []) ∨
      strtok delim (s ++ [c]) = ((strtok delim s).1, (strtok delim s).2 ++ [c]) := by
  have hkeep : [c].dropWhile (· = delim) = [c] := List.dropWhile_cons_of_neg (by simpa using hc)
  have hcut : [c].dropWhile (· ≠ delim) = [] := List.dropWhile_cons_of_pos (by simpa using hc)
  have hstart : (s ++ [c]).dropWhile (· = delim) = s.dropWhile (· = delim) ++ [c] := by
    rw [List.dropWhile_append, hkeep]
    by_cases hs : s.dropWhile (· = delim) = []
    · rw [hs]
      rfl
    · rw [if_neg (by simpa using hs)]
  unfold strtok
  rw [hstart]
  dsimp only
  generalize s.dropWhile (· = delim) = start
  rw [if_neg (show start ++ [c] ≠ [] by simp)]
  by_cases hmem : delim ∈ start
  · obtain ⟨tok, rest, rfl, htok⟩ := List.eq_append_cons_of_mem hmem
    have hpos : ∀ x ∈ tok, decide (x ≠ delim) = true := fun x hx => by
      rw [decide_eq_true_eq]
      exact fun e => htok (e ▸ hx)
    rw [if_neg (by simp), List.append_assoc, List.takeWhile_append_of_pos hpos,
      List.takeWhile_append_of_pos hpos, List.dropWhile_append_of_pos hpos,
      List.dropWhile_append_of_pos hpos, List.cons_append, List.takeWhile_cons_of_neg (by simp),
      List.takeWhile_cons_of_neg (by simp), List.dropWhile_cons_of_neg (by simp),
      List.dropWhile_cons_of_neg (by simp)]
    exact Or.inr rfl
  · have hpos : ∀ x ∈ start, decide (x ≠ delim) = true := fun x hx => by
      rw [decide_eq_true_eq]
      exact fun e => hmem (e ▸ hx)
    rw [List.dropWhile_append_of_pos hpos, hcut, List.dropWhile_eq_nil_iff.mpr hpos]
    refine Or.inl ⟨?_, rfl⟩
    split <;> rfl

/-- A delimiter at the end does not change the token. -/
theorem strtok_concat_delim (h : delim ∉ s) :
    (strtok delim (s ++ [delim])).1 = (strtok delim s).1 := by
  by_cases hs : s = []
  · rw [hs, List.nil_append]
    simp [strtok]
  · rw [strtok_delim hs h, strtok_last hs h]

end Strtok

/-! ## Lines -/

/-- At most `n` bytes, up to and with a newline, and what is left of the file. -/
def readUpTo : Nat → List UInt8 → List UInt8 × List UInt8
  | 0, rest => ([], rest)
  | _ + 1, [] => ([], [])
  | n + 1, c :: rest =>
      if c = newline then ([c], rest) else ((c :: (readUpTo n rest).1), (readUpTo n rest).2)

/-- `fgets` with a buffer of `n + 1` bytes, and the rest of the file. -/
def fgets (n : Nat) (file : List UInt8) : Option (List UInt8 × List UInt8) :=
  if file = [] then none else some (readUpTo n file)

/-- What `fgets` returns, as often as `fuel` allows. -/
def fgetsUpTo (n : Nat) : Nat → List UInt8 → List (List UInt8)
  | 0, _ => []
  | fuel + 1, file =>
      match fgets n file with
      | none => []
      | some (line, rest) => line :: fgetsUpTo n fuel rest

/-- What `fgets` returns until the end of the file; every call reads at least one byte. -/
def fgetsAll (n : Nat) (file : List UInt8) : List (List UInt8) := fgetsUpTo n file.length file

section Lines

variable {n : Nat} {file line rest : List UInt8}

theorem readUpTo_append (n : Nat) (file : List UInt8) :
    (readUpTo n file).1 ++ (readUpTo n file).2 = file := by
  induction n generalizing file with
  | zero => rfl
  | succ n ih =>
      cases file with
      | nil => rfl
      | cons c rest =>
          rw [readUpTo]
          split
          · rfl
          · rw [List.cons_append, ih]

theorem readUpTo_ne_nil (hn : 0 < n) (hfile : file ≠ []) : (readUpTo n file).1 ≠ [] := by
  cases n with
  | zero => omega
  | succ n =>
      cases file with
      | nil => exact absurd rfl hfile
      | cons c rest =>
          rw [readUpTo]
          split <;> simp

theorem length_rest_lt (hn : 0 < n) (hfile : file ≠ []) :
    (readUpTo n file).2.length < file.length := by
  have hlen := congrArg List.length (readUpTo_append n file)
  have hpos := List.length_pos_of_ne_nil (readUpTo_ne_nil hn hfile)
  rw [List.length_append] at hlen
  omega

/-- A newline within reach ends the piece. -/
theorem readUpTo_newline {body : List UInt8} (hbody : newline ∉ body) (hlen : body.length < n)
    (rest : List UInt8) : readUpTo n (body ++ newline :: rest) = (body ++ [newline], rest) := by
  induction body generalizing n with
  | nil =>
      cases n with
      | zero => exact absurd hlen (Nat.not_lt_zero _)
      | succ n => rw [List.nil_append, readUpTo, if_pos rfl]; rfl
  | cons c body ih =>
      cases n with
      | zero => exact absurd hlen (Nat.not_lt_zero _)
      | succ n =>
          have hc : c ≠ newline := fun e => hbody (e ▸ List.mem_cons_self)
          have hrest := ih (fun h => hbody (List.mem_cons_of_mem c h)) (Nat.lt_of_succ_lt_succ hlen)
          rw [List.cons_append, readUpTo, if_neg hc, hrest]
          rfl

/-- A full buffer ends the piece. -/
theorem readUpTo_full (hline : newline ∉ line) (rest : List UInt8) :
    readUpTo line.length (line ++ rest) = (line, rest) := by
  induction line with
  | nil => rfl
  | cons c line ih =>
      have hc : c ≠ newline := fun e => hline (e ▸ List.mem_cons_self)
      have hrest := ih fun h => hline (List.mem_cons_of_mem c h)
      rw [List.length_cons, List.cons_append, readUpTo, if_neg hc, hrest]

/-- The end of the file ends the piece. -/
theorem readUpTo_last (hline : newline ∉ line) (hlen : line.length ≤ n) :
    readUpTo n line = (line, []) := by
  induction line generalizing n with
  | nil => cases n <;> rfl
  | cons c line ih =>
      cases n with
      | zero => exact absurd hlen (Nat.not_succ_le_zero _)
      | succ n =>
          have hc : c ≠ newline := fun e => hline (e ▸ List.mem_cons_self)
          have hrest := ih (fun h => hline (List.mem_cons_of_mem c h)) (Nat.le_of_succ_le_succ hlen)
          rw [readUpTo, if_neg hc, hrest]

/-- What is one line, or part of one, is cut where the buffer ends. -/
theorem readUpTo_eq_take_drop (h : newline ∉ file.dropLast) (n : Nat) :
    readUpTo n file = (file.take n, file.drop n) := by
  induction n generalizing file with
  | zero => rfl
  | succ n ih =>
      cases file with
      | nil => rfl
      | cons c rest =>
          cases rest with
          | nil =>
              rw [readUpTo]
              split
              · simp
              · cases n <;> rfl
          | cons d rest =>
              rw [List.dropLast_cons_cons] at h
              have hc : c ≠ newline := fun e => h (e ▸ List.mem_cons_self)
              have hrest := ih fun hmem => h (List.mem_cons_of_mem c hmem)
              rw [readUpTo, if_neg hc, hrest]
              rfl

/-- More fuel than bytes is of no use. -/
theorem fgetsUpTo_eq (hn : 0 < n) : ∀ (fuel : Nat) (file : List UInt8), file.length ≤ fuel →
    fgetsUpTo n fuel file = fgetsAll n file := by
  intro fuel
  induction fuel using Nat.strongRecOn with
  | ind fuel ih =>
      intro file hlen
      cases file with
      | nil => cases fuel <;> rfl
      | cons c file =>
          cases fuel with
          | zero => exact absurd hlen (Nat.not_succ_le_zero _)
          | succ fuel =>
              have hlt := length_rest_lt hn (List.cons_ne_nil c file)
              have hle : (readUpTo n (c :: file)).2.length ≤ file.length := Nat.le_of_lt_succ hlt
              have hfile : file.length ≤ fuel := Nat.le_of_succ_le_succ hlen
              have h1 := ih fuel (Nat.lt_succ_self _) _ (Nat.le_trans hle hfile)
              unfold fgetsAll
              rw [List.length_cons, fgetsUpTo, fgetsUpTo]
              simp only [fgets, if_neg (List.cons_ne_nil c file)]
              rw [h1]
              rcases Nat.lt_or_ge file.length (fuel + 1) with hlt' | hge
              · rw [ih file.length hlt' _ hle]
              · omega

/-- The first piece, and the pieces of the rest. -/
theorem fgetsAll_cons (hn : 0 < n) (hfile : file ≠ []) :
    fgetsAll n file = (readUpTo n file).1 :: fgetsAll n (readUpTo n file).2 := by
  cases file with
  | nil => exact absurd rfl hfile
  | cons c file =>
      have hlt := length_rest_lt hn hfile
      have h := fgetsUpTo_eq hn file.length (readUpTo n (c :: file)).2 (Nat.le_of_lt_succ hlt)
      rw [← h]
      rfl

@[simp] theorem fgetsAll_nil (n : Nat) : fgetsAll n [] = [] := rfl

/-- A line that fits is one piece. -/
theorem fgetsAll_line {body : List UInt8} (hbody : newline ∉ body) (hlen : body.length < n)
    (rest : List UInt8) :
    fgetsAll n (body ++ newline :: rest) = (body ++ [newline]) :: fgetsAll n rest := by
  rw [fgetsAll_cons (Nat.zero_lt_of_lt hlen) (by simp), readUpTo_newline hbody hlen]

/-- A full buffer is one piece. -/
theorem fgetsAll_full (hn : 0 < line.length) (hline : newline ∉ line) (rest : List UInt8) :
    fgetsAll line.length (line ++ rest) = line :: fgetsAll line.length rest := by
  have hne : line ≠ [] := List.ne_nil_of_length_pos hn
  rw [fgetsAll_cons hn (by simp [hne]), readUpTo_full hline]

/-- The pieces of a line. -/
theorem mem_fgetsAll_iff (hn : 0 < n) (h : newline ∉ file.dropLast) {piece : List UInt8} :
    piece ∈ fgetsAll n file ↔ piece ≠ [] ∧ ∃ i, piece = (file.drop (n * i)).take n := by
  induction hlen : file.length using Nat.strongRecOn generalizing file with
  | ind k ih =>
      by_cases hne : file = []
      · rw [hne, fgetsAll_nil]
        simp
      have hcut := readUpTo_eq_take_drop h n
      have hlt := length_rest_lt hn hne
      rw [hcut] at hlt
      have hdrop : newline ∉ (file.drop n).dropLast := fun hmem => by
        rw [List.dropLast_drop_eq_drop_dropLast] at hmem
        exact h (List.mem_of_mem_drop hmem)
      rw [fgetsAll_cons hn hne, hcut, List.mem_cons, ih _ (hlen ▸ hlt) hdrop rfl]
      constructor
      · intro hor
        rcases hor with rfl | ⟨hpiece, i, rfl⟩
        · have htake := readUpTo_ne_nil hn hne
          rw [hcut] at htake
          exact ⟨htake, 0, by rw [Nat.mul_zero, List.drop_zero]⟩
        · refine ⟨hpiece, i + 1, ?_⟩
          rw [List.drop_drop, Nat.mul_succ, Nat.add_comm]
      · intro hex
        obtain ⟨hpiece, i, rfl⟩ := hex
        cases i with
        | zero =>
            rw [Nat.mul_zero, List.drop_zero]
            exact Or.inl rfl
        | succ i =>
            refine Or.inr ⟨hpiece, i, ?_⟩
            rw [List.drop_drop, Nat.mul_succ, Nat.add_comm]

/-- A last line without a newline. -/
theorem fgetsAll_last (hline : newline ∉ line) (hne : line ≠ []) (hlen : line.length ≤ n) :
    fgetsAll n line = [line] := by
  have hn : 0 < n := Nat.lt_of_lt_of_le (List.length_pos_of_ne_nil hne) hlen
  rw [fgetsAll_cons hn hne, readUpTo_last hline hlen, fgetsAll_nil]

/-- The file is empty, or its last line has a newline. -/
def Terminated (file : List UInt8) : Prop := file = [] ∨ ∃ front, file = front ++ [newline]

/-- A piece of a file that ends with a newline does not depend on what follows it. -/
theorem readUpTo_of_terminated (hn : 0 < n) (hne : file ≠ []) (h : Terminated file)
    (more : List UInt8) :
    readUpTo n (file ++ more) = ((readUpTo n file).1, (readUpTo n file).2 ++ more) ∧
      Terminated (readUpTo n file).2 := by
  obtain ⟨front, rfl⟩ := h.resolve_left hne
  clear hne h
  induction front generalizing n with
  | nil =>
      cases n with
      | zero => omega
      | succ n => exact ⟨by simp [readUpTo], by simp [readUpTo, Terminated]⟩
  | cons c front ih =>
      cases n with
      | zero => omega
      | succ n =>
          rw [List.cons_append, List.cons_append, readUpTo, readUpTo]
          by_cases hc : c = newline
          · rw [if_pos hc, if_pos hc]
            exact ⟨rfl, Or.inr ⟨front, rfl⟩⟩
          · rw [if_neg hc, if_neg hc]
            cases n with
            | zero => exact ⟨rfl, Or.inr ⟨front, rfl⟩⟩
            | succ n =>
                obtain ⟨h1, h2⟩ := ih (Nat.succ_pos n)
                exact ⟨by rw [h1], h2⟩

/-- **Files are read part by part.** -/
theorem fgetsAll_append (hn : 0 < n) (h : Terminated file) (more : List UInt8) :
    fgetsAll n (file ++ more) = fgetsAll n file ++ fgetsAll n more := by
  induction hlen : file.length using Nat.strongRecOn generalizing file with
  | ind k ih =>
      by_cases hne : file = []
      · rw [hne]
        rfl
      · obtain ⟨hread, hrest⟩ := readUpTo_of_terminated hn hne h more
        have hlt := length_rest_lt hn hne
        rw [fgetsAll_cons hn (by simp [hne]), hread, fgetsAll_cons hn hne, List.cons_append,
          ih _ (hlen ▸ hlt) hrest rfl]

/-- **A file of lines that fit is read line by line.** -/
theorem fgetsAll_lines {texts : List (List UInt8)}
    (h : ∀ text ∈ texts, newline ∉ text ∧ text.length < n) (rest : List UInt8) :
    fgetsAll n ((texts.flatMap fun text => text ++ [newline]) ++ rest) =
      (texts.map fun text => text ++ [newline]) ++ fgetsAll n rest := by
  induction texts with
  | nil => rfl
  | cons text texts ih =>
      obtain ⟨hnl, hlen⟩ := h text List.mem_cons_self
      rw [List.flatMap_cons, List.append_assoc, List.append_assoc, List.singleton_append,
        fgetsAll_line hnl hlen, ih fun t ht => h t (List.mem_cons_of_mem text ht)]
      rfl

end Lines

end CString
