import DesktopEngine.Lib.Bounded
import Mathlib.Data.List.Basic

/-!
# Element markup

As much of XML as documents need that have elements, attributes and a declaration at the top, but no
character data, comments or references. `scan` cuts a text into tags, one character at a time;
`parseTags` matches the tags with each other; `parse` is the two together.

`WellNested tags forest` says, without a stack, which lists of tags close what they open and what they
then contain; `parseTags_eq_some_iff` says that these are the lists that `parseTags` accepts. On the
other side, `Markup text tags` holds of a text that can be cut out of any document: texts that have it
are put together by `Markup.append`, and each kind of tag has its own rule.
-/

namespace Xml

/-- The words that names and values are made of. -/
abbrev Word := List Char

/-- An attribute: its name and its value. -/
abbrev Attribute := Word × Word

inductive Tag where
  /-- `<name ...>` -/
  | opening (name : Word) (attributes : List Attribute)
  /-- `<name .../>` -/
  | empty (name : Word) (attributes : List Attribute)
  /-- `</name>` -/
  | closing (name : Word)
  deriving DecidableEq, Repr

def isSpace (c : Char) : Bool := c = ' ' || c = '\t' || c = '\n' || c = '\r'

def isNameChar (c : Char) : Bool := c.isAlphanum || c = '_' || c = '-' || c = '.' || c = ':'

/-- A character that stands for itself in a value. -/
def isPlain (c : Char) : Bool := c ≠ '"' && c ≠ '<' && c ≠ '>' && c ≠ '&'

/-! ## Scanning -/

/-- Where in the markup the scanner is. -/
inductive Place where
  /-- Outside of tags, where only white space is allowed. -/
  | text
  /-- Behind a `<`. -/
  | markup
  /-- In a `<!...>`, perhaps in one of its quoted parts. -/
  | declaration (quoted : Bool)
  | openName (name : Word)
  | closeName (name : Word)
  /-- Between attributes; `spaced` if there was white space since the last one. -/
  | attributes (name : Word) (attrs : List Attribute) (spaced : Bool)
  | attributeName (name : Word) (attrs : List Attribute) (key : Word)
  /-- Behind the `=` of an attribute. -/
  | attributeQuote (name : Word) (attrs : List Attribute) (key : Word)
  | attributeValue (name : Word) (attrs : List Attribute) (key value : Word)
  /-- Behind the `/` of an empty tag. -/
  | emptyEnd (name : Word) (attrs : List Attribute)
  deriving DecidableEq, Repr

/-- Read one character; the result is the tag that it completes, if any. -/
def step : Place → Char → Option (Option Tag × Place)
  | .text, c =>
      if c = '<' then some (none, .markup) else if isSpace c then some (none, .text) else none
  | .markup, c =>
      if c = '!' then some (none, .declaration false)
      else if c = '/' then some (none, .closeName [])
      else if isNameChar c then some (none, .openName [c])
      else none
  | .declaration quoted, c =>
      if c = '"' then some (none, .declaration !quoted)
      else if c = '>' ∧ !quoted then some (none, .text)
      else some (none, .declaration quoted)
  | .openName name, c =>
      if c = '>' then some (some (.opening name []), .text)
      else if c = '/' then some (none, .emptyEnd name [])
      else if isSpace c then some (none, .attributes name [] true)
      else if isNameChar c then some (none, .openName (name ++ [c]))
      else none
  | .closeName name, c =>
      if c = '>' then some (some (.closing name), .text)
      else if isNameChar c then some (none, .closeName (name ++ [c]))
      else none
  | .attributes name attrs spaced, c =>
      if c = '>' then some (some (.opening name attrs), .text)
      else if c = '/' then some (none, .emptyEnd name attrs)
      else if isSpace c then some (none, .attributes name attrs true)
      else if isNameChar c ∧ spaced then some (none, .attributeName name attrs [c])
      else none
  | .attributeName name attrs key, c =>
      if c = '=' then some (none, .attributeQuote name attrs key)
      else if isNameChar c then some (none, .attributeName name attrs (key ++ [c]))
      else none
  | .attributeQuote name attrs key, c =>
      if c = '"' then some (none, .attributeValue name attrs key []) else none
  | .attributeValue name attrs key value, c =>
      if c = '"' then some (none, .attributes name (attrs ++ [(key, value)]) false)
      else if isPlain c then some (none, .attributeValue name attrs key (value ++ [c]))
      else none
  | .emptyEnd name attrs, c =>
      if c = '>' then some (some (.empty name attrs), .text) else none

/-- Read a text; the result is the tags in it and the place where it ends. -/
def scan : Place → List Char → Option (List Tag × Place)
  | place, [] => some ([], place)
  | place, c :: cs => do
      let (tag, place) ← step place c
      let (tags, place) ← scan place cs
      some (tag.toList ++ tags, place)

theorem scan_append {p q r : Place} {cs ds : List Char} {tags tags' : List Tag}
    (h : scan p cs = some (tags, q)) (h' : scan q ds = some (tags', r)) :
    scan p (cs ++ ds) = some (tags ++ tags', r) := by
  induction cs generalizing p tags with
  | nil =>
      cases h
      exact h'
  | cons c cs ih =>
      obtain ⟨⟨tag, m⟩, hstep, h⟩ := Option.bind_eq_some_iff.mp h
      obtain ⟨⟨ts, m'⟩, hrest, h⟩ := Option.bind_eq_some_iff.mp h
      cases h
      have hscan := ih hrest
      simp only [List.cons_append, scan, hstep, hscan, Option.bind_eq_bind, Option.bind_some,
        List.append_assoc]

/-- A character that completes no tag. -/
theorem scan_cons {p q r : Place} {c : Char} {cs : List Char} {tags : List Tag}
    (h : step p c = some (none, q)) (h' : scan q cs = some (tags, r)) :
    scan p (c :: cs) = some (tags, r) := by
  simp [scan, h, h']

/-! ## Texts that are cut out at tags -/

/-- Between tags the text begins, and between tags it ends. -/
def Markup (text : List Char) (tags : List Tag) : Prop := scan .text text = some (tags, .text)

theorem Markup.nil : Markup [] [] := rfl

theorem Markup.append {text text' : List Char} {tags tags' : List Tag} (h : Markup text tags)
    (h' : Markup text' tags') : Markup (text ++ text') (tags ++ tags') :=
  scan_append h h'

/-- White space has no tags. -/
theorem markup_space {text : List Char} (h : ∀ c ∈ text, isSpace c = true) : Markup text [] := by
  induction text with
  | nil => exact Markup.nil
  | cons c text ih =>
      have hc := h c List.mem_cons_self
      have hlt : c ≠ '<' := by
        intro heq
        subst heq
        exact absurd hc (by decide)
      refine scan_cons (q := .text) ?_ (ih fun d hd => h d (List.mem_cons_of_mem c hd))
      simp [step, hlt, hc]

/-- A name that can be written: not empty, and made of the characters of names. -/
def IsName (name : Word) : Prop := name ≠ [] ∧ ∀ c ∈ name, isNameChar c = true

/-- A value that can be written as it is. -/
def IsValue (value : Word) : Prop := ∀ c ∈ value, isPlain c = true

instance (name : Word) : Decidable (IsName name) := inferInstanceAs (Decidable (_ ∧ _))

instance (value : Word) : Decidable (IsValue value) :=
  inferInstanceAs (Decidable (∀ c ∈ value, _))

theorem isNameChar_ne {c d : Char} (h : isNameChar c = true) (hd : isNameChar d = false) :
    c ≠ d := by
  intro heq
  subst heq
  rw [h] at hd
  cases hd

theorem isPlain_ne {c d : Char} (h : isPlain c = true) (hd : isPlain d = false) : c ≠ d := by
  intro heq
  subst heq
  rw [h] at hd
  cases hd

/-- A character of a name is not white space. -/
theorem isSpace_of_isNameChar {c : Char} (h : isNameChar c = true) : isSpace c = false := by
  simp only [isSpace, Bool.or_eq_false_iff, decide_eq_false_iff_not]
  exact ⟨⟨⟨isNameChar_ne h (by decide), isNameChar_ne h (by decide)⟩,
    isNameChar_ne h (by decide)⟩, isNameChar_ne h (by decide)⟩

section Pieces

variable {name key value more : Word} {attrs : List Attribute}

theorem scan_openName (h : ∀ c ∈ more, isNameChar c = true) :
    scan (.openName name) more = some ([], .openName (name ++ more)) := by
  induction more generalizing name with
  | nil => rw [List.append_nil]; rfl
  | cons c more ih =>
      have hc := h c List.mem_cons_self
      have hrest : scan (.openName (name ++ [c])) more =
          some ([], .openName (name ++ [c] ++ more)) :=
        ih fun d hd => h d (List.mem_cons_of_mem c hd)
      rw [List.append_assoc] at hrest
      refine scan_cons ?_ hrest
      simp [step, isNameChar_ne hc (d := '>') (by decide), isNameChar_ne hc (d := '/') (by decide),
        isSpace_of_isNameChar hc, hc]

theorem scan_closeName (h : ∀ c ∈ more, isNameChar c = true) :
    scan (.closeName name) more = some ([], .closeName (name ++ more)) := by
  induction more generalizing name with
  | nil => rw [List.append_nil]; rfl
  | cons c more ih =>
      have hc := h c List.mem_cons_self
      have hrest : scan (.closeName (name ++ [c])) more =
          some ([], .closeName (name ++ [c] ++ more)) :=
        ih fun d hd => h d (List.mem_cons_of_mem c hd)
      rw [List.append_assoc] at hrest
      refine scan_cons ?_ hrest
      simp [step, isNameChar_ne hc (d := '>') (by decide), hc]

theorem scan_attributeName (h : ∀ c ∈ more, isNameChar c = true) :
    scan (.attributeName name attrs key) more =
      some ([], .attributeName name attrs (key ++ more)) := by
  induction more generalizing key with
  | nil => rw [List.append_nil]; rfl
  | cons c more ih =>
      have hc := h c List.mem_cons_self
      have hrest : scan (.attributeName name attrs (key ++ [c])) more =
          some ([], .attributeName name attrs (key ++ [c] ++ more)) :=
        ih fun d hd => h d (List.mem_cons_of_mem c hd)
      rw [List.append_assoc] at hrest
      refine scan_cons ?_ hrest
      simp [step, isNameChar_ne hc (d := '=') (by decide), hc]

theorem scan_attributeValue (h : IsValue more) :
    scan (.attributeValue name attrs key value) more =
      some ([], .attributeValue name attrs key (value ++ more)) := by
  induction more generalizing value with
  | nil => rw [List.append_nil]; rfl
  | cons c more ih =>
      have hc := h c List.mem_cons_self
      have hrest : scan (.attributeValue name attrs key (value ++ [c])) more =
          some ([], .attributeValue name attrs key (value ++ [c] ++ more)) :=
        ih fun d hd => h d (List.mem_cons_of_mem c hd)
      rw [List.append_assoc] at hrest
      refine scan_cons ?_ hrest
      simp [step, isPlain_ne hc (d := '"') (by decide), hc]

/-- ` key="value"` -/
def attributeText (attr : Attribute) : List Char :=
  ' ' :: (attr.1 ++ '=' :: '"' :: (attr.2 ++ ['"']))

/-- What may stand behind the name of an element. -/
def IsAttribute (attr : Attribute) : Prop := IsName attr.1 ∧ IsValue attr.2

instance (attr : Attribute) : Decidable (IsAttribute attr) :=
  inferInstanceAs (Decidable (_ ∧ _))

theorem scan_attributeText {attr : Attribute} (h : IsAttribute attr) (spaced : Bool) :
    scan (.attributes name attrs spaced) (attributeText attr) =
      some ([], .attributes name (attrs ++ [attr]) false) := by
  obtain ⟨key, value⟩ := attr
  obtain ⟨⟨hne, hkey⟩, hvalue⟩ := h
  cases key with
  | nil => exact absurd rfl hne
  | cons c key =>
      have hc : isNameChar c = true := hkey c List.mem_cons_self
      have hfirst : step (.attributes name attrs true) c =
          some (none, .attributeName name attrs [c]) := by
        simp [step, isNameChar_ne hc (d := '>') (by decide),
          isNameChar_ne hc (d := '/') (by decide), isSpace_of_isNameChar hc, hc]
      have hname : scan (.attributeName name attrs [c]) key =
          some ([], .attributeName name attrs (c :: key)) :=
        scan_attributeName fun d hd => hkey d (List.mem_cons_of_mem c hd)
      have hval : scan (.attributeValue name attrs (c :: key) []) value =
          some ([], .attributeValue name attrs (c :: key) value) :=
        scan_attributeValue hvalue
      have hquote : scan (.attributeValue name attrs (c :: key) value) ['"'] =
          some ([], .attributes name (attrs ++ [(c :: key, value)]) false) := rfl
      have hend := scan_append hval hquote
      refine scan_cons (q := .attributes name attrs true) rfl (scan_cons hfirst ?_)
      refine scan_append hname (scan_cons (q := .attributeQuote name attrs (c :: key)) rfl ?_)
      exact scan_cons rfl hend

theorem scan_attributeTexts {more : List Attribute} (h : ∀ a ∈ more, IsAttribute a)
    (spaced : Bool) :
    ∃ spaced', scan (.attributes name attrs spaced) (more.flatMap attributeText) =
      some ([], .attributes name (attrs ++ more) spaced') := by
  induction more generalizing attrs spaced with
  | nil => exact ⟨spaced, by rw [List.append_nil]; rfl⟩
  | cons a more ih =>
      obtain ⟨spaced', hrest⟩ : ∃ spaced',
          scan (.attributes name (attrs ++ [a]) false) (more.flatMap attributeText) =
            some ([], .attributes name (attrs ++ [a] ++ more) spaced') :=
        ih (fun b hb => h b (List.mem_cons_of_mem a hb)) false
      rw [List.append_assoc] at hrest
      exact ⟨spaced', scan_append (scan_attributeText (h a List.mem_cons_self) spaced) hrest⟩

end Pieces

/-! ## Declarations -/

/-- A declaration, with each of its quoted parts and what stands before it. -/
def declarationText (parts : List (List Char × List Char)) : List Char :=
  '<' :: '!' :: (parts.flatMap (fun part => part.1 ++ '"' :: (part.2 ++ ['"'])) ++ ['>'])

theorem scan_declaration {quoted : Bool} {text : List Char}
    (h : ∀ c ∈ text, c ≠ '"' ∧ (c = '>' → quoted = true)) :
    scan (.declaration quoted) text = some ([], .declaration quoted) := by
  induction text with
  | nil => rfl
  | cons c text ih =>
      obtain ⟨hquote, hend⟩ := h c List.mem_cons_self
      have hstep : step (.declaration quoted) c = some (none, .declaration quoted) := by
        have hopen : ¬ (c = '>' ∧ !quoted) := fun ⟨he, hq⟩ => by simp [hend he] at hq
        simp only [step, if_neg hquote, if_neg hopen]
      exact scan_cons hstep (ih fun d hd => h d (List.mem_cons_of_mem c hd))

/-- A declaration has no tags. -/
theorem markup_declaration {parts : List (List Char × List Char)}
    (h : ∀ part ∈ parts, (∀ c ∈ part.1, c ≠ '"' ∧ c ≠ '>') ∧ ∀ c ∈ part.2, c ≠ '"') :
    Markup (declarationText parts) [] := by
  have hparts : scan (.declaration false)
      (parts.flatMap fun part => part.1 ++ '"' :: (part.2 ++ ['"'])) =
        some ([], .declaration false) := by
    induction parts with
    | nil => rfl
    | cons part parts ih =>
        obtain ⟨hplain, hquoted⟩ := h part List.mem_cons_self
        have hbefore : scan (.declaration false) part.1 = some ([], .declaration false) :=
          scan_declaration fun c hc => ⟨(hplain c hc).1, fun he => absurd he (hplain c hc).2⟩
        have hpart : scan (.declaration true) part.2 = some ([], .declaration true) :=
          scan_declaration fun c hc => ⟨hquoted c hc, fun _ => rfl⟩
        have hclose : scan (.declaration true) ['"'] = some ([], .declaration false) := rfl
        exact scan_append
          (scan_append hbefore (scan_cons (q := .declaration true) rfl (scan_append hpart hclose)))
          (ih fun p hp => h p (List.mem_cons_of_mem part hp))
  have hend : scan (.declaration false) ['>'] = some ([], .text) := rfl
  exact scan_cons (q := .markup) rfl
    (scan_cons (q := .declaration false) rfl (scan_append hparts hend))

/-! ## Tags -/

def openingText (name : Word) (attrs : List Attribute) : List Char :=
  '<' :: (name ++ attrs.flatMap attributeText ++ ['>'])

def emptyText (name : Word) (attrs : List Attribute) : List Char :=
  '<' :: (name ++ attrs.flatMap attributeText ++ ['/', '>'])

def closingText (name : Word) : List Char := '<' :: '/' :: (name ++ ['>'])

section Tags

variable {name : Word} {attrs : List Attribute}

/-- A name, as far as the first attribute. -/
theorem scan_tagName (h : IsName name) (rest : List Char) {tags : List Tag}
    (hrest : scan (.openName name) rest = some (tags, .text)) :
    Markup ('<' :: (name ++ rest)) tags := by
  obtain ⟨hne, hname⟩ := h
  cases name with
  | nil => exact absurd rfl hne
  | cons c name =>
      have hc := hname c List.mem_cons_self
      have hfirst : step .markup c = some (none, .openName [c]) := by
        simp [step, isNameChar_ne hc (d := '!') (by decide),
          isNameChar_ne hc (d := '/') (by decide), hc]
      have hmore : scan (.openName [c]) name = some ([], .openName (c :: name)) :=
        scan_openName fun d hd => hname d (List.mem_cons_of_mem c hd)
      exact scan_cons (q := .markup) rfl (scan_cons hfirst (scan_append hmore hrest))

/-- The attributes of a tag, and what closes it. -/
theorem scan_tagEnd (h : ∀ a ∈ attrs, IsAttribute a) {close : List Char} {tags : List Tag}
    (hnone : attrs = [] → scan (.openName name) close = some (tags, .text))
    (hsome : ∀ spaced, scan (.attributes name attrs spaced) close = some (tags, .text)) :
    scan (.openName name) (attrs.flatMap attributeText ++ close) = some (tags, .text) := by
  cases attrs with
  | nil => exact hnone rfl
  | cons a attrs =>
      -- the white space before the first attribute ends the name
      have hspace : scan (.openName name) ((a :: attrs).flatMap attributeText ++ close) =
          scan (.attributes name [] true) ((a :: attrs).flatMap attributeText ++ close) := rfl
      obtain ⟨spaced, hattrs⟩ : ∃ spaced,
          scan (.attributes name [] true) ((a :: attrs).flatMap attributeText) =
            some ([], .attributes name (a :: attrs) spaced) := scan_attributeTexts h true
      rw [hspace]
      exact scan_append hattrs (hsome spaced)

theorem markup_opening (hname : IsName name) (h : ∀ a ∈ attrs, IsAttribute a) :
    Markup (openingText name attrs) [.opening name attrs] := by
  unfold openingText
  rw [List.append_assoc]
  refine scan_tagName hname _ (scan_tagEnd h ?_ fun spaced => rfl)
  intro heq
  subst heq
  rfl

theorem markup_empty (hname : IsName name) (h : ∀ a ∈ attrs, IsAttribute a) :
    Markup (emptyText name attrs) [.empty name attrs] := by
  unfold emptyText
  rw [List.append_assoc]
  refine scan_tagName hname _ (scan_tagEnd h ?_ fun spaced => rfl)
  intro heq
  subst heq
  rfl

theorem markup_closing (hname : IsName name) : Markup (closingText name) [.closing name] := by
  have hscan : scan (.closeName []) name = some ([], .closeName name) := scan_closeName hname.2
  have hend : scan (.closeName name) ['>'] = some ([.closing name], .text) := rfl
  exact scan_cons (q := .markup) rfl (scan_cons (q := .closeName []) rfl (scan_append hscan hend))

end Tags

/-! ## Nesting -/

/-- Elements side by side: the first one, what is in it, and those behind it. -/
inductive Forest where
  | nil
  | element (name : Word) (attrs : List Attribute) (children rest : Forest)
  deriving DecidableEq, Repr

/-- An element by itself: its name, its attributes and its content. -/
abbrev Element := Word × List Attribute × Forest

namespace Forest

def append : Forest → Forest → Forest
  | nil, g => g
  | element name attrs children rest, g => element name attrs children (rest.append g)

@[simp] theorem append_nil (f : Forest) : f.append nil = f := by
  induction f with
  | nil => rfl
  | element name attrs children rest _ ih => rw [append, ih]

theorem append_assoc (f g h : Forest) : (f.append g).append h = f.append (g.append h) := by
  induction f with
  | nil => rfl
  | element name attrs children rest _ ih => rw [append, append, append, ih]

/-- The elements, from left to right. -/
def elements : Forest → List Element
  | nil => []
  | element name attrs children rest => (name, attrs, children) :: rest.elements

/-- The forest of these elements. -/
def ofElements : List Element → Forest
  | [] => nil
  | (name, attrs, children) :: rest => element name attrs children (ofElements rest)

@[simp] theorem elements_ofElements (es : List Element) : (ofElements es).elements = es := by
  induction es with
  | nil => rfl
  | cons e es ih => rw [ofElements, elements, ih]

theorem ofElements_append (es es' : List Element) :
    ofElements (es ++ es') = (ofElements es).append (ofElements es') := by
  induction es with
  | nil => rfl
  | cons e es ih => rw [List.cons_append, ofElements, ofElements, append, ih]

end Forest

/-- The tags close what they open, and this is what is in them. -/
inductive WellNested : List Tag → Forest → Prop where
  | nil : WellNested [] .nil
  | empty {name attrs ts f} (hrest : WellNested ts f) :
      WellNested (.empty name attrs :: ts) (.element name attrs .nil f)
  | element {name attrs ts us f g} (hchildren : WellNested ts f) (hrest : WellNested us g) :
      WellNested (.opening name attrs :: (ts ++ .closing name :: us)) (.element name attrs f g)

theorem WellNested.append {ts us : List Tag} {f g : Forest} (hf : WellNested ts f)
    (hg : WellNested us g) : WellNested (ts ++ us) (f.append g) := by
  induction hf with
  | nil => exact hg
  | empty _ ih => exact .empty ih
  | element hchildren _ _ ih =>
      rw [List.cons_append, List.append_assoc, List.cons_append]
      exact .element hchildren ih

/-- An element that is still open: its name, its attributes and what stands before it. -/
abbrev Frame := Word × List Attribute × Forest

/-- Match the tags; `done` is what stands before them in the innermost open element. -/
def parseTags : List Frame → Forest → List Tag → Option Forest
  | [], done, [] => some done
  | _ :: _, _, [] => none
  | frames, done, .opening name attrs :: ts => parseTags ((name, attrs, done) :: frames) .nil ts
  | frames, done, .empty name attrs :: ts =>
      parseTags frames (done.append (.element name attrs .nil .nil)) ts
  | [], _, .closing _ :: _ => none
  | (name, attrs, before) :: frames, done, .closing name' :: ts =>
      if name' = name then parseTags frames (before.append (.element name attrs done .nil)) ts
      else none

/-- What is well nested is passed over, and its elements are kept. -/
theorem parseTags_append {ts : List Tag} {f : Forest} (h : WellNested ts f) (frames : List Frame)
    (done : Forest) (us : List Tag) :
    parseTags frames done (ts ++ us) = parseTags frames (done.append f) us := by
  induction h generalizing frames done us with
  | nil => rw [Forest.append_nil]; rfl
  | @empty name attrs ts f _ ih =>
      have hstep : parseTags frames done (.empty name attrs :: ts ++ us) =
          parseTags frames (done.append (.element name attrs .nil .nil)) (ts ++ us) := by
        cases frames <;> rfl
      rw [hstep, ih, Forest.append_assoc]
      rfl
  | @element name attrs ts us' f g _ _ ihc ihr =>
      have hstep : parseTags frames done (.opening name attrs :: (ts ++ .closing name :: us') ++ us) =
          parseTags ((name, attrs, done) :: frames) .nil (ts ++ .closing name :: (us' ++ us)) := by
        simp only [List.cons_append, List.append_assoc]
        cases frames <;> rfl
      rw [hstep, ihc, parseTags, if_pos rfl, ihr, Forest.append_assoc]
      rfl

/-- How a list of tags that the parser accepts goes on behind the elements at its front: it ends, or it
closes the innermost open element. -/
inductive Resumes (result : Forest) : List Frame → Forest → List Tag → Prop where
  | done {done} (h : result = done) : Resumes result [] done []
  | close {name attrs before frames done ts}
      (h : parseTags frames (before.append (.element name attrs done .nil)) ts = some result) :
      Resumes result ((name, attrs, before) :: frames) done (.closing name :: ts)

theorem parseTags_resumes {result : Forest} : ∀ (n : Nat) (ts : List Tag) (frames : List Frame)
    (done : Forest), ts.length < n → parseTags frames done ts = some result →
      ∃ us f rest, ts = us ++ rest ∧ WellNested us f ∧
        Resumes result frames (done.append f) rest := by
  intro n
  induction n with
  | zero => intro ts frames done hlen; omega
  | succ n ih =>
      intro ts frames done hlen h
      cases ts with
      | nil =>
          cases frames with
          | nil =>
              refine ⟨[], .nil, [], rfl, .nil, .done ?_⟩
              rw [Forest.append_nil]
              exact (Option.some.inj h).symm
          | cons frame frames => cases h
      | cons t ts =>
          have hts : ts.length < n := Nat.lt_of_succ_lt_succ hlen
          cases t with
          | opening name attrs =>
              have h' : parseTags ((name, attrs, done) :: frames) .nil ts = some result := by
                cases frames <;> exact h
              obtain ⟨us, f, rest, rfl, hf, hrest⟩ := ih ts _ _ hts h'
              cases hrest with
              | @close _ _ _ _ _ vs hvs =>
                  have hlt : vs.length < n := by
                    simp only [List.length_append, List.length_cons] at hts
                    omega
                  obtain ⟨us', f', rest', rfl, hf', hrest'⟩ := ih vs _ _ hlt hvs
                  rw [Forest.append_assoc] at hrest'
                  exact ⟨_, _, rest', by simp, .element hf hf', hrest'⟩
          | empty name attrs =>
              have h' : parseTags frames (done.append (.element name attrs .nil .nil)) ts =
                  some result := by
                cases frames <;> exact h
              obtain ⟨us, f, rest, rfl, hf, hrest⟩ := ih ts _ _ hts h'
              rw [Forest.append_assoc] at hrest
              exact ⟨_, _, rest, rfl, .empty hf, hrest⟩
          | closing name =>
              cases frames with
              | nil => cases h
              | cons frame frames =>
                  obtain ⟨name', attrs, before⟩ := frame
                  rw [parseTags] at h
                  obtain ⟨rfl, h⟩ := Option.ite_none_right_eq_some.mp h
                  refine ⟨[], .nil, _, rfl, .nil, .close ?_⟩
                  rwa [Forest.append_nil]

/-- **The parser accepts what is well nested.** -/
theorem parseTags_eq_some_iff {ts : List Tag} {f : Forest} :
    parseTags [] .nil ts = some f ↔ WellNested ts f := by
  constructor
  · intro h
    obtain ⟨us, g, rest, rfl, hg, hrest⟩ := parseTags_resumes (ts.length + 1) ts [] .nil
      (Nat.lt_succ_self _) h
    cases hrest with
    | done hf =>
        rw [List.append_nil, hf]
        exact hg
  · intro h
    have hparse := parseTags_append h [] .nil []
    rw [List.append_nil] at hparse
    exact hparse

/-- The elements of a document. -/
def parse (text : List Char) : Option Forest := do
  let (tags, place) ← scan .text text
  if place = .text then parseTags [] .nil tags else none

/-- **A text is accepted when it consists of tags that are well nested.** -/
theorem parse_eq_some_iff {text : List Char} {f : Forest} :
    parse text = some f ↔ ∃ tags, Markup text tags ∧ WellNested tags f := by
  unfold parse Markup
  rw [Option.bind_eq_bind, Option.bind_eq_some_iff]
  constructor
  · intro hex
    obtain ⟨⟨tags, place⟩, hscan, h⟩ := hex
    obtain ⟨rfl, h⟩ := Option.ite_none_right_eq_some.mp h
    exact ⟨tags, hscan, parseTags_eq_some_iff.mp h⟩
  · intro hex
    obtain ⟨tags, hscan, h⟩ := hex
    exact ⟨_, hscan, Option.ite_none_right_eq_some.mpr ⟨rfl, parseTags_eq_some_iff.mpr h⟩⟩

end Xml
