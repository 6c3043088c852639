import Mathlib.Data.List.Forall2
import Remodel.Markup.Construct

/-!
# Markup as it is written

The ways of writing texts, attributes and elements, described without their reader: what is written
may use either quotation mark, names for characters that need none, blanks between the parts of a
tag and around elements, and one tag or two for an element without content.

`escape`, `writeAttributes` and `writeElement` are one way of writing.
-/

namespace Remodel.Markup

/-! ## Names and blanks -/

/-- Whether a character may occur in the names that are written. -/
def isNameChar (c : Char) : Bool := c.isAlphanum || c = '-'

/-- A name of letters, digits and hyphens. -/
def IsName (name : String) : Prop := name ≠ "" ∧ ∀ c ∈ name.toList, isNameChar c = true

instance : DecidablePred IsName := fun _ =>
  decidable_of_iff _ (and_congr_right' List.all_eq_true)

theorem ne_of_isNameChar {c d : Char} (hc : isNameChar c = true) (hd : isNameChar d = false) :
    c ≠ d := by
  rintro rfl
  rw [hd] at hc
  cases hc

theorem isBlank_eq_false_of_isNameChar {c : Char} (hc : isNameChar c = true) :
    isBlank c = false := by
  have hspace : c ≠ ' ' := ne_of_isNameChar hc rfl
  have htab : c ≠ '\t' := ne_of_isNameChar hc rfl
  have hline : c ≠ '\n' := ne_of_isNameChar hc rfl
  have hreturn : c ≠ '\r' := ne_of_isNameChar hc rfl
  simp [isBlank, hspace, htab, hline, hreturn]

theorem IsName.exists_cons {name : String} (h : IsName name) :
    ∃ first rest, name.toList = first :: rest ∧ isNameChar first = true ∧
      ∀ c ∈ rest, isNameChar c = true := by
  obtain ⟨hne, hchars⟩ := h
  cases hname : name.toList with
  | nil => exact absurd (String.toList_eq_nil_iff.mp hname) hne
  | cons first rest =>
      rw [hname] at hchars
      obtain ⟨hfirst, hrest⟩ := List.forall_mem_cons.mp hchars
      exact ⟨first, rest, rfl, hfirst, hrest⟩

/-- A text of nothing but blanks. -/
def Blank (text : List Char) : Prop := ∀ c ∈ text, isBlank c = true

instance : DecidablePred Blank := fun _ => decidable_of_iff _ List.all_eq_true

theorem ne_of_isBlank {c d : Char} (hc : isBlank c = true) (hd : isBlank d = false) : c ≠ d := by
  rintro rfl
  rw [hd] at hc
  cases hc

/-! ## Texts -/

/-- The names that stand for characters. -/
def predefined : List (String × Char) :=
  [("lt", '<'), ("gt", '>'), ("amp", '&'), ("apos", '\''), ("quot", '"')]

/-- Ways of writing a text: a character stands for itself or is referred to by its name, which an
ampersand and an opening bracket always are. -/
inductive Escaped : List Char → List Char → Prop
  | nil : Escaped [] []
  | plain {c : Char} {written text : List Char} (hampersand : c ≠ '&') (hbracket : c ≠ '<')
      (h : Escaped written text) : Escaped (c :: written) (c :: text)
  | reference {name : String} {c : Char} {written text : List Char}
      (hname : (name, c) ∈ predefined) (h : Escaped written text) :
      Escaped ('&' :: (name.toList ++ ';' :: written)) (c :: text)

theorem Escaped.not_mem_bracket {written text : List Char} (h : Escaped written text) :
    '<' ∉ written := by
  induction h with
  | nil => exact List.not_mem_nil
  | plain _ hbracket _ ih => simp [Ne.symm hbracket, ih]
  | reference hname _ ih =>
      have hentry : ∀ entry ∈ predefined, '<' ∉ entry.1.toList := by decide
      simpa [ih] using hentry _ hname

theorem escaped_of_blank {s : List Char} (hs : Blank s) : Escaped s s := by
  induction s with
  | nil => exact Escaped.nil
  | cons c rest ih =>
      obtain ⟨hc, hrest⟩ := List.forall_mem_cons.mp hs
      exact Escaped.plain (ne_of_isBlank hc rfl) (ne_of_isBlank hc rfl) (ih hrest)

/-! ## Attributes -/

/-- Ways of writing the attributes of a tag, behind its name. -/
inductive WritesAttributes : List (String × String) → List Char → Prop
  | nil {s : List Char} (hs : Blank s) : WritesAttributes [] s
  | cons {name value : String} {rest : List (String × String)} {s written text : List Char}
      {quote : Char} (hs : Blank s) (hne : s ≠ []) (hname : IsName name)
      (hquote : quote = '"' ∨ quote = '\'') (hwritten : Escaped written value.toList)
      (hclosed : quote ∉ written) (h : WritesAttributes rest text) :
      WritesAttributes ((name, value) :: rest)
        (s ++ (name.toList ++ '=' :: quote :: (written ++ quote :: text)))

theorem WritesAttributes.head_isBlank {attributes : List (String × String)} {text : List Char}
    (h : WritesAttributes attributes text) : ∀ c ∈ text.head?, isBlank c = true := by
  cases h with
  | nil hs => exact fun c hc => hs c (List.mem_of_mem_head? hc)
  | cons hs hne =>
      intro c hc
      rw [List.head?_append_of_ne_nil _ hne] at hc
      exact hs c (List.mem_of_mem_head? hc)

theorem WritesAttributes.getLast?_ne {attributes : List (String × String)} {text : List Char}
    (h : WritesAttributes attributes text) : text.getLast? ≠ some '/' := by
  induction h with
  | nil hs => exact fun hlast => ne_of_isBlank (hs _ (List.mem_of_getLast? hlast)) rfl rfl
  | @cons name _ _ s written text quote _ _ _ hquote _ _ _ ih =>
      have hsplit : s ++ (name.toList ++ '=' :: quote :: (written ++ quote :: text)) =
          (s ++ name.toList ++ '=' :: quote :: written) ++ quote :: text := by simp
      rw [hsplit, List.getLast?_append_of_ne_nil _ (List.cons_ne_nil _ _)]
      cases text with
      | nil => rcases hquote with rfl | rfl <;> decide
      | cons c tail => rwa [List.getLast?_cons_cons]

/-! ## Elements -/

/-- An opening tag. -/
def openTag (name : String) (attributes : List Char) : List Char :=
  '<' :: (name.toList ++ attributes ++ ['>'])

/-- The tag of an element without content. -/
def emptyTag (name : String) (attributes : List Char) : List Char :=
  '<' :: (name.toList ++ attributes ++ ['/', '>'])

/-- A closing tag. -/
def closeTag (name : String) (s : List Char) : List Char :=
  '<' :: '/' :: (name.toList ++ s ++ ['>'])

/-- Ways of writing an element of a name with the given attributes and a content of some form. -/
inductive WritesElement (name : String) (attributes : List (String × String))
    (Content : List Char → Prop) : List Char → Prop
  | paired {a content s : List Char} (ha : WritesAttributes attributes a)
      (hcontent : Content content) (hs : Blank s) :
      WritesElement name attributes Content (openTag name a ++ content ++ closeTag name s)
  | empty {a : List Char} (ha : WritesAttributes attributes a) (hcontent : Content []) :
      WritesElement name attributes Content (emptyTag name a)

/-- Ways of writing several things that begin with a tag, with blanks around them. -/
inductive Spaced : List (List Char → Prop) → List Char → Prop
  | nil {s : List Char} (hs : Blank s) : Spaced [] s
  | cons {Item : List Char → Prop} {items : List (List Char → Prop)} {s text more : List Char}
      (hs : Blank s) (hitem : Item ('<' :: text)) (h : Spaced items more) :
      Spaced (Item :: items) (s ++ '<' :: text ++ more)

/-- An instruction at the front of a document, such as the one that tells its version. -/
def IsDeclaration (text : List Char) : Prop :=
  ∃ content, content ≠ [] ∧ '>' ∉ content ∧ text = '<' :: '?' :: (content ++ ['?', '>'])

/-! ## One way of writing -/

/-- The text with every character that has a name referred to by it. -/
def escape (text : List Char) : List Char :=
  text.flatMap fun c =>
    match predefined.find? fun entry => entry.2 = c with
    | some entry => '&' :: (entry.1.toList ++ [';'])
    | none => [c]

theorem escape_cons (c : Char) (text : List Char) :
    (∃ name, (name, c) ∈ predefined ∧
      escape (c :: text) = '&' :: (name.toList ++ ';' :: escape text)) ∨
    (∀ name, (name, c) ∉ predefined) ∧ escape (c :: text) = c :: escape text := by
  rw [escape, List.flatMap_cons]
  cases hfound : predefined.find? fun entry => entry.2 = c with
  | some entry =>
      obtain ⟨name, own⟩ := entry
      obtain rfl : own = c := by simpa using List.find?_some hfound
      refine Or.inl ⟨name, List.mem_of_find?_eq_some hfound, ?_⟩
      simp [escape]
  | none =>
      refine Or.inr ⟨fun name hmem => ?_, rfl⟩
      simpa using List.find?_eq_none.mp hfound _ hmem

theorem escaped_escape (text : List Char) : Escaped (escape text) text := by
  induction text with
  | nil => exact Escaped.nil
  | cons c rest ih =>
      rcases escape_cons c rest with ⟨name, hname, hescape⟩ | ⟨hnone, hescape⟩
      · rw [hescape]
        exact Escaped.reference hname ih
      · rw [hescape]
        refine Escaped.plain ?_ ?_ ih
        · rintro rfl
          exact hnone "amp" (by decide)
        · rintro rfl
          exact hnone "lt" (by decide)

theorem quote_not_mem_escape (text : List Char) : '"' ∉ escape text := by
  induction text with
  | nil => exact List.not_mem_nil
  | cons c rest ih =>
      rcases escape_cons c rest with ⟨name, hname, hescape⟩ | ⟨hnone, hescape⟩
      · have hnames : ∀ entry ∈ predefined, '"' ∉ entry.1.toList := by decide
        simpa [hescape, ih] using hnames _ hname
      · rw [hescape]
        refine List.not_mem_cons_of_ne_of_not_mem ?_ ih
        rintro rfl
        exact hnone "quot" (by decide)

/-- Attributes, each behind a space and with its value in double quotes. -/
def writeAttributes (attributes : List (String × String)) : List Char :=
  attributes.flatMap fun entry =>
    ' ' :: (entry.1.toList ++ '=' :: '"' :: (escape entry.2.toList ++ ['"']))

theorem writesAttributes_write {attributes : List (String × String)}
    (hnames : ∀ entry ∈ attributes, IsName entry.1) :
    WritesAttributes attributes (writeAttributes attributes) := by
  induction attributes with
  | nil => exact WritesAttributes.nil (by decide)
  | cons entry rest ih =>
      obtain ⟨name, value⟩ := entry
      obtain ⟨hname, hrest⟩ := List.forall_mem_cons.mp hnames
      have hwritten := WritesAttributes.cons (s := [' ']) (by decide) (by decide) hname
        (Or.inl rfl) (escaped_escape value.toList) (quote_not_mem_escape _) (ih hrest)
      simpa [writeAttributes] using hwritten

/-- An element with its two tags. -/
def writeElement (name : String) (attributes : List (String × String)) (content : List Char) :
    List Char :=
  openTag name (writeAttributes attributes) ++ content ++ closeTag name []

theorem writesElement_write {name : String} {attributes : List (String × String)}
    {Content : List Char → Prop} {content : List Char}
    (hnames : ∀ entry ∈ attributes, IsName entry.1) (hcontent : Content content) :
    WritesElement name attributes Content (writeElement name attributes content) :=
  WritesElement.paired (writesAttributes_write hnames) hcontent (by decide)

/-- Elements on lines of their own. -/
def writeLines (elements : List (List Char)) : List Char :=
  elements.flatMap (fun text => '\n' :: text) ++ ['\n']

theorem spaced_writeLines {items : List (List Char → Prop)} {elements : List (List Char)}
    (h : List.Forall₂ (fun Item text => Item text ∧ text.head? = some '<') items elements) :
    Spaced items (writeLines elements) := by
  induction h with
  | nil => exact Spaced.nil (by decide)
  | @cons Item text items elements hfirst _ ih =>
      obtain ⟨hitem, hhead⟩ := hfirst
      obtain ⟨tail, rfl⟩ := List.head?_eq_some_iff.mp hhead
      have hspaced := Spaced.cons (s := ['\n']) (by decide) hitem ih
      simpa [writeLines] using hspaced

end Remodel.Markup
