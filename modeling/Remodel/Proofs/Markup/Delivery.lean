import Mathlib.Data.List.TakeWhile
import Remodel.Markup.Event
import Remodel.Proofs.Markup.Grammar

/-!
# What a reader meets in markup

`Delivers` says which events a text gives wherever it stands in a document, which makes it something
that can be put together: from the events of what stands in an element come those of the element
(`delivers_element`).  A text ends only at the next tag, so that what may follow is a part of the
statement.

The parts of a tag are read back as they were written: a text that is escaped (`decode?_escaped`),
and the attributes (`attributes_of_written`).
-/

namespace Remodel.Markup

/-! ## Texts -/

theorem decodeFrom_append (reference name written : List Char)
    (hsemicolon : ';' ∉ name) (hampersand : '&' ∉ name) :
    decodeFrom (some reference) (name ++ ';' :: written) = do
      let c ← character? (reference.reverse ++ name)
      return c :: (← decodeFrom none written) := by
  induction name generalizing reference with
  | nil => simp [decodeFrom]
  | cons first rest ih =>
      rw [List.mem_cons, not_or] at hsemicolon hampersand
      rw [List.cons_append, decodeFrom, ih _ hsemicolon.2 hampersand.2]
      · simp
      · exact Ne.symm hsemicolon.1
      · exact Ne.symm hampersand.1

theorem decode?_escaped {written text : List Char} (h : Escaped written text) :
    decode? written = some text := by
  rw [decode?]
  induction h with
  | nil => rfl
  | plain hampersand _ _ ih =>
      rw [decodeFrom, ih]
      · rfl
      · exact hampersand
  | @reference name c written text hname _ ih =>
      have hentry : ∀ entry ∈ predefined, ';' ∉ entry.1.toList ∧ '&' ∉ entry.1.toList ∧
          character? entry.1.toList = some entry.2 := by decide
      obtain ⟨hsemicolon, hampersand, hcharacter⟩ := hentry (name, c) hname
      rw [decodeFrom, decodeFrom_append [] name.toList written hsemicolon hampersand,
        List.reverse_nil, List.nil_append, hcharacter, ih]
      rfl

/-! ## Attributes -/

theorem IsName.localName_eq {name : String} (h : IsName name) :
    String.ofList (localName name.toList) = name := by
  have hcolon : name.toList.contains ':' = false := by
    rw [Bool.eq_false_iff]
    intro hmem
    exact ne_of_isNameChar (h.2 ':' (List.contains_iff_mem.mp hmem)) rfl rfl
  rw [localName, hcolon, if_neg Bool.false_ne_true, String.ofList_toList]

theorem skipBlanks_append {s text : List Char} (hs : Blank s) :
    skipBlanks (s ++ text) = skipBlanks text :=
  List.dropWhile_append_of_pos hs

theorem skipBlanks_cons {c : Char} (hc : isBlank c = false) (text : List Char) :
    skipBlanks (c :: text) = c :: text := by
  rw [skipBlanks, List.dropWhile_cons_of_neg (by simp [hc])]

theorem upTo_append {mark : Char} {before after : List Char} (h : mark ∉ before) :
    upTo mark (before ++ mark :: after) = (before, after) := by
  have hbefore : ∀ c ∈ before, decide (c ≠ mark) = true := fun c hc =>
    decide_eq_true fun heq => h (heq ▸ hc)
  rw [upTo, List.takeWhile_append_of_pos hbefore, List.dropWhile_append_of_pos hbefore]
  simp

theorem attribute?_of_written {name : String} {written text : List Char} {quote : Char}
    (hname : IsName name) (hquote : quote = '"' ∨ quote = '\'') (hclosed : quote ∉ written) :
    attribute? (name.toList ++ '=' :: quote :: (written ++ quote :: text)) =
      some (name.toList, written, text) := by
  obtain ⟨first, rest, hchars, -, hrest⟩ := hname.exists_cons
  have hofName : ∀ c ∈ rest, (decide (c ≠ '=') && !isBlank c) = true := by
    intro c hc
    have hequal : c ≠ '=' := ne_of_isNameChar (hrest c hc) rfl
    simp [hequal, isBlank_eq_false_of_isNameChar (hrest c hc)]
  have hblank : isBlank quote = false := by
    rcases hquote with rfl | rfl <;> rfl
  have hquoted : (decide (quote = '"') || decide (quote = '\'')) = true := by
    rcases hquote with rfl | rfl <;> rfl
  rw [hchars, List.cons_append, attribute?]
  simp only [List.dropWhile_append_of_pos hofName, List.takeWhile_append_of_pos hofName]
  rw [List.dropWhile_cons_of_neg (by simp), skipBlanks_cons rfl]
  simp only [skipBlanks_cons hblank, hquoted, upTo_append hclosed]
  simp

theorem readAttributes_of_written {attributes : List (String × String)} {text : List Char}
    (h : WritesAttributes attributes text) (hnames : (attributes.map Prod.fst).Nodup)
    {earlier : List (List Char)}
    (hearlier : ∀ name ∈ attributes.map Prod.fst, name.toList ∉ earlier) :
    readAttributes earlier text = .ok attributes := by
  induction h generalizing earlier with
  | @nil s hs =>
      have hskipped : skipBlanks s = [] := List.dropWhile_eq_nil_iff.mpr hs
      rw [readAttributes, hskipped]
      rfl
  | @cons name value rest s written text quote hs _ hname hquote hwritten hclosed _ ih =>
      obtain ⟨hfresh, hrest⟩ := List.nodup_cons.mp hnames
      obtain ⟨first, tail, hchars, hfirst, -⟩ := hname.exists_cons
      have hskipped :
          skipBlanks (s ++ (name.toList ++ '=' :: quote :: (written ++ quote :: text))) =
            name.toList ++ '=' :: quote :: (written ++ quote :: text) := by
        rw [skipBlanks_append hs, hchars]
        exact skipBlanks_cons (isBlank_eq_false_of_isNameChar hfirst) _
      have hnew : earlier.contains name.toList = false := by
        rw [Bool.eq_false_iff]
        intro hmem
        exact hearlier name (List.mem_cons_self ..) (List.contains_iff_mem.mp hmem)
      have hothers : readAttributes (name.toList :: earlier) text = .ok rest := by
        refine ih hrest fun other hother hmem => ?_
        rcases List.mem_cons.mp hmem with heq | hmem
        · exact hfresh (String.toList_injective heq ▸ hother)
        · exact hearlier other (List.mem_cons_of_mem name hother) hmem
      rw [readAttributes, hskipped]
      split
      · rename_i hempty
        simp at hempty
      · split
        · rename_i hnone
          rw [attribute?_of_written hname hquote hclosed] at hnone
          cases hnone
        · rename_i hsome
          rw [attribute?_of_written hname hquote hclosed] at hsome
          obtain ⟨rfl, rfl, rfl⟩ : _ ∧ _ ∧ _ := by simpa using hsome
          rw [hnew, decode?_escaped hwritten]
          simp only [hothers, hname.localName_eq, String.ofList_toList]
          rfl

/-- Attributes are read as the table of what is written. -/
theorem attributes_of_written {attributes : List (String × String)} {text : List Char}
    (h : WritesAttributes attributes text) (hnames : (attributes.map Prod.fst).Nodup) :
    Markup.attributes (String.ofList text) = .ok (Table.ofList attributes) := by
  rw [Markup.attributes, String.toList_ofList,
    readAttributes_of_written h hnames fun _ _ => List.not_mem_nil]
  rfl

/-! ## Tags -/

/-- Whether no bracket in the text closes a tag, because it stands in quotes, and every quotation
mark is closed. -/
def Passes (text : List Char) : Prop :=
  ∀ rest, tagContent? none (text ++ rest) =
    (tagContent? none rest).map fun split => (text ++ split.1, split.2)

theorem Passes.append {s t : List Char} (hs : Passes s) (ht : Passes t) : Passes (s ++ t) := by
  intro rest
  rw [List.append_assoc, hs, ht]
  cases tagContent? none rest <;> simp

theorem passes_of_plain {text : List Char} (hbracket : '>' ∉ text) (hdouble : '"' ∉ text)
    (hsingle : '\'' ∉ text) : Passes text := by
  intro rest
  induction text with
  | nil => cases htail : tagContent? none rest <;> simp [htail]
  | cons c tail ih =>
      rw [List.mem_cons, not_or] at hbracket hdouble hsingle
      rw [List.cons_append, tagContent?]
      simp only [Ne.symm hbracket.1, Ne.symm hdouble.1, Ne.symm hsingle.1, decide_false,
        Bool.or_false, Bool.false_eq_true, if_false, ih hbracket.2 hdouble.2 hsingle.2]
      cases tagContent? none rest <;> simp

theorem passes_of_isName {name : String} (h : IsName name) : Passes name.toList :=
  passes_of_plain (fun hmem => ne_of_isNameChar (h.2 _ hmem) rfl rfl)
    (fun hmem => ne_of_isNameChar (h.2 _ hmem) rfl rfl)
    (fun hmem => ne_of_isNameChar (h.2 _ hmem) rfl rfl)

theorem passes_of_blank {s : List Char} (hs : Blank s) : Passes s :=
  passes_of_plain (fun hmem => ne_of_isBlank (hs _ hmem) rfl rfl)
    (fun hmem => ne_of_isBlank (hs _ hmem) rfl rfl) (fun hmem => ne_of_isBlank (hs _ hmem) rfl rfl)

theorem passes_quoted {quote : Char} {written : List Char} (hquote : quote = '"' ∨ quote = '\'')
    (hclosed : quote ∉ written) : Passes (quote :: (written ++ [quote])) := by
  have hinside : ∀ rest, tagContent? (some quote) (written ++ quote :: rest) =
      (tagContent? none rest).map fun split => (written ++ quote :: split.1, split.2) := by
    intro rest
    induction written with
    | nil => simp [tagContent?]
    | cons c tail ih =>
        obtain ⟨hc, htail⟩ : quote ≠ c ∧ quote ∉ tail := by simpa using hclosed
        rw [List.cons_append, tagContent?, if_neg (Ne.symm hc), ih htail]
        cases tagContent? none rest <;> simp
  have hquoted : (decide (quote = '"') || decide (quote = '\'')) = true := by
    rcases hquote with rfl | rfl <;> rfl
  have hbracket : quote ≠ '>' := by
    rcases hquote with rfl | rfl <;> decide
  intro rest
  rw [List.cons_append, List.append_assoc, List.singleton_append, tagContent?]
  simp only [hbracket, hquoted, if_true, if_false, hinside]
  cases tagContent? none rest <;> simp

theorem WritesAttributes.passes {attributes : List (String × String)} {text : List Char}
    (h : WritesAttributes attributes text) : Passes text := by
  induction h with
  | nil hs => exact passes_of_blank hs
  | @cons name _ _ s written text quote hs _ hname hquote _ hclosed _ ih =>
      have hequal : Passes ['='] := passes_of_plain (by decide) (by decide) (by decide)
      have hall := (passes_of_blank hs).append ((passes_of_isName hname).append
        (hequal.append ((passes_quoted hquote hclosed).append ih)))
      simpa using hall

theorem tagContent?_of_passes {content : List Char} (h : Passes content) (rest : List Char) :
    tagContent? none (content ++ '>' :: rest) = some (content, rest) := by
  rw [h]
  simp [tagContent?]

/-- What begins with the character of a name is no comment, closing tag or instruction. -/
theorem constructAt_of_passes {first : Char} {tail : List Char} (hfirst : isNameChar first = true)
    (h : Passes (first :: tail)) (rest : List Char) :
    constructAt (first :: (tail ++ '>' :: rest)) = (.tag (first :: tail), rest) := by
  have hcontent := tagContent?_of_passes h rest
  rw [List.cons_append] at hcontent
  unfold constructAt
  split
  · rename_i heq
    exact absurd (List.cons.inj heq).1 (ne_of_isNameChar hfirst rfl)
  · rename_i heq
    exact absurd (List.cons.inj heq).1 (ne_of_isNameChar hfirst rfl)
  · rename_i heq
    exact absurd (List.cons.inj heq).1 (ne_of_isNameChar hfirst rfl)
  · rw [hcontent]

section Elements

variable {name : String} {attributes : List (String × String)} {a s : List Char}

theorem construct?_openTag (hname : IsName name) (ha : WritesAttributes attributes a)
    (rest : List Char) :
    construct? (openTag name a ++ rest) = some (.tag (name.toList ++ a), rest) := by
  obtain ⟨first, tail, hchars, hfirst, -⟩ := hname.exists_cons
  have hpasses := (passes_of_isName hname).append ha.passes
  rw [hchars, List.cons_append] at hpasses
  have htag := constructAt_of_passes hfirst hpasses rest
  rw [openTag, hchars]
  simpa [construct?] using htag

theorem construct?_emptyTag (hname : IsName name) (ha : WritesAttributes attributes a)
    (rest : List Char) :
    construct? (emptyTag name a ++ rest) = some (.tag (name.toList ++ a ++ ['/']), rest) := by
  obtain ⟨first, tail, hchars, hfirst, -⟩ := hname.exists_cons
  have hslash : Passes ['/'] := passes_of_plain (by decide) (by decide) (by decide)
  have hpasses := ((passes_of_isName hname).append ha.passes).append hslash
  rw [hchars, List.cons_append, List.cons_append] at hpasses
  have htag := constructAt_of_passes hfirst hpasses rest
  rw [emptyTag, hchars]
  simpa [construct?] using htag

theorem construct?_closeTag (hname : IsName name) (hs : Blank s) (rest : List Char) :
    construct? (closeTag name s ++ rest) = some (.closingTag (name.toList ++ s), rest) := by
  have hbracket : '>' ∉ name.toList ++ s := by
    intro hmem
    rcases List.mem_append.mp hmem with hmem | hmem
    · exact ne_of_isNameChar (hname.2 _ hmem) rfl rfl
    · exact ne_of_isBlank (hs _ hmem) rfl rfl
  have hupTo : upTo '>' (name.toList ++ s ++ '>' :: rest) = (name.toList ++ s, rest) :=
    upTo_append hbracket
  rw [closeTag, List.cons_append, List.cons_append, List.append_assoc (_ ++ _),
    List.singleton_append, construct?, constructAt, hupTo]
  nofun

theorem tagName_of_written (hname : IsName name) (ha : WritesAttributes attributes a) :
    tagName (name.toList ++ a) = name.toList := by
  have hchars : ∀ c ∈ name.toList, (!isBlank c) = true := fun c hc => by
    rw [isBlank_eq_false_of_isNameChar (hname.2 c hc), Bool.not_false]
  have hend : a.takeWhile (fun c => !isBlank c) = [] := by
    cases a with
    | nil => rfl
    | cons c rest => rw [List.takeWhile_cons_of_neg (by simp [ha.head_isBlank c rfl])]
  rw [tagName, List.takeWhile_append_of_pos hchars, hend, List.append_nil]

theorem tagOf_of_written (hname : IsName name) (ha : WritesAttributes attributes a) :
    tagOf (name.toList ++ a) = ⟨name, String.ofList a⟩ := by
  rw [tagOf]
  simp only [tagName_of_written hname ha, hname.localName_eq, List.drop_left]

theorem closingName_append (hname : IsName name) (hs : Blank s) :
    closingName (name.toList ++ s) = name.toList := by
  obtain ⟨first, tail, hchars, hfirst, -⟩ := hname.exists_cons
  have hall : (name.toList ++ s).all isBlank = false := by
    rw [hchars, List.cons_append, List.all_cons, isBlank_eq_false_of_isNameChar hfirst,
      Bool.false_and]
  have hend : name.toList.reverse.dropWhile isBlank = name.toList.reverse := by
    refine List.dropWhile_eq_self_iff.mpr fun hpos => ?_
    rw [isBlank_eq_false_of_isNameChar (hname.2 _ (List.mem_reverse.mp (List.getElem_mem hpos)))]
    exact Bool.false_ne_true
  have hblank : ∀ c ∈ s.reverse, isBlank c = true := fun c hc => hs c (List.mem_reverse.mp hc)
  rw [closingName, hall, if_neg Bool.false_ne_true, List.reverse_append,
    List.dropWhile_append_of_pos hblank, hend, List.reverse_reverse]

/-! ## Events -/

/-- The document with events at its front. -/
def Document.afterAll (events : List Event) (document : Document) : Document :=
  { document with events := events ++ document.events }

/-- What follows is a tag or nothing. -/
def AtTag (rest : List Char) : Prop := ∀ c ∈ rest.head?, c = '<'

/-- Anything may follow. -/
def Anything (_rest : List Char) : Prop := True

/-- Whether a text gives the events wherever it stands, if what follows it is as required. -/
def Delivers (next : List Char → Prop) (text : List Char) (events : List Event) : Prop :=
  ∀ opened rest, next rest → readEvents opened (constructs (text ++ rest)) =
    (readEvents opened (constructs rest)).afterAll events

theorem constructs_of_construct? {text rest : List Char} {construct : Construct}
    (h : construct? text = some (construct, rest)) :
    constructs text = construct :: constructs rest := by
  rw [constructs]
  split
  · rename_i hnone
    rw [hnone] at h
    cases h
  · rename_i hsome
    rw [hsome] at h
    obtain ⟨rfl, rfl⟩ : _ ∧ _ := by simpa using h
    rfl

section Delivers

variable {next follow : List Char → Prop} {text more : List Char} {events others : List Event}

theorem delivers_nil : Delivers next [] [] := fun _ _ _ => rfl

theorem Delivers.append (h : Delivers next text events) (hmore : Delivers follow more others)
    (hnext : ∀ rest, follow rest → next (more ++ rest)) :
    Delivers follow (text ++ more) (events ++ others) := by
  intro opened rest hrest
  rw [List.append_assoc, h opened _ (hnext rest hrest), hmore opened rest hrest]
  simp [Document.afterAll]

/-- Nothing is met in nothing. -/
theorem Delivers.eq_nil (h : Delivers AtTag [] events) : events = [] := by
  have hdocument := h [] [] (by simp [AtTag])
  simpa [constructs, construct?, readEvents, Document.afterAll] using hdocument

/-- A text ends at the next tag. -/
theorem delivers_escaped {content : List Char} (h : Escaped text content) (hne : text ≠ []) :
    Delivers AtTag text [.text (String.ofList content)] := by
  intro opened rest hrest
  have hchars : ∀ c ∈ text, decide (c ≠ '<') = true := fun c hc =>
    decide_eq_true fun heq => h.not_mem_bracket (heq ▸ hc)
  have hend : rest.takeWhile (· ≠ '<') = [] ∧ rest.dropWhile (· ≠ '<') = rest := by
    cases rest with
    | nil => exact ⟨rfl, rfl⟩
    | cons c tail =>
        obtain rfl : c = '<' := hrest c rfl
        exact ⟨rfl, rfl⟩
  have hconstruct : construct? (text ++ rest) = some (.text text, rest) := by
    cases text with
    | nil => exact absurd rfl hne
    | cons c tail =>
        have hbracket : c ≠ '<' := of_decide_eq_true (hchars c (List.mem_cons_self ..))
        have htake : (c :: tail ++ rest).takeWhile (· ≠ '<') = c :: tail := by
          rw [List.takeWhile_append_of_pos hchars, hend.1, List.append_nil]
        have hdrop : (c :: tail ++ rest).dropWhile (· ≠ '<') = rest := by
          rw [List.dropWhile_append_of_pos hchars, hend.2]
        rw [List.cons_append] at htake hdrop ⊢
        rw [construct?, htake, hdrop]
        · nofun
        · exact fun heq => hbracket (List.cons.inj heq).1
        · exact fun _ heq => hbracket (List.cons.inj heq).1
  rw [constructs_of_construct? hconstruct, readEvents, decode?_escaped h]
  rfl

theorem delivers_element {name : String} {attributes : List (String × String)} {a s : List Char}
    (hname : IsName name) (ha : WritesAttributes attributes a) (hs : Blank s)
    (h : Delivers AtTag text events) :
    Delivers Anything (openTag name a ++ text ++ closeTag name s)
      (.opening ⟨name, String.ofList a⟩ :: (events ++ [.closing name])) := by
  intro opened rest _
  have hlast : (name.toList ++ a).getLast? ≠ some '/' := by
    by_cases hempty : a = []
    · rw [hempty, List.append_nil]
      exact fun hslash => ne_of_isNameChar (hname.2 _ (List.mem_of_getLast? hslash)) rfl rfl
    · rw [List.getLast?_append_of_ne_nil _ hempty]
      exact ha.getLast?_ne
  have hinside := h (name.toList :: opened) (closeTag name s ++ rest) (by simp [AtTag, closeTag])
  rw [List.append_assoc, List.append_assoc,
    constructs_of_construct? (construct?_openTag hname ha _), readEvents, if_neg hlast,
    tagName_of_written hname ha, tagOf_of_written hname ha, hinside,
    constructs_of_construct? (construct?_closeTag hname hs rest), readEvents]
  simp only [closingName_append hname hs, if_true, hname.localName_eq]
  simp [Document.after, Document.afterAll]

theorem delivers_emptyTag {name : String} {attributes : List (String × String)} {a : List Char}
    (hname : IsName name) (ha : WritesAttributes attributes a) :
    Delivers Anything (emptyTag name a) [.empty ⟨name, String.ofList a⟩] := by
  intro opened rest _
  rw [constructs_of_construct? (construct?_emptyTag hname ha _), readEvents,
    if_pos List.getLast?_concat, List.dropLast_concat, tagOf_of_written hname ha]
  rfl

theorem delivers_declaration (h : IsDeclaration text) : Delivers Anything text [] := by
  obtain ⟨content, hne, hbracket, rfl⟩ := h
  intro opened rest _
  have hupTo : upTo '>' (content ++ ['?'] ++ '>' :: rest) = (content ++ ['?'], rest) :=
    upTo_append (by simpa using hbracket)
  have hlength : 2 ≤ (content ++ ['?']).length := by
    have hpos := List.length_pos_iff.mpr hne
    simp only [List.length_append, List.length_singleton]
    omega
  have hinstruction : instruction (content ++ ['?']) = .passedOver := by
    simp [instruction, hne]
  have hconstruct : construct? ('<' :: '?' :: (content ++ ['?', '>']) ++ rest) =
      some (.passedOver, rest) := by
    have hsplit : content ++ ['?', '>'] ++ rest = content ++ ['?'] ++ '>' :: rest := by simp
    rw [List.cons_append, List.cons_append, hsplit, construct?, constructAt, hupTo]
    · simp [hinstruction]
    · nofun
  rw [constructs_of_construct? hconstruct, readEvents]
  rfl

end Delivers

end Elements

end Remodel.Markup
