import Remodel.Proofs.Json.Numbers
import Remodel.Proofs.Json.Quoted
import Remodel.Proofs.Text.Parts

/-!
# Written JSON is read back

The text of a JSON value, on one line or over several, is read as the structure of this value
(`Legible.ofText_compact`, `Legible.ofText_pretty`), if its numbers are read back from their texts.

## Strategy

`Reads chars draft` says that `chars` is read as `draft` whatever follows, as soon as the fuel is
more than the length of the text.  It holds of the texts of scalars, it is kept by blanks in front,
and it passes from items to arrays and from the values of members to objects (`reads_array`,
`reads_object`), whatever blanks stand between the parts.

The two writers differ in nothing but these blanks (`Spaced`), so that one induction on the value
does for both (`Legible.reads`).
-/

namespace Remodel

namespace Draft

/-! ## Blanks -/

/-- Whether a text is made of blanks. -/
def IsBlanks (chars : List Char) : Prop := ∀ c ∈ chars, c = ' ' ∨ c = '\n' ∨ c = '\t' ∨ c = '\r'

variable {blanks chars rest : List Char} {draft : Draft}

theorem isBlanks_nil : IsBlanks [] := fun _ hc => absurd hc List.not_mem_nil

theorem skipBlanks_append (hblanks : IsBlanks blanks) (rest : List Char) :
    skipBlanks (blanks ++ rest) = skipBlanks rest := by
  induction blanks with
  | nil => rfl
  | cons c more ih =>
      obtain ⟨hc, hmore⟩ := List.forall_mem_cons.mp hblanks
      have hblank : (c = ' ' || c = '\n' || c = '\t' || c = '\r') = true := by
        rcases hc with rfl | rfl | rfl | rfl <;> rfl
      rw [List.cons_append, skipBlanks, if_pos hblank, ih hmore]

theorem endsNumber_blanks_append (hblanks : IsBlanks blanks) (hend : EndsNumber rest) :
    EndsNumber (blanks ++ rest) := by
  cases blanks with
  | nil => exact hend
  | cons c more =>
      intro d hd
      obtain rfl : c = d := Option.some.inj hd
      rcases hblanks c (List.mem_cons_self ..) with rfl | rfl | rfl | rfl <;> decide

/-! ## What follows a value -/

theorem skipBlanks_close (hblanks : IsBlanks blanks) {c : Char} (hc : c = ']' ∨ c = '\x7d') :
    skipBlanks (blanks ++ c :: rest) = c :: rest := by
  rw [skipBlanks_append hblanks]
  rcases hc with rfl | rfl <;> rfl

theorem endsNumber_close (hblanks : IsBlanks blanks) {c : Char} (hc : c = ']' ∨ c = '\x7d') :
    EndsNumber (blanks ++ c :: rest) := by
  refine endsNumber_blanks_append hblanks ?_
  intro d hd
  obtain rfl : c = d := Option.some.inj hd
  rcases hc with rfl | rfl <;> decide

theorem endsNumber_comma : EndsNumber (',' :: rest) := by
  intro d hd
  obtain rfl : ',' = d := Option.some.inj hd
  decide

theorem skipBlanks_comma : skipBlanks (',' :: rest) = ',' :: rest := rfl

/-! ## Values -/

/-- Whether a text is read as a draft, in front of whatever may follow a value. -/
def Reads (chars : List Char) (draft : Draft) : Prop :=
  ∀ rest fuel, EndsNumber rest → chars.length < fuel →
    readValue fuel (chars ++ rest) = (draft, some rest)

theorem readValue_blanks_append (hblanks : IsBlanks blanks) (fuel : Nat) (text : List Char) :
    readValue fuel (blanks ++ text) = readValue fuel text := by
  cases fuel with
  | zero => rfl
  | succ fuel => rw [readValue, readValue, skipBlanks_append hblanks]

/-- Nothing is read without fuel. -/
theorem reads_of_succ (h : ∀ rest fuel, EndsNumber rest → chars.length ≤ fuel →
    readValue (fuel + 1) (chars ++ rest) = (draft, some rest)) : Reads chars draft := by
  intro rest fuel hend hfuel
  cases fuel with
  | zero => exact absurd hfuel (Nat.not_lt_zero _)
  | succ fuel => exact h rest fuel hend (Nat.le_of_lt_succ hfuel)

theorem Reads.blanks_append (hblanks : IsBlanks blanks) (h : Reads chars draft) :
    Reads (blanks ++ chars) draft := by
  intro rest fuel hend hfuel
  rw [List.append_assoc, readValue_blanks_append hblanks]
  rw [List.length_append] at hfuel
  exact h rest fuel hend (by omega)

theorem Reads.ofText_eq (h : Reads chars draft) : ofText (String.ofList chars) = (draft, none) := by
  have hread := h [] (chars.length + 1) endsNumber_nil (Nat.lt_succ_self _)
  rw [List.append_nil] at hread
  rw [ofText, String.toList_ofList, hread]
  rfl

/-- No value begins with a closing bracket. -/
theorem Reads.exists_skipBlanks (h : Reads chars draft) (hend : EndsNumber rest) :
    ∃ c more, c ≠ ']' ∧ skipBlanks (chars ++ rest) = c :: more := by
  have hread := h rest (chars.length + 1) hend (Nat.lt_succ_self _)
  rw [readValue] at hread
  cases hskip : skipBlanks (chars ++ rest) with
  | nil =>
      rw [hskip] at hread
      cases hread
  | cons c more =>
      refine ⟨c, more, ?_, rfl⟩
      rintro rfl
      rw [hskip] at hread
      cases hread

/-! ## Arrays and objects -/

theorem readValue_bracket (fuel : Nat) (text : List Char) :
    readValue (fuel + 1) ('[' :: text) =
      match skipBlanks text with
      | ']' :: rest => (.array [] none, some rest)
      | _ =>
        let (items, stop, rest) := readItems fuel text
        (.array items stop, rest) := rfl

theorem readValue_brace (fuel : Nat) (text : List Char) :
    readValue (fuel + 1) ('\x7b' :: text) =
      match skipBlanks text with
      | '\x7d' :: rest => (.object [] none, some rest)
      | _ =>
        let (members, stop, rest) := readMembers fuel text
        (.object members stop, rest) := rfl

section Parts

open Text (joinParts joinParts_cons)

variable {α : Type} {write : α → List Char} {read : α → Draft} {parts : List α}

/-- What an array begins with is no closing bracket. -/
theorem exists_skipBlanks_joinParts (hne : parts ≠ [])
    (hparts : ∀ part ∈ parts, Reads (write part) (read part)) (hblanks : IsBlanks blanks)
    (rest : List Char) :
    ∃ c more, c ≠ ']' ∧
      skipBlanks (joinParts [','] (parts.map write) ++ (blanks ++ ']' :: rest)) = c :: more := by
  obtain ⟨part, others, rfl⟩ := List.exists_cons_of_ne_nil hne
  have hpart := hparts part (List.mem_cons_self ..)
  cases others with
  | nil => exact hpart.exists_skipBlanks (endsNumber_close hblanks (Or.inl rfl))
  | cons next others =>
      rw [List.map_cons, joinParts_cons _ (by simp), List.append_assoc, List.append_assoc]
      exact hpart.exists_skipBlanks endsNumber_comma

theorem readItems_joinParts (hne : parts ≠ [])
    (hparts : ∀ part ∈ parts, Reads (write part) (read part)) (hblanks : IsBlanks blanks)
    (fuel : Nat) (hfuel : (joinParts [','] (parts.map write)).length + 1 < fuel) :
    readItems fuel (joinParts [','] (parts.map write) ++ (blanks ++ ']' :: rest)) =
      (parts.map read, none, some rest) := by
  induction parts generalizing fuel with
  | nil => exact absurd rfl hne
  | cons part others ih =>
      obtain ⟨hpart, hothers⟩ := List.forall_mem_cons.mp hparts
      obtain ⟨fuel, rfl⟩ : ∃ k, fuel = k + 1 := ⟨fuel - 1, by omega⟩
      by_cases hlast : others = []
      · subst hlast
        have hend : EndsNumber (blanks ++ ']' :: rest) := endsNumber_close hblanks (Or.inl rfl)
        have hread := hpart _ fuel hend (by simpa [joinParts] using hfuel)
        rw [List.map_singleton, joinParts, readItems, hread]
        simp only [skipBlanks_close hblanks (Or.inl rfl)]
        rfl
      · have hmap : others.map write ≠ [] := by simpa using hlast
        rw [List.map_cons, joinParts_cons _ hmap] at hfuel ⊢
        simp only [List.length_append, List.length_singleton] at hfuel
        have hread := hpart (',' :: (joinParts [','] (others.map write) ++ (blanks ++ ']' :: rest)))
          fuel endsNumber_comma (by omega)
        have hrest := ih hlast hothers fuel (by omega)
        obtain ⟨c, more, hc, hskip⟩ :=
          exists_skipBlanks_joinParts hlast hothers hblanks rest
        rw [List.append_assoc, List.append_assoc, List.singleton_append, readItems, hread]
        simp only [skipBlanks_comma, hskip, hrest]
        split
        case h_1 heq => cases heq
        case h_2 heq => exact absurd (List.cons.inj heq).1 hc
        case h_3 => rfl

/-- An array is read when its items are, with a comma between them and blanks in front of its
bracket. -/
theorem reads_array (hparts : ∀ part ∈ parts, Reads (write part) (read part))
    (hblanks : IsBlanks blanks) :
    Reads ('[' :: joinParts [','] (parts.map write) ++ blanks ++ [']'])
      (.array (parts.map read) none) := by
  refine reads_of_succ fun rest fuel _ hfuel => ?_
  simp only [List.length_append, List.length_cons] at hfuel
  rw [List.append_assoc, List.append_assoc, List.singleton_append, List.cons_append,
    readValue_bracket]
  by_cases hempty : parts = []
  · subst hempty
    rw [List.map_nil, joinParts, List.nil_append, skipBlanks_close hblanks (Or.inl rfl)]
    rfl
  · obtain ⟨c, more, hc, hskip⟩ := exists_skipBlanks_joinParts hempty hparts hblanks rest
    rw [hskip, readItems_joinParts hempty hparts hblanks fuel (by omega)]
    split
    case h_1 heq => exact absurd (List.cons.inj heq).1 hc
    case h_2 => rfl

/-- A member of an object as it is written. -/
def memberChars (blanks : List Char) (key : String) (value : List Char) : List Char :=
  blanks ++ (Json.quote key ++ ':' :: value)

theorem skipBlanks_memberChars (hblanks : IsBlanks blanks) (key : String) (value rest : List Char) :
    skipBlanks (memberChars blanks key value ++ rest) =
      '"' :: (key.toList.flatMap Json.escapeChar ++ '"' :: ':' :: (value ++ rest)) := by
  rw [memberChars, List.append_assoc, skipBlanks_append hblanks, List.append_assoc, quote_append]
  rfl

section Member

variable {value : List Char} {fuel : Nat}

theorem skipBlanks_colon : skipBlanks (':' :: rest) = ':' :: rest := rfl

theorem readMembers_last (hblanks : IsBlanks blanks) (key : String) (hvalue : Reads value draft)
    (hend : EndsNumber rest) (hfuel : value.length < fuel) {behind : List Char}
    (hskip : skipBlanks rest = '\x7d' :: behind) :
    readMembers (fuel + 1) (memberChars blanks key value ++ rest) =
      ([(some key, draft)], none, some behind) := by
  rw [readMembers, skipBlanks_memberChars hblanks]
  simp only [readString_quote, skipBlanks_colon, hvalue rest fuel hend hfuel, hskip]

theorem readMembers_more (hblanks : IsBlanks blanks) (key : String) (hvalue : Reads value draft)
    (hfuel : value.length < fuel) {members : List (Option String × Draft)}
    {stop : Option JsonFault} {behind : Option (List Char)}
    (hrest : readMembers fuel rest = (members, stop, behind)) :
    readMembers (fuel + 1) (memberChars blanks key value ++ ',' :: rest) =
      ((some key, draft) :: members, stop, behind) := by
  rw [readMembers, skipBlanks_memberChars hblanks]
  simp only [readString_quote, skipBlanks_colon, hvalue _ fuel endsNumber_comma hfuel,
    skipBlanks_comma, hrest]

end Member

section Members

variable {before after : List Char} {keyOf : α → String}

theorem exists_skipBlanks_members (hne : parts ≠ []) (hbefore : IsBlanks before)
    (rest : List Char) :
    ∃ more, skipBlanks (joinParts [','] (parts.map fun part =>
      memberChars before (keyOf part) (write part)) ++ rest) = '"' :: more := by
  obtain ⟨part, others, rfl⟩ := List.exists_cons_of_ne_nil hne
  cases others with
  | nil => exact ⟨_, skipBlanks_memberChars hbefore ..⟩
  | cons next others =>
      rw [List.map_cons, joinParts_cons _ (by simp), List.append_assoc, List.append_assoc]
      exact ⟨_, skipBlanks_memberChars hbefore ..⟩

theorem readMembers_joinParts (hne : parts ≠ [])
    (hparts : ∀ part ∈ parts, Reads (write part) (read part)) (hbefore : IsBlanks before)
    (hafter : IsBlanks after) (fuel : Nat)
    (hfuel : (joinParts [','] (parts.map fun part =>
      memberChars before (keyOf part) (write part))).length + 1 < fuel) :
    readMembers fuel (joinParts [','] (parts.map fun part =>
      memberChars before (keyOf part) (write part)) ++ (after ++ '\x7d' :: rest)) =
      (parts.map fun part => (some (keyOf part), read part), none, some rest) := by
  induction parts generalizing fuel with
  | nil => exact absurd rfl hne
  | cons part others ih =>
      obtain ⟨hpart, hothers⟩ := List.forall_mem_cons.mp hparts
      obtain ⟨fuel, rfl⟩ : ∃ k, fuel = k + 1 := ⟨fuel - 1, by omega⟩
      have hlength : (write part).length ≤
          (memberChars before (keyOf part) (write part)).length := by
        simp only [memberChars, List.length_append, List.length_cons]
        omega
      by_cases hlast : others = []
      · subst hlast
        rw [List.map_singleton, joinParts] at hfuel ⊢
        have hend : EndsNumber (after ++ '\x7d' :: rest) := endsNumber_close hafter (Or.inr rfl)
        exact readMembers_last hbefore _ hpart hend (by omega)
          (skipBlanks_close hafter (Or.inr rfl))
      · have hmap : (others.map fun part => memberChars before (keyOf part) (write part)) ≠ [] := by
          simpa using hlast
        rw [List.map_cons, joinParts_cons _ hmap] at hfuel ⊢
        simp only [List.length_append, List.length_singleton] at hfuel
        have hrest := ih hlast hothers fuel (by omega)
        rw [List.append_assoc, List.append_assoc, List.singleton_append]
        exact readMembers_more hbefore _ hpart (by omega) hrest

/-- An object is read when its values are, with a comma between its members and blanks in front of
every key and of its brace. -/
theorem reads_object (hparts : ∀ part ∈ parts, Reads (write part) (read part))
    (hbefore : IsBlanks before) (hafter : IsBlanks after) :
    Reads ('\x7b' :: joinParts [','] (parts.map fun part =>
        memberChars before (keyOf part) (write part)) ++ after ++ ['\x7d'])
      (.object (parts.map fun part => (some (keyOf part), read part)) none) := by
  refine reads_of_succ fun rest fuel _ hfuel => ?_
  simp only [List.length_append, List.length_cons] at hfuel
  rw [List.append_assoc, List.append_assoc, List.singleton_append, List.cons_append,
    readValue_brace]
  by_cases hempty : parts = []
  · subst hempty
    rw [List.map_nil, joinParts, List.nil_append, skipBlanks_close hafter (Or.inr rfl)]
    rfl
  · obtain ⟨more, hskip⟩ :=
      exists_skipBlanks_members hempty hbefore (after ++ '\x7d' :: rest)
    rw [hskip, readMembers_joinParts hempty hparts hbefore hafter fuel (by omega)]
    rfl

end Members

end Parts

/-! ## Scalars -/

theorem reads_null : Reads ['n', 'u', 'l', 'l'] .null :=
  reads_of_succ fun _ _ _ _ => rfl

theorem reads_true : Reads ['t', 'r', 'u', 'e'] (.bool true) :=
  reads_of_succ fun _ _ _ _ => rfl

theorem reads_false : Reads ['f', 'a', 'l', 's', 'e'] (.bool false) :=
  reads_of_succ fun _ _ _ _ => rfl

theorem reads_number {n : JsonNumber} (hn : n.Legible) :
    Reads n.text.toList (.number (some n)) :=
  reads_of_succ fun _ fuel hend _ => readValue_text hn hend fuel

theorem reads_string (s : String) : Reads (Json.quote s) (.string (some s)) := by
  refine reads_of_succ fun rest fuel _ hfuel => ?_
  rw [quote_append]
  exact congrArg (scalar Draft.string) (readString_quote s rest)

end Draft

/-! ## JSON -/

namespace Json

/-- The draft of a value that has been read as a whole. -/
def draft : Json → Draft
  | .null => .null
  | .bool b => .bool b
  | .number n => .number (some n)
  | .string s => .string (some s)
  | .array items => .array (items.map draft) none
  | .object members => .object (members.map fun member => (some member.1, member.2.draft)) none
termination_by json => sizeOf json
decreasing_by
  · rename_i hitem
    have hlt := List.sizeOf_lt_of_mem hitem
    simp only [array.sizeOf_spec]
    omega
  · rename_i hmember
    have hlt := List.sizeOf_lt_of_mem hmember
    have hvalue : sizeOf member = 1 + sizeOf member.1 + sizeOf member.2 := rfl
    simp only [object.sizeOf_spec]
    omega

/-- Whether all numbers in a value are read back from their texts. -/
inductive Legible : Json → Prop
  | null : Legible .null
  | bool (b : Bool) : Legible (.bool b)
  | number {n : JsonNumber} (h : n.Legible) : Legible (.number n)
  | string (s : String) : Legible (.string s)
  | array {items : List Json} (h : ∀ item ∈ items, Legible item) : Legible (.array items)
  | object {members : List (String × Json)} (h : ∀ member ∈ members, Legible member.2) :
      Legible (.object members)

theorem legible_ofNat {n : Nat} (h : n < Text.wordBound) : Legible (Json.ofNat n) :=
  .number ⟨by omega, by omega⟩

open Draft Text

/-- Whether a writer puts nothing but blanks between the parts of arrays and objects, as a function
of the level of indentation. -/
structure Spaced (write : Nat → Json → List Char) : Prop where
  scalar : ∀ level json, json.items? = none → json.members? = none →
    write level json = json.compactChars
  array : ∀ level items, ∃ before after, IsBlanks before ∧ IsBlanks after ∧
    write level (.array items) =
      '[' :: joinParts [','] (items.map fun item =>
        before ++ write (level + 1) item) ++ after ++ [']']
  object : ∀ level members, ∃ before space after,
    IsBlanks before ∧ IsBlanks space ∧ IsBlanks after ∧
    write level (.object members) =
      '\x7b' :: joinParts [','] (members.map fun member =>
        memberChars before member.1 (space ++ write (level + 1) member.2)) ++ after ++ ['\x7d']

theorem Legible.reads {write : Nat → Json → List Char} (hwrite : Spaced write) {json : Json}
    (h : json.Legible) (level : Nat) : Reads (write level json) json.draft := by
  induction h generalizing level with
  | null =>
      rw [hwrite.scalar level _ rfl rfl, compactChars, draft]
      exact reads_null
  | bool b =>
      rw [hwrite.scalar level _ rfl rfl, draft]
      cases b
      · exact reads_false
      · exact reads_true
  | number h =>
      rw [hwrite.scalar level _ rfl rfl, compactChars, draft]
      exact reads_number h
  | string s =>
      rw [hwrite.scalar level _ rfl rfl, compactChars, draft]
      exact reads_string s
  | @array items h ih =>
      obtain ⟨before, after, hbefore, hafter, harray⟩ := hwrite.array level items
      rw [harray, draft]
      exact reads_array (fun item hitem => (ih item hitem (level + 1)).blanks_append hbefore) hafter
  | @object members h ih =>
      obtain ⟨before, space, after, hbefore, hspace, hafter, hobject⟩ := hwrite.object level members
      rw [hobject, draft]
      exact reads_object
        (fun member hmember => (ih member hmember (level + 1)).blanks_append hspace) hbefore hafter

/-! ## Without blanks -/

theorem compactItems_eq (items : List Json) :
    compactItems items = joinParts [','] (items.map compactChars) := by
  induction items with
  | nil => rfl
  | cons item rest ih =>
      cases rest with
      | nil => rfl
      | cons next others => simp [compactItems, joinParts, ih]

theorem compactMembers_eq (members : List (String × Json)) :
    compactMembers members = joinParts [','] (members.map fun member =>
      memberChars [] member.1 member.2.compactChars) := by
  induction members with
  | nil => rfl
  | cons member rest ih =>
      cases rest with
      | nil => rfl
      | cons next others => simp [compactMembers, joinParts, memberChars, ih]

theorem spaced_compactChars : Spaced fun _ => compactChars where
  scalar := fun _ _ _ _ => rfl
  array := fun level items =>
    ⟨[], [], isBlanks_nil, isBlanks_nil, by simp [compactChars, compactItems_eq]⟩
  object := fun level members =>
    ⟨[], [], [], isBlanks_nil, isBlanks_nil, isBlanks_nil, by
      simp [compactChars, compactMembers_eq]⟩

/-! ## Over several lines -/

theorem isBlanks_lineBreak (level : Nat) : IsBlanks (lineBreak level) := by
  intro c hc
  rcases List.mem_cons.mp hc with rfl | hc
  · exact Or.inr (Or.inl rfl)
  · exact Or.inl (List.eq_of_mem_replicate hc)

theorem prettyItems_eq (level : Nat) (items : List Json) :
    prettyItems level items = joinParts [','] (items.map fun item =>
      lineBreak level ++ item.prettyChars level) := by
  induction items with
  | nil => rfl
  | cons item rest ih =>
      cases rest with
      | nil => rfl
      | cons next others => simp [prettyItems, joinParts, ih]

theorem prettyMembers_eq (level : Nat) (members : List (String × Json)) :
    prettyMembers level members = joinParts [','] (members.map fun member =>
      memberChars (lineBreak level) member.1 ([' '] ++ member.2.prettyChars level)) := by
  induction members with
  | nil => rfl
  | cons member rest ih =>
      cases rest with
      | nil => simp [prettyMembers, joinParts, memberChars]
      | cons next others => simp [prettyMembers, joinParts, memberChars, ih]

theorem spaced_prettyChars : Spaced prettyChars where
  scalar := by
    intro level json hitems hmembers
    cases json with
    | null => rfl
    | bool b => cases b <;> rfl
    | number n => rfl
    | string s => rfl
    | array items => cases hitems
    | object members => cases hmembers
  array := by
    intro level items
    cases items with
    | nil => exact ⟨[], [], isBlanks_nil, isBlanks_nil, rfl⟩
    | cons item rest =>
        refine ⟨lineBreak (level + 1), lineBreak level, isBlanks_lineBreak _, isBlanks_lineBreak _,
          ?_⟩
        rw [← prettyItems_eq, prettyChars]
        exact List.cons_ne_nil item rest
  object := by
    intro level members
    cases members with
    | nil => exact ⟨[], [], [], isBlanks_nil, isBlanks_nil, isBlanks_nil, rfl⟩
    | cons member rest =>
        refine ⟨lineBreak (level + 1), [' '], lineBreak level, isBlanks_lineBreak _, ?_,
          isBlanks_lineBreak _, ?_⟩
        · exact List.forall_mem_singleton.mpr (Or.inl rfl)
        · rw [← prettyMembers_eq, prettyChars]
          exact List.cons_ne_nil member rest

/-! ## Whole texts -/

/-- **JSON is read back** from its text on one line. -/
theorem Legible.ofText_compact {json : Json} (h : json.Legible) :
    Draft.ofText json.compact = (json.draft, none) :=
  (h.reads spaced_compactChars 0).ofText_eq

/-- **JSON is read back** from its text over several lines. -/
theorem Legible.ofText_pretty {json : Json} (h : json.Legible) :
    Draft.ofText json.pretty = (json.draft, none) :=
  (h.reads spaced_prettyChars 0).ofText_eq

end Json

end Remodel
