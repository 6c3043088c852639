import Remodel.Proofs.Text.Parts
import Remodel.Proofs.Trace
import Remodel.Transform.Operators

/-!
# Laws of the operators on texts

Splitting and joining undo each other (`split_and_concat_undo`): the parts that a text is split
into, joined by the delimiter, are the text, and texts that are joined by a character that none of
them has are the parts of what they are joined to.

Padding and cutting out a range count the same characters (`pad_and_substring_agree`): a text is
found again at its side of the padded text, padding twice is padding once to the greater length, and
ranges that meet make up one range.

## Strategy

What splitting does is known from the parts of a text, a list of lists of characters.  Padding and
cutting out are stated on lists of characters too, where they are `List.replicate`, `List.take` and
`List.drop`.  A range that ends behind the text is the one that ends with it (`result_substring`),
so that one law serves both.
-/

namespace Remodel.Operators

variable {text : String}

/-! ## Splitting and joining -/

theorem value_split (text delimiter : String) (index : Nat) :
    (split text delimiter index).value = ((Text.parts delimiter text)[index]?).getD "" := by
  rw [split]
  split
  · rename_i part hpart
    rw [hpart]
    rfl
  · rename_i hnone
    rw [hnone]
    rfl

/-- A part that is missing is reported, and nothing else is. -/
theorem notices_split_eq_nil_iff {delimiter : String} {index : Nat} :
    (split text delimiter index).notices = [] ↔ index < (Text.parts delimiter text).length := by
  rw [split]
  split
  · rename_i part hpart
    exact iff_of_true rfl (List.getElem?_eq_some_iff.mp hpart).1
  · rename_i hnone
    refine iff_of_false (List.cons_ne_nil _ _) ?_
    exact Nat.not_lt.mpr (List.getElem?_eq_none_iff.mp hnone)

/-- Splitting gives all parts of the text, one after another. -/
theorem map_value_split (text delimiter : String) :
    ((List.range (Text.parts delimiter text).length).map fun index =>
      (split text delimiter index).value) = Text.parts delimiter text := by
  refine List.ext_getElem (by simp) fun index _ hindex => ?_
  rw [List.getElem_map, List.getElem_range, value_split, List.getElem?_eq_getElem hindex,
    Option.getD_some]

/-- **Splitting and joining undo each other.**  The parts of a text are those that splitting gives
without reporting one missing; joined by the delimiter, which may be empty, they are the text again,
and no part holds an occurrence that splitting has missed.  Behind the last part splitting gives the
empty text.

Texts that are joined by a character that none of them has are what splitting at this character
gives, each at its place, and the empty text behind the last one. -/
theorem split_and_concat_undo :
    (∀ text delimiter : String, ∃ count,
      (∀ index, (split text delimiter index).notices = [] ↔ index < count) ∧
      concat ((List.range count).map fun index => (split text delimiter index).value) delimiter =
        text ∧
      (delimiter ≠ "" → ∀ index,
        ¬ delimiter.toList <:+: (split text delimiter index).value.toList) ∧
      ∀ index, count ≤ index → (split text delimiter index).value = "") ∧
    ∀ (texts : List String) (c : Char), texts ≠ [] → (∀ text ∈ texts, c ∉ text.toList) →
      let joined := concat texts (String.singleton c)
      (∀ index (h : index < texts.length),
        (split joined (String.singleton c) index).value = texts[index]) ∧
      ∀ index, texts.length ≤ index → (split joined (String.singleton c) index).value = "" := by
  constructor
  · intro text delimiter
    refine ⟨(Text.parts delimiter text).length, fun _ => notices_split_eq_nil_iff, ?_, ?_, ?_⟩
    · rw [map_value_split, concat, Text.join_parts]
    · intro hne index
      rw [value_split]
      cases hpart : (Text.parts delimiter text)[index]? with
      | some part => exact Text.not_isInfix_of_mem_parts hne (List.mem_of_getElem? hpart)
      | none => exact fun hinfix => hne (String.toList_eq_nil_iff.mp (List.infix_nil.mp hinfix))
    · intro index hindex
      rw [value_split, List.getElem?_eq_none hindex, Option.getD_none]
  · intro texts c hne hfree joined
    have hvalue : ∀ index,
        (split joined (String.singleton c) index).value = texts[index]?.getD "" := by
      intro index
      rw [value_split]
      exact congrArg (·[index]?.getD "") (Text.parts_join hne hfree)
    refine ⟨fun index hindex => ?_, fun index hindex => ?_⟩
    · rw [hvalue, List.getElem?_eq_getElem hindex, Option.getD_some]
    · rw [hvalue, List.getElem?_eq_none hindex, Option.getD_none]

/-- A delimiter that overlaps itself, and texts of which one is empty. -/
theorem split_and_concat_undo_names :
    (∃ count, (∀ index, (split "aaaa|aa" "aaa" index).notices = [] ↔ index < count) ∧
      concat ((List.range count).map fun index => (split "aaaa|aa" "aaa" index).value) "aaa" =
        "aaaa|aa") ∧
    ["Zoë", "", "a b"] ≠ [] ∧ (∀ text ∈ ["Zoë", "", "a b"], ',' ∉ text.toList) ∧
    (split (concat ["Zoë", "", "a b"] (String.singleton ',')) (String.singleton ',') 2).value =
      "a b" ∧
    3 ≤ 3 ∧
    (split (concat ["Zoë", "", "a b"] (String.singleton ',')) (String.singleton ',') 3).value =
      "" := by
  have hfree : ∀ text ∈ ["Zoë", "", "a b"], ',' ∉ text.toList := by decide
  obtain ⟨count, hcount, hjoined, -⟩ := split_and_concat_undo.1 "aaaa|aa" "aaa"
  obtain ⟨hwithin, hbehind⟩ :=
    split_and_concat_undo.2 ["Zoë", "", "a b"] ',' (List.cons_ne_nil _ _) hfree
  exact ⟨⟨count, hcount, hjoined⟩, List.cons_ne_nil _ _, hfree, hwithin 2 (by decide),
    Nat.le_refl 3, hbehind 3 (Nat.le_refl 3)⟩

/-! ## Ranges -/

section Ranges

variable {chars front back : List Char} {i j k : Nat}

theorem sliceChars_append_left : sliceChars (front ++ back) 0 front.length = front := by
  rw [sliceChars, List.drop_zero, Nat.sub_zero, List.take_left]

theorem sliceChars_append_right :
    sliceChars (front ++ back) front.length (front.length + back.length) = back := by
  rw [sliceChars, List.drop_left, Nat.add_sub_cancel_left, List.take_length]

/-- Ranges that meet make up one range. -/
theorem sliceChars_append_sliceChars (hij : i ≤ j) (hjk : j ≤ k) :
    sliceChars chars i j ++ sliceChars chars j k = sliceChars chars i k := by
  have hlength : k - i = (j - i) + (k - j) := by omega
  have hstart : i + (j - i) = j := by omega
  rw [sliceChars, sliceChars, sliceChars, hlength, List.take_add, List.drop_drop, hstart]

end Ranges

/-- A range ends with the text if it is to end behind it; it fails if it begins behind its end. -/
theorem result_substring (text : String) (first last : Nat) :
    (substring text first last).result =
      if min last text.length < first then
        .error (.invalidRange first (min last text.length) text.length)
      else .ok (String.ofList (sliceChars text.toList first (min last text.length))) := by
  have hcut : ∀ stop : Nat, Attempt.result (ε := StepFault) (do
      if stop < first then throw (.invalidRange first stop text.toList.length)
      return String.ofList (sliceChars text.toList first stop)) =
        if stop < first then .error (.invalidRange first stop text.toList.length)
        else .ok (String.ofList (sliceChars text.toList first stop)) := by
    intro stop
    split
    · rfl
    · rfl
  rw [substring, ← String.length_toList]
  dsimp only
  split
  · rename_i hbehind
    rw [Nat.min_eq_right (Nat.le_of_lt hbehind)]
    simpa using hcut text.toList.length
  · rename_i hwithin
    rw [Nat.min_eq_left (Nat.not_lt.mp hwithin)]
    exact hcut last

/-- A range that begins within the text and before its end. -/
theorem result_substring_of_le {first last : Nat} (hrange : first ≤ min last text.length) :
    (substring text first last).result =
      .ok (String.ofList (sliceChars text.toList first (min last text.length))) := by
  rw [result_substring, if_neg (Nat.not_lt.mpr hrange)]

theorem substring_fails_iff {first last : Nat} :
    (∃ fault, (substring text first last).result = .error fault) ↔
      min last text.length < first := by
  rw [result_substring]
  split
  · rename_i hbehind
    exact iff_of_true ⟨_, rfl⟩ hbehind
  · rename_i hwithin
    exact iff_of_false (fun ⟨_, hfault⟩ => nomatch hfault) hwithin

/-! ## Padding -/

variable {direction : PadDirection} {length longer : Nat} {character : Char}

theorem length_padChars (chars : List Char) :
    (padChars chars length character direction).length = max chars.length length := by
  cases direction with
  | start =>
      rw [padChars, List.length_append, List.length_replicate]
      omega
  | end_ =>
      rw [padChars, List.length_append, List.length_replicate]
      omega

theorem padChars_padChars (chars : List Char) :
    padChars (padChars chars length character direction) longer character direction =
      padChars chars (max length longer) character direction := by
  -- what the second padding still lacks
  have hcount : (longer - max chars.length length) + (length - chars.length) =
      max length longer - chars.length := by omega
  have hlength : (padChars chars length character direction).length = max chars.length length :=
    length_padChars chars
  cases direction with
  | start =>
      rw [padChars, hlength, padChars, padChars, ← List.append_assoc,
        List.replicate_append_replicate, hcount]
  | end_ =>
      rw [padChars, hlength, padChars, padChars, List.append_assoc,
        List.replicate_append_replicate, Nat.add_comm, hcount]

theorem length_pad (text : String) :
    (pad text length character direction).length = max text.length length := by
  rw [pad, String.length_ofList, length_padChars, String.length_toList]

theorem pad_pad (text : String) :
    pad (pad text length character direction) longer character direction =
      pad text (max length longer) character direction := by
  rw [pad, pad, pad, String.toList_ofList, padChars_padChars]

/-- A text that was filled up at its front stands at the end. -/
theorem substring_pad_start (text : String) :
    (substring (pad text length character .start) (max text.length length - text.length)
      (max text.length length)).result = .ok text := by
  have hlength : (pad text length character .start).length = max text.length length :=
    length_pad text
  have hfill : max text.length length - text.length =
      (List.replicate (length - text.toList.length) character).length := by
    rw [List.length_replicate, String.length_toList]
    omega
  have hall : max text.length length =
      (List.replicate (length - text.toList.length) character).length + text.toList.length := by
    rw [← hfill, String.length_toList]
    omega
  rw [result_substring_of_le (by omega), hlength, Nat.min_self, hfill, hall, pad,
    String.toList_ofList, padChars, sliceChars_append_right, String.ofList_toList]

/-- A text that was filled up at its end stands at the front. -/
theorem substring_pad_end (text : String) :
    (substring (pad text length character .end_) 0 text.length).result = .ok text := by
  have hlength : (pad text length character .end_).length = max text.length length :=
    length_pad text
  have hshorter : text.length ≤ max text.length length := Nat.le_max_left ..
  rw [result_substring_of_le (Nat.zero_le _), hlength, Nat.min_eq_left hshorter, pad,
    String.toList_ofList, padChars, ← String.length_toList, sliceChars_append_left,
    String.ofList_toList]

/-- **Padding and cutting out a range agree on positions.**  A padded text is as long as was asked
for, or as the text itself if that is longer.  The text stands at the end of what was filled up at
the start, and at the start of what was filled up at the end.  Padding twice is padding once to the
greater length.  Ranges of a text that meet make up one range, even if the second one ends behind
the text, and only a range that begins behind its end fails. -/
theorem pad_and_substring_agree (text : String) (length longer : Nat) (character : Char) :
    (∀ direction, (pad text length character direction).length = max text.length length) ∧
    (substring (pad text length character .start) (max text.length length - text.length)
      (max text.length length)).result = .ok text ∧
    (substring (pad text length character .end_) 0 text.length).result = .ok text ∧
    (∀ direction, pad (pad text length character direction) longer character direction =
      pad text (max length longer) character direction) ∧
    (∀ i j k, i ≤ j → j ≤ text.length → j ≤ k →
      ∃ front back, (substring text i j).result = .ok front ∧
        (substring text j k).result = .ok back ∧
        (substring text i k).result = .ok (front ++ back)) ∧
    ∀ first last, (∃ fault, (substring text first last).result = .error fault) ↔
      min last text.length < first := by
  refine ⟨fun _ => length_pad text, substring_pad_start text, substring_pad_end text,
    fun _ => pad_pad text, ?_, fun _ _ => substring_fails_iff⟩
  intro i j k hij hj hjk
  have hstop : j ≤ min k text.length := Nat.le_min.mpr ⟨hjk, hj⟩
  refine ⟨_, _, result_substring_of_le (Nat.le_min.mpr ⟨hij, Nat.le_trans hij hj⟩),
    result_substring_of_le hstop, ?_⟩
  rw [result_substring_of_le (Nat.le_trans hij hstop), Nat.min_eq_left hj, ← String.ofList_append,
    sliceChars_append_sliceChars hij hstop]

/-- Characters of several bytes, and a second range that ends behind the text. -/
theorem pad_and_substring_agree_name :
    1 ≤ 3 ∧ 3 ≤ "Zoë😀".length ∧ 3 ≤ 9 ∧
      ∃ front back, (substring "Zoë😀" 1 3).result = .ok front ∧
        (substring "Zoë😀" 3 9).result = .ok back ∧
        (substring "Zoë😀" 1 9).result = .ok (front ++ back) := by
  obtain ⟨-, -, -, -, hranges, -⟩ := pad_and_substring_agree "Zoë😀" 6 9 '0'
  exact ⟨by decide, by decide, by decide, hranges 1 3 9 (by decide) (by decide) (by decide)⟩

end Remodel.Operators
