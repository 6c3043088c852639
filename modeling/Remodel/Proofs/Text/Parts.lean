import Remodel.Text.Parts

/-!
# Cutting at a delimiter

The parts of a text, joined by the delimiter they were cut at, are the text again (`join_parts`),
whatever the delimiter.  The delimiter does not occur in them, if it is not empty
(`not_isInfix_of_mem_parts`).

Cutting a text at a delimiter of one character is splitting a list at an element (`cut_singleton`),
so that the laws of `List.splitOn` hold.  Texts that do not have the character are the parts of what
they are joined to by it (`parts_join`).  To replace a character is to write the text anew, one
character after the other (`toList_replace_singleton`).
-/

namespace Remodel.Text

theorem consHead_ne_nil (c : Char) (parts : List (List Char)) : consHead c parts ≠ [] := by
  cases parts <;> exact List.cons_ne_nil _ _

/-! ## Joining the parts -/

section Joining

variable {delimiter text part : List Char}

theorem joinParts_cons (part : List Char) {parts : List (List Char)} (h : parts ≠ []) :
    joinParts delimiter (part :: parts) = part ++ delimiter ++ joinParts delimiter parts := by
  cases parts with
  | nil => exact absurd rfl h
  | cons _ _ => rfl

theorem joinParts_consHead (c : Char) (parts : List (List Char)) :
    joinParts delimiter (consHead c parts) = c :: joinParts delimiter parts := by
  cases parts with
  | nil => rfl
  | cons part rest =>
      cases rest with
      | nil => rfl
      | cons _ _ => rfl

theorem joinParts_nil_eq_flatten (parts : List (List Char)) :
    joinParts [] parts = parts.flatten := by
  induction parts with
  | nil => rfl
  | cons part rest ih =>
      by_cases hrest : rest = []
      · subst hrest
        simp [joinParts]
      · rw [joinParts_cons part hrest, ih, List.append_nil, List.flatten_cons]

theorem joinParts_eq_intercalate (parts : List (List Char)) :
    joinParts delimiter parts = delimiter.intercalate parts := by
  induction parts with
  | nil => rfl
  | cons part rest ih =>
      cases rest with
      | nil => simp [joinParts, List.intercalate]
      | cons next others =>
          rw [joinParts_cons part (List.cons_ne_nil _ _), ih]
          simp [List.intercalate, List.append_assoc]

/-- What is passed over first is missing, and all else is there. -/
theorem joinParts_cut (hne : delimiter ≠ []) (skip : Nat) (text : List Char) :
    joinParts delimiter (cut delimiter skip text) = text.drop skip := by
  induction text generalizing skip with
  | nil => simp [cut, joinParts]
  | cons c rest ih =>
      cases skip with
      | succ skip => exact ih skip
      | zero =>
          rw [cut]
          split
          · -- the occurrence is its first character and what is passed over
            rename_i hoccurs
            obtain ⟨behind, hbehind⟩ := List.isPrefixOf_iff_prefix.mp hoccurs
            obtain ⟨first, others, rfl⟩ := List.exists_cons_of_ne_nil hne
            obtain ⟨rfl, rfl⟩ := List.cons.inj hbehind
            rw [joinParts_cons [] (cut_ne_nil _ _ _), ih]
            simp
          · rw [joinParts_consHead, ih]
            rfl

theorem joinParts_partsOf (delimiter text : List Char) :
    joinParts delimiter (partsOf delimiter text) = text := by
  cases delimiter with
  | nil =>
      rw [partsOf, joinParts_nil_eq_flatten]
      simp [← List.flatMap_def]
  | cons d ds => exact joinParts_cut (List.cons_ne_nil d ds) 0 text

theorem isPrefix_of_cut_eq_cons {others : List (List Char)} (hne : delimiter ≠ [])
    (h : cut delimiter 0 text = part :: others) : part <+: text := by
  have hjoin := joinParts_cut hne 0 text
  rw [h, List.drop_zero] at hjoin
  by_cases hothers : others = []
  · subst hothers
    exact hjoin ▸ List.prefix_refl _
  · rw [joinParts_cons part hothers, List.append_assoc] at hjoin
    exact hjoin ▸ List.prefix_append ..

/-- A delimiter that is not empty does not occur in the parts. -/
theorem not_isInfix_of_mem_cut (hne : delimiter ≠ []) {skip : Nat}
    (h : part ∈ cut delimiter skip text) : ¬ delimiter <:+: part := by
  induction text generalizing skip part with
  | nil =>
      cases skip <;> rw [cut, List.mem_singleton] at h <;> subst h <;>
        exact fun hinfix => hne (List.infix_nil.mp hinfix)
  | cons c rest ih =>
      cases skip with
      | succ skip => exact ih h
      | zero =>
          rw [cut] at h
          split at h
          · rcases List.mem_cons.mp h with rfl | h
            · exact fun hinfix => hne (List.infix_nil.mp hinfix)
            · exact ih h
          · rename_i hnone
            cases hcut : cut delimiter 0 rest with
            | nil => exact absurd hcut (cut_ne_nil _ _ _)
            | cons first others =>
                rw [hcut, consHead] at h
                rcases List.mem_cons.mp h with rfl | h
                · -- at the front it would be an occurrence of the text
                  intro hinfix
                  rcases List.infix_cons_iff.mp hinfix with hfront | hlater
                  · have hprefix : c :: first <+: c :: rest :=
                      List.cons_prefix_cons.mpr ⟨rfl, isPrefix_of_cut_eq_cons hne hcut⟩
                    exact hnone (List.isPrefixOf_iff_prefix.mpr (hfront.trans hprefix))
                  · exact ih (hcut ▸ List.mem_cons_self ..) hlater
                · exact ih (hcut ▸ List.mem_cons_of_mem _ h)

end Joining

/-! ## Cutting at a character -/

variable {delimiter : Char} {text part : List Char}

theorem consHead_eq (c : Char) {parts : List (List Char)} (h : parts ≠ []) :
    consHead c parts = parts.modifyHead (List.cons c) := by
  cases parts with
  | nil => exact absurd rfl h
  | cons part rest => rfl

theorem cut_singleton (delimiter : Char) (text : List Char) :
    cut [delimiter] 0 text = text.splitOn delimiter := by
  induction text with
  | nil => rfl
  | cons c rest ih =>
      have hdelimiter : [delimiter].isPrefixOf (c :: rest) = (c == delimiter) := by
        rw [List.isPrefixOf_cons_cons, List.isPrefixOf_nil_left, Bool.and_true]
        exact BEq.comm
      rw [cut, hdelimiter, List.splitOn_cons_eq_if_modifyHead,
        consHead_eq c (cut_ne_nil [delimiter] 0 rest), ih]
      split
      · exact congrArg _ ih
      · rfl

/-- The parts that a text is cut into do not have the delimiter. -/
theorem notMem_of_mem_splitOn (h : part ∈ text.splitOn delimiter) : delimiter ∉ part := by
  induction text generalizing part with
  | nil =>
      rw [List.splitOn_nil, List.mem_singleton] at h
      exact h ▸ List.not_mem_nil
  | cons c rest ih =>
      rw [List.splitOn_cons_eq_if_modifyHead] at h
      split at h
      · rcases List.mem_cons.mp h with rfl | h
        · exact List.not_mem_nil
        · exact ih h
      · rename_i hother
        obtain ⟨first, others, hparts⟩ := List.exists_cons_of_ne_nil
          (List.splitOn_ne_nil delimiter rest)
        rw [hparts, List.modifyHead_cons] at h
        rcases List.mem_cons.mp h with rfl | h
        · have hfirst := ih (hparts ▸ List.mem_cons_self ..)
          rw [List.mem_cons, not_or]
          exact ⟨fun heq => hother (heq ▸ BEq.rfl), hfirst⟩
        · exact ih (hparts ▸ List.mem_cons_of_mem _ h)

/-! ## Parts of texts -/

section Parts

variable {text delimiter part : String}

theorem map_toList_parts (delimiter text : String) :
    (parts delimiter text).map String.toList = partsOf delimiter.toList text.toList := by
  rw [parts, List.map_map]
  exact (List.map_congr_left fun part _ => String.toList_ofList).trans (List.map_id _)

/-- **Joining the parts of a text gives the text.** -/
theorem join_parts (delimiter text : String) : join delimiter (parts delimiter text) = text := by
  rw [join, map_toList_parts, joinParts_partsOf, String.ofList_toList]

theorem not_isInfix_of_mem_parts (hne : delimiter ≠ "") (h : part ∈ parts delimiter text) :
    ¬ delimiter.toList <:+: part.toList := by
  have hchars : delimiter.toList ≠ [] := fun hnil => hne (String.toList_eq_nil_iff.mp hnil)
  have hpart : part.toList ∈ partsOf delimiter.toList text.toList :=
    map_toList_parts delimiter text ▸ List.mem_map_of_mem h
  obtain ⟨first, others, hfirst⟩ := List.exists_cons_of_ne_nil hchars
  rw [hfirst] at hpart ⊢
  exact not_isInfix_of_mem_cut (List.cons_ne_nil first others) hpart

/-- Texts are found again as the parts of what they are joined to by a character that none of them
has. -/
theorem parts_join {texts : List String} {c : Char} (hne : texts ≠ [])
    (hfree : ∀ text ∈ texts, c ∉ text.toList) :
    parts (String.singleton c) (join (String.singleton c) texts) = texts := by
  have hlists : ∀ part ∈ texts.map String.toList, c ∉ part := List.forall_mem_map.mpr hfree
  rw [parts, join, String.toList_ofList, String.toList_singleton, joinParts_eq_intercalate, partsOf,
    cut_singleton, List.splitOn_intercalate c hlists (by simpa using hne), List.map_map]
  · exact (List.map_congr_left fun text _ => String.ofList_toList).trans (List.map_id _)
  · exact List.cons_ne_nil c []

/-- To replace a character is to write the new text or the character, one by one. -/
theorem toList_replace_singleton (old : Char) (new text : String) :
    (replace (String.singleton old) new text).toList =
      text.toList.flatMap fun c => if c = old then new.toList else [c] := by
  rw [replace, join, String.toList_ofList, map_toList_parts, String.toList_singleton]
  change joinParts new.toList (cut [old] 0 text.toList) = _
  induction text.toList with
  | nil => rfl
  | cons c rest ih =>
      have hoccurs : [old].isPrefixOf (c :: rest) = true ↔ c = old := by
        rw [List.isPrefixOf_cons_cons, List.isPrefixOf_nil_left, Bool.and_true, beq_iff_eq]
        exact eq_comm
      rw [List.flatMap_cons, ← ih, cut]
      by_cases hold : c = old
      · rw [if_pos (hoccurs.mpr hold), if_pos hold, joinParts_cons [] (cut_ne_nil _ _ _)]
        rfl
      · rw [if_neg fun h => hold (hoccurs.mp h), if_neg hold, joinParts_consHead]
        rfl

end Parts

end Remodel.Text
