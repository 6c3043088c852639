import Mathlib.Data.List.Forall2
import Remodel.Proofs.Model.Relabelling
import Remodel.Proofs.Trace
import Remodel.Transform.Perform

/-!
# What steps compute

A step sees nothing of a state but what its source fields read as.  So two steps with the same
operation and the same parameters compute alike values, or fail alike, where their source fields
read alike one after another (`SeesAlike`, `compute_related`); the fields may have other names, and
the rest of the states may be anything.

What it means that faults are alike is left open.  The faults of an operation itself, which speak of
its parameters and of the text that it was given, are the same on both sides; those of reading name
a field.  With faults that are never related to themselves, being alike on both sides says that
these faults do not occur.

## Strategy

* `Related` is carried through a sequence of computations by `Related.bind`.
* What an operation does with a text has only faults of its own (`OwnFault`): one lemma for each
  function that can fail, joined by `FaultsIn.bind`.
* The operations that look at a value look at its text, its measure or its kind, which do not depend
  on labels.
-/

namespace Remodel

/-! ## Results that are alike -/

section Related

variable {ε ε' α β γ δ : Type} {faults : ε → ε' → Prop}

/-- Two results are faults of which the one is related to the other, or such values. -/
inductive Related (faults : ε → ε' → Prop) (values : α → β → Prop) :
    Except ε α → Except ε' β → Prop
  | error {fault : ε} {other : ε'} (h : faults fault other) :
      Related faults values (.error fault) (.error other)
  | ok {a : α} {b : β} (h : values a b) : Related faults values (.ok a) (.ok b)

theorem Related.bind {values : α → β → Prop} {results : γ → δ → Prop} {first : Except ε α}
    {second : Except ε' β} {next : α → Except ε γ} {other : β → Except ε' δ}
    (h : Related faults values first second)
    (hnext : ∀ a b, values a b → Related faults results (next a) (other b)) :
    Related faults results (first >>= next) (second >>= other) := by
  cases h with
  | error hfault => exact .error hfault
  | ok hvalues => exact hnext _ _ hvalues

theorem Related.map_eq {values : α → β → Prop} {f : α → γ} {g : β → γ} {first : Except ε α}
    {second : Except ε β} (h : Related Eq values first second)
    (hvalues : ∀ a b, values a b → f a = g b) : f <$> first = g <$> second := by
  cases h with
  | error hfault => rw [hfault, map_error, map_error]
  | ok hvalue => exact congrArg Except.ok (hvalues _ _ hvalue)

/-- Whatever fault a result is, it is one of these. -/
def FaultsIn (among : ε → Prop) (result : Except ε α) : Prop :=
  ∀ fault, result = .error fault → among fault

variable {among : ε → Prop}

theorem faultsIn_ok (a : α) : FaultsIn among (.ok a : Except ε α) := by
  intro fault h
  cases h

theorem faultsIn_error {fault : ε} (h : among fault) :
    FaultsIn among (.error fault : Except ε α) := by
  intro other hother
  rwa [← Except.error.inj hother]

theorem FaultsIn.bind {first : Except ε α} {next : α → Except ε β} (h : FaultsIn among first)
    (hnext : ∀ a, FaultsIn among (next a)) : FaultsIn among (first >>= next) := by
  cases first with
  | error fault => exact faultsIn_error (h fault rfl)
  | ok a => exact hnext a

theorem FaultsIn.related {faults : ε → ε → Prop} {values : α → α → Prop} {result : Except ε α}
    (h : FaultsIn among result) (hfaults : ∀ fault, among fault → faults fault fault)
    (hvalues : ∀ a, values a a) : Related faults values result result := by
  cases result with
  | error fault => exact .error (hfaults fault (h fault rfl))
  | ok a => exact .ok (hvalues a)

/-- A result that is related to another one has a fault of the left side of the relation. -/
theorem Related.faultsIn {values : α → β → Prop} {first : Except ε α} {second : Except ε' β}
    (h : Related (fun fault _ => among fault) values first second) : FaultsIn among first := by
  cases h with
  | error hfault => exact faultsIn_error hfault
  | ok _ => exact faultsIn_ok _

end Related

/-! ## Faults of operations -/

/-- Whether a fault says that the step itself lacks a field. -/
def StepFault.isIncomplete : StepFault → Bool
  | missingSource => true
  | missingTarget => true
  | _ => false

/-- A fault that is not about the fields of the step. -/
def OwnFault (fault : StepFault) : Prop := fault.isIncomplete = false

theorem Params.own_required (params : Params) (name : String) :
    FaultsIn OwnFault (params.required name) := by
  rw [required]
  cases params.optional name with
  | some value => exact faultsIn_ok value
  | none => exact faultsIn_error rfl

theorem Params.own_requiredIndex (params : Params) (name : String) :
    FaultsIn OwnFault (params.requiredIndex name) := by
  refine (own_required params name).bind fun text => ?_
  cases index? text with
  | some index => exact faultsIn_ok index
  | none => exact faultsIn_error rfl

theorem TransformState.own_padCharacter (params : Params) :
    FaultsIn OwnFault (padCharacter params) := by
  unfold padCharacter
  cases params.optional "character" with
  | none => exact faultsIn_ok ' '
  | some text =>
      dsimp only
      cases text.toList with
      | nil => exact faultsIn_error rfl
      | cons c rest => exact faultsIn_ok c

theorem PadDirection.own_parse (text : String) : FaultsIn OwnFault (parse text) := by
  unfold parse
  dsimp only
  split
  · exact faultsIn_ok start
  · split
    · exact faultsIn_ok end_
    · exact faultsIn_error rfl

theorem TransformState.own_padDirection (params : Params) :
    FaultsIn OwnFault (padDirection params) := by
  unfold padDirection
  cases params.optional "direction" with
  | none => exact faultsIn_ok PadDirection.start
  | some text => exact PadDirection.own_parse text

namespace Operators

theorem own_compilePattern (pattern : String) : FaultsIn OwnFault (compilePattern pattern) := by
  unfold compilePattern
  cases Pattern.parse? pattern with
  | some tree => exact faultsIn_ok _
  | none => exact faultsIn_error rfl

theorem own_splitRegex (text pattern : String) (index : Nat) :
    FaultsIn OwnFault (splitRegex text pattern index) := by
  refine (own_compilePattern pattern).bind fun program => ?_
  dsimp only
  cases (program.matchesIn text.toList)[index]? with
  | some found => exact faultsIn_ok _
  | none => exact faultsIn_error rfl

theorem own_substring (text : String) (first last : Nat) :
    FaultsIn OwnFault (substring text first last).result := by
  have hcut : ∀ stop : Nat, FaultsIn OwnFault (Attempt.result (ε := StepFault) (do
      if stop < first then throw (.invalidRange first stop text.toList.length)
      return String.ofList (sliceChars text.toList first stop))) := by
    intro stop
    split
    · exact faultsIn_error rfl
    · exact faultsIn_ok _
  unfold substring
  dsimp only
  split
  · simpa using hcut text.toList.length
  · simpa using hcut last

theorem own_removeLeading (text pattern : String) (limit : Option Nat) :
    FaultsIn OwnFault (removeLeading text pattern limit) := by
  refine (own_compilePattern pattern).bind fun program => ?_
  dsimp only
  split
  · exact faultsIn_ok _
  · exact faultsIn_ok text

theorem own_instantiate (text targetType : String) :
    FaultsIn OwnFault (instantiate text targetType) := by
  unfold instantiate
  dsimp only
  split_ifs
  · exact faultsIn_ok _
  -- a number or a truth value is read, or the text spells none
  iterate 3
    · split
      · exact faultsIn_ok _
      · exact faultsIn_error rfl
  · exact faultsIn_error rfl

end Operators

/-! ## Steps that see alike fields -/

/-- Two values are the same but for the labels in them. -/
def AlikeValues (labels : Option Nat → Option Nat) (v w : Value) : Prop :=
  relabel labels v = relabel labels w

/-- Two steps compute nothing, or values that are the same but for the labels in them. -/
def AlikeComputed (labels : Option Nat → Option Nat) (x y : Option Value) : Prop :=
  x.map (relabel labels) = y.map (relabel labels)

theorem alikeComputed_id_iff {x y : Option Value} : AlikeComputed id x y ↔ x = y := by
  rw [AlikeComputed, show relabel id = id from funext relabel_id, Option.map_id, id, id]

namespace TransformState

variable {faults : StepFault → StepFault → Prop} {labels : Option Nat → Option Nat}
  {a b : TransformState} {step other : Step}

/-- The text of a value that must be one. -/
def textOf (field : String) : Value → Except StepFault String
  | .string s => .ok s
  | other => .error (.notText field other.kindText)

theorem textOf_relabel (field : String) (value : Value) :
    textOf field (relabel labels value) = textOf field value := by
  cases value <;> rfl

theorem readText_eq_bind (state : TransformState) (field : String) :
    state.readText field = state.read field >>= textOf field := by
  rw [readText]
  cases state.read field with
  | error fault => rfl
  | ok value => cases value <;> rfl

/-- A field of one state reads as a field of another one, also as a text. -/
structure ReadsAlike (faults : StepFault → StepFault → Prop) (labels : Option Nat → Option Nat)
    (a b : TransformState) (field name : String) : Prop where
  value : Related faults (AlikeValues labels) (a.read field) (b.read name)
  notText : ∀ kind, faults (.notText field kind) (.notText name kind)

/-- Two steps apply the same operation to source fields that read alike. -/
structure SeesAlike (faults : StepFault → StepFault → Prop) (labels : Option Nat → Option Nat)
    (a b : TransformState) (step other : Step) : Prop where
  operation : other.operation = step.operation
  params : other.params = step.params
  sources : List.Forall₂ (ReadsAlike faults labels a b) step.sources other.sources
  lacking : step.operation.readsSource = true → step.sources = [] →
    faults .missingSource .missingSource
  own : ∀ fault, OwnFault fault → faults fault fault

theorem related_textOf {field name : String} {v w : Value} (hvw : AlikeValues labels v w)
    (hfault : ∀ kind, faults (.notText field kind) (.notText name kind)) :
    Related faults Eq (textOf field v) (textOf name w) := by
  rw [← eq_of_relabel_eq (textOf_relabel name) hvw]
  cases v with
  | string s => exact .ok rfl
  | _ => exact .error (hfault _)

theorem ReadsAlike.readText {field name : String} (h : ReadsAlike faults labels a b field name) :
    Related faults Eq (a.readText field) (b.readText name) := by
  rw [readText_eq_bind, readText_eq_bind]
  exact h.value.bind fun v w hvw => related_textOf hvw h.notText

theorem SeesAlike.leading (h : SeesAlike faults labels a b step other)
    (hreads : step.operation.readsSource = true) :
    Related faults (ReadsAlike faults labels a b) (leadingSource step) (leadingSource other) := by
  have hsources := h.sources
  unfold leadingSource
  cases hstep : step.sources with
  | nil =>
      rw [hstep, List.forall₂_nil_left_iff] at hsources
      rw [hsources]
      exact .error (h.lacking hreads hstep)
  | cons field rest =>
      rw [hstep, List.forall₂_cons_left_iff] at hsources
      obtain ⟨name, others, hfield, -, hother⟩ := hsources
      rw [hother]
      exact .ok hfield

theorem SeesAlike.value (h : SeesAlike faults labels a b step other)
    (hreads : step.operation.readsSource = true) :
    Related faults (AlikeValues labels) (a.sourceValue step) (b.sourceValue other) :=
  (h.leading hreads).bind fun _ _ hfield => hfield.value

theorem SeesAlike.text (h : SeesAlike faults labels a b step other)
    (hreads : step.operation.readsSource = true) :
    Related faults Eq (a.sourceText step) (b.sourceText other) :=
  (h.leading hreads).bind fun _ _ hfield => hfield.readText

/-- What an operation computes from a text has only faults of its own. -/
theorem SeesAlike.bind_text (h : SeesAlike faults labels a b step other)
    (hreads : step.operation.readsSource = true)
    {next : String → Except StepFault (Option Value)}
    (hown : ∀ text, FaultsIn OwnFault (next text)) :
    Related faults (AlikeComputed labels) (a.sourceText step >>= next)
      (b.sourceText other >>= next) := by
  refine (h.text hreads).bind fun text same hsame => ?_
  obtain rfl := hsame
  exact (hown text).related h.own fun _ => rfl

/-- The text of a field that can be read. -/
def displayed? (state : TransformState) (field : String) : Option String :=
  match state.read field with
  | .ok value => some value.display
  | .error _ => none

theorem ReadsAlike.displayed?_eq {field name : String}
    (h : ReadsAlike faults labels a b field name) : a.displayed? field = b.displayed? name := by
  have hvalue := h.value
  unfold displayed?
  generalize a.read field = first at hvalue
  generalize b.read name = second at hvalue
  cases hvalue with
  | error _ => rfl
  | ok hvalues => exact congrArg some (eq_of_relabel_eq (display_relabel labels) hvalues)

theorem SeesAlike.displayed?_eq (h : SeesAlike faults labels a b step other) :
    step.sources.filterMap a.displayed? = other.sources.filterMap b.displayed? := by
  have hsources := h.sources
  generalize step.sources = fields at hsources
  generalize other.sources = names at hsources
  induction hsources with
  | nil => rfl
  | cons hfield _ ih =>
      rw [List.filterMap_cons, List.filterMap_cons, hfield.displayed?_eq, ih]

/-- Steps whose source fields read alike compute alike. -/
theorem compute_related (h : SeesAlike faults labels a b step other) :
    Related faults (AlikeComputed labels) (a.compute step).result (b.compute other).result := by
  have hoperation := h.operation
  have hvalue := h.value
  have htext {next : String → Except StepFault (Option Value)} :
      step.operation.readsSource = true → (∀ text, FaultsIn OwnFault (next text)) →
        Related faults (AlikeComputed labels) (a.sourceText step >>= next)
          (b.sourceText other >>= next) :=
    fun hreads hown => h.bind_text hreads hown
  unfold compute
  rw [hoperation, h.params]
  cases hstep : step.operation <;>
    simp only [hstep, Attempt.result_bind, Attempt.result_except, Attempt.result_traced,
      Attempt.result_pure, ok_bind] at hvalue htext ⊢
  case forward => exact (hvalue rfl).bind fun v w hvw => .ok (congrArg some hvw)
  case concat =>
    -- the one operation that reads all its sources, whether or not they can be read
    change Related faults _
      (.ok (some (Value.string (Operators.concat (step.sources.filterMap a.displayed?) _))))
      (.ok (some (Value.string (Operators.concat (other.sources.filterMap b.displayed?) _))))
    rw [h.displayed?_eq]
    exact .ok rfl
  case map =>
    refine (hvalue rfl).bind fun v w hvw => ?_
    rw [eq_of_relabel_eq (display_relabel labels) hvw]
    cases Params.optional step.params w.display with
    | some mapped => exact .ok rfl
    | none => exact .ok (congrArg some hvw)
  case value =>
    cases Params.optional step.params "value" with
    | some literal => exact .ok rfl
    | none => exact .ok rfl
  case length =>
    refine (hvalue rfl).bind fun v w hvw => ?_
    have hmeasure : ∀ function, v.measure? function = w.measure? function := fun function =>
      eq_of_relabel_eq (f := fun value => value.measure? function)
        (fun value => measure?_relabel labels value function) hvw
    rw [hmeasure]
    cases w.measure? ((Params.optional step.params "lengthFunction").getD "length") with
    | some n => exact .ok rfl
    | none => exact .ok rfl
  -- the others see the text of their first source only
  case split =>
    exact htext rfl fun text => (Params.own_required _ _).bind fun _ => faultsIn_ok _
  case splitRegex =>
    exact htext rfl fun text => (Params.own_required _ _).bind fun _ =>
      (Operators.own_splitRegex _ _ _).bind fun _ => faultsIn_ok _
  case substring =>
    exact htext rfl fun text => (Operators.own_substring _ _ _).bind fun _ => faultsIn_ok _
  case replace =>
    exact htext rfl fun text => (Params.own_required _ _).bind fun _ => faultsIn_ok _
  case pad =>
    exact htext rfl fun text => (Params.own_requiredIndex _ _).bind fun _ =>
      (own_padCharacter _).bind fun _ => (own_padDirection _).bind fun _ => faultsIn_ok _
  case removeLeading =>
    exact htext rfl fun text => (Params.own_required _ _).bind fun _ =>
      (Operators.own_removeLeading _ _ _).bind fun _ => faultsIn_ok _
  case instantiate =>
    exact htext rfl fun text => (Params.own_required _ _).bind fun _ =>
      (Operators.own_instantiate _ _).bind fun _ => faultsIn_ok _
  all_goals exact htext rfl fun text => faultsIn_ok _

end TransformState

end Remodel
