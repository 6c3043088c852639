import Mathlib.Data.List.Forall2
import Remodel.Trace

/-!
# Results without notices

What a computation that reports notices and may fail gives, its notices left aside: the laws of
`Attempt.result` for each way of putting computations together.
-/

namespace Remodel

variable {ε α β : Type}

/-! ## Results that may be faults -/

@[simp] theorem pure_eq_ok (a : α) : (pure a : Except ε α) = .ok a := rfl

@[simp] theorem ok_bind (a : α) (next : α → Except ε β) : (Except.ok a >>= next) = next a := rfl

@[simp] theorem error_bind (fault : ε) (next : α → Except ε β) :
    (Except.error fault >>= next) = .error fault := rfl

@[simp] theorem map_ok (f : α → β) (a : α) : f <$> (Except.ok a : Except ε α) = .ok (f a) := rfl

@[simp] theorem map_error (f : α → β) (fault : ε) :
    f <$> (Except.error fault : Except ε α) = .error fault := rfl

theorem bind_eq_ok {first : Except ε α} {next : α → Except ε β} {b : β}
    (h : first >>= next = .ok b) : ∃ a, first = .ok a ∧ next a = .ok b := by
  cases first with
  | error fault => simp at h
  | ok a => exact ⟨a, rfl, h⟩

@[simp] theorem mapError_ok {ε' : Type} (f : ε → ε') (a : α) :
    (Except.ok a : Except ε α).mapError f = .ok a := rfl

@[simp] theorem mapError_error {ε' : Type} (f : ε → ε') (fault : ε) :
    (Except.error fault : Except ε α).mapError f = .error (f fault) := rfl

theorem except_map_eq_ok_iff {f : α → β} {result : Except ε α} {b : β} :
    result.map f = .ok b ↔ ∃ a, result = .ok a ∧ f a = b := by
  cases result <;> simp [Except.map]

theorem except_map_eq_error_iff {f : α → β} {result : Except ε α} {fault : ε} :
    result.map f = .error fault ↔ result = .error fault := by
  cases result <;> simp [Except.map]

theorem isOk_iff {result : Except ε α} : result.isOk = true ↔ ∃ a, result = .ok a := by
  cases result <;> simp [Except.isOk, Except.toBool]

theorem isOk_eq_false_iff {result : Except ε α} :
    result.isOk = false ↔ ∃ fault, result = .error fault := by
  cases result <;> simp [Except.isOk, Except.toBool]

theorem mapError_eq_ok {ε' : Type} {result : Except ε α} {f : ε → ε'} {a : α}
    (h : result.mapError f = .ok a) : result = .ok a := by
  cases result with
  | error fault => cases h
  | ok found => rw [Except.ok.inj h]

/-! ## Results of several steps -/

theorem exists_of_forall₂ {R : α → β → Prop} {as : List α} {bs : List β}
    (h : List.Forall₂ R as bs) {a : α} (ha : a ∈ as) : ∃ b ∈ bs, R a b := by
  induction h with
  | nil => simp at ha
  | cons hfirst _ ih =>
      rcases List.mem_cons.mp ha with rfl | ha
      · exact ⟨_, List.mem_cons_self .., hfirst⟩
      · obtain ⟨b, hb, hab⟩ := ih ha
        exact ⟨b, List.mem_cons_of_mem _ hb, hab⟩

theorem exists_forall₂ {R : α → β → Prop} {as : List α} (h : ∀ a ∈ as, ∃ b, R a b) :
    ∃ bs, List.Forall₂ R as bs := by
  induction as with
  | nil => exact ⟨[], List.Forall₂.nil⟩
  | cons a rest ih =>
      obtain ⟨⟨b, hb⟩, hrest⟩ := List.forall_mem_cons.mp h
      obtain ⟨bs, hbs⟩ := ih hrest
      exact ⟨b :: bs, List.Forall₂.cons hb hbs⟩

section Steps

variable {f g : α → Except ε β}

/-- The results of several steps are those of the single ones, in their order. -/
theorem mapM_eq_ok_iff {items : List α} {results : List β} :
    items.mapM f = .ok results ↔ List.Forall₂ (fun item b => f item = .ok b) items results := by
  induction items generalizing results with
  | nil =>
      rw [List.forall₂_nil_left_iff]
      exact ⟨fun h => (Except.ok.inj h).symm, fun h => h ▸ rfl⟩
  | cons item rest ih =>
      rw [List.mapM_cons]
      constructor
      · intro h
        obtain ⟨first, hfirst, h⟩ := bind_eq_ok h
        obtain ⟨others, hothers, h⟩ := bind_eq_ok h
        obtain rfl := Except.ok.inj h
        exact List.Forall₂.cons hfirst (ih.mp hothers)
      · rintro (_ | ⟨hfirst, hrest⟩)
        rw [hfirst, ok_bind, ih.mpr hrest]
        rfl

theorem length_of_mapM {items : List α} {results : List β} (h : items.mapM f = .ok results) :
    results.length = items.length :=
  (mapM_eq_ok_iff.mp h).length_eq.symm

/-- Where there are results, every step has one. -/
theorem exists_of_mapM_eq_ok {items : List α} {results : List β} (h : items.mapM f = .ok results)
    {item : α} (hitem : item ∈ items) : ∃ b, f item = .ok b := by
  obtain ⟨b, -, hb⟩ := exists_of_forall₂ (mapM_eq_ok_iff.mp h) hitem
  exact ⟨b, hb⟩

theorem mapM_cons_eq_error_iff {first : α} {rest : List α} {fault : ε} :
    (first :: rest).mapM f = .error fault ↔
      f first = .error fault ∨ (∃ b, f first = .ok b) ∧ rest.mapM f = .error fault := by
  rw [List.mapM_cons]
  cases f first with
  | error other => simp
  | ok b => cases rest.mapM f <;> simp

/-- The first step that has a fault ends the whole. -/
theorem mapM_eq_error_iff {items : List α} {fault : ε} : items.mapM f = .error fault ↔
    ∃ before item after, items = before ++ item :: after ∧
      (∀ earlier ∈ before, ∃ b, f earlier = .ok b) ∧ f item = .error fault := by
  induction items with
  | nil =>
      constructor
      · intro h
        cases h
      · rintro ⟨before, item, after, hsplit, -⟩
        exact absurd hsplit.symm (by simp)
  | cons first rest ih =>
      rw [mapM_cons_eq_error_iff, ih]
      constructor
      · rintro (hfirst | ⟨hfirst, before, item, after, rfl, hbefore, hitem⟩)
        · exact ⟨[], first, rest, rfl, fun _ h => absurd h List.not_mem_nil, hfirst⟩
        · exact ⟨first :: before, item, after, rfl, List.forall_mem_cons.mpr ⟨hfirst, hbefore⟩,
            hitem⟩
      · rintro ⟨before, item, after, hsplit, hbefore, hitem⟩
        cases before with
        | nil =>
            obtain ⟨rfl, -⟩ := List.cons.inj hsplit
            exact Or.inl hitem
        | cons head tail =>
            obtain ⟨rfl, hrest⟩ := List.cons.inj hsplit
            obtain ⟨hhead, htail⟩ := List.forall_mem_cons.mp hbefore
            exact Or.inr ⟨hhead, tail, item, after, hrest, htail, hitem⟩

/-- A step that has a fault decides the whole where no step before it has another one. -/
theorem mapM_append_cons_eq_error {before after : List α} {item : α} {fault : ε}
    (hbefore : ∀ earlier ∈ before, (∃ b, f earlier = .ok b) ∨ f earlier = .error fault)
    (hitem : f item = .error fault) : (before ++ item :: after).mapM f = .error fault := by
  induction before with
  | nil => exact mapM_cons_eq_error_iff.mpr (Or.inl hitem)
  | cons first rest ih =>
      obtain ⟨hfirst, hrest⟩ := List.forall_mem_cons.mp hbefore
      rw [List.cons_append, mapM_cons_eq_error_iff]
      rcases hfirst with hok | hfault
      · exact Or.inr ⟨hok, ih hrest⟩
      · exact Or.inl hfault

/-- Steps that agree as long as there is no such fault give the same if there is none. -/
theorem mapM_eq_of_ne {fault : ε} (hagree : ∀ item, f item ≠ .error fault → g item = f item)
    {items : List α} (h : items.mapM f ≠ .error fault) : items.mapM g = items.mapM f := by
  induction items with
  | nil => rfl
  | cons first rest ih =>
      rw [Ne, mapM_cons_eq_error_iff, not_or, not_and] at h
      rw [List.mapM_cons, List.mapM_cons, hagree first h.1]
      cases hfirst : f first with
      | error other => rfl
      | ok b => rw [ok_bind, ok_bind, ih (h.2 ⟨b, hfirst⟩)]

end Steps

/-! ## Results of attempts -/

namespace Attempt

@[simp] theorem result_pure (a : α) : Attempt.result (pure a : Attempt ε α) = .ok a := rfl

@[simp] theorem result_throw (fault : ε) :
    Attempt.result (throw fault : Attempt ε α) = .error fault := rfl

@[simp] theorem result_bind (first : Attempt ε α) (next : α → Attempt ε β) :
    Attempt.result (first >>= next) = first.result >>= fun a => (next a).result := by
  cases h : first.result with
  | ok a =>
      have hvalue : first.run.value = .ok a := h
      simp only [Attempt.result, ExceptT.run_bind, Traced.value_bind, hvalue]
      rfl
  | error fault =>
      have hvalue : first.run.value = .error fault := h
      simp only [Attempt.result, ExceptT.run_bind, Traced.value_bind, hvalue]
      rfl

/-- Reporting a notice never fails. -/
@[simp] theorem result_note (notice : Notice) :
    Attempt.result (Traced.note notice : Attempt ε Unit) = .ok () := rfl

@[simp] theorem result_traced (traced : Traced α) :
    Attempt.result (traced : Attempt ε α) = .ok traced.value := rfl

@[simp] theorem result_except (value : Except ε α) :
    Attempt.result (value : Attempt ε α) = value := by
  cases value <;> rfl

/-- A fault that is caught, reported and thrown again stays the same. -/
theorem result_rethrow (attempt : Attempt ε α) (notice : ε → Notice) :
    Attempt.result (tryCatch attempt fun fault => do
      Traced.note (notice fault)
      throw fault) = attempt.result := by
  change (attempt.run >>= fun outcome => (match outcome with
    | .ok a => pure (.ok a)
    | .error fault => (do
        Traced.note (notice fault)
        throw fault : Attempt ε α).run : Traced (Except ε α))).value = attempt.run.value
  rw [Traced.value_bind]
  cases attempt.run.value <;> rfl

end Attempt

end Remodel
