import Mathlib.Data.List.Induction
import Mathlib.Data.List.Nodup
import Remodel.Proofs.Graph.Removal

/-!
# Overtaking

The edges of a graph stand in an order, here told by their ids.  It changes by two kinds of moves:
an edge enters at the end, or one leaves and the last one takes its place (`Move.apply`).  The last
one then stands in front of all that were between the two places: it overtakes them
(`Move.Overtakes`).  Nothing else ever changes which of two edges comes first.

So the order of two edges is known from the moves alone: the one that entered later is in front
exactly if it overtook the other one and was not overtaken by it since (`Overtook`,
`idxOf_lt_iff_overtook`).
-/

namespace Remodel

namespace Graph

/-- A move in the order of edges. -/
inductive Move
  | enter (id : String)
  | leave (id : String)
  deriving DecidableEq

/-- The order after a move: what enters comes last, and the last one takes the place of what
leaves. -/
def Move.apply (order : List String) : Move → List String
  | .enter id => order ++ [id]
  | .leave id => swapRemove order (order.idxOf id)

/-- The order after several moves. -/
def orderAfter (order : List String) (moves : List Move) : List String := moves.foldl Move.apply order

/-- Whether an edge overtakes another in a move: it is the last one, and takes a place in front of
the other. -/
def Move.Overtakes (order : List String) (last passed : String) : Move → Prop
  | .enter _ => False
  | .leave gone => order.getLast? = some last ∧ passed ∈ order ∧ passed ≠ last ∧
      order.idxOf gone < order.idxOf passed

/-- Whether an edge is not overtaken by another, nor enters again, in any of the moves. -/
def StaysAhead (front other : String) : List String → List Move → Prop
  | _, [] => True
  | order, move :: rest => ¬ move.Overtakes order other front ∧ move ≠ .enter front ∧
      StaysAhead front other (move.apply order) rest

/-- Whether an edge overtakes another in one of the moves and stays ahead of it in those that
follow. -/
def Overtook (front other : String) : List String → List Move → Prop
  | _, [] => False
  | order, move :: rest =>
      move.Overtakes order front other ∧ StaysAhead front other (move.apply order) rest ∨
        Overtook front other (move.apply order) rest

/-- Whether only what is not there enters. -/
def Proper : List String → List Move → Prop
  | _, [] => True
  | order, move :: rest => (∀ id, move = .enter id → id ∉ order) ∧ Proper (move.apply order) rest

/-- The ids that enter, in this order. -/
def arrivals (moves : List Move) : List String :=
  moves.filterMap fun
    | .enter id => some id
    | .leave _ => none

instance (order : List String) (last passed : String) (move : Move) :
    Decidable (move.Overtakes order last passed) :=
  match move with
  | .enter _ => inferInstanceAs (Decidable False)
  | .leave _ => inferInstanceAs (Decidable (_ ∧ _))

instance decidableStaysAhead (front other : String) (order : List String) :
    (moves : List Move) → Decidable (StaysAhead front other order moves)
  | [] => inferInstanceAs (Decidable True)
  | move :: rest =>
      have := decidableStaysAhead front other (move.apply order) rest
      inferInstanceAs (Decidable (_ ∧ _))

instance decidableOvertook (front other : String) (order : List String) :
    (moves : List Move) → Decidable (Overtook front other order moves)
  | [] => inferInstanceAs (Decidable False)
  | move :: rest =>
      have := decidableOvertook front other (move.apply order) rest
      inferInstanceAs (Decidable (_ ∨ _))

/-! ## One move -/

section Move

variable {order : List String} {gone a b : String}

theorem apply_leave_of_not_mem (h : gone ∉ order) : Move.apply order (.leave gone) = order := by
  rw [Move.apply, List.idxOf_eq_length h, swapRemove]
  cases hlast : order.getLast? with
  | none => rw [List.getLast?_eq_none_iff.mp hlast]
  | some last => simp

/-- What leaves is the last one, or the last one takes its place. -/
theorem exists_split_of_leave (hgone : gone ∈ order) :
    (∃ front, order = front ++ [gone] ∧ gone ∉ front ∧
      Move.apply order (.leave gone) = front) ∨
    ∃ front between last, order = front ++ gone :: (between ++ [last]) ∧ gone ∉ front ∧
      Move.apply order (.leave gone) = front ++ last :: between := by
  obtain ⟨front, back, rfl, hfront⟩ := List.eq_append_cons_of_mem hgone
  have hplace : (front ++ gone :: back).idxOf gone = front.length := by
    rw [List.idxOf_append_of_notMem hfront, List.idxOf_cons_self, Nat.add_zero]
  rcases List.eq_nil_or_concat' back with rfl | ⟨between, last, rfl⟩
  · refine Or.inl ⟨front, rfl, hfront, ?_⟩
    rw [Move.apply, hplace]
    simp [swapRemove]
  · refine Or.inr ⟨front, between, last, rfl, hfront, ?_⟩
    have hlast : (front ++ gone :: (between ++ [last])).getLast? = some last := by
      rw [← List.cons_append, ← List.append_assoc, List.getLast?_concat]
    have hset : (front ++ gone :: (between ++ [last])).set front.length last =
        (front ++ last :: between) ++ [last] := by simp
    rw [Move.apply, hplace, swapRemove, hlast]
    simp only [hset, List.dropLast_concat]
    simp

/-- All but the one that leaves stay. -/
theorem perm_apply_leave (order : List String) (gone : String) :
    (Move.apply order (.leave gone)).Perm (order.erase gone) := by
  by_cases hgone : gone ∈ order
  · rcases exists_split_of_leave hgone with
      ⟨front, rfl, hfront, hleft⟩ | ⟨front, between, last, rfl, hfront, hleft⟩
    · rw [hleft, List.erase_append_right _ hfront, List.erase_cons_head, List.append_nil]
    · rw [hleft, List.erase_append_right _ hfront, List.erase_cons_head]
      exact (List.perm_append_singleton last between).symm.append_left front
  · rw [apply_leave_of_not_mem hgone, List.erase_of_not_mem hgone]

theorem mem_apply_leave (hnodup : order.Nodup) :
    a ∈ Move.apply order (.leave gone) ↔ a ∈ order ∧ a ≠ gone := by
  rw [(perm_apply_leave order gone).mem_iff, hnodup.mem_erase_iff, and_comm]

theorem idxOf_lt_of_getLast? (hnodup : order.Nodup) (hlast : order.getLast? = some b)
    (ha : a ∈ order) (hne : a ≠ b) : order.idxOf a < order.idxOf b := by
  obtain ⟨front, rfl⟩ := List.getLast?_eq_some_iff.mp hlast
  have hb : b ∉ front := (List.nodup_cons.mp (List.nodup_append_comm.mp hnodup)).1
  have ha : a ∈ front := by simpa [hne] using ha
  rw [List.idxOf_append_of_mem ha, List.idxOf_append_of_notMem hb, List.idxOf_cons_self]
  exact List.idxOf_lt_length_of_mem ha

theorem idxOf_reverse (hnodup : order.Nodup) (ha : a ∈ order) :
    order.reverse.idxOf a + order.idxOf a + 1 = order.length := by
  obtain ⟨front, back, rfl, hfront⟩ := List.eq_append_cons_of_mem ha
  have hback : a ∉ back := (List.nodup_cons.mp (List.nodup_append.mp hnodup).2.1).1
  have hreverse : (front ++ a :: back).reverse = back.reverse ++ a :: front.reverse := by simp
  rw [hreverse, List.idxOf_append_of_notMem (by simpa using hback),
    List.idxOf_append_of_notMem hfront, List.idxOf_cons_self, List.idxOf_cons_self]
  simp only [List.length_append, List.length_cons, List.length_reverse]
  omega

/-- The last one gets the place that is free, and all others keep theirs. -/
theorem idxOf_apply_leave (hnodup : order.Nodup) (hgone : gone ∈ order) (ha : a ∈ order)
    (hne : a ≠ gone) :
    (Move.apply order (.leave gone)).idxOf a =
      if order.getLast? = some a then order.idxOf gone else order.idxOf a := by
  rcases exists_split_of_leave hgone with
    ⟨front, rfl, hfront, hleft⟩ | ⟨front, between, last, rfl, hfront, hleft⟩
  · have hmem : a ∈ front := by simpa [hne] using ha
    rw [hleft, List.getLast?_concat, if_neg (by simpa using Ne.symm hne),
      List.idxOf_append_of_mem hmem]
  · have hlast : (front ++ gone :: (between ++ [last])).getLast? = some last := by
      rw [← List.cons_append, ← List.append_assoc, List.getLast?_concat]
    have hplace : (front ++ gone :: (between ++ [last])).idxOf gone = front.length := by
      rw [List.idxOf_append_of_notMem hfront, List.idxOf_cons_self, Nat.add_zero]
    rw [hleft, hlast, hplace]
    by_cases hfrontMem : a ∈ front
    · have hother : last ≠ a := fun heq =>
        (List.nodup_append.mp hnodup).2.2 a hfrontMem last (by simp) heq.symm
      rw [if_neg (by simpa using hother), List.idxOf_append_of_mem hfrontMem,
        List.idxOf_append_of_mem hfrontMem]
    · by_cases hother : last = a
      · subst hother
        rw [if_pos rfl, List.idxOf_append_of_notMem hfrontMem, List.idxOf_cons_self, Nat.add_zero]
      · rw [if_neg (by simpa using hother), List.idxOf_append_of_notMem hfrontMem,
          List.idxOf_append_of_notMem hfrontMem, List.idxOf_cons_ne _ hother,
          List.idxOf_cons_ne _ (Ne.symm hne), List.idxOf_append_of_mem]
        simpa [hfrontMem, hne, Ne.symm hother] using ha

/-- Of two edges that stay, the one that overtakes comes first, and otherwise the one that did
before. -/
theorem idxOf_lt_apply_leave_iff (hnodup : order.Nodup) (ha : a ∈ order) (hb : b ∈ order)
    (hne : a ≠ b) (hagone : a ≠ gone) (hbgone : b ≠ gone) :
    (Move.apply order (.leave gone)).idxOf a < (Move.apply order (.leave gone)).idxOf b ↔
      Move.Overtakes order a b (.leave gone) ∨
        order.idxOf a < order.idxOf b ∧ ¬ Move.Overtakes order b a (.leave gone) := by
  by_cases hgone : gone ∈ order
  · rw [idxOf_apply_leave hnodup hgone ha hagone, idxOf_apply_leave hnodup hgone hb hbgone,
      Move.Overtakes, Move.Overtakes]
    have hadistinct : order.idxOf a ≠ order.idxOf gone := fun h => hagone ((List.idxOf_inj ha).mp h)
    have hbdistinct : order.idxOf b ≠ order.idxOf gone := fun h => hbgone ((List.idxOf_inj hb).mp h)
    by_cases halast : order.getLast? = some a
    · have hblast : order.getLast? ≠ some b := fun h => hne (Option.some.inj (halast.symm.trans h))
      have hlt := idxOf_lt_of_getLast? hnodup halast hb (Ne.symm hne)
      rw [if_pos halast, if_neg hblast]
      simp only [halast, hb, Ne.symm hne, ne_eq, not_false_eq_true, true_and]
      omega
    · rw [if_neg halast]
      by_cases hblast : order.getLast? = some b
      · have hlt := idxOf_lt_of_getLast? hnodup hblast ha hne
        rw [if_pos hblast]
        simp only [hblast, Option.some.injEq, Ne.symm hne, ha, hne, ne_eq, not_false_eq_true,
          true_and, false_and, false_or]
        omega
      · rw [if_neg hblast]
        simp only [halast, hblast, false_and, false_or, not_false_eq_true, and_true]
  · rw [apply_leave_of_not_mem hgone, Move.Overtakes, Move.Overtakes]
    have hlength := List.idxOf_eq_length hgone
    have haplace := List.idxOf_lt_length_of_mem ha
    have hbplace := List.idxOf_lt_length_of_mem hb
    omega

/-- What enters comes last, and all others keep their places. -/
theorem idxOf_lt_apply_enter_iff {id : String} (hfresh : id ∉ order)
    (ha : a ∈ Move.apply order (.enter id)) (hb : b ∈ order) :
    (Move.apply order (.enter id)).idxOf a < (Move.apply order (.enter id)).idxOf b ↔
      a ≠ id ∧ order.idxOf a < order.idxOf b := by
  rw [Move.apply] at ha ⊢
  rw [List.idxOf_append_of_mem hb]
  by_cases haid : a = id
  · subst haid
    have hplace := List.idxOf_lt_length_of_mem hb
    rw [List.idxOf_append_of_notMem hfresh]
    exact iff_of_false (by omega) fun h => h.1 rfl
  · have ha : a ∈ order := by simpa [haid] using ha
    rw [List.idxOf_append_of_mem ha, and_iff_right haid]

end Move

/-! ## Moves one after another -/

section Moves

variable {order : List String} {moves others : List Move} {move : Move} {a b : String}

theorem orderAfter_append (order : List String) (moves others : List Move) :
    orderAfter order (moves ++ others) = orderAfter (orderAfter order moves) others :=
  List.foldl_append

theorem orderAfter_concat (order : List String) (moves : List Move) (move : Move) :
    orderAfter order (moves ++ [move]) = move.apply (orderAfter order moves) :=
  orderAfter_append order moves [move]

theorem arrivals_append (moves others : List Move) :
    arrivals (moves ++ others) = arrivals moves ++ arrivals others :=
  List.filterMap_append

theorem proper_append : Proper order (moves ++ others) ↔
    Proper order moves ∧ Proper (orderAfter order moves) others := by
  induction moves generalizing order with
  | nil => exact (and_iff_right trivial).symm
  | cons move rest ih =>
      rw [List.cons_append, Proper, Proper, ih, and_assoc]
      rfl

/-- What is there was there before, or entered. -/
theorem mem_of_mem_orderAfter (ha : a ∈ orderAfter order moves) :
    a ∈ order ∨ a ∈ arrivals moves := by
  induction moves generalizing order with
  | nil => exact Or.inl ha
  | cons move rest ih =>
      rw [← List.singleton_append, arrivals_append, List.mem_append]
      rcases ih ha with hfirst | hrest
      · cases move with
        | enter id =>
            rcases List.mem_append.mp hfirst with hbefore | hentered
            · exact Or.inl hbefore
            · exact Or.inr (Or.inl hentered)
        | leave gone =>
            exact Or.inl (List.mem_of_mem_erase ((perm_apply_leave order gone).mem_iff.mp hfirst))
      · exact Or.inr (Or.inr hrest)

/-- Moves by which edges leave are proper, and nothing enters. -/
theorem proper_leaves (order : List String) (ids : List String) :
    Proper order (ids.map .leave) := by
  induction ids generalizing order with
  | nil => trivial
  | cons id rest ih => exact ⟨fun _ h => Move.noConfusion h, ih _⟩

theorem arrivals_leaves (ids : List String) : arrivals (ids.map .leave) = [] := by
  induction ids with
  | nil => rfl
  | cons id rest ih => exact ih

/-- No edge stands at two places. -/
theorem Move.nodup_apply (hnodup : order.Nodup) (hproper : ∀ id, move = .enter id → id ∉ order) :
    (move.apply order).Nodup := by
  cases move with
  | enter id => exact List.nodup_append_comm.mp (List.nodup_cons.mpr ⟨hproper id rfl, hnodup⟩)
  | leave gone => exact (perm_apply_leave order gone).nodup_iff.mpr (hnodup.erase gone)

theorem nodup_orderAfter (hnodup : order.Nodup) (hproper : Proper order moves) :
    (orderAfter order moves).Nodup := by
  induction moves generalizing order with
  | nil => exact hnodup
  | cons move rest ih => exact ih (Move.nodup_apply hnodup hproper.1) hproper.2

theorem staysAhead_concat : StaysAhead a b order (moves ++ [move]) ↔
    StaysAhead a b order moves ∧ ¬ move.Overtakes (orderAfter order moves) b a ∧
      move ≠ .enter a := by
  induction moves generalizing order with
  | nil => simp [StaysAhead, orderAfter]
  | cons first rest ih =>
      rw [List.cons_append, StaysAhead, StaysAhead, ih]
      simp only [and_assoc]
      rfl

/-- Whether an edge overtook another is decided by the last move, or by those before it. -/
theorem overtook_concat : Overtook a b order (moves ++ [move]) ↔
    move.Overtakes (orderAfter order moves) a b ∨
      Overtook a b order moves ∧ ¬ move.Overtakes (orderAfter order moves) b a ∧
        move ≠ .enter a := by
  induction moves generalizing order with
  | nil => simp [Overtook, StaysAhead, orderAfter]
  | cons first rest ih =>
      rw [List.cons_append, Overtook, Overtook, ih, staysAhead_concat]
      change _ ↔ move.Overtakes (orderAfter (first.apply order) rest) a b ∨
        _ ∧ ¬ move.Overtakes (orderAfter (first.apply order) rest) b a ∧ _
      tauto

theorem not_overtook_self (a : String) (order : List String) (moves : List Move) :
    ¬ Overtook a a order moves := by
  have hmove : ∀ (order : List String) (move : Move), ¬ move.Overtakes order a a := by
    intro order move
    cases move with
    | enter id => exact fun h => h
    | leave gone => exact fun h => h.2.2.1 rfl
  induction moves generalizing order with
  | nil => exact id
  | cons move rest ih =>
      rintro (⟨hfirst, -⟩ | hrest)
      · exact hmove order move hfirst
      · exact ih _ hrest

/-- **The later edge is in front exactly if it overtook the earlier one.**  Of two edges that are
there after some moves, the one that came later, by the order before the moves and by what entered,
is in front of the other one exactly if it overtook it and was not overtaken by it since. -/
theorem idxOf_lt_iff_overtook (hnodup : order.Nodup) (hproper : Proper order moves)
    (ha : a ∈ orderAfter order moves) (hb : b ∈ orderAfter order moves)
    (hlater : (order ++ arrivals moves).reverse.idxOf a < (order ++ arrivals moves).reverse.idxOf b) :
    (orderAfter order moves).idxOf a < (orderAfter order moves).idxOf b ↔
      Overtook a b order moves := by
  have hne : a ≠ b := by
    rintro rfl
    exact Nat.lt_irrefl _ hlater
  induction moves using List.reverseRecOn with
  | nil =>
      -- the order itself is that of coming
      rw [show arrivals [] = [] from rfl, List.append_nil] at hlater
      have hplace := idxOf_reverse hnodup ha
      have hother := idxOf_reverse hnodup hb
      exact iff_of_false (by change ¬ order.idxOf a < order.idxOf b; omega) id
  | append_singleton moves move ih =>
      obtain ⟨hbefore, hmove⟩ := proper_append.mp hproper
      have hbetween : (orderAfter order moves).Nodup := nodup_orderAfter hnodup hbefore
      rw [orderAfter_concat] at ha hb ⊢
      rw [overtook_concat]
      rw [arrivals_append, ← List.append_assoc] at hlater
      cases move with
      | enter id =>
          have hfresh : id ∉ orderAfter order moves := hmove.1 id rfl
          rw [show arrivals [Move.enter id] = [id] from rfl, List.reverse_append,
            List.reverse_singleton, List.singleton_append] at hlater
          have hbid : b ≠ id := by
            rintro rfl
            rw [List.idxOf_cons_self] at hlater
            exact Nat.not_lt_zero _ hlater
          have hb : b ∈ orderAfter order moves := by simpa [Move.apply, hbid] using hb
          rw [idxOf_lt_apply_enter_iff hfresh ha hb]
          by_cases haid : a = id
          · simp [Move.Overtakes, haid]
          · have ha : a ∈ orderAfter order moves := by simpa [Move.apply, haid] using ha
            rw [List.idxOf_cons_ne _ (Ne.symm haid), List.idxOf_cons_ne _ (Ne.symm hbid)] at hlater
            have hmoves := ih hbefore ha hb (Nat.lt_of_succ_lt_succ hlater)
            simp [Move.Overtakes, haid, Ne.symm haid, hmoves]
      | leave gone =>
          obtain ⟨ha, hagone⟩ := (mem_apply_leave hbetween).mp ha
          obtain ⟨hb, hbgone⟩ := (mem_apply_leave hbetween).mp hb
          rw [show arrivals [Move.leave gone] = [] from rfl, List.append_nil] at hlater
          rw [idxOf_lt_apply_leave_iff hbetween ha hb hne hagone hbgone]
          have hmoves := ih hbefore ha hb hlater
          simp [hmoves]

end Moves

end Graph

end Remodel
