import Mathlib.Data.List.Induction

/-!
# Lists cut at a separator

`List.splitOn` cuts a list at every occurrence of a separator, `List.intercalate` joins the
pieces again. A list ends with the pieces of another exactly if it is that list, or ends
with the separator and that list.
-/

namespace List

variable {α β : Type}

/-- All pieces but the last are followed by the separator. -/
theorem intercalate_append_of_ne_nil (x : α) (ls : List (List α)) {ls' : List (List α)}
    (h : ls' ≠ []) :
    [x].intercalate (ls ++ ls') = ls.flatMap (· ++ [x]) ++ [x].intercalate ls' := by
  induction ls with
  | nil => rfl
  | cons l ls ih =>
    rw [cons_append, intercalate_cons_of_ne_nil (append_ne_nil_of_right_ne_nil ls h), ih,
      flatMap_cons]
    simp only [append_assoc]

variable [BEq α] [LawfulBEq α] [BEq β] [LawfulBEq β]

/-- Splitting at one of the separators. -/
theorem splitOn_append_cons (x : α) (l l' : List α) :
    (l ++ x :: l').splitOn x = l.splitOn x ++ l'.splitOn x := by
  rw [splitOn_eq_splitOnP, splitOn_eq_splitOnP, splitOn_eq_splitOnP]
  exact splitOnP_append_cons l l' BEq.rfl

/-- The first piece ends before the first separator. -/
theorem not_mem_headD_splitOn (x : α) (l : List α) : x ∉ (l.splitOn x).headD [] := by
  by_cases hx : x ∈ l
  · obtain ⟨front, back, rfl, hfront⟩ := eq_append_cons_of_mem hx
    rw [splitOn_append_cons, splitOn_eq_singleton hfront]
    exact hfront
  · rw [splitOn_eq_singleton hx]
    exact hx

/-- **Suffixes of the pieces.** -/
theorem splitOn_suffix_splitOn_iff (x : α) (l l' : List α) :
    l.splitOn x <:+ l'.splitOn x ↔ l' = l ∨ x :: l <:+ l' := by
  constructor
  · rintro ⟨front, hfront⟩
    have hjoin : l' = front.flatMap (· ++ [x]) ++ l := by
      calc l' = [x].intercalate (front ++ l.splitOn x) := by rw [hfront, intercalate_splitOn]
        _ = front.flatMap (· ++ [x]) ++ l := by
          rw [intercalate_append_of_ne_nil x front (splitOn_ne_nil x l), intercalate_splitOn]
    -- the separator behind the last piece in front stands before the suffix
    cases front using reverseRecOn with
    | nil => exact .inl hjoin
    | append_singleton front last _ =>
      refine .inr ⟨front.flatMap (· ++ [x]) ++ last, ?_⟩
      rw [hjoin, flatMap_append, flatMap_singleton]
      simp
  · rintro (rfl | ⟨front, rfl⟩)
    · exact suffix_rfl
    · rw [splitOn_append_cons]
      exact suffix_append _ _

/-- Changing elements, none of them to or from the separator. -/
theorem splitOn_map {f : α → β} {x : α} {y : β} (hf : ∀ a, f a = y ↔ a = x) (l : List α) :
    (l.map f).splitOn y = (l.splitOn x).map (map f) := by
  simp only [splitOn_eq_splitOnP]
  induction l with
  | nil => rfl
  | cons a l ih =>
    rw [map_cons, splitOnP_cons_eq_if_modifyHead, splitOnP_cons_eq_if_modifyHead, ih]
    by_cases ha : a = x
    · rw [if_pos (beq_iff_eq.2 ((hf a).2 ha)), if_pos (beq_iff_eq.2 ha)]
      rfl
    · rw [if_neg (mt beq_iff_eq.1 (mt (hf a).1 ha)), if_neg (mt beq_iff_eq.1 ha)]
      cases splitOnP (· == x) l <;> rfl

end List
