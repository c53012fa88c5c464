import Mathlib.Data.List.Induction

/-!
# The first of the least

A search that keeps what it has unless something less comes along finds an element that nothing is less than, and the first of
those. There is one such element, whatever the comparison: two comparisons that agree on a list find the same.
-/

namespace Least

variable {α : Type*} {cmp : α → α → Ordering} {l : List α} {a b w : α}

/-- The least element of a list, and the first of several: `min_by`. -/
def minBy (cmp : α → α → Ordering) : List α → Option α
  | [] => none
  | a :: l => some (l.foldl (fun x y => if cmp x y = .gt then y else x) a)

/-- Less than all before it, and not more than any after it. -/
def FirstMin (cmp : α → α → Ordering) (l : List α) (w : α) : Prop :=
  ∃ before after, l = before ++ w :: after ∧ (∀ a ∈ before, cmp w a = .lt) ∧ ∀ a ∈ after, cmp w a ≠ .gt

namespace FirstMin

theorem singleton (cmp : α → α → Ordering) (a : α) : FirstMin cmp [a] a := ⟨[], [], by simp⟩

theorem mem (h : FirstMin cmp l w) : w ∈ l := by
  obtain ⟨before, after, rfl, -, -⟩ := h
  simp

/-- Nothing is less than a first minimum. -/
theorem not_gt [Std.TransCmp cmp] (h : FirstMin cmp l w) (ha : a ∈ l) : cmp w a ≠ .gt := by
  obtain ⟨before, after, rfl, hb, hc⟩ := h
  rcases List.mem_append.mp ha with ha | ha
  · simp [hb a ha]
  · rcases List.mem_cons.mp ha with rfl | ha
    · simp [Std.ReflCmp.compare_self]
    · exact hc a ha

theorem push_of_gt [Std.TransCmp cmp] (h : FirstMin cmp l w) (hgt : cmp w b = .gt) : FirstMin cmp (l ++ [b]) b := by
  refine ⟨l, [], rfl, ?_, by simp⟩
  intro a ha
  have hle : (cmp w a).isLE := Ordering.isLE_iff_ne_gt.mpr (h.not_gt ha)
  exact Std.TransCmp.lt_of_lt_of_isLE (Std.OrientedCmp.lt_of_gt hgt) hle

theorem push_of_not_gt (h : FirstMin cmp l w) (hle : cmp w b ≠ .gt) : FirstMin cmp (l ++ [b]) w := by
  obtain ⟨before, after, rfl, hb, hc⟩ := h
  refine ⟨before, after ++ [b], by simp, hb, ?_⟩
  intro a ha
  rcases List.mem_append.mp ha with ha | ha
  · exact hc a ha
  · rw [List.mem_singleton.mp ha]
    exact hle

/-- A list has one first minimum: of two, the one that comes first is not more, and the other would be less. -/
theorem unique [Std.TransCmp cmp] (h : FirstMin cmp l w) (h' : FirstMin cmp l a) : w = a := by
  obtain ⟨before, after, rfl, hb, hc⟩ := h
  obtain ⟨before', after', heq, hb', hc'⟩ := h'
  rcases List.append_eq_append_iff.mp heq with ⟨mid, hm, ht⟩ | ⟨mid, hm, ht⟩
  · cases mid with
    | nil => exact (List.cons.inj ht).1
    | cons x mid =>
      obtain ⟨rfl, rfl⟩ := List.cons.inj ht
      have hlt : cmp a w = .lt := hb' w (by simp [hm])
      exact absurd (Std.OrientedCmp.gt_of_lt hlt) (hc a (by simp))
  · cases mid with
    | nil => exact (List.cons.inj ht).1.symm
    | cons x mid =>
      obtain ⟨rfl, rfl⟩ := List.cons.inj ht
      have hlt : cmp w a = .lt := hb a (by simp [hm])
      exact absurd (Std.OrientedCmp.gt_of_lt hlt) (hc' w (by simp))

/-- Comparisons that agree on a list have the same first minimum. -/
theorem congr {cmp' : α → α → Ordering} (h : FirstMin cmp l w) (heq : ∀ a ∈ l, ∀ b ∈ l, cmp a b = cmp' a b) :
    FirstMin cmp' l w := by
  have hw := h.mem
  obtain ⟨before, after, rfl, hb, hc⟩ := h
  refine ⟨before, after, rfl, ?_, ?_⟩
  · intro a ha
    rw [← heq w hw a (by simp [ha])]
    exact hb a ha
  · intro a ha
    rw [← heq w hw a (by simp [ha])]
    exact hc a ha

end FirstMin

/-- The search finds the first minimum. -/
theorem firstMin_foldl [Std.TransCmp cmp] (a : α) (l : List α) :
    FirstMin cmp (a :: l) (l.foldl (fun x y => if cmp x y = .gt then y else x) a) := by
  induction l using List.reverseRecOn with
  | nil => exact FirstMin.singleton cmp a
  | append_singleton l b ih =>
    rw [List.foldl_append, List.foldl_cons, List.foldl_nil, ← List.cons_append]
    split
    · exact ih.push_of_gt ‹_›
    · exact ih.push_of_not_gt ‹_›

/-- A list with an element has a first minimum, which the search finds. -/
theorem exists_minBy [Std.TransCmp cmp] (h : l ≠ []) : ∃ w, minBy cmp l = some w ∧ FirstMin cmp l w := by
  cases l with
  | nil => exact absurd rfl h
  | cons a l => exact ⟨_, rfl, firstMin_foldl a l⟩

end Least
