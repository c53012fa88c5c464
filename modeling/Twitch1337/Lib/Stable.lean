import Mathlib.Data.List.Sort

/-!
# Stable sorting

A stable sort leaves elements that are tied in the order they have. Here are what it does to a part of a list that is in order
already, and that its outcome depends on nothing but the order of the tied elements.
-/

namespace Stable

open List

variable {α : Type*} {r : α → α → Prop} [DecidableRel r]

/-- Elements of which each may stand before the other. -/
def tied (r : α → α → Prop) [DecidableRel r] (a b : α) : Bool := r a b && r b a

theorem tied_iff {a b : α} : tied r a b = true ↔ r a b ∧ r b a := by
  simp [tied]

/-- A part of a list that is in order stays as it is. -/
theorem filter_insertionSort {p : α → Bool} {l : List α} (h : (l.filter p).Pairwise r) :
    (l.insertionSort r).filter p = l.filter p := by
  have hsub : l.filter p <+ (l.insertionSort r).filter p := by
    have := (sublist_insertionSort h List.filter_sublist).filter p
    rwa [List.filter_filter, funext fun a => Bool.and_self (p a)] at this
  have hlen : (l.filter p).length = ((l.insertionSort r).filter p).length :=
    ((perm_insertionSort r l).filter p).length_eq.symm
  exact (hsub.eq_of_length hlen).symm

/-- A list in which the elements of a kind stand before the others is that part of it, and then the rest. -/
theorem eq_filter_append_filter {p : α → Bool} {l : List α} (h : l.Pairwise fun a b => p b = true → p a = true) :
    l = l.filter p ++ l.filter fun a => !p a := by
  induction l with
  | nil => rfl
  | cons a l ih =>
    rw [List.pairwise_cons] at h
    cases ha : p a with
    | true =>
      rw [List.filter_cons_of_pos ha, List.filter_cons_of_neg (by rw [ha]; decide), List.cons_append, ← ih h.2]
    | false =>
      have hnone : l.filter p = [] := by
        refine List.filter_eq_nil_iff.mpr fun b hb hpb => ?_
        rw [h.1 b hb hpb] at ha
        cases ha
      have hrest := ih h.2
      rw [hnone, List.nil_append] at hrest
      rw [List.filter_cons_of_neg (by rw [ha]; decide), List.filter_cons_of_pos (by rw [ha]; decide), hnone,
        List.nil_append, ← hrest]

/-- The elements that are tied with one stay in their order. -/
theorem filter_tied_insertionSort [IsTrans α r] (a : α) (l : List α) :
    (l.insertionSort r).filter (tied r a) = l.filter (tied r a) := by
  refine filter_insertionSort (List.pairwise_of_forall_mem_list fun b hb c hc => ?_)
  have hb := (tied_iff.mp (List.mem_filter.mp hb).2).2
  have hc := (tied_iff.mp (List.mem_filter.mp hc).2).1
  exact IsTrans.trans b a c hb hc

variable [Std.Total r]

/-- Sorted lists with the same tied elements, in the same order, are the same. -/
theorem eq_of_filter_tied {s t : List α} (hs : s.Pairwise r) (ht : t.Pairwise r)
    (h : ∀ a, s.filter (tied r a) = t.filter (tied r a)) : s = t := by
  have hrefl : ∀ a, tied r a a = true := fun a => tied_iff.mpr (and_self_iff.mpr (or_self_iff.mp (Std.Total.total a a)))
  induction s generalizing t with
  | nil =>
    cases t with
    | nil => rfl
    | cons b t =>
      have := h b
      simp [hrefl] at this
  | cons a s ih =>
    have ha := h a
    rw [List.filter_cons_of_pos (hrefl a)] at ha
    cases t with
    | nil => cases ha
    | cons b t =>
      rw [List.pairwise_cons] at hs ht
      -- the first of each list is tied with that of the other, so they are the same element of one class
      have hba : a = b ∨ r b a := by
        have hmem : a ∈ (b :: t).filter (tied r a) := ha ▸ List.mem_cons_self
        rcases List.mem_cons.mp (List.mem_filter.mp hmem).1 with heq | hmem
        · exact .inl heq
        · exact .inr (ht.1 a hmem)
      have hab : b = a ∨ r a b := by
        have hmem : b ∈ (a :: s).filter (tied r b) := by
          rw [h b, List.filter_cons_of_pos (hrefl b)]
          exact List.mem_cons_self
        rcases List.mem_cons.mp (List.mem_filter.mp hmem).1 with heq | hmem
        · exact .inl heq
        · exact .inr (hs.1 b hmem)
      have heq : a = b := by
        rcases hba with heq | hba
        · exact heq
        rcases hab with heq | hab
        · exact heq.symm
        · rw [List.filter_cons_of_pos (tied_iff.mpr ⟨hab, hba⟩), List.cons.injEq] at ha
          exact ha.1
      subst heq
      rw [ih hs.2 ht.2 fun c => ?_]
      have hc := h c
      rw [List.filter_cons, List.filter_cons] at hc
      split at hc
      · exact (List.cons.inj hc).2
      · exact hc

/-- The outcome of a stable sort depends on the order of tied elements alone. -/
theorem insertionSort_congr [IsTrans α r] {l l' : List α} (h : ∀ a, l.filter (tied r a) = l'.filter (tied r a)) :
    l.insertionSort r = l'.insertionSort r := by
  refine eq_of_filter_tied (pairwise_insertionSort r l) (pairwise_insertionSort r l') fun a => ?_
  rw [filter_tied_insertionSort, filter_tied_insertionSort, h a]

end Stable
