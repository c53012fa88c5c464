import Mathlib.Data.List.Basic

/-!
# Directories

A directory is a list whose entries answer to names, in which a name is looked up by the first entry that answers to it. Each
entry also has names of its own. A directory is addressable when the names of every entry find that entry. This says something
of each entry and of each pair of them, so that it is kept by what keeps these.
-/

namespace Directory

variable {α ν : Type*} (answers : α → ν → Bool) (names : α → List ν)

/-- The place of the first entry that answers to a name. -/
def lookup (l : List α) (n : ν) : Option Nat := l.findIdx? fun a => answers a n

/-- An entry answers to its own names. -/
def SelfNamed (a : α) : Prop := ∀ n ∈ names a, answers a n = true

/-- An entry answers to no name of another. -/
def Apart (a b : α) : Prop := ∀ n ∈ names b, answers a n = false

/-- Every entry answers to its own names, and none before it does. -/
structure Addressable (l : List α) : Prop where
  own : ∀ a ∈ l, SelfNamed answers names a
  apart : l.Pairwise (Apart answers names)

variable {answers names}

/-- A directory is addressable exactly when the names of every entry find it. -/
theorem addressable_iff {l : List α} :
    Addressable answers names l ↔ ∀ i a, l[i]? = some a → ∀ n ∈ names a, lookup answers l n = some i := by
  constructor
  · intro h i a ha n hn
    obtain ⟨hi, rfl⟩ := List.getElem?_eq_some_iff.mp ha
    rw [lookup, List.findIdx?_eq_some_iff_getElem]
    refine ⟨hi, h.own _ (List.getElem_mem hi) n hn, fun j hj => ?_⟩
    have hapart := List.pairwise_iff_getElem.mp h.apart j i (by omega) hi hj
    rw [hapart n hn]
    exact Bool.false_ne_true
  · intro h
    refine ⟨fun a ha n hn => ?_, List.pairwise_iff_getElem.mpr fun i j hi hj hij n hn => ?_⟩
    · obtain ⟨i, hi, rfl⟩ := List.getElem_of_mem ha
      have hfound := h i l[i] (List.getElem?_eq_getElem hi) n hn
      rw [lookup, List.findIdx?_eq_some_iff_getElem] at hfound
      exact hfound.2.1
    · have hfound := h j l[j] (List.getElem?_eq_getElem hj) n hn
      rw [lookup, List.findIdx?_eq_some_iff_getElem] at hfound
      have hnot := hfound.2.2 i hij
      rwa [Bool.not_eq_true] at hnot

theorem Addressable.nil : Addressable answers names [] := ⟨by simp, .nil⟩

/-- Entries may leave. -/
theorem Addressable.sublist {l l' : List α} (h : Addressable answers names l) (hs : l'.Sublist l) :
    Addressable answers names l' :=
  ⟨fun a ha => h.own a (hs.subset ha), h.apart.sublist hs⟩

/-- An entry may join at the end when no other answers to its names. -/
theorem Addressable.concat {l : List α} {a : α} (h : Addressable answers names l) (own : SelfNamed answers names a)
    (apart : ∀ b ∈ l, Apart answers names b a) : Addressable answers names (l ++ [a]) := by
  refine ⟨fun b hb => ?_, List.pairwise_append.mpr ⟨h.apart, List.pairwise_singleton _ a, fun b hb c hc => ?_⟩⟩
  · rcases List.mem_append.mp hb with hb | hb
    · exact h.own b hb
    · rw [List.mem_singleton.mp hb]
      exact own
  · rw [List.mem_singleton.mp hc]
    exact apart b hb

/-- An entry with the entries before and after it. -/
theorem split_at {l : List α} {i : Nat} {a : α} (ha : l[i]? = some a) : l = l.take i ++ a :: l.drop (i + 1) := by
  obtain ⟨hi, rfl⟩ := List.getElem?_eq_some_iff.mp ha
  rw [← List.drop_eq_getElem_cons hi, List.take_append_drop]

/-- The entries before an entry do not answer to its names, and it does not answer to the names of those after it. -/
theorem Addressable.around {l : List α} {i : Nat} {a : α} (h : Addressable answers names l) (ha : l[i]? = some a) :
    (∀ b ∈ l.take i, Apart answers names b a) ∧ ∀ b ∈ l.drop (i + 1), Apart answers names a b := by
  have hp := h.apart
  rw [split_at ha, List.pairwise_append, List.pairwise_cons] at hp
  obtain ⟨-, ⟨hafter, -⟩, hcross⟩ := hp
  exact ⟨fun b hb => hcross b hb a List.mem_cons_self, hafter⟩

/-- An entry may change in its place when no entry before it answers to its names, and it answers to the names of none after
it. -/
theorem Addressable.set {l : List α} {i : Nat} {a : α} (h : Addressable answers names l) (own : SelfNamed answers names a)
    (before : ∀ b ∈ l.take i, Apart answers names b a) (after : ∀ b ∈ l.drop (i + 1), Apart answers names a b) :
    Addressable answers names (l.set i a) := by
  refine ⟨fun b hb => ?_, ?_⟩
  · rcases List.mem_or_eq_of_mem_set hb with hb | rfl
    · exact h.own b hb
    · exact own
  · by_cases hi : i < l.length
    · have hp := h.apart
      rw [split_at (List.getElem?_eq_getElem hi), List.pairwise_append, List.pairwise_cons] at hp
      obtain ⟨htake, ⟨-, hdrop⟩, hcross⟩ := hp
      rw [List.set_eq_take_append_cons_drop, if_pos hi, List.pairwise_append, List.pairwise_cons]
      refine ⟨htake, ⟨after, hdrop⟩, fun b hb c hc => ?_⟩
      rcases List.mem_cons.mp hc with rfl | hc
      · exact before b hb
      · exact hcross b hb c (List.mem_cons_of_mem _ hc)
    · rw [List.set_eq_of_length_le (by omega)]
      exact h.apart

end Directory
