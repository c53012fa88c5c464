import Mathlib.Data.List.Nodup

/-!
# Picking

A list is filled from others, one element after the other: what is there already is not taken again, and nothing is taken once
there is no room. What comes of it is one equation: the elements that are not there yet, each once, as many as fit.
-/

namespace Pick

variable {α : Type*} [DecidableEq α]

/-- Takes an element that is not there yet, as long as there is room. -/
def keep (room : Nat) (picked : List α) (a : α) : List α :=
  if room ≤ picked.length ∨ a ∈ picked then picked else picked ++ [a]

/-- The elements that are not there yet, each once. -/
def fresh (picked entries : List α) : List α := (entries.filter fun a => a ∉ picked).eraseDups

/-- Each element of the list once, in the order of their first places. -/
theorem nodup_eraseDups (l : List α) : l.eraseDups.Nodup := by
  induction hn : l.length using Nat.strongRecOn generalizing l with
  | ind n ih =>
    cases l with
    | nil => exact List.nodup_nil
    | cons a l =>
      rw [List.eraseDups_cons, List.nodup_cons]
      refine ⟨fun h => ?_, ih _ ?_ _ rfl⟩
      · have := (List.mem_filter.mp (List.mem_eraseDups.mp h)).2
        simp at this
      · rw [← hn, List.length_cons]
        exact Nat.lt_succ_of_le (List.length_filter_le _ _)

theorem eraseDups_of_nodup {l : List α} (h : l.Nodup) : l.eraseDups = l := by
  induction l with
  | nil => rfl
  | cons a l ih =>
    obtain ⟨ha, hl⟩ := List.nodup_cons.mp h
    have hfilter : l.filter (fun b => !b == a) = l := by
      rw [List.filter_eq_self]
      intro b hb
      have hne : b ≠ a := fun heq => ha (heq ▸ hb)
      simpa using hne
    rw [List.eraseDups_cons, hfilter, ih hl]

theorem mem_fresh {picked entries : List α} {a : α} : a ∈ fresh picked entries ↔ a ∈ entries ∧ a ∉ picked := by
  rw [fresh, List.mem_eraseDups, List.mem_filter, decide_eq_true_eq]

theorem nodup_fresh (picked entries : List α) : (fresh picked entries).Nodup := nodup_eraseDups _

/-- An element that is there is passed over. -/
theorem fresh_cons_of_mem {picked entries : List α} {a : α} (h : a ∈ picked) :
    fresh picked (a :: entries) = fresh picked entries := by
  rw [fresh, List.filter_cons_of_neg (by simpa using h)]
  rfl

/-- An element that is not there is the first, and is there for the rest. -/
theorem fresh_cons_of_not_mem {picked entries : List α} {a : α} (h : a ∉ picked) :
    fresh picked (a :: entries) = a :: fresh (picked ++ [a]) entries := by
  have hfilter : (entries.filter fun b => b ∉ picked).filter (fun b => !b == a) =
      entries.filter fun b => b ∉ picked ++ [a] := by
    rw [List.filter_filter]
    refine List.filter_congr fun b _ => ?_
    by_cases hb : b = a
    · simp [hb]
    · simp [hb]
  rw [fresh, List.filter_cons_of_pos (by simpa using h), List.eraseDups_cons, hfilter]
  rfl

/-- What is picked from a list is what is not there yet, as much as fits. -/
theorem foldl_keep (room : Nat) (picked entries : List α) :
    entries.foldl (keep room) picked = picked ++ (fresh picked entries).take (room - picked.length) := by
  induction entries generalizing picked with
  | nil => simp [fresh]
  | cons a entries ih =>
    rw [List.foldl_cons]
    by_cases hfull : room ≤ picked.length
    · rw [keep, if_pos (.inl hfull), ih, Nat.sub_eq_zero_of_le hfull, List.take_zero, List.take_zero]
    by_cases hmem : a ∈ picked
    · rw [keep, if_pos (.inr hmem), ih, fresh_cons_of_mem hmem]
    · have hroom : room - picked.length = (room - (picked ++ [a]).length) + 1 := by
        rw [List.length_append, List.length_singleton]
        omega
      rw [keep, if_neg (by simp [hfull, hmem]), ih, fresh_cons_of_not_mem hmem, hroom, List.take_succ_cons, List.append_assoc]
      rfl

end Pick
