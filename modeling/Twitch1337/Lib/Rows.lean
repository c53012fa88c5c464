import Mathlib.Data.List.Nodup
import Mathlib.Logic.Function.Basic
import Twitch1337.Lib.Keyed

/-!
# Rows with keys

A list of rows of distinct keys is a map from keys to rows. Here is what is read after a row is added at the end, a row is changed
in its place, and the rows of a key are left out.
-/

namespace Rows

variable {α κ : Type*} [DecidableEq κ] (key : α → κ)

/-- The map that a list of rows is. -/
def toMap (l : List α) (k : κ) : Option α := l.find? fun a => key a = k

/-- Changes the first row of a key. -/
def change (k : κ) (f : α → α) : List α → List α
  | [] => []
  | a :: l => if key a = k then f a :: l else a :: change k f l

variable {key} {l : List α} {a : α} {k : κ} {f : α → α}

theorem toMap_eq_some_iff (h : (l.map key).Nodup) : toMap key l k = some a ↔ a ∈ l ∧ key a = k := Keyed.find?_eq_some_iff h

theorem toMap_eq_none_iff : toMap key l k = none ↔ k ∉ l.map key := by
  rw [toMap, List.find?_eq_none, List.mem_map]
  constructor
  · rintro h ⟨b, hb, rfl⟩
    exact h b hb (decide_eq_true rfl)
  · intro h b hb hk
    exact h ⟨b, hb, of_decide_eq_true hk⟩

/-- A row of a new key is added. -/
theorem toMap_append (h : key a ∉ l.map key) : toMap key (l ++ [a]) = Function.update (toMap key l) (key a) (some a) := by
  funext k
  rw [Function.update_apply, toMap, List.find?_append]
  split
  · rename_i hk
    subst hk
    have hnone : l.find? (fun b => key b = key a) = none := toMap_eq_none_iff.mpr h
    rw [hnone, Option.none_or]
    exact List.find?_cons_of_pos (decide_eq_true rfl)
  · rename_i hk
    rw [List.find?_cons_of_neg (by simpa using Ne.symm hk), List.find?_nil, Option.or_none]
    rfl

/-- The rows of a key are left out. -/
theorem toMap_filter (l : List α) (k : κ) :
    toMap key (l.filter fun a => key a ≠ k) = Function.update (toMap key l) k none := by
  funext k'
  rw [Function.update_apply]
  split
  · rename_i hk
    subst hk
    rw [toMap_eq_none_iff, List.mem_map]
    rintro ⟨b, hb, hk⟩
    exact of_decide_eq_true (List.mem_filter.mp hb).2 hk
  · rename_i hk
    rw [toMap, List.find?_filter, toMap]
    congr 1
    funext b
    by_cases hb : key b = k' <;> simp [hb, hk]

/-- What a change does: nothing without a row of the key, else it changes one place. -/
theorem change_cases (key : α → κ) (k : κ) (f : α → α) (l : List α) :
    (k ∉ l.map key ∧ change key k f l = l) ∨
      ∃ l₁ a l₂, l = l₁ ++ a :: l₂ ∧ key a = k ∧ k ∉ l₁.map key ∧ change key k f l = l₁ ++ f a :: l₂ := by
  induction l with
  | nil => exact .inl ⟨List.not_mem_nil, rfl⟩
  | cons b l ih =>
    by_cases hb : key b = k
    · exact .inr ⟨[], b, l, rfl, hb, List.not_mem_nil, if_pos hb⟩
    · rw [change, if_neg hb]
      rcases ih with ⟨hk, hl⟩ | ⟨l₁, a, l₂, rfl, ha, hk, hl⟩
      · refine .inl ⟨?_, by rw [hl]⟩
        rw [List.map_cons, List.mem_cons, not_or]
        exact ⟨Ne.symm hb, hk⟩
      · refine .inr ⟨b :: l₁, a, l₂, rfl, ha, ?_, by rw [hl]; rfl⟩
        rw [List.map_cons, List.mem_cons, not_or]
        exact ⟨Ne.symm hb, hk⟩

/-- Without a row of the key there is nothing to change. -/
theorem change_of_none (h : toMap key l k = none) : change key k f l = l := by
  rcases change_cases key k f l with ⟨-, hl⟩ | ⟨l₁, a, l₂, rfl, ha, -, -⟩
  · exact hl
  · exact absurd (List.mem_map.mpr ⟨a, by simp, ha⟩) (toMap_eq_none_iff.mp h)

/-- A row is changed, to one whose key no other row has. -/
theorem toMap_change (h : (l.map key).Nodup) (ha : toMap key l k = some a)
    (hfree : ∀ b ∈ l, key b ≠ k → key b ≠ key (f a)) :
    toMap key (change key k f l) = Function.update (Function.update (toMap key l) k none) (key (f a)) (some (f a)) := by
  obtain ⟨hmem, hka⟩ := (toMap_eq_some_iff h).mp ha
  rcases change_cases key k f l with ⟨hk, -⟩ | ⟨l₁, b, l₂, rfl, hkb, hk₁, hl⟩
  · exact absurd (List.mem_map.mpr ⟨a, hmem, hka⟩) hk
  obtain rfl : a = b := List.inj_on_of_nodup_map h hmem (by simp) (hka.trans hkb.symm)
  rw [hl]
  rw [List.map_append, List.map_cons, List.nodup_append] at h
  have hk₂ : k ∉ l₂.map key := hka ▸ (List.nodup_cons.mp h.2.1).1
  have hother : ∀ b ∈ l₁ ++ l₂, key b ≠ key (f a) := by
    intro b hb
    rcases List.mem_append.mp hb with hb | hb
    · exact hfree b (by simp [hb]) fun hk => hk₁ (List.mem_map.mpr ⟨b, hb, hk⟩)
    · exact hfree b (by simp [hb]) fun hk => hk₂ (List.mem_map.mpr ⟨b, hb, hk⟩)
  funext k'
  rw [Function.update_apply, Function.update_apply, toMap, List.find?_append]
  split
  · rename_i hk
    subst hk
    have hnone : l₁.find? (fun b => key b = key (f a)) = none :=
      List.find?_eq_none.mpr fun b hb hk => hother b (List.mem_append_left _ hb) (of_decide_eq_true hk)
    rw [hnone, Option.none_or]
    exact List.find?_cons_of_pos (decide_eq_true rfl)
  · rename_i hne
    rw [List.find?_cons_of_neg (by simpa using Ne.symm hne)]
    split
    · rename_i hk
      subst hk
      have h₁ : l₁.find? (fun b => key b = k') = none := toMap_eq_none_iff.mpr hk₁
      have h₂ : l₂.find? (fun b => key b = k') = none := toMap_eq_none_iff.mpr hk₂
      rw [h₁, h₂]
      rfl
    · rename_i hk
      rw [toMap, List.find?_append, List.find?_cons_of_neg (by simpa [hka] using Ne.symm hk)]

end Rows
