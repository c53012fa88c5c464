import Mathlib.Data.List.Dedup
import Mathlib.Data.List.Induction
import Mathlib.Data.List.Perm.Subperm
import Twitch1337.Lib.Keyed

/-!
# The last entries of a log

Each entry of a log has a key. Here are the last entry of a key with what follows it, and the keys in the order of their last
entries.
-/

namespace Recency

variable {α κ : Type*} {key : α → κ} {log after : List α} {a b : α}

/-- An entry is the last one of its key, and this is what follows it. -/
def IsLast (key : α → κ) (log : List α) (a : α) (after : List α) : Prop :=
  ∃ before, log = before ++ a :: after ∧ ∀ b ∈ after, key b ≠ key a

theorem IsLast.mem (h : IsLast key log a after) : a ∈ log := by
  obtain ⟨before, rfl, _⟩ := h
  simp

theorem isLast_snoc_self (log : List α) (b : α) : IsLast key (log ++ [b]) b [] := ⟨log, rfl, by simp⟩

theorem IsLast.snoc (h : IsLast key log a after) (hb : key b ≠ key a) : IsLast key (log ++ [b]) a (after ++ [b]) := by
  obtain ⟨before, rfl, hafter⟩ := h
  refine ⟨before, by simp, fun c hc => ?_⟩
  rcases List.mem_append.mp hc with hc | hc
  · exact hafter c hc
  · rwa [List.mem_singleton.mp hc]

/-- The last entry of a key is the new one, or it was there before. -/
theorem isLast_snoc_cases (h : IsLast key (log ++ [b]) a after) :
    (a = b ∧ after = []) ∨ key b ≠ key a ∧ ∃ rest, after = rest ++ [b] ∧ IsLast key log a rest := by
  obtain ⟨before, heq, hafter⟩ := h
  rcases List.eq_nil_or_concat after with rfl | ⟨rest, c, rfl⟩
  · obtain ⟨rfl, hb⟩ := List.append_inj' heq rfl
    exact .inl ⟨(List.cons.inj hb).1.symm, rfl⟩
  · rw [List.concat_eq_append] at heq hafter ⊢
    have hsplit : before ++ a :: (rest ++ [c]) = (before ++ a :: rest) ++ [c] := by simp
    rw [hsplit] at heq
    obtain ⟨rfl, hb⟩ := List.append_inj' heq rfl
    obtain rfl : b = c := (List.cons.inj hb).1
    refine .inr ⟨hafter b (by simp), rest, rfl, before, rfl, fun x hx => hafter x (List.mem_append_left _ hx)⟩

/-- A key has one last entry. -/
theorem IsLast.unique {after' : List α} (h : IsLast key log a after) (h' : IsLast key log b after') (hab : key a = key b) :
    a = b ∧ after = after' := by
  induction log using List.reverseRecOn generalizing after after' with
  | nil => exact absurd h.mem List.not_mem_nil
  | append_singleton log c ih =>
    rcases isLast_snoc_cases h with ⟨rfl, rfl⟩ | ⟨hne, rest, rfl, hlast⟩
    · rcases isLast_snoc_cases h' with ⟨rfl, rfl⟩ | ⟨hne', _⟩
      · exact ⟨rfl, rfl⟩
      · exact absurd hab hne'
    · rcases isLast_snoc_cases h' with ⟨rfl, rfl⟩ | ⟨_, rest', rfl, hlast'⟩
      · exact absurd hab.symm hne
      · obtain ⟨rfl, rfl⟩ := ih hlast hlast'
        exact ⟨rfl, rfl⟩

variable [DecidableEq κ]

/-- A table whose entries are the last ones of their keys takes one more. -/
theorem isLast_of_lookup_insert {β : Type*} {m : Table κ β} {f : κ → β → α} (hf : ∀ k e, key (f k e) = k)
    (h : ∀ k e, AList.lookup k m = some e → ∃ after, IsLast key log (f k e) after) (k : κ) (e : β) (k' : κ) (e' : β)
    (he : AList.lookup k' (AList.insert k e m) = some e') : ∃ after, IsLast key (log ++ [f k e]) (f k' e') after := by
  rw [Table.lookup_insert] at he
  split at he
  · rename_i hk
    obtain rfl := Option.some.inj he
    rw [hk]
    exact ⟨[], isLast_snoc_self log (f k e)⟩
  · rename_i hk
    obtain ⟨after, hlast⟩ := h k' e' he
    refine ⟨after ++ [f k e], hlast.snoc ?_⟩
    rw [hf, hf]
    exact Ne.symm hk

/-! ## Keys -/

/-- The keys, each once, from the one whose last entry is the oldest to the one whose last entry is the newest. -/
def recent (key : α → κ) (log : List α) : List κ := (log.map key).dedup

theorem mem_recent {k : κ} : k ∈ recent key log ↔ ∃ a ∈ log, key a = k := by
  rw [recent, List.mem_dedup, List.mem_map]

theorem nodup_recent (key : α → κ) (log : List α) : (recent key log).Nodup := List.nodup_dedup _

theorem recent_snoc (log : List α) (b : α) :
    recent key (log ++ [b]) = (recent key log).filter (fun k => decide (k ≠ key b)) ++ [key b] := by
  induction log with
  | nil => simp [recent]
  | cons a log ih =>
    unfold recent at ih ⊢
    rw [List.cons_append, List.map_cons, List.map_cons, List.dedup_cons, ih, List.dedup_cons, List.map_append,
      List.map_singleton]
    by_cases ha : key a ∈ log.map key
    · rw [if_pos (List.mem_append_left _ ha), if_pos ha]
    · rw [if_neg ha]
      by_cases hab : key a = key b
      · rw [if_pos (by simp [hab]), List.filter_cons_of_neg (by simp [hab])]
      · rw [if_neg (by simp [hab, ha]), List.filter_cons_of_pos (by simp [hab]), List.cons_append]

/-- A log does not have fewer keys than a part of it. -/
theorem length_recent_le {part : List α} (h : part ⊆ log) : (recent key part).length ≤ (recent key log).length := by
  refine (List.subperm_of_subset (nodup_recent key part) fun k hk => ?_).length_le
  obtain ⟨a, ha, rfl⟩ := mem_recent.mp hk
  exact mem_recent.mpr ⟨a, h ha, rfl⟩

/-- Behind a key are the keys of what follows its last entry. -/
theorem IsLast.recent_eq (h : IsLast key log a after) : ∃ l, recent key log = l ++ key a :: recent key after := by
  obtain ⟨before, rfl, hafter⟩ := h
  have hnot : key a ∉ after.map key := by
    rw [List.mem_map]
    rintro ⟨b, hb, heq⟩
    exact hafter b hb heq
  obtain ⟨l, _, hl⟩ := List.sublist_suffix_of_union (before.map key) (key a :: (after.map key).dedup)
  refine ⟨l, ?_⟩
  rw [recent, List.map_append, List.map_cons, List.dedup_append, List.dedup_cons_of_notMem hnot, ← hl]
  rfl

end Recency
