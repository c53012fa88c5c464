import Mathlib.Data.List.AList

/-!
# Tables

A hash map is an association list without duplicate keys, in the order in which it is iterated. An insert takes the place of
the entry of the same key, if there is one, and puts its own first: hash maps leave the order open. Here are the reads after an
insert and after a removal, as one equation each. A list whose entries have distinct keys is read in the same way.
-/

/-- A hash map. -/
abbrev Table (κ α : Type*) := AList fun _ : κ => α

namespace Table

variable {κ α : Type*} [DecidableEq κ]

theorem lookup_insert (k k' : κ) (v : α) (m : Table κ α) :
    AList.lookup k (AList.insert k' v m) = if k = k' then some v else AList.lookup k m := by
  by_cases h : k = k'
  · rw [if_pos h, h, AList.lookup_insert]
  · rw [if_neg h, AList.lookup_insert_ne h]

theorem lookup_erase (k k' : κ) (m : Table κ α) :
    AList.lookup k (AList.erase k' m) = if k = k' then none else AList.lookup k m := by
  by_cases h : k = k'
  · rw [if_pos h, h, AList.lookup_erase]
  · rw [if_neg h, AList.lookup_erase_ne h]

theorem mem_iff_lookup {k : κ} {m : Table κ α} : k ∈ m ↔ ∃ v, AList.lookup k m = some v := by
  rw [← AList.lookup_isSome, Option.isSome_iff_exists]

theorem length_keys_erase {k : κ} {m : Table κ α} (h : k ∈ m) : (AList.erase k m).keys.length + 1 = m.keys.length := by
  rw [AList.keys_erase]
  exact (List.perm_cons_erase (AList.mem_keys.mp h)).length_eq.symm

/-- The entries of a kind. -/
def retain (p : κ → α → Bool) (m : Table κ α) : Table κ α where
  entries := m.entries.filter fun e => p e.1 e.2
  nodupKeys := m.nodupKeys.sublist List.filter_sublist

theorem lookup_retain (p : κ → α → Bool) (k : κ) (m : Table κ α) :
    AList.lookup k (retain p m) = (AList.lookup k m).filter (p k) := by
  have hmem : ∀ {m : Table κ α} {v : α}, AList.lookup k m = some v ↔ ⟨k, v⟩ ∈ m.entries := AList.mem_lookup_iff
  ext v
  rw [Option.filter_eq_some_iff, hmem, hmem, retain, List.mem_filter]

end Table

/-- In a list of distinct keys the first entry of a key is the only one. -/
theorem Keyed.find?_eq_some_iff {α κ : Type*} [DecidableEq κ] {key : α → κ} {l : List α} (h : (l.map key).Nodup) {k : κ}
    {a : α} : (l.find? fun b => key b = k) = some a ↔ a ∈ l ∧ key a = k := by
  constructor
  · intro ha
    exact ⟨List.mem_of_find?_eq_some ha, by simpa using List.find?_some ha⟩
  · rintro ⟨ha, rfl⟩
    cases hfind : l.find? fun b => key b = key a with
    | none => exact absurd (decide_eq_true rfl) (List.find?_eq_none.mp hfind a ha)
    | some b =>
      have hkey : key b = key a := by simpa using List.find?_some hfind
      rw [List.inj_on_of_nodup_map h (List.mem_of_find?_eq_some hfind) ha hkey]
