import Mathlib.Data.List.Induction
import Twitch1337.Lib.Keyed

/-!
# First come, first served

Values arrive with keys, and a table takes the first value of each key, as long as it has room. Its keys are the first to arrive,
and what it has under a key is what arrived first.
-/

namespace Arrivals

variable {κ α : Type*} [DecidableEq κ]

/-- Takes an arrival, unless the table is full or has its key. -/
def receive (capacity : Nat) (m : Table κ α) (e : κ × α) : Table κ α :=
  if capacity ≤ m.keys.length then m else if e.1 ∈ m then m else m.insert e.1 e.2

/-- The table after some arrivals. -/
def fill (capacity : Nat) (l : List (κ × α)) : Table κ α := l.foldl (receive capacity) ∅

/-- The keys in the order of their first arrivals. -/
def firsts (l : List (κ × α)) : List κ := l.foldl (fun ks e => if e.1 ∈ ks then ks else ks ++ [e.1]) []

variable {capacity : Nat} {l : List (κ × α)} {e : κ × α} {k : κ}

theorem fill_snoc : fill capacity (l ++ [e]) = receive capacity (fill capacity l) e := List.foldl_append

theorem firsts_snoc : firsts (l ++ [e]) = if e.1 ∈ firsts l then firsts l else firsts l ++ [e.1] := List.foldl_append

theorem mem_firsts : k ∈ firsts l ↔ ∃ v, (k, v) ∈ l := by
  induction l using List.reverseRecOn with
  | nil => exact ⟨fun h => absurd h List.not_mem_nil, fun ⟨v, h⟩ => absurd h List.not_mem_nil⟩
  | append_singleton l e ih =>
    have hmem : (∃ v, (k, v) ∈ l ++ [e]) ↔ k ∈ firsts l ∨ k = e.1 := by
      obtain ⟨k', v'⟩ := e
      simp only [List.mem_append, List.mem_singleton, exists_or, ← ih, Prod.mk.injEq, exists_and_left, exists_eq, and_true]
    rw [firsts_snoc, hmem]
    split
    · rename_i he
      exact ⟨.inl, fun h => h.elim id fun h => h ▸ he⟩
    · rw [List.mem_append, List.mem_singleton]

theorem mem_iff_mem_keys {κ α : Type*} {k : κ} {m : Table κ α} : k ∈ m ↔ k ∈ m.keys := AList.mem_keys

/-- The keys of the table, the last one first. -/
theorem keys_fill (capacity : Nat) (l : List (κ × α)) : (fill capacity l).keys = ((firsts l).take capacity).reverse := by
  induction l using List.reverseRecOn with
  | nil => simp [fill, firsts]
  | append_singleton l e ih =>
    have hlength : (fill capacity l).keys.length = min capacity (firsts l).length := by
      rw [ih, List.length_reverse, List.length_take]
    rw [fill_snoc, firsts_snoc, receive]
    split
    · -- no room: what comes later is not among the first
      rename_i hfull
      have hle : capacity ≤ (firsts l).length := by omega
      split
      · exact ih
      · rw [List.take_append_of_le_length hle, ih]
    · rename_i hroom
      have htake : (firsts l).take capacity = firsts l := List.take_of_length_le (by omega)
      have hmem : e.1 ∈ fill capacity l ↔ e.1 ∈ firsts l := by
        rw [mem_iff_mem_keys, ih, List.mem_reverse, htake]
      split
      · rename_i he
        rw [if_pos (hmem.mp he), ih]
      · rename_i he
        have hkey : e.1 ∉ (fill capacity l).keys := fun h => he (mem_iff_mem_keys.mpr h)
        have hshort : (firsts l ++ [e.1]).length ≤ capacity := by
          rw [List.length_append, List.length_singleton]
          omega
        rw [if_neg (fun h => he (hmem.mpr h)), AList.keys_insert, List.erase_of_not_mem hkey, ih, htake,
          List.take_of_length_le hshort, List.reverse_append]
        rfl

theorem mem_fill : k ∈ fill capacity l ↔ k ∈ (firsts l).take capacity := by
  rw [mem_iff_mem_keys, keys_fill, List.mem_reverse]

/-- What is under a key is what arrived first. -/
theorem find?_of_lookup_fill {v : α} (h : (fill capacity l).lookup k = some v) :
    (l.find? fun e => e.1 = k).map Prod.snd = some v := by
  induction l using List.reverseRecOn with
  | nil => cases h
  | append_singleton l e ih =>
    rw [List.find?_append]
    have hkept : (fill capacity l).lookup k = some v →
        Option.map Prod.snd ((l.find? fun e => e.1 = k).or ([e].find? fun e => e.1 = k)) = some v := by
      intro h
      obtain ⟨e', he', hv⟩ := Option.map_eq_some_iff.mp (ih h)
      rw [he', Option.some_or, Option.map_some, hv]
    rw [fill_snoc, receive] at h
    split at h
    · exact hkept h
    split at h
    · exact hkept h
    · rename_i hroom he
      rw [Table.lookup_insert] at h
      split at h
      · -- a key that is new in a table with room is new
        rename_i hk
        subst hk
        have hnone : l.find? (fun e' => e'.1 = e.1) = none := by
          rw [List.find?_eq_none]
          intro e' he' heq
          refine he (mem_fill.mpr ?_)
          have hlength : (fill capacity l).keys.length = min capacity (firsts l).length := by
            rw [keys_fill, List.length_reverse, List.length_take]
          rw [List.take_of_length_le (by omega)]
          exact mem_firsts.mpr ⟨e'.2, of_decide_eq_true heq ▸ he'⟩
        have hlast : [e].find? (fun e' => e'.1 = e.1) = some e := List.find?_cons_of_pos (decide_eq_true rfl)
        rw [hnone, Option.none_or, hlast, Option.map_some, h]
      · exact hkept h

/-- The table has the first values of the first keys. -/
theorem lookup_fill (capacity : Nat) (l : List (κ × α)) (k : κ) :
    (fill capacity l).lookup k = if k ∈ (firsts l).take capacity then (l.find? fun e => e.1 = k).map Prod.snd else none := by
  split
  · rename_i hk
    obtain ⟨v, hv⟩ := Table.mem_iff_lookup.mp (mem_fill.mpr hk)
    rw [hv, find?_of_lookup_fill hv]
  · rename_i hk
    exact AList.lookup_eq_none.mpr fun h => hk (mem_fill.mp h)

end Arrivals
