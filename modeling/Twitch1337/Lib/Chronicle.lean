import Mathlib.Data.List.Induction
import Mathlib.Data.List.Perm.Subperm

/-!
# Chronicles

A log to which entries are only added, at its end. Here are what every entry says of the entries before it, the value that a
log leaves when each entry turns one value into the next, and a count of entries by those that came before them.
-/

namespace Chronicle

variable {ω α κ : Type*}

/-! ## Entries and their past -/

/-- Every entry of a log is right, given the entries before it. -/
def InOrder (ok : List ω → ω → Prop) (log : List ω) : Prop := ∀ past o future, log = past ++ o :: future → ok past o

variable {ok : List ω → ω → Prop} {log : List ω}

theorem inOrder_nil : InOrder ok [] := by
  intro past o future h
  simp at h

/-- The log goes on with an entry that is right. -/
theorem InOrder.snoc {o : ω} (h : InOrder ok log) (ho : ok log o) : InOrder ok (log ++ [o]) := by
  intro past x future heq
  rcases List.eq_nil_or_concat future with rfl | ⟨future', y, rfl⟩
  · obtain ⟨rfl, hx⟩ := List.append_inj' heq rfl
    cases hx
    exact ho
  · rw [List.concat_eq_append, ← List.cons_append, ← List.append_assoc] at heq
    exact h past x future' (List.append_inj' heq rfl).1

/-- The log goes on with entries that are right after any entries. -/
theorem InOrder.append {new : List ω} (h : InOrder ok log) (hnew : ∀ o ∈ new, ∀ past, ok past o) :
    InOrder ok (log ++ new) := by
  induction new using List.reverseRecOn with
  | nil => rwa [List.append_nil]
  | append_singleton new o ih =>
    rw [← List.append_assoc]
    exact (ih fun x hx => hnew x (List.mem_append_left _ hx)).snoc
      (hnew o (List.mem_append_right _ (List.mem_singleton_self _)) _)

/-- A log that is right was right at any earlier time. -/
theorem InOrder.earlier {more : List ω} (h : InOrder ok (log ++ more)) : InOrder ok log := by
  intro past o future heq
  exact h past o (future ++ more) (by rw [heq, List.append_assoc, List.cons_append])

/-! ## What a log leaves -/

/-- The value that the entries of a log make of a first one. -/
def replay (leaves : α → ω → α) (a : α) (log : List ω) : α := log.foldl leaves a

variable {leaves : α → ω → α}

@[simp] theorem replay_nil (a : α) : replay leaves a [] = a := rfl

theorem replay_append (a : α) (log more : List ω) :
    replay leaves a (log ++ more) = replay leaves (replay leaves a log) more :=
  List.foldl_append

@[simp] theorem replay_snoc (a : α) (log : List ω) (o : ω) : replay leaves a (log ++ [o]) = leaves (replay leaves a log) o :=
  replay_append a log [o]

/-- Entries that leave any value alone leave the value of the log alone. -/
theorem replay_quiet (a : α) {more : List ω} (h : ∀ o ∈ more, ∀ b, leaves b o = b) :
    replay leaves a (log ++ more) = replay leaves a log := by
  rw [replay_append]
  induction more with
  | nil => rfl
  | cons o more ih =>
    have ho := h o List.mem_cons_self (replay leaves a log)
    rw [replay, List.foldl_cons, ho]
    exact ih fun x hx => h x (List.mem_cons_of_mem o hx)

/-! ## Counting -/

/-- When no two entries of one kind have the same key, and each has one of a second kind with its key in the log, there are not
more of the first kind than of the second. -/
theorem countP_le (p q : ω → Bool) (key : ω → κ)
    (h : InOrder (fun past o => p o = true → ∀ x ∈ past, p x = true → key x ≠ key o) log)
    (hq : ∀ o ∈ log, p o = true → ∃ x ∈ log, q x = true ∧ key x = key o) : log.countP p ≤ log.countP q := by
  have hnodup : ((log.filter p).map key).Nodup := by
    clear hq
    induction log using List.reverseRecOn with
    | nil => simp
    | append_singleton log o ih =>
      have hlast := h log o [] rfl
      rw [List.filter_append, List.map_append]
      by_cases ho : p o = true
      · have hone : (List.filter p [o]).map key = [key o] := by simp [ho]
        rw [hone]
        refine List.nodup_append.mpr ⟨ih h.earlier, by simp, ?_⟩
        intro k hk k' hk'
        rw [List.mem_singleton] at hk'
        obtain ⟨x, hx, rfl⟩ := List.mem_map.mp hk
        obtain ⟨hx, hpx⟩ := List.mem_filter.mp hx
        exact hk' ▸ hlast ho x hx hpx
      · simpa [List.filter_singleton, ho] using ih h.earlier
  have hsub : (log.filter p).map key ⊆ (log.filter q).map key := by
    intro k hk
    obtain ⟨o, ho, rfl⟩ := List.mem_map.mp hk
    obtain ⟨ho, hpo⟩ := List.mem_filter.mp ho
    obtain ⟨x, hx, hqx, hkey⟩ := hq o ho hpo
    exact List.mem_map.mpr ⟨x, List.mem_filter.mpr ⟨hx, hqx⟩, hkey⟩
  have := (hnodup.subperm hsub).length_le
  simpa [List.countP_eq_length_filter] using this

end Chronicle
