import Mathlib.Data.List.Infix

/-!
# The pieces of a list

A list is split at a separator, something is made of every piece, and the pieces are joined again. A piece may be cut: it is kept
up to the end of its shortest prefix of a kind, and a mask stands for what follows. To cut with one mask for one kind after another
is to cut for all of them at once, if the mask completes no prefix of the kinds, and so to cut twice is to cut once.
-/

namespace Pieces

variable {α : Type*}

/-! ## Cutting -/

/-- A list up to the end of its shortest prefix of a kind, and a mask for the rest. -/
def cut (isEnd : List α → Bool) (mask l : List α) : List α :=
  match l.inits.find? isEnd with
  | some a => a ++ mask
  | none => l

/-- The shortest prefix of a kind. -/
structure Shortest (isEnd : List α → Bool) (l a : List α) : Prop where
  isPrefix : a <+: l
  ends : isEnd a = true
  first : ∀ b, b <+: a → b ≠ a → isEnd b = false

variable {isEnd isEnd₁ isEnd₂ : List α → Bool} {mask l a : List α}

theorem Shortest.of_find? (h : l.inits.find? isEnd = some a) : Shortest isEnd l a := by
  induction l generalizing isEnd a with
  | nil =>
    rw [List.inits, List.find?_singleton] at h
    split at h
    · rename_i hend
      cases h
      refine ⟨List.prefix_refl [], hend, fun b hb hne => absurd (List.prefix_nil.mp hb) hne⟩
    · cases h
  | cons c l ih =>
    rw [List.inits_cons, List.find?_cons] at h
    split at h
    · rename_i hend
      cases h
      exact ⟨List.nil_prefix, hend, fun b hb hne => absurd (List.prefix_nil.mp hb) hne⟩
    · rename_i hnil
      rw [List.find?_map, Option.map_eq_some_iff] at h
      obtain ⟨a, ha, rfl⟩ := h
      obtain ⟨hpre, hends, hfirst⟩ := ih ha
      refine ⟨List.cons_prefix_cons.mpr ⟨rfl, hpre⟩, hends, fun b hb hne => ?_⟩
      rcases List.prefix_cons_iff.mp hb with rfl | ⟨b, rfl, hb'⟩
      · exact hnil
      · exact hfirst b hb' fun he => hne (congrArg (c :: ·) he)

theorem find?_inits_eq_none : l.inits.find? isEnd = none ↔ ∀ b, b <+: l → isEnd b = false := by
  simp [List.find?_eq_none]

/-- There is one shortest prefix of a kind. -/
theorem Shortest.unique {b : List α} (ha : Shortest isEnd l a) (hb : Shortest isEnd l b) : a = b := by
  rcases List.prefix_or_prefix_of_prefix ha.isPrefix hb.isPrefix with h | h
  · by_contra hne
    have := hb.first a h hne
    rw [ha.ends] at this
    cases this
  · by_contra hne
    have := ha.first b h (Ne.symm hne)
    rw [hb.ends] at this
    cases this

theorem cut_of_shortest (h : Shortest isEnd l a) (mask : List α) : cut isEnd mask l = a ++ mask := by
  unfold cut
  cases hfind : l.inits.find? isEnd with
  | some b => rw [h.unique (.of_find? hfind)]
  | none =>
    have := find?_inits_eq_none.mp hfind a h.isPrefix
    rw [h.ends] at this
    cases this

theorem cut_of_none (h : ∀ b, b <+: l → isEnd b = false) (mask : List α) : cut isEnd mask l = l := by
  unfold cut
  rw [find?_inits_eq_none.mpr h]

theorem shortest_or_none (isEnd : List α → Bool) (l : List α) : (∃ a, Shortest isEnd l a) ∨ ∀ b, b <+: l → isEnd b = false := by
  cases hfind : l.inits.find? isEnd with
  | some a => exact .inl ⟨a, .of_find? hfind⟩
  | none => exact .inr (find?_inits_eq_none.mp hfind)

/-- What a cut keeps is in the list or in the mask. -/
theorem mem_cut {x : α} (h : x ∈ cut isEnd mask l) : x ∈ l ∨ x ∈ mask := by
  rcases shortest_or_none isEnd l with ⟨a, ha⟩ | hnone
  · rw [cut_of_shortest ha] at h
    exact (List.mem_append.mp h).imp_left (ha.isPrefix.subset ·)
  · rw [cut_of_none hnone] at h
    exact .inl h

/-- Two cuts are one. -/
theorem cut_cut (hmask : ∀ b m, m <+: mask → m ≠ [] → isEnd₂ (b ++ m) = false) (l : List α) :
    cut isEnd₂ mask (cut isEnd₁ mask l) = cut (fun b => isEnd₁ b || isEnd₂ b) mask l := by
  rcases shortest_or_none isEnd₁ l with ⟨a, ha⟩ | hnone
  · rw [cut_of_shortest ha]
    -- a prefix of what was cut that goes into the mask is not of the second kind
    have hinto : ∀ b, b <+: a ++ mask → isEnd₂ b = true → b <+: a := by
      intro b hb hends
      rcases List.prefix_or_prefix_of_prefix hb (List.prefix_append a mask) with h | ⟨m, rfl⟩
      · exact h
      · by_cases hm : m = []
        · rw [hm, List.append_nil]
        · rw [hmask a m ((List.prefix_append_right_inj a).mp hb) hm] at hends
          cases hends
    rcases shortest_or_none isEnd₂ (a ++ mask) with ⟨a', ha'⟩ | hnone'
    · have hpre := hinto a' ha'.isPrefix ha'.ends
      rw [cut_of_shortest ha', cut_of_shortest (a := a')]
      refine ⟨hpre.trans ha.isPrefix, by rw [ha'.ends, Bool.or_true], fun b hb hne => ?_⟩
      have hfirst : isEnd₁ b = false := by
        refine ha.first b (hb.trans hpre) fun he => hne ?_
        subst he
        exact hb.eq_of_length_le hpre.length_le
      rw [hfirst, ha'.first b hb hne, Bool.or_false]
    · rw [cut_of_none hnone', cut_of_shortest (a := a)]
      refine ⟨ha.isPrefix, by rw [ha.ends, Bool.true_or], fun b hb hne => ?_⟩
      rw [ha.first b hb hne, hnone' b (hb.trans (List.prefix_append a mask)), Bool.or_false]
  · rw [cut_of_none hnone]
    rcases shortest_or_none isEnd₂ l with ⟨a, ha⟩ | hnone'
    · rw [cut_of_shortest ha, cut_of_shortest (a := a)]
      refine ⟨ha.isPrefix, by rw [ha.ends, Bool.or_true], fun b hb hne => ?_⟩
      rw [hnone b (hb.trans ha.isPrefix), ha.first b hb hne, Bool.or_false]
    · rw [cut_of_none hnone', cut_of_none fun b hb => by rw [hnone b hb, hnone' b hb, Bool.or_false]]

/-! ## Pieces -/

variable [DecidableEq α] {sep : α}

/-- What a function makes of the pieces of a list. -/
def mapPieces (sep : α) (f : List α → List α) (l : List α) : List α := [sep].intercalate ((l.splitOn sep).map f)

/-- What holds of a piece, and of a piece, the separator and a list if it holds of the list, holds of every list. -/
theorem pieces_induction (sep : α) {P : List α → Prop} (last : ∀ l, sep ∉ l → P l) (more : ∀ u w, sep ∉ u → P w → P (u ++ sep :: w))
    (l : List α) : P l := by
  induction hn : l.length using Nat.strong_induction_on generalizing l with
  | _ n ih =>
    by_cases hsep : sep ∈ l
    · obtain ⟨u, w, rfl, hu⟩ := List.eq_append_cons_of_mem hsep
      refine more u w hu (ih w.length ?_ w rfl)
      rw [← hn, List.length_append, List.length_cons]
      omega
    · exact last l hsep

theorem mapPieces_of_not_mem {f : List α → List α} (h : sep ∉ l) : mapPieces sep f l = f l := by
  rw [mapPieces, List.splitOn_eq_singleton h, List.map_singleton, List.intercalate_singleton]

theorem mapPieces_cons {f : List α → List α} {u : List α} (hu : sep ∉ u) (w : List α) :
    mapPieces sep f (u ++ sep :: w) = f u ++ sep :: mapPieces sep f w := by
  rw [mapPieces, List.splitOn_append_cons_self_of_not_mem hu, List.map_cons, List.intercalate_cons_of_ne_nil]
  · rw [mapPieces, List.append_assoc, List.singleton_append]
  · exact fun h => List.splitOn_ne_nil sep w (List.map_eq_nil_iff.mp h)

theorem mapPieces_append_cons (f : List α → List α) (u w : List α) :
    mapPieces sep f (u ++ sep :: w) = mapPieces sep f u ++ sep :: mapPieces sep f w := by
  induction u using pieces_induction sep with
  | last u hu => rw [mapPieces_cons hu, mapPieces_of_not_mem hu]
  | more u v hu ih =>
    rw [List.append_assoc, List.cons_append, mapPieces_cons hu, ih, mapPieces_cons hu, List.append_assoc, List.cons_append]

/-- Pieces that a function leaves as they are. -/
theorem mapPieces_eq_self {f : List α → List α} (h : ∀ p, p <:+: l → sep ∉ p → f p = p) : mapPieces sep f l = l := by
  induction l using pieces_induction sep with
  | last l hl => rw [mapPieces_of_not_mem hl, h l (List.infix_refl l) hl]
  | more u w hu ih =>
    rw [mapPieces_cons hu, h u (List.prefix_append u _).isInfix hu, ih fun p hp => h p (hp.trans ⟨u ++ [sep], [], by simp⟩)]

theorem mapPieces_mapPieces {f g : List α → List α} (hf : ∀ p, sep ∉ p → sep ∉ f p) (l : List α) :
    mapPieces sep g (mapPieces sep f l) = mapPieces sep (fun p => g (f p)) l := by
  induction l using pieces_induction sep with
  | last l hl => rw [mapPieces_of_not_mem hl, mapPieces_of_not_mem (hf l hl), mapPieces_of_not_mem hl]
  | more u w hu ih => rw [mapPieces_cons hu, mapPieces_cons (hf u hu), ih, mapPieces_cons hu]

end Pieces
