import Mathlib.Data.List.Infix
import Mathlib.Data.List.SplitBy
import Mathlib.Data.List.TakeWhile

/-!
# Words and the blanks between them

Lists cut where they are blank, put together again with one separator between the pieces, and what such a list looks like around
a separator.
-/

namespace Words

variable {α : Type*}

/-! ## Definitions -/

/-- What stands between the blanks of a list. -/
def words (blank : α → Bool) (l : List α) : List (List α) := (l.splitOnP blank).filter fun w => !w.isEmpty

/-- The runs of a list: as long as can be, each of them blank or without a blank. -/
def runs (blank : α → Bool) (l : List α) : List (List α) := l.splitBy fun a b => blank a == blank b

/-- Every run of blanks is one separator. -/
def squeezed (blank : α → Bool) (sep : α) (l : List α) : List α :=
  (runs blank l).flatMap fun run => if run.any blank then [sep] else run

/-- The same from left to right. `prev` says that the element before is blank. -/
def squeeze (blank : α → Bool) (sep : α) : (prev : Bool) → List α → List α
  | _, [] => []
  | prev, a :: l =>
    if blank a then
      if prev then squeeze blank sep true l else sep :: squeeze blank sep true l
    else a :: squeeze blank sep false l

/-- Words that can be told apart: they are not empty, and hold no blank. -/
def Solid (blank : α → Bool) (ws : List (List α)) : Prop := ∀ w ∈ ws, w ≠ [] ∧ ∀ c ∈ w, blank c = false

/-- No two blanks stand side by side. -/
def Spaced (blank : α → Bool) (l : List α) : Prop := l.IsChain fun a b => blank a = false ∨ blank b = false

variable {blank : α → Bool} {sep : α}

/-! ## Words of a list -/

/-- The last of the occurrences. -/
theorem eq_append_cons_of_mem_last {a : α} {l : List α} (h : a ∈ l) : ∃ x y, l = x ++ a :: y ∧ a ∉ y := by
  obtain ⟨y, x, hsplit, hy⟩ := List.eq_append_cons_of_mem (List.mem_reverse.mpr h)
  refine ⟨x.reverse, y.reverse, ?_, by simpa using hy⟩
  rw [← List.reverse_reverse l, hsplit]
  simp

theorem words_nil : words blank [] = [] := rfl

/-- Words are those on both sides of a blank. -/
theorem words_append {c : α} (hc : blank c = true) (x y : List α) :
    words blank (x ++ c :: y) = words blank x ++ words blank y := by
  rw [words, List.splitOnP_append_cons x y hc, List.filter_append, words, words]

/-- A list without blanks is one word. -/
theorem words_of_solid {w : List α} (hw : w ≠ []) (hs : ∀ c ∈ w, blank c = false) : words blank w = [w] := by
  rw [words, List.splitOnP_eq_singleton hs]
  simp [hw]

/-- Words have no blanks, and there is something in each. -/
theorem solid_words (blank : α → Bool) (l : List α) : Solid blank (words blank l) := by
  have hpiece : ∀ w ∈ l.splitOnP blank, ∀ c ∈ w, blank c = false := by
    induction l with
    | nil => simp
    | cons a l ih =>
      rw [List.splitOnP_cons_eq_if_modifyHead]
      split
      · simpa using ih
      · rename_i ha
        cases hl : l.splitOnP blank with
        | nil => simp
        | cons v vs =>
          rw [hl] at ih
          simp only [List.modifyHead_cons, List.mem_cons, forall_eq_or_imp]
          simp only [List.mem_cons, forall_eq_or_imp] at ih
          exact ⟨⟨by simpa using ha, ih.1⟩, ih.2⟩
  intro w hw
  obtain ⟨hw, hne⟩ := List.mem_filter.mp hw
  exact ⟨by simpa using hne, hpiece w hw⟩

/-! ## Words put together -/

/-- Two rows of words, with a separator between them. -/
theorem intercalate_append {us vs : List (List α)} (hu : us ≠ []) (hv : vs ≠ []) :
    [sep].intercalate (us ++ vs) = [sep].intercalate us ++ sep :: [sep].intercalate vs := by
  induction us with
  | nil => exact absurd rfl hu
  | cons u us ih =>
    cases us with
    | nil => simp [List.intercalate_cons_of_ne_nil hv]
    | cons u' us =>
      rw [List.cons_append, List.intercalate_cons_of_ne_nil (by simp), ih (by simp), List.intercalate_cons_cons]
      simp

/-- Words that were put together are found again. -/
theorem words_intercalate {ws : List (List α)} (hs : Solid blank ws) (hsep : blank sep = true) :
    words blank ([sep].intercalate ws) = ws := by
  induction ws with
  | nil => rfl
  | cons w ws ih =>
    obtain ⟨hw, hc⟩ := hs w List.mem_cons_self
    cases ws with
    | nil => rw [List.intercalate_singleton, words_of_solid hw hc]
    | cons w' ws =>
      rw [List.intercalate_cons_cons, List.append_assoc, List.singleton_append, words_append hsep, words_of_solid hw hc,
        ih fun v hv => hs v (List.mem_cons_of_mem _ hv), List.singleton_append]

/-- A blank in words that were put together is the separator. -/
theorem eq_sep_of_mem_intercalate {ws : List (List α)} (hs : Solid blank ws) {c : α} (hc : c ∈ [sep].intercalate ws)
    (hb : blank c = true) : c = sep := by
  induction ws with
  | nil => simp at hc
  | cons w ws ih =>
    have hw := (hs w List.mem_cons_self).2 c
    cases ws with
    | nil =>
      rw [List.intercalate_singleton] at hc
      simp [hw hc] at hb
    | cons w' ws =>
      rw [List.intercalate_cons_cons, List.mem_append, List.mem_append, List.mem_singleton] at hc
      obtain (hc | hc) | hc := hc
      · simp [hw hc] at hb
      · exact hc
      · exact ih (fun v hv => hs v (List.mem_cons_of_mem _ hv)) hc

/-- A row of words does not start with a blank. -/
theorem head_intercalate {ws : List (List α)} (hs : Solid blank ws) : ∀ c ∈ ([sep].intercalate ws).head?, blank c = false := by
  cases ws with
  | nil => simp
  | cons w ws =>
    obtain ⟨hw, hc⟩ := hs w List.mem_cons_self
    obtain ⟨a, w, rfl⟩ := List.exists_cons_of_ne_nil hw
    intro c h
    rw [List.intercalate_cons_cons_left, List.head?_cons, Option.mem_some_iff] at h
    exact hc c (by simp [h])

/-- A word is spaced. -/
theorem Spaced.of_solid {l : List α} (h : ∀ c ∈ l, blank c = false) : Spaced blank l := by
  induction l with
  | nil => exact List.isChain_nil
  | cons a l ih =>
    rw [Spaced, List.isChain_cons]
    exact ⟨fun _ _ => .inl (h a List.mem_cons_self), ih fun c hc => h c (List.mem_cons_of_mem _ hc)⟩

/-- Two spaced texts together are spaced, when one of the ends that meet is no blank. -/
theorem Spaced.append {l r : List α} (hl : Spaced blank l) (hr : Spaced blank r)
    (h : (∀ c ∈ l.getLast?, blank c = false) ∨ ∀ c ∈ r.head?, blank c = false) : Spaced blank (l ++ r) := by
  rw [Spaced, List.isChain_append]
  refine ⟨hl, hr, fun a ha b hb => ?_⟩
  obtain h | h := h
  · exact .inl (h a ha)
  · exact .inr (h b hb)

/-- The beginning of a spaced text is spaced. -/
theorem Spaced.of_start {l r : List α} (h : Spaced blank r) (hp : l <+: r) : Spaced blank l := List.IsChain.prefix h hp

/-- A row of words is spaced. -/
theorem spaced_intercalate {ws : List (List α)} (hs : Solid blank ws) : Spaced blank ([sep].intercalate ws) := by
  induction ws with
  | nil => exact List.isChain_nil
  | cons w ws ih =>
    have hw := Spaced.of_solid (hs w List.mem_cons_self).2
    have hlast : ∀ c ∈ w.getLast?, blank c = false := fun c hc => (hs w List.mem_cons_self).2 c (List.mem_of_mem_getLast? hc)
    cases ws with
    | nil => simpa using hw
    | cons w' ws =>
      have hws : Solid blank (w' :: ws) := fun v hv => hs v (List.mem_cons_of_mem _ hv)
      rw [List.intercalate_cons_cons, List.append_assoc]
      refine hw.append ?_ (.inl hlast)
      exact Spaced.append (List.isChain_singleton sep) (ih hws) (.inr (head_intercalate hws))

/-- Fewer words are a beginning. -/
theorem intercalate_mono (sep : α) {us vs : List (List α)} (h : us <+: vs) : [sep].intercalate us <+: [sep].intercalate vs := by
  obtain ⟨more, rfl⟩ := h
  cases us with
  | nil => exact List.nil_prefix
  | cons u us =>
    cases more with
    | nil => rw [List.append_nil]
    | cons v more =>
      rw [intercalate_append (by simp) (by simp)]
      exact List.prefix_append _ _

/-- Each of the words is in what they are put together to. -/
theorem infix_intercalate (sep : α) {w : List α} {ws : List (List α)} (h : w ∈ ws) : w <:+: [sep].intercalate ws := by
  induction ws with
  | nil => cases h
  | cons v ws ih =>
    cases ws with
    | nil =>
      rw [List.mem_singleton.mp h, List.intercalate_singleton]
    | cons v' ws =>
      rw [List.intercalate_cons_cons]
      obtain rfl | h := List.mem_cons.mp h
      · exact ⟨[], [sep] ++ [sep].intercalate (v' :: ws), by simp⟩
      · exact (ih h).trans (List.suffix_append _ _).isInfix

/-- More words are longer. -/
theorem length_intercalate_lt (sep : α) {us vs : List (List α)} (hs : Solid blank vs) (h : us <+: vs) (hne : us ≠ vs) :
    ([sep].intercalate us).length < ([sep].intercalate vs).length := by
  obtain ⟨more, rfl⟩ := h
  have hmore : more ≠ [] := fun hm => hne (by rw [hm, List.append_nil])
  by_cases hu : us = []
  · obtain ⟨v, more, rfl⟩ := List.exists_cons_of_ne_nil hmore
    obtain ⟨a, v, hv⟩ := List.exists_cons_of_ne_nil (hs v (by simp)).1
    rw [hu, hv, List.nil_append, List.intercalate_cons_cons_left]
    simp
  · rw [intercalate_append hu hmore]
    simp

/-- A separator in words that were put together has words on both sides. -/
theorem exists_of_intercalate_eq {ws : List (List α)} (hs : Solid blank ws) (hsep : blank sep = true) {a b : List α}
    (h : [sep].intercalate ws = a ++ sep :: b) :
    ∃ us vs, ws = us ++ vs ∧ us ≠ [] ∧ vs ≠ [] ∧ a = [sep].intercalate us ∧ b = [sep].intercalate vs := by
  induction ws generalizing a with
  | nil => simp at h
  | cons w ws ih =>
    have hw : sep ∉ w := fun hm => by simp [(hs w List.mem_cons_self).2 sep hm] at hsep
    cases ws with
    | nil =>
      rw [List.intercalate_singleton] at h
      exact absurd (by simp [h]) hw
    | cons w' ws =>
      rw [List.intercalate_cons_cons, List.append_assoc, List.singleton_append] at h
      obtain ⟨a', rfl, ha⟩ | ⟨c, rfl, hc⟩ := List.append_eq_append_iff.mp h
      · cases a' with
        | nil =>
          rw [List.nil_append, List.cons_inj_right] at ha
          exact ⟨[w], w' :: ws, rfl, by simp, by simp, by simp, ha.symm⟩
        | cons x a' =>
          rw [List.cons_append, List.cons.injEq] at ha
          obtain ⟨rfl, ha⟩ := ha
          obtain ⟨us, vs, hws, hu, hv, rfl, rfl⟩ := ih (fun v hv => hs v (List.mem_cons_of_mem _ hv)) ha
          refine ⟨w :: us, vs, by rw [hws]; rfl, by simp, hv, ?_, rfl⟩
          rw [List.intercalate_cons_of_ne_nil hu, List.append_assoc, List.singleton_append]
      · -- The separator that follows the first word is not the one inside it.
        cases c with
        | nil =>
          rw [List.nil_append, List.cons_inj_right] at hc
          exact ⟨[a], w' :: ws, by simp, by simp, by simp, by simp, hc⟩
        | cons x c =>
          rw [List.cons_append, List.cons.injEq] at hc
          exact absurd (by simp [hc.1]) hw

/-- A list with single separators, and none at its ends, is its words put together. -/
theorem intercalate_words {l : List α} (hs : Spaced blank l) (hsep : ∀ c ∈ l, blank c = true → c = sep)
    (hhead : ∀ c ∈ l.head?, blank c = false) (hlast : ∀ c ∈ l.getLast?, blank c = false) :
    [sep].intercalate (words blank l) = l := by
  induction hn : l.length using Nat.strong_induction_on generalizing l with
  | _ n ih =>
    by_cases hsolid : ∀ c ∈ l, blank c = false
    · by_cases hl : l = []
      · rw [hl]
        rfl
      · rw [words_of_solid hl hsolid, List.intercalate_singleton]
    · -- The first blank: a word stands before it, and another one begins behind it.
      have hsplit := (List.takeWhile_append_dropWhile (p := fun c => !blank c) (l := l)).symm
      have hw : ∀ c ∈ l.takeWhile fun c => !blank c, blank c = false := fun c hc => by simpa using List.mem_takeWhile_imp hc
      generalize l.takeWhile (fun c => !blank c) = w at hsplit hw
      cases hr : l.dropWhile fun c => !blank c with
      | nil =>
        rw [hr, List.append_nil] at hsplit
        exact absurd (hsplit ▸ hw) hsolid
      | cons c r =>
        have hc : blank c = true := by
          have := List.head_dropWhile_not (fun c => !blank c) (l := l) (by simp [hr])
          simpa [hr] using this
        rw [hr] at hsplit
        subst hsplit
        have hne : w ≠ [] := by
          rintro rfl
          simp [hhead c rfl] at hc
        have hnext := List.isChain_append.mp hs
        obtain ⟨hfirst, hrest⟩ := List.isChain_cons.mp hnext.2.1
        have hrne : r ≠ [] := by
          rintro rfl
          have := hlast c (by simp)
          simp [this] at hc
        have hrec := ih r.length (by simp at hn; omega) hrest (fun d hd => hsep d (by simp [hd]))
          (fun d hd => (hfirst d hd).resolve_left (by simp [hc]))
          (fun d hd => hlast d (by rw [List.getLast?_append_of_ne_nil _ (by simp), List.getLast?_cons_of_ne_nil hrne]; exact hd)) rfl
        have hwords : words blank r ≠ [] := by
          intro h
          rw [h, List.intercalate_nil] at hrec
          exact hrne hrec.symm
        rw [words_append hc, words_of_solid hne hw, List.singleton_append, List.intercalate_cons_of_ne_nil hwords, hrec,
          ← hsep c (by simp) hc, List.append_assoc, List.singleton_append]

/-! ## Runs of blanks -/

/-- A run is blank where its first element is. -/
theorem blank_of_mem_run {a c : α} {run : List α} (h : (a :: run).IsChain fun x y => (blank x == blank y) = true)
    (hc : c ∈ a :: run) : blank c = blank a := by
  induction run generalizing a with
  | nil => rw [List.mem_singleton.mp hc]
  | cons b run ih =>
    obtain ⟨hab, hrun⟩ := List.isChain_cons_cons.mp h
    obtain rfl | hc := List.mem_cons.mp hc
    · rfl
    · rw [ih hrun hc]
      exact (beq_iff_eq.mp hab).symm

/-- Blanks behind a blank leave no trace. -/
theorem squeeze_blanks {w : List α} (hw : ∀ c ∈ w, blank c = true) (l : List α) :
    squeeze blank sep true (w ++ l) = squeeze blank sep true l := by
  induction w with
  | nil => rfl
  | cons a w ih =>
    rw [List.cons_append, squeeze, if_pos (hw a List.mem_cons_self), if_pos rfl,
      ih fun c hc => hw c (List.mem_cons_of_mem _ hc)]

/-- A word is kept. -/
theorem squeeze_solid {w : List α} (hne : w ≠ []) (hw : ∀ c ∈ w, blank c = false) (prev : Bool) (l : List α) :
    squeeze blank sep prev (w ++ l) = w ++ squeeze blank sep false l := by
  induction w generalizing prev with
  | nil => exact absurd rfl hne
  | cons a w ih =>
    rw [List.cons_append, squeeze, if_neg (by simp [hw a List.mem_cons_self])]
    cases w with
    | nil => rfl
    | cons b w => exact congrArg (a :: ·) (ih (by simp) (fun c hc => hw c (List.mem_cons_of_mem _ hc)) false)

/-- What stands before makes no difference, unless the list begins with a blank. -/
theorem squeeze_true {l : List α} (h : ∀ c ∈ l.head?, blank c = false) :
    squeeze blank sep true l = squeeze blank sep false l := by
  cases l with
  | nil => rfl
  | cons a l => simp [squeeze, h a rfl]

/-- The scan squeezes the runs. -/
theorem squeeze_eq_squeezed (blank : α → Bool) (sep : α) (l : List α) :
    squeeze blank sep false l = squeezed blank sep l := by
  obtain ⟨hl, hne, hrun, hnext⟩ := List.splitBy_eq_iff.mp (rfl : l.splitBy (fun a b => blank a == blank b) = _)
  change l = (runs blank l).flatten at hl
  change [] ∉ runs blank l at hne
  change ∀ m ∈ runs blank l, m.IsChain _ at hrun
  change (runs blank l).IsChain _ at hnext
  rw [squeezed]
  conv_lhs => rw [hl]
  generalize runs blank l = rs at hne hrun hnext
  clear hl
  induction rs with
  | nil => rfl
  | cons run rs ih =>
    obtain ⟨a, run, rfl⟩ := List.exists_cons_of_ne_nil fun h : run = [] => hne (by simp [h])
    have hsame : ∀ c ∈ a :: run, blank c = blank a := fun c => blank_of_mem_run (hrun _ List.mem_cons_self)
    have hrest := ih (fun h => hne (List.mem_cons_of_mem _ h)) (fun m hm => hrun m (List.mem_cons_of_mem _ hm))
      (List.IsChain.tail hnext)
    rw [List.flatten_cons, List.flatMap_cons, ← hrest]
    cases ha : blank a with
    | false =>
      rw [if_neg (by simpa [ha] using fun c hc => (hsame c (List.mem_cons_of_mem _ hc)).trans ha)]
      exact squeeze_solid (by simp) (fun c hc => (hsame c hc).trans ha) false _
    | true =>
      -- The next run has no blank at its start, so that nothing of it is taken for this one.
      have hhead : ∀ c ∈ rs.flatten.head?, blank c = false := by
        cases rs with
        | nil => simp
        | cons next rs =>
          obtain ⟨h, h', hdiff⟩ := (List.isChain_cons_cons.mp hnext).1
          obtain ⟨b, next, rfl⟩ := List.exists_cons_of_ne_nil h'
          rw [hsame _ (List.getLast_mem h), ha] at hdiff
          simpa using hdiff
      rw [if_pos (by simp [ha]), List.cons_append, squeeze, if_pos ha, if_neg (by simp),
        squeeze_blanks fun c hc => (hsame c (List.mem_cons_of_mem _ hc)).trans ha, squeeze_true hhead]
      rfl

/-- A list is squeezed from its beginning on. -/
theorem exists_squeeze_append (blank : α → Bool) (sep : α) (prev : Bool) (a b : List α) :
    ∃ prev', squeeze blank sep prev (a ++ b) = squeeze blank sep prev a ++ squeeze blank sep prev' b := by
  induction a generalizing prev with
  | nil => exact ⟨prev, rfl⟩
  | cons c a ih =>
    rw [List.cons_append, squeeze, squeeze]
    cases hc : blank c with
    | false =>
      obtain ⟨prev', h⟩ := ih false
      exact ⟨prev', by simp [h]⟩
    | true =>
      obtain ⟨prev', h⟩ := ih true
      refine ⟨prev', ?_⟩
      cases prev <;> simp [h]

/-- What is left is no blank but the separator. -/
theorem mem_squeeze {prev : Bool} {l : List α} {c : α} (h : c ∈ squeeze blank sep prev l) : blank c = false ∨ c = sep := by
  induction l generalizing prev with
  | nil => simp [squeeze] at h
  | cons a l ih =>
    rw [squeeze] at h
    split at h
    · split at h
      · exact ih h
      · obtain rfl | h := List.mem_cons.mp h
        · exact .inr rfl
        · exact ih h
    · rename_i ha
      obtain rfl | h := List.mem_cons.mp h
      · exact .inl (by simpa using ha)
      · exact ih h

/-- Behind a blank, it does not start with one. -/
theorem head_squeeze_true {l : List α} : ∀ c ∈ (squeeze blank sep true l).head?, blank c = false := by
  induction l with
  | nil => simp [squeeze]
  | cons a l ih =>
    intro c hc
    rw [squeeze] at hc
    split at hc
    · exact ih c hc
    · rename_i ha
      rw [List.head?_cons, Option.mem_some_iff] at hc
      simpa [hc] using ha

/-- It is spaced. -/
theorem spaced_squeeze (prev : Bool) (l : List α) : Spaced blank (squeeze blank sep prev l) := by
  induction l generalizing prev with
  | nil => exact List.isChain_nil
  | cons a l ih =>
    rw [squeeze]
    split
    · split
      · exact ih true
      · exact List.isChain_cons.mpr ⟨fun c hc => .inr (head_squeeze_true c hc), ih true⟩
    · rename_i ha
      exact List.isChain_cons.mpr ⟨fun _ _ => .inl (by simpa using ha), ih false⟩

/-- What is squeezed is not changed again. -/
theorem squeeze_of_spaced {l : List α} (hs : Spaced blank l) (hsep : ∀ c ∈ l, blank c = true → c = sep) {prev : Bool}
    (hprev : prev = true → ∀ c ∈ l.head?, blank c = false) : squeeze blank sep prev l = l := by
  induction l generalizing prev with
  | nil => rfl
  | cons a l ih =>
    obtain ⟨hnext, hl⟩ := List.isChain_cons.mp hs
    have hsep' : ∀ c ∈ l, blank c = true → c = sep := fun c hc => hsep c (List.mem_cons_of_mem _ hc)
    rw [squeeze]
    cases ha : blank a with
    | false => rw [if_neg (by simp), ih hl hsep' (by simp)]
    | true =>
      have hp : prev = false := by
        cases prev with
        | false => rfl
        | true => simp [hprev rfl a rfl] at ha
      rw [if_pos rfl, hp, if_neg (by simp), ih hl hsep' fun _ c hc => (hnext c hc).resolve_left (by simp [ha]),
        hsep a List.mem_cons_self ha]

end Words
