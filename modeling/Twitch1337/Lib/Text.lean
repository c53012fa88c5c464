import Mathlib.Algebra.GroupWithZero.Nat
import Mathlib.Data.List.Infix
import Twitch1337.Lib.Str

/-!
# Texts

A text is the list of its characters. Here is the part of the source language's string library that takes texts apart: prefixes
and suffixes, the first occurrence of a pattern, lines, and the length in bytes.
-/

/-- A text: its characters, in order. -/
abbrev Text := List Char

namespace Text

/-! ## Definitions -/

/-- The number of bytes of a text in UTF-8. -/
def utf8Len (t : Text) : Nat := (t.map Char.utf8Size).sum

/-- What follows a prefix. -/
def stripPrefix (pat t : Text) : Option Text := if pat.isPrefixOf t then some (t.drop pat.length) else none

/-- What precedes a suffix. -/
def stripSuffix (pat t : Text) : Option Text :=
  if pat.isSuffixOf t then some (t.take (t.length - pat.length)) else none

/-- What stands before and after the first occurrence of a pattern. -/
def splitOnce (pat : Text) : Text → Option (Text × Text)
  | [] => if pat = [] then some ([], []) else none
  | c :: t =>
    if pat.isPrefixOf (c :: t) then some ([], (c :: t).drop pat.length)
    else (splitOnce pat t).map fun s => (c :: s.1, s.2)

/-- Whether a pattern occurs in a text. -/
def contains (pat t : Text) : Bool := (splitOnce pat t).isSome

/-- The text from a point on, with the occurrences of a nonempty pattern replaced. `skip` characters of it belong to an
occurrence before that point. -/
def replaceFrom (pat by_ : Text) : Nat → Text → Text
  | _, [] => []
  | skip + 1, _ :: t => replaceFrom pat by_ skip t
  | 0, c :: t => if pat.isPrefixOf (c :: t) then by_ ++ replaceFrom pat by_ (pat.length - 1) t else c :: replaceFrom pat by_ 0 t

/-- A text with the occurrences of a nonempty pattern replaced, from left to right. -/
def replace (pat by_ t : Text) : Text := replaceFrom pat by_ 0 t

/-- The pieces of a text that end with a line feed, and what is left after the last. -/
def splitInclusive : Text → List Text
  | [] => []
  | c :: t =>
    if c = '\n' then [c] :: splitInclusive t
    else match splitInclusive t with
      | [] => [[c]]
      | l :: ls => (c :: l) :: ls

/-- A piece without its line ending, `\n` or `\r\n`. -/
def stripLineEnd (piece : Text) : Text :=
  match stripSuffix ['\n'] piece with
  | none => piece
  | some line => (stripSuffix ['\r'] line).getD line

/-- The lines of a text. -/
def lines (t : Text) : List Text := (splitInclusive t).map stripLineEnd

/-- The text with its ASCII letters in lower case. -/
def toAsciiLowercase (t : Text) : Text := t.map Char.toLower

/-- The characters of the general category `Cc`. -/
def isControl (c : Char) : Bool := c.toNat < 0x20 || (0x7F ≤ c.toNat && c.toNat < 0xA0)

/-! ## Occurrences -/

@[simp] theorem utf8Len_nil : utf8Len [] = 0 := rfl

/-- What is left behind a beginning. -/
theorem stripPrefix_eq_some {pat t rest : Text} : stripPrefix pat t = some rest ↔ t = pat ++ rest := by
  unfold stripPrefix
  by_cases h : pat.isPrefixOf t = true
  · rw [if_pos h, Option.some.injEq]
    obtain ⟨u, rfl⟩ := List.isPrefixOf_iff_prefix.mp h
    rw [List.drop_left, List.append_cancel_left_eq]
  · rw [if_neg h]
    constructor
    · intro h'
      cases h'
    · intro h'
      exact absurd (List.isPrefixOf_iff_prefix.mpr ⟨rest, h'.symm⟩) h

/-- What is left before an end. -/
theorem stripSuffix_eq_some {pat t rest : Text} : stripSuffix pat t = some rest ↔ t = rest ++ pat := by
  unfold stripSuffix
  by_cases h : pat.isSuffixOf t = true
  · rw [if_pos h, Option.some.injEq]
    obtain ⟨u, rfl⟩ := List.isSuffixOf_iff_suffix.mp h
    rw [List.length_append, Nat.add_sub_cancel, List.take_left, List.append_cancel_right_eq]
  · rw [if_neg h]
    constructor
    · intro h'
      cases h'
    · intro h'
      exact absurd (List.isSuffixOf_iff_suffix.mpr ⟨rest, h'.symm⟩) h

/-- A split puts the pattern between its two parts. -/
theorem eq_of_splitOnce {pat t a b : Text} (h : splitOnce pat t = some (a, b)) : t = a ++ pat ++ b := by
  induction t generalizing a b with
  | nil =>
    unfold splitOnce at h
    split at h
    · rename_i hp
      cases h
      simp [hp]
    · cases h
  | cons c t ih =>
    unfold splitOnce at h
    split at h
    · rename_i hp
      obtain ⟨u, hu⟩ := List.isPrefixOf_iff_prefix.mp hp
      cases h
      rw [← hu, List.drop_left, List.nil_append]
    · rw [Option.map_eq_some_iff] at h
      obtain ⟨⟨a', b'⟩, hs, heq⟩ := h
      cases heq
      rw [ih hs, List.cons_append, List.cons_append]

/-- There is a split where there is an occurrence. -/
theorem isSome_splitOnce_of_infix {pat t : Text} (h : pat <:+: t) : (splitOnce pat t).isSome = true := by
  induction t with
  | nil => simp [splitOnce, List.infix_nil.mp h]
  | cons c t ih =>
    unfold splitOnce
    split
    · rfl
    · rename_i hp
      rw [Option.isSome_map]
      rcases List.infix_cons_iff.mp h with h | h
      · exact absurd (List.isPrefixOf_iff_prefix.mpr h) hp
      · exact ih h

/-- One text is in another. -/
theorem contains_iff {pat t : Text} : contains pat t = true ↔ pat <:+: t := by
  constructor
  · intro h
    obtain ⟨⟨a, b⟩, hs⟩ := Option.isSome_iff_exists.mp h
    exact ⟨a, b, (eq_of_splitOnce hs).symm⟩
  · exact isSome_splitOnce_of_infix

/-- The first occurrence of a character. -/
theorem splitOnce_char {c : Char} {l : Text} (hl : c ∉ l) (rest : Text) : splitOnce [c] (l ++ c :: rest) = some (l, rest) := by
  induction l with
  | nil => simp [splitOnce, List.isPrefixOf]
  | cons a l ih =>
    rw [List.mem_cons, not_or] at hl
    have ha : [c].isPrefixOf (a :: (l ++ c :: rest)) = false := by
      simp [List.isPrefixOf, hl.1]
    rw [List.cons_append, splitOnce, ha, if_neg Bool.false_ne_true, ih hl.2]
    rfl

/-! ## Lines -/

/-- A line without a line feed is skipped by the search for what starts with one, unless the pattern follows it. -/
theorem splitOnce_line {l : Text} (hl : '\n' ∉ l) (pat rest : Text) :
    splitOnce ('\n' :: pat) (l ++ '\n' :: rest) =
      if pat.isPrefixOf rest then some (l, rest.drop pat.length)
      else (splitOnce ('\n' :: pat) rest).map fun s => (l ++ '\n' :: s.1, s.2) := by
  induction l with
  | nil =>
    rw [List.nil_append, splitOnce, List.isPrefixOf_cons_cons_self]
    rfl
  | cons c l ih =>
    rw [List.mem_cons, not_or] at hl
    have hc : ('\n' :: pat).isPrefixOf (c :: (l ++ '\n' :: rest)) = false := by
      simp [List.isPrefixOf, hl.1]
    rw [List.cons_append, splitOnce, hc, if_neg Bool.false_ne_true, ih hl.2]
    split
    · rfl
    · rw [Option.map_map]
      rfl

/-- A line ends with its line break. -/
theorem splitInclusive_line {l : Text} (hl : '\n' ∉ l) (rest : Text) :
    splitInclusive (l ++ '\n' :: rest) = (l ++ ['\n']) :: splitInclusive rest := by
  induction l with
  | nil => simp [splitInclusive]
  | cons c l ih =>
    rw [List.mem_cons, not_or] at hl
    rw [List.cons_append, splitInclusive, if_neg (Ne.symm hl.1), ih hl.2]
    rfl

/-- The last one may have none. -/
theorem splitInclusive_last {l : Text} (hl : '\n' ∉ l) (hne : l ≠ []) : splitInclusive l = [l] := by
  induction l with
  | nil => exact absurd rfl hne
  | cons c l ih =>
    rw [List.mem_cons, not_or] at hl
    rw [splitInclusive, if_neg (Ne.symm hl.1)]
    by_cases hn : l = []
    · rw [hn]
      rfl
    · rw [ih hl.2 hn]

/-- The line of a piece that ends with a line feed, when no carriage return stands before it. -/
theorem stripLineEnd_newline {l : Text} (hr : l.getLast? ≠ some '\r') : stripLineEnd (l ++ ['\n']) = l := by
  have hn : stripSuffix ['\n'] (l ++ ['\n']) = some l := stripSuffix_eq_some.mpr rfl
  have hc : stripSuffix ['\r'] l = none := by
    cases h : stripSuffix ['\r'] l with
    | none => rfl
    | some l' =>
      rw [stripSuffix_eq_some] at h
      simp [h] at hr
  rw [stripLineEnd, hn]
  simp [hc]

/-- The line of the last piece. -/
theorem stripLineEnd_last {l : Text} (hl : '\n' ∉ l) : stripLineEnd l = l := by
  have hn : stripSuffix ['\n'] l = none := by
    cases h : stripSuffix ['\n'] l with
    | none => rfl
    | some l' =>
      rw [stripSuffix_eq_some] at h
      simp [h] at hl
  rw [stripLineEnd, hn]

/-- A line is read without its line break. -/
theorem lines_line {l : Text} (hl : '\n' ∉ l) (hr : l.getLast? ≠ some '\r') (rest : Text) :
    lines (l ++ '\n' :: rest) = l :: lines rest := by
  rw [lines, splitInclusive_line hl, List.map_cons, stripLineEnd_newline hr, lines]

/-- A last line without a line break is read as it is. -/
theorem lines_last {l : Text} (hl : '\n' ∉ l) (hne : l ≠ []) : lines l = [l] := by
  rw [lines, splitInclusive_last hl hne, List.map_singleton, stripLineEnd_last hl]

/-- The pieces hold a line feed at their end only. -/
theorem newline_splitInclusive {t piece : Text} (h : piece ∈ splitInclusive t) :
    ∃ l, '\n' ∉ l ∧ (piece = l ∨ piece = l ++ ['\n']) := by
  induction t generalizing piece with
  | nil => simp [splitInclusive] at h
  | cons c t ih =>
    unfold splitInclusive at h
    by_cases hc : c = '\n'
    · rw [if_pos hc, List.mem_cons] at h
      rcases h with rfl | h
      · exact ⟨[], by simp, .inr (by rw [hc]; rfl)⟩
      · exact ih h
    · rw [if_neg hc] at h
      cases hs : splitInclusive t with
      | nil =>
        rw [hs] at h
        rw [List.mem_singleton.mp h]
        exact ⟨[c], by simpa using Ne.symm hc, .inl rfl⟩
      | cons p ps =>
        rw [hs] at h ih
        rcases List.mem_cons.mp h with rfl | h
        · obtain ⟨l, hl, hp⟩ := ih (List.mem_cons_self)
          refine ⟨c :: l, by simp [hl, Ne.symm hc], ?_⟩
          rcases hp with rfl | rfl
          · exact .inl rfl
          · exact .inr rfl
        · exact ih (List.mem_cons_of_mem _ h)

/-- Lines hold no line feed. -/
theorem newline_lines {t line : Text} (h : line ∈ lines t) : '\n' ∉ line := by
  obtain ⟨piece, hp, rfl⟩ := List.mem_map.mp h
  obtain ⟨l, hl, rfl | rfl⟩ := newline_splitInclusive hp
  · rwa [stripLineEnd_last hl]
  · have hn : stripSuffix ['\n'] (l ++ ['\n']) = some l := stripSuffix_eq_some.mpr rfl
    rw [stripLineEnd, hn]
    cases hc : stripSuffix ['\r'] l with
    | none => simpa [hc] using hl
    | some l' =>
      have heq := stripSuffix_eq_some.mp hc
      rw [heq, List.mem_append, not_or] at hl
      simp only [hc, Option.getD_some]
      exact hl.1

/-! ## Texts made of lines -/

/-- Lines, each with its line feed. -/
def unlines (ls : List Text) : Text := ls.flatMap fun l => l ++ ['\n']

/-- The lines that follow another one. -/
def moreLines (ls : List Text) : Text := ls.flatMap fun l => '\n' :: l

/-- The first line feed before a pattern that none of the lines but the one after them starts with. -/
theorem splitOnce_unlines {pat rest : Text} (l : Text) (ls : List Text) (hl : ∀ x ∈ l :: ls, '\n' ∉ x)
    (hpat : ∀ x ∈ ls, ∀ t, pat.isPrefixOf (x ++ t) = false) (hrest : pat.isPrefixOf rest = true) :
    splitOnce ('\n' :: pat) (unlines (l :: ls) ++ rest) = some (l ++ moreLines ls, rest.drop pat.length) := by
  induction ls generalizing l with
  | nil =>
    have ht : unlines [l] ++ rest = l ++ '\n' :: rest := by simp [unlines]
    rw [ht, splitOnce_line (hl l (by simp)), if_pos hrest]
    simp [moreLines]
  | cons m ms ih =>
    have ht : unlines (l :: m :: ms) ++ rest = l ++ '\n' :: (unlines (m :: ms) ++ rest) := by simp [unlines]
    have hm : pat.isPrefixOf (unlines (m :: ms) ++ rest) = false := by
      have := hpat m (by simp) ('\n' :: (unlines ms ++ rest))
      simpa [unlines] using this
    rw [ht, splitOnce_line (hl l (by simp)), hm, if_neg Bool.false_ne_true,
      ih m (fun x hx => hl x (List.mem_cons_of_mem l hx)) (fun x hx => hpat x (List.mem_cons_of_mem m hx))]
    simp [moreLines]

/-- The lines of a text made of lines. -/
theorem lines_moreLines (l : Text) (ls : List Text)
    (hl : ∀ x ∈ l :: ls, '\n' ∉ x ∧ x ≠ [] ∧ x.getLast? ≠ some '\r') : lines (l ++ moreLines ls) = l :: ls := by
  induction ls generalizing l with
  | nil =>
    obtain ⟨hn, hne, _⟩ := hl l (by simp)
    simpa [moreLines] using lines_last hn hne
  | cons m ms ih =>
    obtain ⟨hn, _, hr⟩ := hl l (by simp)
    have ht : l ++ moreLines (m :: ms) = l ++ '\n' :: (m ++ moreLines ms) := by simp [moreLines]
    rw [ht, lines_line hn hr, ih m (fun x hx => hl x (List.mem_cons_of_mem l hx))]

/-! ## Counting occurrences -/

/-- The number of places at which a pattern occurs. -/
def occurrences (pat : Text) : Text → Nat
  | [] => if pat.isPrefixOf [] then 1 else 0
  | c :: t => (if pat.isPrefixOf (c :: t) then 1 else 0) + occurrences pat t

/-- A text occurs nowhere when it is not in the other. -/
theorem occurrences_eq_zero {pat t : Text} : occurrences pat t = 0 ↔ ¬ pat <:+: t := by
  induction t with
  | nil => simp [occurrences]
  | cons c t ih =>
    rw [occurrences, Nat.add_eq_zero_iff, ih, List.infix_cons_iff, not_or, ← List.isPrefixOf_iff_prefix]
    simp

/-- A text without one of the characters of a pattern is a text without that pattern. -/
theorem occurrences_of_notMem {pat t : Text} {c : Char} (hc : c ∈ pat) (ht : c ∉ t) : occurrences pat t = 0 :=
  occurrences_eq_zero.mpr fun h => ht (h.subset hc)

/-- A pattern begins before a character that is not in it, and ends there. -/
theorem prefix_append_cons {pat : Text} {c : Char} (hc : c ∉ pat) (a b : Text) : pat <+: a ++ c :: b ↔ pat <+: a := by
  induction a generalizing pat with
  | nil =>
    cases pat with
    | nil => simp
    | cons x pat =>
      rw [List.mem_cons, not_or] at hc
      simp [List.cons_prefix_cons, Ne.symm hc.1]
  | cons x a ih =>
    cases pat with
    | nil => simp
    | cons y pat =>
      rw [List.mem_cons, not_or] at hc
      rw [List.cons_append, List.cons_prefix_cons, List.cons_prefix_cons, ih hc.2]

/-- The occurrences on both sides of a character that is not in the pattern. -/
theorem occurrences_append_cons {pat : Text} {c : Char} (hc : c ∉ pat) (hne : pat ≠ []) (a b : Text) :
    occurrences pat (a ++ c :: b) = occurrences pat a + occurrences pat b := by
  have hnil : ¬ pat <+: [] := by simpa using hne
  induction a with
  | nil =>
    have hprefix := prefix_append_cons hc [] b
    rw [List.nil_append] at hprefix
    rw [List.nil_append, occurrences, occurrences]
    simp only [List.isPrefixOf_iff_prefix, hprefix, if_neg hnil]
  | cons x a ih =>
    have hprefix := prefix_append_cons hc (x :: a) b
    rw [List.cons_append] at hprefix
    rw [List.cons_append, occurrences, occurrences, ih]
    simp only [List.isPrefixOf_iff_prefix, hprefix]
    rw [Nat.add_assoc]

/-- A split is at the first occurrence. -/
theorem splitOnce_eq_some_iff {pat : Text} (hne : pat ≠ []) {t a b : Text} :
    splitOnce pat t = some (a, b) ↔ t = a ++ pat ++ b ∧ ¬ pat <:+: a ++ pat.dropLast := by
  have hlast : pat.dropLast.length < pat.length := by
    have := List.length_pos_iff.mpr hne
    rw [List.length_dropLast]
    omega
  have hlead : pat.dropLast <+: pat := List.dropLast_prefix pat
  induction t generalizing a with
  | nil => simp [splitOnce, hne]
  | cons c t ih =>
    unfold splitOnce
    constructor
    · intro h
      split at h
      · rename_i hp
        obtain ⟨u, hu⟩ := List.isPrefixOf_iff_prefix.mp hp
        cases h
        rw [← hu, List.drop_left, List.nil_append]
        exact ⟨rfl, fun hin => absurd hin.length_le (Nat.not_le.mpr hlast)⟩
      · rename_i hp
        obtain ⟨⟨a', b'⟩, hs, heq⟩ := Option.map_eq_some_iff.mp h
        cases heq
        obtain ⟨rfl, hfirst⟩ := ih.mp hs
        refine ⟨rfl, fun hin => ?_⟩
        rcases List.infix_cons_iff.mp hin with hin | hin
        · refine hp (List.isPrefixOf_iff_prefix.mpr (hin.trans ?_))
          rw [List.append_assoc]
          exact List.cons_prefix_cons.mpr ⟨rfl, (List.prefix_append_right_inj _).mpr (hlead.trans (List.prefix_append pat _))⟩
        · exact hfirst hin
    · rintro ⟨ht, hfirst⟩
      cases a with
      | nil =>
        rw [List.nil_append] at ht
        rw [ht, if_pos (List.isPrefixOf_iff_prefix.mpr (List.prefix_append pat b)), List.drop_left]
      | cons x a =>
        rw [List.cons_append, List.cons_append, List.cons.injEq] at ht
        obtain ⟨rfl, rfl⟩ := ht
        have hnot : ¬ pat.isPrefixOf (c :: (a ++ pat ++ b)) = true := by
          intro hp
          refine hfirst (List.IsPrefix.isInfix ?_)
          refine List.prefix_of_prefix_length_le (List.isPrefixOf_iff_prefix.mp hp) ?_ ?_
          · rw [List.cons_append, List.append_assoc, List.cons_prefix_cons, List.prefix_append_right_inj]
            exact ⟨rfl, hlead.trans (List.prefix_append pat b)⟩
          · rw [List.length_append, List.length_cons, List.length_dropLast]
            omega
        have hrest : splitOnce pat (a ++ pat ++ b) = some (a, b) :=
          ih.mpr ⟨rfl, fun hin => hfirst (hin.trans (List.suffix_cons c _).isInfix)⟩
        rw [if_neg hnot, hrest]
        rfl

/-! ## Replacing -/

/-- What was passed over is not looked at again. -/
theorem replaceFrom_append (pat by_ x t : Text) : replaceFrom pat by_ x.length (x ++ t) = replace pat by_ t := by
  induction x with
  | nil => rfl
  | cons c x ih => rw [List.cons_append, List.length_cons, replaceFrom, ih]

/-- An occurrence at the front is replaced. -/
theorem replace_prefix {pat : Text} (hne : pat ≠ []) (by_ t : Text) : replace pat by_ (pat ++ t) = by_ ++ replace pat by_ t := by
  obtain ⟨c, pat, rfl⟩ := List.exists_cons_of_ne_nil hne
  have hp : (c :: pat).isPrefixOf (c :: (pat ++ t)) = true := List.isPrefixOf_iff_prefix.mpr ⟨t, rfl⟩
  rw [List.cons_append, replace, replaceFrom, if_pos hp, List.length_cons, Nat.add_sub_cancel, replaceFrom_append]

/-- Where no occurrence begins, nothing is replaced. -/
theorem replace_append {pat a rest : Text} (h : ∀ x y, a ++ rest = x ++ pat ++ y → a.length ≤ x.length) (by_ : Text) :
    replace pat by_ (a ++ rest) = a ++ replace pat by_ rest := by
  induction a with
  | nil => rfl
  | cons c a ih =>
    have hp : ¬ pat.isPrefixOf (c :: (a ++ rest)) = true := by
      intro hp
      obtain ⟨y, hy⟩ := List.isPrefixOf_iff_prefix.mp hp
      simpa using h [] y hy.symm
    rw [List.cons_append, replace, replaceFrom, if_neg hp, ← replace, ih fun x y hxy => ?_]
    · rfl
    · have := h (c :: x) y (by rw [List.cons_append, hxy]; rfl)
      simpa using this

/-- The first occurrence is replaced, and what follows it. -/
theorem replace_of_splitOnce {pat : Text} (hne : pat ≠ []) {t a b : Text} (h : splitOnce pat t = some (a, b)) (by_ : Text) :
    replace pat by_ t = a ++ by_ ++ replace pat by_ b := by
  obtain ⟨rfl, hfirst⟩ := (splitOnce_eq_some_iff hne).mp h
  rw [List.append_assoc, replace_append, replace_prefix hne, List.append_assoc]
  -- An occurrence that begins before the first one would end in front of its last character.
  intro x y hxy
  by_contra hlt
  have hlead : a ++ pat.dropLast <+: x ++ pat ++ y := by
    rw [← hxy]
    exact (List.prefix_append_right_inj a).mpr ((List.dropLast_prefix pat).trans (List.prefix_append pat b))
  have hlen : (x ++ pat).length ≤ (a ++ pat.dropLast).length := by
    have := List.length_pos_iff.mpr hne
    rw [List.length_append, List.length_append, List.length_dropLast]
    omega
  obtain ⟨z, hz⟩ := List.prefix_of_prefix_length_le (List.prefix_append (x ++ pat) y) hlead hlen
  exact hfirst ⟨x, z, hz⟩

/-- What is in front of a character that is not in the pattern is replaced on its own. -/
theorem replace_append_cons {pat : Text} {c : Char} (hc : c ∉ pat) (hne : pat ≠ []) (by_ a b : Text) :
    replace pat by_ (a ++ c :: b) = replace pat by_ a ++ replace pat by_ (c :: b) := by
  suffices ∀ skip, skip ≤ a.length →
      replaceFrom pat by_ skip (a ++ c :: b) = replaceFrom pat by_ skip a ++ replace pat by_ (c :: b) from this 0 (Nat.zero_le _)
  induction a with
  | nil =>
    intro skip hskip
    rw [Nat.le_zero.mp hskip]
    rfl
  | cons x a ih =>
    intro skip hskip
    rw [List.cons_append]
    cases skip with
    | succ skip => rw [replaceFrom, replaceFrom, ih skip (by simpa using hskip)]
    | zero =>
      have hprefix := prefix_append_cons hc (x :: a) b
      rw [List.cons_append] at hprefix
      rw [replaceFrom, replaceFrom]
      simp only [List.isPrefixOf_iff_prefix, hprefix]
      split
      · rename_i hp
        have hlen := hp.length_le
        have hpos := List.length_pos_iff.mpr hne
        rw [List.length_cons] at hlen
        rw [ih (pat.length - 1) (by omega), List.append_assoc]
      · rw [ih 0 (Nat.zero_le _), List.cons_append]

end Text
