import Twitch1337.Bot.Util

/-!
# Where a response is cut

A response that is too long is cut at the last blank of what fits. Where it fits up to the end of a word, that blank stands before
a word that would have fitted; and limits that leave no room for the dots can leave a blank at the end.
-/

namespace Twitch1337.Util

open Text Cursor Words

/-- The words of a text with single blanks between them. -/
def joined (text : Text) : Text := [' '].intercalate (words RustStr.isWhitespace text)

variable {text : Text} {max : Nat}

/-- The words of a text have no blanks. -/
theorem solid (text : Text) : Solid RustStr.isWhitespace (words RustStr.isWhitespace text) := solid_words _ _

/-- Words with single blanks stay as they are. -/
theorem joined_intercalate {ws : List Text} (h : Solid RustStr.isWhitespace ws) : joined ([' '].intercalate ws) = [' '].intercalate ws := by
  rw [joined, words_intercalate h (by decide)]

/-! ## Which cut is made -/

/-- There is no room for the dots. -/
theorem truncateResponse_small (hmax : max ≤ 3) : truncateResponse text max = some ((joined text).take max) := by
  have hlimit : max - "...".toList.length = 0 := Nat.sub_eq_zero_of_le hmax
  obtain rfl | hpos := Nat.eq_zero_or_pos max
  · rfl
  · simp only [truncateResponse, hlimit, if_true, Nat.ne_of_gt hpos, if_false, joined]

/-- A text that fits is kept. -/
theorem truncateResponse_whole (hfits : (joined text).length ≤ max) : truncateResponse text max = some (joined text) := by
  by_cases hmax : max ≤ 3
  · rw [truncateResponse_small hmax, List.take_of_length_le hfits]
  · have hlimit : max - "...".toList.length ≠ 0 := by
      change max - 3 ≠ 0
      omega
    have hend : (charIndices (joined text))[max]? = none := by
      rw [List.getElem?_eq_none_iff, length_charIndices]
      exact hfits
    rw [joined] at hend
    simp only [truncateResponse, hlimit, show max ≠ 0 by omega, if_false, hend, joined]

/-- A text that fits is kept as it is, when its blanks are single. -/
theorem truncateResponse_same {t : Text} (hsame : joined t = t) (hfits : t.length ≤ max) : truncateResponse t max = some t := by
  rw [truncateResponse_whole (by rw [hsame]; exact hfits), hsame]

/-- A text that does not fit loses what is behind the last blank of what fits. -/
theorem truncateResponse_long (hmax : 3 < max) (hlong : max < (joined text).length) :
    truncateResponse text max =
      match rfind ' ' ((joined text).take (max - 3)) with
      | some lastSpace =>
        (takeBytes lastSpace ((joined text).take (max - 3))).map fun before =>
          if before.isEmpty then (joined text).take (max - 3) ++ "...".toList else before ++ "...".toList
      | none => some ((joined text).take (max - 3) ++ "...".toList) := by
  have hsuffix : "...".toList.length = 3 := rfl
  have hlimit : max - 3 ≠ 0 := by omega
  have hcut : utf8Len ((joined text).take (max - 3)) ≤ utf8Len ((joined text).take max) := by
    have := List.take_append_drop (max - 3) ((joined text).take max)
    rw [List.take_take, Nat.min_eq_left (by omega)] at this
    rw [← this, utf8Len_append]
    exact Nat.le_add_right _ _
  have htake : takeBytes (utf8Len ((joined text).take (max - 3))) (joined text) = some ((joined text).take (max - 3)) := by
    conv_lhs => rw [← List.take_append_drop (max - 3) (joined text), List.take_append_of_le_length (by simp; omega),
      List.take_take, Nat.min_self]
    exact takeBytes_append _ _
  rw [truncateResponse]
  simp only [hsuffix, hlimit, if_false, show max ≠ 0 by omega]
  rw [← joined, getElem?_charIndices hlong, getElem?_charIndices (show max - 3 < (joined text).length by omega)]
  dsimp only
  rw [Nat.min_eq_left hcut, htake]
  refine (Option.bind_some _ _).trans ?_
  cases rfind ' ' ((joined text).take (max - 3)) <;> rfl

/-- A text without a blank to cut at is cut in a word. -/
theorem truncateResponse_of_no_blank (hmax : 3 < max) (hlong : max < (joined text).length)
    (hblank : ' ' ∉ (joined text).take (max - 3)) :
    truncateResponse text max = some ((joined text).take (max - 3) ++ "...".toList) := by
  rw [truncateResponse_long hmax hlong, rfind_eq_none hblank]

/-- A text with a blank to cut at is cut at the last one. -/
theorem truncateResponse_of_blank (hmax : 3 < max) (hlong : max < (joined text).length) {before after : Text}
    (hsplit : (joined text).take (max - 3) = before ++ ' ' :: after) (hlast : ' ' ∉ after) :
    truncateResponse text max = some (before ++ "...".toList) := by
  have hne : before.isEmpty = false := by
    cases before with
    | cons c before => rfl
    | nil =>
      have hhead : (joined text).head? = some ' ' := by
        rw [← List.take_append_drop (max - 3) (joined text), hsplit]
        rfl
      cases head_intercalate (solid text) ' ' hhead
  rw [truncateResponse_long hmax hlong, hsplit, rfind_append before hlast]
  simp only [takeBytes_append, Option.map_some, hne, Bool.false_eq_true, if_false]

/-! ## What a cut should be -/

/-- As many of the first words as a number of characters can hold. -/
structure LongestWords (limit : Nat) (ws kept : List Text) : Prop where
  isPrefix : kept <+: ws
  fits : ([' '].intercalate kept).length ≤ limit
  longest : ∀ more, more <+: ws → ([' '].intercalate more).length ≤ limit → more <+: kept

/-- Blanks are single spaces. -/
structure SingleSpaced (t : Text) : Prop where
  spaced : Spaced RustStr.isWhitespace t
  space : ∀ c ∈ t, RustStr.isWhitespace c = true → c = ' '

/-- What is promised of a text that was cut to a number of characters. -/
structure CutAtWord (text : Text) (max : Nat) (out : Text) : Prop where
  short : out.length ≤ max
  single : SingleSpaced out
  whole : (joined text).length ≤ max → out = joined text
  atWord : 3 < max → max < (joined text).length → (∀ w ∈ (words RustStr.isWhitespace text).head?, w.length ≤ max - 3) →
    ∃ kept, LongestWords (max - 3) (words RustStr.isWhitespace text) kept ∧ out = [' '].intercalate kept ++ "...".toList
  broken : 3 < max → max < (joined text).length → (∀ w ∈ (words RustStr.isWhitespace text).head?, max - 3 < w.length) →
    out = (joined text).take (max - 3) ++ "...".toList
  stable : truncateResponse out max = some out

/-- What fits ends with a word, and there is another word before it. -/
def EndsWithWord (text : Text) (max : Nat) : Prop :=
  3 < max ∧ max < (joined text).length ∧ (joined text)[max - 3]? = some ' ' ∧ ' ' ∈ (joined text).take (max - 3)

/-- There is no room for the dots, and what fits ends with a blank. -/
def EndsWithBlank (text : Text) (max : Nat) : Prop := max ≤ 3 ∧ ((joined text).take max).getLast? = some ' '

/-! ## Single spaces -/

/-- Joined words have single blanks. -/
theorem singleSpaced_joined (text : Text) : SingleSpaced (joined text) :=
  ⟨spaced_intercalate (solid text), fun _ => eq_sep_of_mem_intercalate (solid text)⟩

/-- The beginning of a text with single blanks has single blanks. -/
theorem SingleSpaced.of_start {t p : Text} (h : SingleSpaced t) (hp : p <+: t) : SingleSpaced p :=
  ⟨h.spaced.of_start hp, fun c hc => h.space c (hp.subset hc)⟩

/-- Dots are no blanks. -/
theorem dots_solid : ∀ c ∈ "...".toList, RustStr.isWhitespace c = false := by
  intro c hc
  obtain rfl : c = '.' := by simpa using hc
  decide

/-- They may stand at the end. -/
theorem SingleSpaced.dots {t : Text} (h : SingleSpaced t) : SingleSpaced (t ++ "...".toList) where
  spaced := h.spaced.append (Spaced.of_solid dots_solid) (.inr fun c hc => dots_solid c (List.mem_of_mem_head? hc))
  space c hc hb := by
    obtain hc | hc := List.mem_append.mp hc
    · exact h.space c hc hb
    · rw [dots_solid c hc] at hb
      cases hb

/-- A text of single spaces with none at its ends stays as it is. -/
theorem SingleSpaced.joined_eq {t : Text} (h : SingleSpaced t) (hhead : ∀ c ∈ t.head?, RustStr.isWhitespace c = false)
    (hlast : ∀ c ∈ t.getLast?, RustStr.isWhitespace c = false) : joined t = t :=
  intercalate_words h.spaced h.space hhead hlast

/-- A beginning of joined words does not start with a blank. -/
theorem head_of_prefix {p : Text} (hp : p <+: joined text) : ∀ c ∈ p.head?, RustStr.isWhitespace c = false := by
  intro c hc
  cases p with
  | nil => cases hc
  | cons a p =>
    obtain ⟨rest, hrest⟩ := hp
    exact head_intercalate (solid text) c (by rw [← joined, ← hrest]; exact hc)

/-- A beginning with the dots behind it stays as it is, if it is not too long. -/
theorem truncateResponse_dots {p : Text} (hp : p <+: joined text) (hne : p ≠ []) (hlen : p.length + 3 ≤ max) :
    truncateResponse (p ++ "...".toList) max = some (p ++ "...".toList) := by
  have hsame : joined (p ++ "...".toList) = p ++ "...".toList := by
    refine ((singleSpaced_joined text).of_start hp).dots.joined_eq (fun c hc => ?_) (fun c hc => ?_)
    · rw [List.head?_append_of_ne_nil _ hne] at hc
      exact head_of_prefix hp c hc
    · rw [List.getLast?_append_of_ne_nil _ (by decide)] at hc
      have : c = '.' := (Option.some.inj hc).symm
      rw [this]
      decide
  exact truncateResponse_same hsame (by rw [List.length_append]; exact hlen)

/-- A beginning of at most three characters stays as it is if and only if there is no blank at its end. -/
theorem truncateResponse_take_iff :
    truncateResponse ((joined text).take max) max = some ((joined text).take max) ↔
      ((joined text).take max).getLast? ≠ some ' ' := by
  have hprefix := List.take_prefix max (joined text)
  have hsingle := (singleSpaced_joined text).of_start hprefix
  have hlen : ((joined text).take max).length ≤ max := List.length_take_le max _
  generalize (joined text).take max = out at hprefix hsingle hlen
  have hhead := head_of_prefix hprefix
  constructor
  · intro h hlast
    obtain ⟨front, rfl⟩ : ∃ front, out = front ++ [' '] := by
      obtain ⟨front, c, rfl⟩ := (List.eq_nil_or_concat out).resolve_left (by rintro rfl; cases hlast)
      rw [List.concat_eq_append, List.getLast?_concat, Option.some.injEq] at hlast
      exact ⟨front, by rw [hlast, List.concat_eq_append]⟩
    have hwords : joined (front ++ [' ']) = joined front := by
      rw [joined, words_append (by decide), words_nil, List.append_nil, joined]
    have hfront : joined front = front := by
      obtain ⟨hspaced, -, hlast⟩ := List.isChain_append.mp hsingle.spaced
      refine SingleSpaced.joined_eq (hsingle.of_start (List.prefix_append _ _)) (fun c hc => hhead c ?_) fun c hc => ?_
      · cases front with
        | nil => cases hc
        | cons a front => exact hc
      · exact (hlast c hc ' ' rfl).resolve_right (by decide)
    have hfits : (joined (front ++ [' '])).length ≤ max := by
      rw [hwords, hfront]
      rw [List.length_append] at hlen
      omega
    rw [truncateResponse_whole hfits, hwords, hfront] at h
    simpa using congrArg List.length (Option.some.inj h)
  · intro hlast
    have hsame : joined out = out := by
      refine hsingle.joined_eq hhead fun c hc => ?_
      by_contra hb
      rw [Bool.not_eq_false] at hb
      rw [hsingle.space c (List.mem_of_mem_getLast? hc) hb] at hc
      exact hlast hc
    exact truncateResponse_same hsame hlen

/-! ## The longest row of words -/

/-- A row of some of the words has a blank behind it. -/
theorem blank_behind {more : List Text} (hp : more <+: words RustStr.isWhitespace text) (hne : more ≠ [])
    (hlt : ([' '].intercalate more).length < (joined text).length) :
    (joined text)[([' '].intercalate more).length]? = some ' ' := by
  obtain ⟨rest, hrest⟩ := hp
  have hrne : rest ≠ [] := by
    rintro rfl
    rw [List.append_nil] at hrest
    rw [hrest] at hlt
    exact Nat.lt_irrefl _ hlt
  have hjoined : joined text = [' '].intercalate more ++ ' ' :: [' '].intercalate rest := by
    rw [joined, ← hrest]
    exact intercalate_append hne hrne
  rw [hjoined, List.getElem?_append_right (Nat.le_refl _), Nat.sub_self, List.getElem?_cons_zero]

/-- Words are as many as fit where no blank follows them among what fits and right behind it. -/
theorem longestWords_of {limit : Nat} {kept : List Text} (hp : kept <+: words RustStr.isWhitespace text)
    (hfits : ([' '].intercalate kept).length ≤ limit) (hlong : limit < (joined text).length)
    (hno : ∀ i, ([' '].intercalate kept).length < i → i ≤ limit → (joined text)[i]? ≠ some ' ') :
    LongestWords limit (words RustStr.isWhitespace text) kept where
  isPrefix := hp
  fits := hfits
  longest more hmore hle := by
    obtain h | h := List.prefix_or_prefix_of_prefix hmore hp
    · exact h
    · by_cases hsame : kept = more
      · rw [hsame]
      · have hlt := length_intercalate_lt ' ' (fun w hw => solid text w (hmore.subset hw)) h hsame
        have hne : more ≠ [] := by
          rintro rfl
          simp at hlt
        exact absurd (blank_behind hmore hne (by omega)) (hno _ hlt hle)

/-! ## The condition -/

/-- The words before a blank. -/
theorem exists_words_before {before after : Text} (h : joined text = before ++ ' ' :: after) :
    ∃ kept, kept <+: words RustStr.isWhitespace text ∧ kept ≠ [] ∧ before = [' '].intercalate kept := by
  obtain ⟨kept, rest, hwords, hne, -, hbefore, -⟩ := exists_of_intercalate_eq (solid text) (by decide) h
  exact ⟨kept, ⟨rest, hwords.symm⟩, hne, hbefore⟩

/-- Words that are kept are at least as long as the first. -/
theorem head_length_le {kept : List Text} (hp : kept <+: words RustStr.isWhitespace text) (hne : kept ≠ []) :
    ∀ w ∈ (words RustStr.isWhitespace text).head?, w.length ≤ ([' '].intercalate kept).length := by
  obtain ⟨v, kept, rfl⟩ := List.exists_cons_of_ne_nil hne
  intro w hw
  obtain ⟨rest, hrest⟩ := hp
  rw [← hrest, List.cons_append, List.head?_cons, Option.mem_some_iff] at hw
  subst hw
  have := (intercalate_mono ' ' (List.prefix_append [v] kept)).length_le
  rwa [List.intercalate_singleton, List.singleton_append] at this

/-- The cut behind the last blank of what fits: the text before it is words, and what follows it is none of its blanks. -/
theorem split_at (hlong : max < (joined text).length) {before after : Text}
    (hsplit : (joined text).take (max - 3) = before ++ ' ' :: after) :
    joined text = before ++ ' ' :: (after ++ (joined text).drop (max - 3)) ∧ before.length + 1 + after.length = max - 3 := by
  constructor
  · conv_lhs => rw [← List.take_append_drop (max - 3) (joined text), hsplit]
    simp
  · have := congrArg List.length hsplit
    rw [List.length_take_of_le (by omega), List.length_append, List.length_cons] at this
    omega

/-- At the end of a word the cut is too early. -/
theorem EndsWithWord.not_cutAtWord (h : EndsWithWord text max) {out : Text} (hout : truncateResponse text max = some out) :
    ¬ CutAtWord text max out := by
  obtain ⟨hmax, hlong, hnext, hblank⟩ := h
  intro hcut
  obtain ⟨before, after, hsplit, hlast⟩ := eq_append_cons_of_mem_last hblank
  obtain rfl := Option.some.inj (hout.symm.trans (truncateResponse_of_blank hmax hlong hsplit hlast))
  have hlen := (split_at hlong hsplit).2
  have hat : joined text = (joined text).take (max - 3) ++ ' ' :: (joined text).drop (max - 3 + 1) := by
    obtain ⟨hlt, hget⟩ := List.getElem?_eq_some_iff.mp hnext
    conv_lhs => rw [← List.take_append_drop (max - 3) (joined text), List.drop_eq_getElem_cons hlt, hget]
  obtain ⟨fitting, hp, hne, hfitting⟩ := exists_words_before hat
  have hfull : ([' '].intercalate fitting).length = max - 3 := by
    rw [← hfitting, List.length_take_of_le (by omega)]
  obtain ⟨kept, hkept, heq⟩ := hcut.atWord hmax hlong fun w hw => hfull ▸ head_length_le hp hne w hw
  have hmore := (intercalate_mono ' ' (hkept.longest fitting hp (Nat.le_of_eq hfull))).length_le
  rw [← List.append_cancel_right heq, hfull] at hmore
  omega

/-- Where nothing goes wrong, a text that does not fit is cut as it should be. -/
theorem cutAtWord_of_long (hmax : 3 < max) (hlong : max < (joined text).length) (hword : ¬ EndsWithWord text max) :
    ∃ out, truncateResponse text max = some out ∧ CutAtWord text max out := by
  have hdots : "...".toList.length = 3 := rfl
  have hprefix := List.take_prefix (max - 3) (joined text)
  have htake : ((joined text).take (max - 3)).length = max - 3 := List.length_take_of_le (by omega)
  by_cases hblank : ' ' ∈ (joined text).take (max - 3)
  · obtain ⟨before, after, hsplit, hlast⟩ := eq_append_cons_of_mem_last hblank
    obtain ⟨hjoined, hlen⟩ := split_at hlong hsplit
    obtain ⟨kept, hkept, hne, rfl⟩ := exists_words_before hjoined
    have hbefore : [' '].intercalate kept <+: joined text := ⟨_, hjoined.symm⟩
    have hbne : [' '].intercalate kept ≠ [] := by
      intro hnil
      rw [hnil] at hjoined
      cases head_intercalate (solid text) ' ' (by rw [← joined, hjoined]; rfl)
    refine ⟨_, truncateResponse_of_blank hmax hlong hsplit hlast, ?_, ?_, ?_, ?_, ?_, ?_⟩
    · rw [List.length_append, hdots]
      omega
    · exact ((singleSpaced_joined text).of_start hbefore).dots
    · intro hfits
      omega
    · intro _ _ _
      refine ⟨kept, longestWords_of hkept (by omega) (by omega) fun i hi hle hget => ?_, rfl⟩
      obtain hlt | rfl := Nat.lt_or_eq_of_le hle
      · -- A blank further on among what fits would be the last one.
        rw [← List.getElem?_take_of_lt hlt, hsplit, List.getElem?_append_right (Nat.le_of_lt hi)] at hget
        obtain ⟨k, hk⟩ := Nat.exists_eq_add_of_lt hi
        rw [hk, show ([' '].intercalate kept).length + k + 1 - ([' '].intercalate kept).length = k + 1 by omega,
          List.getElem?_cons_succ] at hget
        exact hlast (List.mem_of_getElem? hget)
      · exact hword ⟨hmax, hlong, hget, hblank⟩
    · intro _ _ hbig
      cases hhead : (words RustStr.isWhitespace text).head? with
      | none =>
        rw [List.head?_eq_none_iff] at hhead
        rw [hhead, List.prefix_nil] at hkept
        exact absurd hkept hne
      | some w =>
        have := head_length_le hkept hne w hhead
        have := hbig w hhead
        omega
    · exact truncateResponse_dots hbefore hbne (by omega)
  · refine ⟨_, truncateResponse_of_no_blank hmax hlong hblank, ?_, ?_, ?_, ?_, ?_, ?_⟩
    · rw [List.length_append, hdots, htake]
      omega
    · exact ((singleSpaced_joined text).of_start hprefix).dots
    · intro hfits
      omega
    · intro _ _ hfirst
      cases hwords : words RustStr.isWhitespace text with
      | nil =>
        rw [joined, hwords] at hlong
        simp at hlong
      | cons w rest =>
        -- The first word fits, and no blank is among what fits: the word is all of it.
        have hkept : [w] <+: words RustStr.isWhitespace text := ⟨rest, hwords.symm⟩
        have hw : w.length ≤ max - 3 := hfirst w (by rw [hwords]; rfl)
        have hsingle : [' '].intercalate [w] = w := List.intercalate_singleton
        have hget := blank_behind hkept (by simp) (by rw [hsingle]; omega)
        rw [hsingle] at hget
        have hfull : w.length = max - 3 := by
          by_contra hshort
          rw [← List.getElem?_take_of_lt (show w.length < max - 3 by omega)] at hget
          exact hblank (List.mem_of_getElem? hget)
        have hall : (joined text).take (max - 3) = w := by
          have := intercalate_mono ' ' hkept
          rw [hsingle, ← joined] at this
          rw [← hfull]
          exact (List.prefix_iff_eq_take.mp this).symm
        refine ⟨[w], hwords ▸ longestWords_of hkept (by rw [hsingle]; exact hw) (by omega) ?_, by rw [hsingle, hall]⟩
        intro i hi hle
        rw [hsingle] at hi
        omega
    · intro _ _ _
      rfl
    · refine truncateResponse_dots hprefix ?_ (by omega)
      intro hnil
      rw [hnil] at htake
      simp at htake
      omega

/-- A text that fits is cut nowhere. -/
theorem cutAtWord_of_fits (hfits : (joined text).length ≤ max) : CutAtWord text max (joined text) := by
  have hsame : joined (joined text) = joined text := joined_intercalate (solid text)
  exact ⟨hfits, singleSpaced_joined text, fun _ => rfl, fun _ hlong => by omega, fun _ hlong => by omega,
    truncateResponse_same hsame hfits⟩

/-- A response is cut as it should be if and only if neither what fits ends with a word that others precede, nor a limit that
leaves no room for the dots leaves a blank at the end. -/
theorem truncateResponse_cutAtWord_iff (text : Text) (max : Nat) :
    (∃ out, truncateResponse text max = some out ∧ CutAtWord text max out) ↔
      ¬ EndsWithWord text max ∧ ¬ EndsWithBlank text max := by
  constructor
  · rintro ⟨out, hout, hcut⟩
    refine ⟨fun h => h.not_cutAtWord hout hcut, fun ⟨hmax, hlast⟩ => ?_⟩
    obtain rfl := Option.some.inj (hout.symm.trans (truncateResponse_small hmax))
    exact truncateResponse_take_iff.mp hcut.stable hlast
  · intro h
    obtain ⟨hword, hblank⟩ := h
    by_cases hfits : (joined text).length ≤ max
    · exact ⟨_, truncateResponse_whole hfits, cutAtWord_of_fits hfits⟩
    by_cases hmax : 3 < max
    · exact cutAtWord_of_long hmax (by omega) hword
    · have hsmall : max ≤ 3 := by omega
      refine ⟨_, truncateResponse_small hsmall, List.length_take_le _ _,
        (singleSpaced_joined text).of_start (List.take_prefix _ _), fun h => absurd h hfits, fun h => absurd h hmax,
        fun h => absurd h hmax, truncateResponse_take_iff.mpr fun hlast => hblank ⟨hsmall, hlast⟩⟩

/-- The second of three words would fit. -/
theorem not_cutAtWord : ¬ ∃ out, truncateResponse "aaa bbb cccccc".toList 10 = some out ∧
    CutAtWord "aaa bbb cccccc".toList 10 out := by
  rintro ⟨out, hout, hcut⟩
  have hends : EndsWithWord "aaa bbb cccccc".toList 10 :=
    ⟨by decide, by decide +kernel, by decide +kernel, by decide +kernel⟩
  exact hends.not_cutAtWord hout hcut

end Twitch1337.Util
