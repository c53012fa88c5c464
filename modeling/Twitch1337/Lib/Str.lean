import Mathlib.Data.List.DropRight
import Mathlib.Data.String.Basic

/-!
# Strings, as the standard library of the source language treats them

`trim`, ASCII case folding and Unicode upper case. Upper case is a table, one character at a time: `UpperTable` holds the
table and the four facts about it that a development may rely on, all of them facts of the Unicode character database.
-/

namespace RustStr

/-- The characters with the Unicode property `White_Space`. -/
def isWhitespace (c : Char) : Bool :=
  (0x09 ≤ c.toNat && c.toNat ≤ 0x0D) || c.toNat == 0x20 || c.toNat == 0x85 || c.toNat == 0xA0 || c.toNat == 0x1680 ||
    (0x2000 ≤ c.toNat && c.toNat ≤ 0x200A) || c.toNat == 0x2028 || c.toNat == 0x2029 || c.toNat == 0x202F ||
    c.toNat == 0x205F || c.toNat == 0x3000

/-- A list of characters without its leading and trailing whitespace. -/
def trimChars (l : List Char) : List Char := (l.dropWhile isWhitespace).rdropWhile isWhitespace

/-- A string without its leading and trailing whitespace. -/
def trim (s : String) : String := String.ofList (trimChars s.toList)

/-- The string with its ASCII letters in lower case and every other character as it is. -/
def asciiFold (s : String) : List Char := s.toList.map Char.toLower

/-- Equality up to the case of ASCII letters. -/
def eqIgnoreAsciiCase (a b : String) : Bool := asciiFold a == asciiFold b

/-- The words of a string, between its whitespace. -/
def splitWhitespace (s : String) : List String :=
  ((s.toList.splitOnP isWhitespace).filter fun w => !w.isEmpty).map String.ofList

/-- A string without the characters of a kind at its end. -/
def trimEndMatches (p : Char → Bool) (s : String) : String := String.ofList (s.toList.rdropWhile p)

/-- A string without the characters of a kind at both of its ends. -/
def trimMatches (p : Char → Bool) (s : String) : String := String.ofList ((s.toList.dropWhile p).rdropWhile p)

def startsWith (s pat : String) : Bool := pat.toList.isPrefixOf s.toList

def containsText (pat s : String) : Bool := s.toList.tails.any pat.toList.isPrefixOf

/-- An ASCII digit, or an ASCII letter from `a` to `f` in either case. -/
def isAsciiHexdigit (c : Char) : Bool :=
  c.isDigit || ('a' ≤ c && c ≤ 'f') || ('A' ≤ c && c ≤ 'F')

/-- The Unicode upper case of each character, with what the character database says of every such table: ASCII letters map
to ASCII letters, whitespace is its own upper case and nothing else has whitespace in its upper case, and upper case is
stable. -/
structure UpperTable where
  upper : Char → List Char
  upper_ascii : ∀ c : Char, c.toNat < 128 → upper c = [c.toUpper]
  upper_whitespace : ∀ c, isWhitespace c = true → upper c = [c]
  upper_solid : ∀ c, isWhitespace c = false → upper c ≠ [] ∧ ∀ d ∈ upper c, isWhitespace d = false
  upper_upper : ∀ c, (upper c).flatMap upper = upper c

/-- A string in upper case. -/
def UpperTable.toUppercase (T : UpperTable) (s : String) : String := String.ofList (s.toList.flatMap T.upper)

/-! ## Case folding -/

/-- Texts are the same but for case when they fold to the same text. -/
theorem eqIgnoreAsciiCase_iff {a b : String} : eqIgnoreAsciiCase a b = true ↔ asciiFold a = asciiFold b := by
  simp [eqIgnoreAsciiCase]

@[simp] theorem eqIgnoreAsciiCase_refl (a : String) : eqIgnoreAsciiCase a a = true :=
  eqIgnoreAsciiCase_iff.mpr rfl

theorem eqIgnoreAsciiCase_comm (a b : String) : eqIgnoreAsciiCase a b = eqIgnoreAsciiCase b a := by
  rw [Bool.eq_iff_iff, eqIgnoreAsciiCase_iff, eqIgnoreAsciiCase_iff]
  exact eq_comm

/-- Names that are equal up to case are told apart from no other. -/
theorem eqIgnoreAsciiCase_congr {u v : String} (h : eqIgnoreAsciiCase u v = true) (a : String) :
    eqIgnoreAsciiCase a u = eqIgnoreAsciiCase a v := by
  rw [Bool.eq_iff_iff, eqIgnoreAsciiCase_iff, eqIgnoreAsciiCase_iff, eqIgnoreAsciiCase_iff.mp h]

/-! ## Trimming -/

/-- A list that neither starts nor ends with whitespace. -/
def Trimmed (l : List Char) : Prop :=
  (∀ c ∈ l.head?, isWhitespace c = false) ∧ ∀ c ∈ l.getLast?, isWhitespace c = false

instance (l : List Char) : Decidable (Trimmed l) :=
  decidable_of_iff ((l.head?.all fun c => !isWhitespace c) = true ∧ (l.getLast?.all fun c => !isWhitespace c) = true)
    (by simp [Trimmed, Option.all_eq_true])

/-- A trimmed text is not trimmed any further. -/
theorem trimChars_of_trimmed {l : List Char} (h : Trimmed l) : trimChars l = l := by
  have hd : l.dropWhile isWhitespace = l := by
    cases l with
    | nil => rfl
    | cons a t => exact List.dropWhile_cons_of_neg (by simpa using h.1 a rfl)
  rw [trimChars, hd, List.rdropWhile_eq_self_iff]
  intro hl
  simpa using h.2 _ (List.getLast?_eq_some_getLast hl)

/-- Dropping from the end leaves the start, or nothing. -/
theorem head?_rdropWhile (p : Char → Bool) (l : List Char) : ∀ c ∈ (l.rdropWhile p).head?, c ∈ l.head? := by
  intro c hc
  obtain ⟨t, ht⟩ := List.rdropWhile_prefix p (l := l)
  rw [← ht]
  cases hl : l.rdropWhile p with
  | nil => simp [hl] at hc
  | cons a t => simpa [hl] using hc

/-- What is trimmed is trimmed. -/
theorem trimmed_trimChars (l : List Char) : Trimmed (trimChars l) := by
  constructor
  · intro c hc
    have hc' := head?_rdropWhile isWhitespace _ c hc
    have hne : l.dropWhile isWhitespace ≠ [] := by
      intro hnil
      simp [hnil] at hc'
    have := List.head_dropWhile_not isWhitespace hne
    rw [Option.mem_def, List.head?_eq_some_head hne, Option.some.injEq] at hc'
    rw [← hc']
    simpa using this
  · intro c hc
    have hne : trimChars l ≠ [] := by
      intro hnil
      simp [hnil] at hc
    have := List.rdropWhile_last_not isWhitespace (l.dropWhile isWhitespace) hne
    rw [Option.mem_def, List.getLast?_eq_some_getLast hne, Option.some.injEq] at hc
    rw [← hc]
    simpa [trimChars] using this

/-- A blank before a text is trimmed. -/
theorem trimChars_cons {c : Char} (hc : isWhitespace c = true) (l : List Char) : trimChars (c :: l) = trimChars l := by
  rw [trimChars, List.dropWhile_cons_of_pos hc, trimChars]

theorem trimChars_subset (l : List Char) : trimChars l ⊆ l := by
  intro c hc
  exact (List.dropWhile_suffix isWhitespace).subset ((List.rdropWhile_prefix isWhitespace _).subset hc)

@[simp] theorem trim_trim (s : String) : trim (trim s) = trim s := by
  rw [trim, trim, String.toList_ofList, trimChars_of_trimmed (trimmed_trimChars _)]

/-- A text is its own trim when it has no blanks around it. -/
theorem trim_eq_self_iff {s : String} : trim s = s ↔ Trimmed s.toList := by
  constructor
  · intro h
    rw [← h, trim, String.toList_ofList]
    exact trimmed_trimChars _
  · intro h
    rw [trim, trimChars_of_trimmed h, String.ofList_toList]

/-- A text without blanks is. -/
theorem trim_of_solid {s : String} (h : ∀ c ∈ s.toList, isWhitespace c = false) : trim s = s := by
  refine trim_eq_self_iff.mpr ⟨fun c hc => ?_, fun c hc => ?_⟩
  · exact h c (List.mem_of_mem_head? hc)
  · exact h c (List.mem_of_mem_getLast? hc)

/-! ## The ASCII characters -/

/-- What holds of the first 128 characters holds of every ASCII character. -/
theorem ascii_induction {P : Char → Prop} (h : ∀ n : Fin 128, P (Char.ofNat n)) {c : Char} (hc : c.toNat < 128) : P c := by
  have := h ⟨c.toNat, hc⟩
  rwa [Char.ofNat_toNat] at this

/-- A letter or a digit. -/
theorem isAlphanum_iff {c : Char} :
    c.isAlphanum = true ↔ (c.isUpper = true ∨ c.isLower = true) ∨ c.isDigit = true := by
  have h : c.isAlphanum = (c.isUpper || c.isLower || c.isDigit) := rfl
  rw [h, Bool.or_eq_true, Bool.or_eq_true]

theorem isAlphanum_of_isUpper {c : Char} (h : c.isUpper = true) : c.isAlphanum = true := isAlphanum_iff.mpr (.inl (.inl h))

theorem isAlphanum_of_isLower {c : Char} (h : c.isLower = true) : c.isAlphanum = true := isAlphanum_iff.mpr (.inl (.inr h))

theorem isAlphanum_of_isDigit {c : Char} (h : c.isDigit = true) : c.isAlphanum = true := isAlphanum_iff.mpr (.inr h)

/-- Letters and digits are ASCII. -/
theorem ascii_of_isAlphanum {c : Char} (h : c.isAlphanum = true) : c.toNat < 128 := by
  rcases isAlphanum_iff.mp h with (hu | hl) | hd
  · change decide (65 ≤ c.val ∧ c.val ≤ 90) = true at hu
    have hmax := (of_decide_eq_true hu).2
    exact Nat.lt_of_le_of_lt (UInt32.le_iff_toNat_le.mp hmax) (by decide)
  · change (decide (97 ≤ c.val) && decide (c.val ≤ 122)) = true at hl
    have hmax := of_decide_eq_true (Bool.and_eq_true_iff.mp hl).2
    exact Nat.lt_of_le_of_lt (UInt32.le_iff_toNat_le.mp hmax) (by decide)
  · exact Nat.lt_of_le_of_lt (Char.isDigit_iff_toNat.mp hd).2 (by decide)

/-- A digit is no blank. -/
theorem not_isWhitespace_of_isDigit {c : Char} (h : c.isDigit = true) : isWhitespace c = false :=
  ascii_induction (P := fun c => c.isDigit = true → isWhitespace c = false) (by decide)
    (ascii_of_isAlphanum (isAlphanum_of_isDigit h)) h

/-- Hexadecimal digits are ASCII. -/
theorem ascii_of_isAsciiHexdigit {c : Char} (h : isAsciiHexdigit c = true) : c.toNat < 128 := by
  simp only [isAsciiHexdigit, Bool.or_eq_true, Bool.and_eq_true, decide_eq_true_eq] at h
  rcases h with (h | h) | h
  · exact ascii_of_isAlphanum (isAlphanum_of_isDigit h)
  · exact Nat.lt_of_le_of_lt (UInt32.le_iff_toNat_le.mp h.2) (by decide)
  · exact Nat.lt_of_le_of_lt (UInt32.le_iff_toNat_le.mp h.2) (by decide)

theorem toLower_toUpper_of_ascii {c : Char} (hc : c.toNat < 128) : c.toUpper.toLower = c.toLower :=
  ascii_induction (P := fun c => c.toUpper.toLower = c.toLower) (by decide) hc

theorem toUpper_toLower_of_ascii {c : Char} (hc : c.toNat < 128) : c.toLower.toUpper = c.toUpper :=
  ascii_induction (P := fun c => c.toLower.toUpper = c.toUpper) (by decide) hc

/-- The ASCII upper case of an ASCII character is an ASCII character, and is its own upper case. -/
theorem toUpper_stable {c : Char} (hc : c.toNat < 128) : c.toUpper.toNat < 128 ∧ c.toUpper.toUpper = c.toUpper :=
  ascii_induction (P := fun c => c.toUpper.toNat < 128 ∧ c.toUpper.toUpper = c.toUpper) (by decide) hc

/-- The ASCII whitespace has no case. -/
theorem toUpper_whitespace {c : Char} (hc : c.toNat < 128) (hw : isWhitespace c = true) : c.toUpper = c :=
  ascii_induction (P := fun c => isWhitespace c = true → c.toUpper = c) (by decide) hc hw

/-- No ASCII character has whitespace as its upper case, but whitespace. -/
theorem toUpper_solid {c : Char} (hc : c.toNat < 128) (hw : isWhitespace c = false) : isWhitespace c.toUpper = false :=
  ascii_induction (P := fun c => isWhitespace c = false → isWhitespace c.toUpper = false) (by decide) hc hw

/-! ## Upper case -/

namespace UpperTable

variable (T : UpperTable)

/-- Upper case does not change what an ASCII string folds to. -/
theorem asciiFold_toUppercase {s : String} (h : ∀ c ∈ s.toList, c.toNat < 128) :
    asciiFold (T.toUppercase s) = asciiFold s := by
  have key : ∀ l : List Char, (∀ c ∈ l, c.toNat < 128) → (l.flatMap T.upper).map Char.toLower = l.map Char.toLower := by
    intro l hl
    induction l with
    | nil => rfl
    | cons a t ih =>
      rw [List.flatMap_cons, T.upper_ascii a (hl a (by simp)), List.singleton_append, List.map_cons, List.map_cons,
        toLower_toUpper_of_ascii (hl a (by simp)), ih (fun c hc => hl c (List.mem_cons_of_mem a hc))]
  rw [asciiFold, toUppercase, String.toList_ofList, key _ h, asciiFold]

/-- An ASCII string equals its upper case up to ASCII case. -/
theorem eqIgnoreAsciiCase_toUppercase {s : String} (h : ∀ c ∈ s.toList, c.toNat < 128) :
    eqIgnoreAsciiCase s (T.toUppercase s) = true :=
  eqIgnoreAsciiCase_iff.mpr (T.asciiFold_toUppercase h).symm

@[simp] theorem toUppercase_toUppercase (s : String) : T.toUppercase (T.toUppercase s) = T.toUppercase s := by
  rw [toUppercase, toUppercase, String.toList_ofList, List.flatMap_assoc]
  simp only [T.upper_upper]

/-- An ASCII string in upper case is told by what it folds to. -/
theorem toList_eq_of_upper {s : String} (h : ∀ c ∈ s.toList, c.toNat < 128) (hu : T.toUppercase s = s) :
    s.toList = (asciiFold s).map Char.toUpper := by
  have key : ∀ l : List Char, (∀ c ∈ l, c.toNat < 128) →
      l.flatMap T.upper = (l.map Char.toLower).map Char.toUpper := by
    intro l hl
    induction l with
    | nil => rfl
    | cons a t ih =>
      rw [List.flatMap_cons, T.upper_ascii a (hl a (by simp)), List.singleton_append, List.map_cons, List.map_cons,
        toUpper_toLower_of_ascii (hl a (by simp)), ih (fun c hc => hl c (List.mem_cons_of_mem a hc))]
  have hlist : (T.toUppercase s).toList = s.toList.flatMap T.upper := by rw [toUppercase, String.toList_ofList]
  rw [hu] at hlist
  rw [asciiFold, ← key _ h, ← hlist]

/-- ASCII strings in upper case that are equal up to case are equal. -/
theorem eq_of_upper {a b : String} (ha : ∀ c ∈ a.toList, c.toNat < 128) (hb : ∀ c ∈ b.toList, c.toNat < 128)
    (hua : T.toUppercase a = a) (hub : T.toUppercase b = b) (h : eqIgnoreAsciiCase a b = true) : a = b := by
  rw [← String.toList_inj, T.toList_eq_of_upper ha hua, T.toList_eq_of_upper hb hub, eqIgnoreAsciiCase_iff.mp h]

/-- No character is nothing in upper case. -/
theorem upper_ne_nil (c : Char) : T.upper c ≠ [] := by
  cases hw : isWhitespace c with
  | true => simp [T.upper_whitespace c hw]
  | false => exact (T.upper_solid c hw).1

/-- Upper case makes no text blank. -/
theorem isEmpty_toUppercase (s : String) : (T.toUppercase s).isEmpty = s.isEmpty := by
  have hl : (T.toUppercase s).toList = s.toList.flatMap T.upper := by rw [toUppercase, String.toList_ofList]
  rw [Bool.eq_iff_iff, String.isEmpty_iff, String.isEmpty_iff, ← String.toList_eq_nil_iff, ← String.toList_eq_nil_iff, hl]
  cases hs : s.toList with
  | nil => simp
  | cons a t => simp [T.upper_ne_nil]

theorem mem_upper_solid {c d : Char} (hc : isWhitespace c = false) (hd : d ∈ T.upper c) : isWhitespace d = false :=
  (T.upper_solid c hc).2 d hd

/-- Upper case keeps a trimmed string trimmed. -/
theorem trimmed_flatMap {l : List Char} (h : Trimmed l) : Trimmed (l.flatMap T.upper) := by
  constructor
  · intro c hc
    cases l with
    | nil => simp at hc
    | cons a t =>
      rw [List.flatMap_cons, List.head?_append_of_ne_nil _ (T.upper_ne_nil a)] at hc
      exact T.mem_upper_solid (h.1 a rfl) (List.mem_of_mem_head? hc)
  · intro c hc
    rcases List.eq_nil_or_concat l with rfl | ⟨t, a, rfl⟩
    · simp at hc
    · rw [List.concat_eq_append, List.flatMap_append, List.flatMap_singleton,
        List.getLast?_append_of_ne_nil _ (T.upper_ne_nil a)] at hc
      exact T.mem_upper_solid (h.2 a (by simp)) (List.mem_of_mem_getLast? hc)

/-- Upper case brings no blanks. -/
theorem trim_toUppercase_of_trim {s : String} (h : trim s = s) : trim (T.toUppercase s) = T.toUppercase s := by
  rw [trim_eq_self_iff, toUppercase, String.toList_ofList]
  exact T.trimmed_flatMap (trim_eq_self_iff.mp h)

/-- The table that knows the ASCII letters and no others. -/
def ascii : UpperTable where
  upper c := if c.toNat < 128 then [c.toUpper] else [c]
  upper_ascii := fun _ h => if_pos h
  upper_whitespace := by
    intro c hw
    split
    · rename_i hc
      have := toUpper_whitespace hc hw
      rw [this]
    · rfl
  upper_solid := by
    intro c hw
    split
    · rename_i hc
      refine ⟨by simp, fun d hd => ?_⟩
      rw [List.mem_singleton] at hd
      rw [hd]
      exact toUpper_solid hc hw
    · exact ⟨by simp, fun d hd => by rwa [List.mem_singleton.mp hd]⟩
  upper_upper := by
    intro c
    split
    · rename_i hc
      obtain ⟨hlt, heq⟩ := toUpper_stable hc
      rw [List.flatMap_singleton, if_pos hlt, heq]
    · rename_i hc
      rw [List.flatMap_singleton, if_neg hc]

end UpperTable

-- Unification has no business inside these: what is proved of strings is proved by the lemmas above.
attribute [irreducible] trim eqIgnoreAsciiCase UpperTable.toUppercase

end RustStr
