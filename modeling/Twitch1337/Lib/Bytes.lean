import Twitch1337.Lib.Cursor

/-!
# The bytes of a text

Programs over UTF-8 look at bytes and cut texts at positions in bytes. A character below 128 is one byte, its number, and no other
character has a byte below 128, so a byte of that kind is a character.
-/

namespace Text

/-- The bytes of a text in UTF-8. -/
def bytes (t : Text) : List UInt8 := t.flatMap String.utf8EncodeChar

/-- `u8::is_ascii_digit`. -/
def isAsciiDigit (b : UInt8) : Bool := 48 ≤ b && b ≤ 57

/-- The byte at which the first occurrence of a text begins. -/
def find (pat t : Text) : Option Nat := (splitOnce pat t).map (utf8Len ·.1)

theorem bytes_append (a b : Text) : bytes (a ++ b) = bytes a ++ bytes b := List.flatMap_append

theorem length_le_utf8Len (t : Text) : t.length ≤ utf8Len t := by
  induction t with
  | nil => exact Nat.zero_le _
  | cons c t ih =>
    have hc : 1 ≤ c.utf8Size := c.utf8Size_pos
    rw [Cursor.utf8Len_cons, List.length_cons]
    omega

theorem utf8EncodeChar_ascii {c : Char} (h : c.toNat < 128) : String.utf8EncodeChar c = [UInt8.ofNat c.toNat] :=
  if_pos (Nat.le_of_lt_succ h)

/-- A byte of two or more that encode a character has its highest bit set. -/
theorem utf8EncodeChar_wide {c : Char} (h : 128 ≤ c.toNat) : ∀ b ∈ String.utf8EncodeChar c, 128 ≤ b.toNat := by
  have hv : ¬ c.val.toNat ≤ 0x7f := Nat.not_le.mpr h
  intro b hb
  unfold String.utf8EncodeChar at hb
  dsimp only at hb
  rw [if_neg hv] at hb
  split at hb
  · simp only [List.mem_cons, List.not_mem_nil, or_false] at hb
    rcases hb with rfl | rfl <;> simp <;> omega
  · split at hb
    · simp only [List.mem_cons, List.not_mem_nil, or_false] at hb
      rcases hb with rfl | rfl | rfl <;> simp <;> omega
    · simp only [List.mem_cons, List.not_mem_nil, or_false] at hb
      rcases hb with rfl | rfl | rfl | rfl <;> simp <;> omega

theorem utf8Size_ascii {c : Char} (h : c.toNat < 128) : c.utf8Size = 1 := by
  rw [← String.length_utf8EncodeChar, utf8EncodeChar_ascii h]
  rfl

theorem toNat_ofNat_ascii {c : Char} (h : c.toNat < 128) : (UInt8.ofNat c.toNat).toNat = c.toNat := by
  rw [UInt8.toNat_ofNat']
  omega

theorem isAsciiDigit_iff {b : UInt8} : isAsciiDigit b = true ↔ 48 ≤ b.toNat ∧ b.toNat ≤ 57 := by
  simp [isAsciiDigit, UInt8.le_iff_toNat_le]

/-- The bytes of a character are digits if it is one. -/
theorem all_utf8EncodeChar (c : Char) : (String.utf8EncodeChar c).all isAsciiDigit = c.isDigit := by
  rw [Bool.eq_iff_iff, List.all_eq_true, Char.isDigit_iff_toNat]
  by_cases hc : c.toNat < 128
  · rw [utf8EncodeChar_ascii hc]
    simp only [List.mem_singleton, forall_eq, isAsciiDigit_iff, toNat_ofNat_ascii hc]
    exact Iff.rfl
  · have hwide := utf8EncodeChar_wide (Nat.not_lt.mp hc)
    obtain ⟨b, hb⟩ := List.exists_mem_of_ne_nil _ (String.utf8EncodeChar_ne_nil (c := c))
    constructor
    · intro h
      have hdigit := isAsciiDigit_iff.mp (h b hb)
      have := hwide b hb
      omega
    · intro h
      have : '9'.toNat < 128 := by decide
      omega

theorem all_bytes (t : Text) : (bytes t).all isAsciiDigit = t.all Char.isDigit := by
  rw [bytes, List.all_flatMap]
  exact congrArg t.all (funext all_utf8EncodeChar)

/-- The last byte of a text is its last character as far as digits and the ASCII characters go. -/
theorem exists_getLast?_bytes (t : Text) (c : Char) :
    ∃ b, (bytes (t ++ [c])).getLast? = some b ∧ isAsciiDigit b = c.isDigit ∧
      ∀ x : Char, x.toNat < 128 → (b = x.toUInt8 ↔ c = x) := by
  have hbytes : bytes (t ++ [c]) = bytes t ++ String.utf8EncodeChar c := by
    rw [bytes_append, bytes, bytes, List.flatMap_singleton]
  have hne := String.utf8EncodeChar_ne_nil (c := c)
  have hx : ∀ x : Char, x.toNat < 128 → x.toUInt8.toNat = x.toNat := fun x h => toNat_ofNat_ascii h
  refine ⟨(String.utf8EncodeChar c).getLast hne, ?_, ?_⟩
  · rw [hbytes, List.getLast?_append_of_ne_nil _ hne, List.getLast?_eq_some_getLast hne]
  · by_cases hc : c.toNat < 128
    · have hdigit := all_utf8EncodeChar c
      simp only [utf8EncodeChar_ascii hc, List.all_cons, List.all_nil, Bool.and_true] at hdigit
      simp only [utf8EncodeChar_ascii hc, List.getLast_singleton]
      refine ⟨hdigit, fun x h => ?_⟩
      rw [← UInt8.toNat_inj, toNat_ofNat_ascii hc, hx x h, Char.toNat_inj]
    · have hwide := utf8EncodeChar_wide (Nat.not_lt.mp hc) _ (List.getLast_mem hne)
      refine ⟨?_, fun x h => ?_⟩
      · rw [Bool.eq_iff_iff, isAsciiDigit_iff, Char.isDigit_iff_toNat]
        have : '9'.toNat < 128 := by decide
        omega
      · rw [← UInt8.toNat_inj, hx x h, ← Char.toNat_inj]
        omega

/-! ## Occurrences -/

theorem find_eq_none_iff {pat t : Text} : find pat t = none ↔ ¬ pat <:+: t := by
  rw [find, Option.map_eq_none_iff, ← contains_iff, contains, Bool.not_eq_true, Option.isSome_eq_false_iff,
    Option.isNone_iff_eq_none]

theorem find_eq_some_iff {pat : Text} (hne : pat ≠ []) {t : Text} {n : Nat} :
    find pat t = some n ↔ ∃ a b, t = a ++ pat ++ b ∧ ¬ pat <:+: a ++ pat.dropLast ∧ utf8Len a = n := by
  simp [find, Option.map_eq_some_iff, splitOnce_eq_some_iff hne, and_assoc]

/-- A character does not occur, or is found behind what it does not occur in. -/
theorem find_char (c : Char) (t : Text) :
    (c ∉ t ∧ find [c] t = none) ∨ ∃ x y, t = x ++ c :: y ∧ c ∉ x ∧ find [c] t = some (utf8Len x) := by
  by_cases hc : c ∈ t
  · obtain ⟨x, y, rfl, hx⟩ := List.eq_append_cons_of_mem hc
    refine .inr ⟨x, y, rfl, hx, ?_⟩
    rw [find, splitOnce_char hx]
    rfl
  · refine .inl ⟨hc, find_eq_none_iff.mpr fun h => hc ?_⟩
    exact h.subset List.mem_cons_self

end Text
