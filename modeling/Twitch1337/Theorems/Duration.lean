import Twitch1337.Bot.Duration

/-!
# What is a duration

`!suspend` takes a number with or without a unit, from a second to seven days. Whatever else it is given, and in whatever
characters, is refused with an error.
-/

namespace Twitch1337.Suspend

open Dispatch RustStr Text

/-! ## The grammar -/

/-- The units that a duration can end with, and their seconds. -/
def units : List (Text × Nat) := [([], 1), (['s'], 1), (['m'], 60), (['h'], 3600), (['d'], 86400)]

/-- The input is digits and a unit, which are that many seconds. -/
def Writes (input : String) (secs : Nat) : Prop :=
  ∃ digits, ∃ unit ∈ units, trimChars input.toList = digits ++ unit.1 ∧ digits ≠ [] ∧ (∀ c ∈ digits, c.isDigit = true) ∧
    secs = Nat.ofDigitChars 10 digits 0 * unit.2

/-! ## The parser -/

/-- An ASCII character at the end can be cut off. -/
theorem withoutLast_snoc (t : Text) {c : Char} (hc : c.toNat < 128) : withoutLast (t ++ [c]) = some t := by
  have hlen : utf8Len (t ++ [c]) = utf8Len t + 1 := by
    rw [Cursor.utf8Len_append, Cursor.utf8Len_cons, utf8Size_ascii hc, utf8Len_nil]
  rw [withoutLast, hlen, if_neg (Nat.succ_ne_zero _), Nat.add_sub_cancel, Cursor.takeBytes_append]

/-- The last byte is as good as the last character. -/
theorem numPart_snoc (t : Text) (c : Char) :
    numPart (t ++ [c]) = some ((splitUnit (t ++ [c]) c).elim (.error .unknownUnit) .ok) := by
  obtain ⟨b, hlast, hdigit, hletter⟩ := exists_getLast?_bytes t c
  have hcut : ∀ x : Char, x.toNat < 128 → c = x → withoutLast (t ++ [c]) = some t := by
    rintro x hx rfl
    exact withoutLast_snoc t hx
  simp only [numPart, hlast, splitUnit, hdigit, hletter 's' (by decide), hletter 'm' (by decide), hletter 'h' (by decide),
    hletter 'd' (by decide), List.dropLast_concat]
  split
  · rfl
  · split
    · rename_i h
      rw [hcut 's' (by decide) h]
      rfl
    · split
      · rename_i h
        rw [hcut 'm' (by decide) h]
        rfl
      · split
        · rename_i h
          rw [hcut 'h' (by decide) h]
          rfl
        · split
          · rename_i h
            rw [hcut 'd' (by decide) h]
            rfl
          · rfl

/-- Digits are multiplied, and the product is a number of seconds that has to be in bounds. -/
theorem duration_of_digits {digits : Text} (hne : digits ≠ []) (hdigits : ∀ c ∈ digits, c.isDigit = true) {multiplier d : Nat}
    (hpos : 0 < multiplier) :
    duration digits multiplier = .ok d ↔ 1 ≤ Nat.ofDigitChars 10 digits 0 * multiplier ∧
      Nat.ofDigitChars 10 digits 0 * multiplier ≤ 604800 ∧ d = fromSecs (Nat.ofDigitChars 10 digits 0 * multiplier) := by
  have hchecked : (digits.isEmpty || !(bytes digits).all isAsciiDigit) = false := by
    simp [all_bytes, hne, List.all_eq_true.mpr hdigits]
  rw [duration, hchecked, if_neg Bool.false_ne_true, Decimal.readU64_of_digits hdigits, Decimal.readNat_of_digits hne hdigits,
    Option.filter_some]
  generalize Nat.ofDigitChars 10 digits 0 = n
  have hle : n ≤ n * multiplier := Nat.le_mul_of_pos_right n hpos
  by_cases hn : n < 2 ^ 64
  · rw [if_pos (decide_eq_true hn)]
    dsimp only [checkedMul]
    split
    · rename_i hoverflow
      have : ¬ n * multiplier < 18446744073709551616 := fun h => by simp [h] at hoverflow
      simp only [reduceCtorEq, false_iff]
      omega
    · rename_i hsecs
      obtain ⟨-, hsecs⟩ := Option.ite_none_right_eq_some.mp hsecs
      rw [← Option.some.inj hsecs]
      rw [maxSuspendDuration, fromSecs, fromSecs]
      split
      · simp only [reduceCtorEq, false_iff]
        omega
      · split
        · simp only [reduceCtorEq, false_iff]
          omega
        · rw [Except.ok.injEq, eq_comm (a := d)]
          exact ⟨fun h => ⟨by omega, by omega, h⟩, fun h => h.2.2⟩
  · rw [if_neg (by simpa using hn)]
    simp only [reduceCtorEq, false_iff]
    omega

/-- What the number part has to be. -/
theorem digits_of_duration {digits : Text} {multiplier d : Nat} (h : duration digits multiplier = .ok d) :
    digits ≠ [] ∧ ∀ c ∈ digits, c.isDigit = true := by
  unfold duration at h
  split at h
  · cases h
  · rename_i hchecked
    rw [all_bytes, Bool.or_eq_true, not_or, List.isEmpty_iff, Bool.not_eq_true', Bool.not_eq_false, List.all_eq_true] at hchecked
    exact hchecked

theorem parseDuration_snoc {input : String} {t : Text} {c : Char} (h : trimChars input.toList = t ++ [c]) :
    parseDuration input = some (match splitUnit (t ++ [c]) c with
      | none => .error .unknownUnit
      | some (digits, multiplier) => duration digits multiplier) := by
  have hne : ¬ List.isEmpty (t ++ [c]) = true := by simp
  rw [parseDuration, h, if_neg hne, numPart_snoc]
  cases splitUnit (t ++ [c]) c <;> rfl

theorem parseDuration_nil {input : String} (h : trimChars input.toList = []) : parseDuration input = some (.error .empty) := by
  rw [parseDuration, h]
  rfl

/-! ## Units -/

theorem units_pos : ∀ unit ∈ units, 0 < unit.2 := by decide

theorem unit_of_splitUnit {t : Text} {c : Char} {digits : Text} {multiplier : Nat}
    (h : splitUnit (t ++ [c]) c = some (digits, multiplier)) :
    ∃ unit ∈ units, t ++ [c] = digits ++ unit.1 ∧ unit.2 = multiplier := by
  rw [splitUnit, List.dropLast_concat] at h
  split_ifs at h with hdigit hs hm hh hd
  · cases h
    exact ⟨([], 1), by simp [units], (List.append_nil _).symm, rfl⟩
  · cases h
    exact ⟨(['s'], 1), by simp [units], by rw [hs], rfl⟩
  · cases h
    exact ⟨(['m'], 60), by simp [units], by rw [hm], rfl⟩
  · cases h
    exact ⟨(['h'], 3600), by simp [units], by rw [hh], rfl⟩
  · cases h
    exact ⟨(['d'], 86400), by simp [units], by rw [hd], rfl⟩

/-- No unit is a digit, so digits and a unit are split in one way. -/
theorem splitUnit_of_unit {t : Text} {c : Char} {digits : Text} (hdigits : ∀ x ∈ digits, x.isDigit = true) {unit : Text × Nat}
    (hunit : unit ∈ units) (heq : t ++ [c] = digits ++ unit.1) : splitUnit (t ++ [c]) c = some (digits, unit.2) := by
  simp only [units, List.mem_cons, List.not_mem_nil, or_false] at hunit
  rcases hunit with rfl | rfl | rfl | rfl | rfl
  · rw [List.append_nil] at heq
    have hc : c.isDigit = true := hdigits c (by simp [← heq])
    rw [splitUnit, if_pos hc, heq]
  all_goals
    obtain ⟨rfl, hc⟩ := List.append_inj' heq rfl
    cases hc
    rw [splitUnit, List.dropLast_concat]
    rfl

/-! ## What is accepted -/

/-- The result by bytes is the one by characters. -/
theorem duration_eq (digits : Text) (multiplier : Nat) :
    duration digits multiplier =
      if digits.isEmpty || !digits.all Char.isDigit then .error .invalidNumber
      else match parseU64 digits with
        | none => .error .invalidNumber
        | some n =>
          if 2 ^ 64 ≤ n * multiplier then .error .invalidNumber
          else if n * multiplier = 0 then .error .zero
          else if maxSuspendDuration < fromSecs (n * multiplier) then .error .tooLong
          else .ok (fromSecs (n * multiplier)) := by
  rw [duration, all_bytes]
  split
  · rfl
  · rename_i hchecked
    rw [Bool.or_eq_true, not_or, List.isEmpty_iff, Bool.not_eq_true', Bool.not_eq_false, List.all_eq_true] at hchecked
    have hparse : parseU64 digits = Decimal.readU64 digits := by
      rw [Decimal.readU64_of_digits hchecked.2, Decimal.readNat_of_digits hchecked.1 hchecked.2, Option.filter_some]
      simp only [decide_eq_true_eq]
      rfl
    rw [hparse]
    cases Decimal.readU64 digits with
    | none => rfl
    | some n =>
      dsimp only [checkedMul]
      by_cases hfits : n * multiplier < 18446744073709551616
      · rw [if_pos hfits, if_neg (show ¬ 2 ^ 64 ≤ n * multiplier by omega)]
      · rw [if_neg hfits, if_pos (show 2 ^ 64 ≤ n * multiplier by omega)]

/-- Nothing panics, and the commands see what the characters say. -/
theorem parseDuration_eq (input : String) : parseDuration input = some (Dispatch.parseDuration input) := by
  rcases List.eq_nil_or_concat' (trimChars input.toList) with hnil | ⟨t, c, hsnoc⟩
  · rw [parseDuration_nil hnil, Dispatch.parseDuration, hnil]
    rfl
  · rw [parseDuration_snoc hsnoc, Dispatch.parseDuration, hsnoc]
    rw [List.getLast?_concat]
    dsimp only
    cases splitUnit (t ++ [c]) c with
    | none => rfl
    | some p => exact congrArg some (duration_eq p.1 p.2)

/-- For every input there is a result, and it is a duration if the input is one of the grammar within the bounds. -/
theorem parseDuration_accepts (input : String) :
    ∃ r, parseDuration input = some r ∧
      ∀ d, r = .ok d ↔ ∃ secs, Writes input secs ∧ 1 ≤ secs ∧ secs ≤ 604800 ∧ d = fromSecs secs := by
  rcases List.eq_nil_or_concat' (trimChars input.toList) with hnil | ⟨t, c, hsnoc⟩
  · refine ⟨_, parseDuration_nil hnil, fun d => ⟨fun h => (by cases h), ?_⟩⟩
    rintro ⟨-, ⟨digits, unit, -, heq, hne, -, -⟩, -⟩
    rw [hnil] at heq
    exact absurd (List.append_eq_nil_iff.mp heq.symm).1 hne
  · refine ⟨_, parseDuration_snoc hsnoc, fun d => ⟨fun h => ?_, ?_⟩⟩
    · split at h
      · cases h
      · rename_i digits multiplier hsplit
        obtain ⟨unit, hunit, heq, rfl⟩ := unit_of_splitUnit hsplit
        obtain ⟨hne, hdigits⟩ := digits_of_duration h
        obtain ⟨hlow, hhigh, rfl⟩ := (duration_of_digits hne hdigits (units_pos unit hunit)).mp h
        exact ⟨_, ⟨digits, unit, hunit, hsnoc.trans heq, hne, hdigits, rfl⟩, hlow, hhigh, rfl⟩
    · rintro ⟨secs, ⟨digits, unit, hunit, heq, hne, hdigits, rfl⟩, hlow, hhigh, rfl⟩
      rw [splitUnit_of_unit hdigits hunit (hsnoc.symm.trans heq)]
      exact (duration_of_digits hne hdigits (units_pos unit hunit)).mpr ⟨hlow, hhigh, rfl⟩

end Twitch1337.Suspend
