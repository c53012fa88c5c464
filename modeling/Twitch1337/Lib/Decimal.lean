import Mathlib.Algebra.Order.Ring.Int
import Twitch1337.Lib.Civil
import Twitch1337.Lib.Text

/-!
# Decimal numbers and signed arithmetic

Numbers of 64 bits: how they are read, and their arithmetic in the two builds of the source language. A build with
overflow checks stops at a result that is out of range, the other one wraps it.
-/

namespace Decimal

/-! ## Definitions -/

/-- The number that a text of digits is. -/
def readNat (t : Text) : Option Nat :=
  if t ≠ [] ∧ t.all Char.isDigit then some (Nat.ofDigitChars 10 t 0) else none

/-- The number that a text of digits with or without a sign is. -/
def readInt : Text → Option Int
  | '-' :: t => (readNat t).map fun n : Nat => -(n : Int)
  | '+' :: t => (readNat t).map fun n : Nat => (n : Int)
  | t => (readNat t).map fun n : Nat => (n : Int)

/-- What 64 bits with a sign can hold. -/
def InI64 (n : Int) : Prop := -2 ^ 63 ≤ n ∧ n < 2 ^ 63

instance (n : Int) : Decidable (InI64 n) := inferInstanceAs (Decidable (_ ∧ _))

/-- `str::parse::<i64>`. -/
def readI64 (t : Text) : Option Int := (readInt t).filter fun n => InI64 n

/-- `str::parse::<u64>`. -/
def readU64 (t : Text) : Option Nat :=
  (match t with
    | '+' :: t => readNat t
    | t => readNat t).filter fun n => n < 2 ^ 64

/-- How the program was built. -/
inductive Build where
  /-- With overflow checks. -/
  | dev
  | release

/-- What a build with overflow checks stops with. -/
inductive Overflow where
  | overflow
  deriving DecidableEq

/-- The result of an operation, of which the exact result is given. -/
def Build.i64 (b : Build) (exact : Int) : Except Overflow Int :=
  if InI64 exact then .ok exact
  else
    match b with
    | .dev => .error .overflow
    | .release => .ok (exact.bmod (2 ^ 64))

/-- The result of an operation without a sign. -/
def Build.u64 (b : Build) (exact : Nat) : Except Overflow Nat :=
  if exact < 2 ^ 64 then .ok exact
  else
    match b with
    | .dev => .error .overflow
    | .release => .ok (exact % 2 ^ 64)

/-- The result of an operation of 32 bits without a sign. -/
def Build.u32 (b : Build) (exact : Nat) : Except Overflow UInt32 :=
  if exact < 4294967296 then .ok (.ofNat exact)
  else
    match b with
    | .dev => .error .overflow
    | .release => .ok (.ofNat exact)

/-- `i64::abs`. -/
def Build.abs (b : Build) (n : Int64) : Except Overflow Int64 :=
  if n = .minValue then
    match b with
    | .dev => .error .overflow
    | .release => .ok n.abs
  else .ok n.abs

/-! ## Lemmas -/

/-- A number that fits is kept, in both builds. -/
theorem Build.i64_of_fits {n : Int} (h : InI64 n) (b : Build) : b.i64 n = .ok n := if_pos h

theorem Build.u64_of_fits {n : Nat} (h : n < 2 ^ 64) (b : Build) : b.u64 n = .ok n := if_pos h

theorem Build.u32_of_fits {n : Nat} (h : n < 4294967296) (b : Build) : b.u32 n = .ok (.ofNat n) := if_pos h

theorem Build.abs_of_ne {n : Int64} (h : n ≠ .minValue) (b : Build) : b.abs n = .ok n.abs := if_neg h

/-- A counter that is not the largest number is one more. -/
theorem Build.u32_succ {n : UInt32} (h : n ≠ 0xFFFFFFFF) (b : Build) : b.u32 (n.toNat + 1) = .ok (n + 1) := by
  have hn : n.toNat ≠ 4294967295 := fun he => h (UInt32.toNat_inj.mp he)
  have hlt := n.toNat_lt
  rw [Build.u32_of_fits (by omega), UInt32.ofNat_add, UInt32.ofNat_toNat]
  rfl

/-- A release build wraps around. -/
theorem u32_release (n : Nat) : Build.release.u32 n = .ok (.ofNat n) := by
  unfold Build.u32
  split <;> rfl

/-- A development build stops. -/
theorem u64_dev {n : Nat} (h : ¬ n < 2 ^ 64) : Build.dev.u64 n = .error .overflow := if_neg h

/-- A development build stops at a signed number that does not fit. -/
theorem i64_dev {n : Int} (h : ¬ InI64 n) : Build.dev.i64 n = .error .overflow := if_neg h

/-- Digits are read as their number. -/
theorem readNat_of_digits {t : Text} (hne : t ≠ []) (ht : ∀ c ∈ t, c.isDigit = true) :
    readNat t = some (Nat.ofDigitChars 10 t 0) := if_pos ⟨hne, List.all_eq_true.mpr ht⟩

/-- Nothing but digits is. -/
theorem digits_of_readNat {t : Text} {n : Nat} (h : readNat t = some n) : ∀ c ∈ t, c.isDigit = true := by
  unfold readNat at h
  split at h
  · rename_i hdigits
    exact List.all_eq_true.mp hdigits.2
  · cases h

/-- What is read as a number has digits and perhaps a sign in it. -/
theorem chars_of_readInt {t : Text} {n : Int} (h : readInt t = some n) : ∀ c ∈ t, c.isDigit = true ∨ c = '-' ∨ c = '+' := by
  intro c hc
  unfold readInt at h
  split at h
  · obtain ⟨m, hm, -⟩ := Option.map_eq_some_iff.mp h
    rcases List.mem_cons.mp hc with rfl | hc
    · exact .inr (.inl rfl)
    · exact .inl (digits_of_readNat hm c hc)
  · obtain ⟨m, hm, -⟩ := Option.map_eq_some_iff.mp h
    rcases List.mem_cons.mp hc with rfl | hc
    · exact .inr (.inr rfl)
    · exact .inl (digits_of_readNat hm c hc)
  · obtain ⟨m, hm, -⟩ := Option.map_eq_some_iff.mp h
    exact .inl (digits_of_readNat hm c hc)

/-- What is read is a number that fits. -/
theorem readI64_eq_some_iff {t : Text} {n : Int} : readI64 t = some n ↔ readInt t = some n ∧ InI64 n := by
  rw [readI64, Option.filter_eq_some_iff, decide_eq_true_eq]

/-- A text of digits is read as its value, if it fits. -/
theorem readI64_of_digits {t : Text} (hne : t ≠ []) (ht : ∀ c ∈ t, c.isDigit = true) :
    readI64 t = if InI64 (Nat.ofDigitChars 10 t 0) then some ((Nat.ofDigitChars 10 t 0 : Nat) : Int) else none := by
  have hint : readInt t = some ((Nat.ofDigitChars 10 t 0 : Nat) : Int) := by
    unfold readInt
    split
    · exact absurd (ht '-' List.mem_cons_self) (by decide)
    · exact absurd (ht '+' List.mem_cons_self) (by decide)
    · rw [readNat_of_digits hne ht, Option.map_some]
  rw [readI64, hint, Option.filter_some]
  simp only [decide_eq_true_eq]

/-- Digits are read as a number that fits. -/
theorem readU64_of_digits {t : Text} (ht : ∀ c ∈ t, c.isDigit = true) : readU64 t = (readNat t).filter fun n => n < 2 ^ 64 := by
  unfold readU64
  split
  · exact absurd (ht '+' List.mem_cons_self) (by decide)
  · rfl

/-- A number that is padded has zeros before it. -/
theorem toList_pad (width n : Nat) :
    ∃ zeros, (Civil.pad width n).toList = List.replicate zeros '0' ++ Nat.toDigits 10 n := by
  refine ⟨width - (toString n).length, ?_⟩
  rw [Civil.pad, String.toList_append, String.toList_ofList, Nat.toString_eq_ofList_toDigits, String.toList_ofList]

/-- A number with zeros before it is read as itself. -/
theorem readNat_pad (width n : Nat) : readNat (Civil.pad width n).toList = some n := by
  obtain ⟨zeros, hzeros⟩ := toList_pad width n
  have hne : (Civil.pad width n).toList ≠ [] := by
    rw [hzeros]
    exact List.append_ne_nil_of_right_ne_nil _ Nat.toDigits_ne_nil
  rw [readNat_of_digits hne fun _ => Civil.isDigit_of_mem_pad, hzeros, Nat.ofDigitChars_append, Nat.ofDigitChars_replicate_zero,
    Nat.mul_zero, Nat.ofDigitChars_ten_toDigits]

/-- It is read back. -/
theorem readU64_pad {width n : Nat} (h : n < 2 ^ 64) : readU64 (Civil.pad width n).toList = some n := by
  rw [readU64_of_digits fun _ => Civil.isDigit_of_mem_pad, readNat_pad, Option.filter_some, if_pos (decide_eq_true h)]

/-- It has digits only. -/
theorem not_mem_pad {width n : Nat} {c : Char} (h : c.isDigit = false) : c ∉ (Civil.pad width n).toList := by
  intro hmem
  rw [Civil.isDigit_of_mem_pad hmem] at h
  cases h

end Decimal
