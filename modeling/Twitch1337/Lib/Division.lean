import Mathlib.Order.Monotone.Basic
import Twitch1337.Lib.F64

/-!
# Division, rounding and casts of doubles

Every finite double is a whole number of units, where a unit is the least positive double, `2 ^ -1074`. A quotient is rounded
to the nearest double, and to the even one of two that are equally near. Rounding keeps the order, and keeps a double as it
is: `le_nearest` and `nearest_le` say both.
-/

namespace F64

/-- The magnitude of infinity. -/
def infinity : Nat := 0x7FF0000000000000

def isFinite (a : F64) : Bool := decide (a.magnitude < infinity)

/-- The double of a sign and a magnitude. -/
def ofMagnitude (negative : Bool) (m : Nat) : F64 := ⟨BitVec.ofNat 64 (m + if negative then 2 ^ 63 else 0)⟩

/-- The units of a finite magnitude. -/
def units (m : Nat) : Nat := if m < 2 ^ 52 then m else (2 ^ 52 + m % 2 ^ 52) * 2 ^ (m / 2 ^ 52 - 1)

/-- The magnitude nearest to a quotient, which is given in units. -/
def nearest (p q : Nat) : Nat :=
  let k := (p / q).log2 - 52
  let d := q * 2 ^ k
  let n := p / d
  let r := p % d
  min (k * 2 ^ 52 + if 2 * r < d ∨ (2 * r = d ∧ n % 2 = 0) then n else n + 1) infinity

/-- `a / b`. -/
def div (a b : F64) : F64 :=
  ofMagnitude (a.bits.msb ^^ b.bits.msb)
    (if a.isNaN || b.isNaN || (!a.isFinite && !b.isFinite) || (a.magnitude = 0 && b.magnitude = 0) then infinity + 2 ^ 51
    else if !a.isFinite || b.magnitude = 0 then infinity
    else if !b.isFinite then 0
    else nearest (units a.magnitude * 2 ^ 1074) (units b.magnitude))

/-- The largest whole number that is not above. -/
def floor (a : F64) : F64 :=
  let e := a.magnitude / 2 ^ 52
  if a.magnitude = 0 ∨ 1075 ≤ e then a
  else if e < 1023 then ofMagnitude a.bits.msb (if a.bits.msb then one.magnitude else 0)
  else
    let d := 2 ^ (1075 - e)
    ofMagnitude a.bits.msb ((if a.bits.msb then a.magnitude + (d - 1) else a.magnitude) / d * d)

/-- The cast to a `u64`: what is too small becomes 0, what is too large the largest `u64`. -/
def toU64 (a : F64) : UInt64 :=
  if a.isNaN || a.bits.msb then 0 else UInt64.ofNat (min (units a.magnitude / 2 ^ 1074) (2 ^ 64 - 1))

/-- The number that orders all doubles, those that are not numbers as well. -/
def totalKey (a : F64) : Int := if a.bits.msb then -(a.magnitude : Int) - 1 else a.magnitude

/-- The order of `total_cmp`. -/
def totalCmp (a b : F64) : Ordering := compare a.totalKey b.totalKey

/-! ## Magnitudes -/

theorem magnitude_ofMagnitude {m : Nat} (h : m < 2 ^ 63) (negative : Bool) : (ofMagnitude negative m).magnitude = m := by
  cases negative with
  | false =>
    simp only [magnitude, ofMagnitude, BitVec.toNat_ofNat, Bool.false_eq_true, if_false]
    omega
  | true =>
    simp only [magnitude, ofMagnitude, BitVec.toNat_ofNat, if_true]
    omega

theorem msb_ofMagnitude {m : Nat} (h : m < 2 ^ 63) (negative : Bool) : (ofMagnitude negative m).bits.msb = negative := by
  rw [BitVec.msb_eq_decide]
  cases negative with
  | false =>
    simp only [ofMagnitude, BitVec.toNat_ofNat, Bool.false_eq_true, if_false, decide_eq_false_iff_not]
    omega
  | true =>
    simp only [ofMagnitude, BitVec.toNat_ofNat, if_true, decide_eq_true_eq]
    omega

theorem isNaN_of_isFinite {a : F64} (h : a.isFinite = true) : a.isNaN = false := by
  rw [isNaN, decide_eq_false_iff_not]
  exact (of_decide_eq_true h).not_gt

theorem units_of_lt {m : Nat} (h : m < 2 ^ 52) : units m = m := if_pos h

theorem units_of_le {m : Nat} (h : 2 ^ 52 ≤ m) : units m = (2 ^ 52 + m % 2 ^ 52) * 2 ^ (m / 2 ^ 52 - 1) :=
  if_neg (by omega)

/-- A larger magnitude is more units: what comes next has one more in its last place, or a place more. -/
theorem units_strictMono : StrictMono units := by
  refine strictMono_nat_of_lt_succ fun m => ?_
  rcases Nat.lt_trichotomy (m + 1) (2 ^ 52) with h | h | h
  · rw [units_of_lt (by omega), units_of_lt h]
    omega
  · rw [units_of_lt (by omega), h]
    have : units (2 ^ 52) = 2 ^ 52 := by decide
    omega
  · rw [units_of_le (by omega), units_of_le (by omega)]
    by_cases hlast : m % 2 ^ 52 + 1 = 2 ^ 52
    · have hdiv : (m + 1) / 2 ^ 52 - 1 = m / 2 ^ 52 - 1 + 1 := by omega
      have hmod : (m + 1) % 2 ^ 52 = 0 := by omega
      have hpow : 0 < 2 ^ (m / 2 ^ 52 - 1) := Nat.two_pow_pos _
      have hdouble : 2 ^ (m / 2 ^ 52 - 1 + 1) = 2 * 2 ^ (m / 2 ^ 52 - 1) := Nat.pow_succ'
      rw [hdiv, hmod, hdouble, ← Nat.mul_assoc]
      exact Nat.mul_lt_mul_of_pos_right (by omega) hpow
    · have hdiv : (m + 1) / 2 ^ 52 = m / 2 ^ 52 := by omega
      have hmod : (m + 1) % 2 ^ 52 = m % 2 ^ 52 + 1 := by omega
      rw [hdiv, hmod]
      exact Nat.mul_lt_mul_of_pos_right (by omega) (Nat.two_pow_pos _)

/-- The magnitude with the significand `n` and the places `k` below it. -/
theorem units_significand {k n : Nat} (hk : k = 0 ∨ 2 ^ 52 ≤ n) (hn : n ≤ 2 ^ 53) : units (k * 2 ^ 52 + n) = n * 2 ^ k := by
  by_cases hsub : k * 2 ^ 52 + n < 2 ^ 52
  · have hzero : k = 0 := by omega
    subst hzero
    rw [units_of_lt hsub]
    simp
  · rw [units_of_le (by omega)]
    by_cases hcarry : n = 2 ^ 53
    · have hdiv : (k * 2 ^ 52 + n) / 2 ^ 52 - 1 = k + 1 := by omega
      have hmod : (k * 2 ^ 52 + n) % 2 ^ 52 = 0 := by omega
      have hdouble : 2 ^ (k + 1) = 2 * 2 ^ k := Nat.pow_succ'
      rw [hdiv, hmod, hcarry, hdouble, ← Nat.mul_assoc]
      rfl
    · have hdiv : (k * 2 ^ 52 + n) / 2 ^ 52 - 1 = k := by omega
      have hmod : 2 ^ 52 + (k * 2 ^ 52 + n) % 2 ^ 52 = n := by omega
      rw [hdiv, hmod]

/-! ## Rounding -/

section Nearest

variable {p q m : Nat}

/-- Of the quotient, what is left when the places below the significand are cut off. -/
theorem significand_bounds (x : Nat) :
    (x.log2 - 52 = 0 ∨ 2 ^ 52 ≤ x / 2 ^ (x.log2 - 52)) ∧ x / 2 ^ (x.log2 - 52) < 2 ^ 53 := by
  constructor
  · by_cases hk : x.log2 ≤ 52
    · exact .inl (by omega)
    · right
      have hx : x ≠ 0 := by
        rintro rfl
        simp at hk
      rw [Nat.le_div_iff_mul_le (Nat.two_pow_pos _), ← Nat.pow_add, show 52 + (x.log2 - 52) = x.log2 by omega]
      exact Nat.log2_self_le hx
  · rw [Nat.div_lt_iff_lt_mul (Nat.two_pow_pos _), ← Nat.pow_add]
    exact lt_of_lt_of_le Nat.lt_log2_self (Nat.pow_le_pow_right (by decide) (by omega))

/-- A double that is not above the quotient is not above what it is rounded to. -/
theorem le_nearest (hq : 0 < q) (hm : m ≤ infinity) (h : units m * q ≤ p) : m ≤ nearest p q := by
  obtain ⟨hnormal, hlt⟩ := significand_bounds (p / q)
  have hcut : m ≤ ((p / q).log2 - 52) * 2 ^ 52 + p / (q * 2 ^ ((p / q).log2 - 52)) := by
    rw [← Nat.div_div_eq_div_mul]
    by_contra hgt
    have hnext : units (((p / q).log2 - 52) * 2 ^ 52 + (p / q / 2 ^ ((p / q).log2 - 52) + 1)) ≤ units m :=
      units_strictMono.monotone (by omega)
    rw [units_significand (by omega) (by omega)] at hnext
    have hle : units m ≤ p / q := (Nat.le_div_iff_mul_le hq).mpr h
    have hover : p / q < (p / q / 2 ^ ((p / q).log2 - 52) + 1) * 2 ^ ((p / q).log2 - 52) :=
      Nat.lt_mul_of_div_lt (Nat.lt_succ_self _) (Nat.two_pow_pos _)
    omega
  unfold nearest
  refine le_min (hcut.trans (Nat.add_le_add_left ?_ _)) hm
  split
  · exact le_refl _
  · exact Nat.le_succ _

/-- A double that is not below the quotient is not below what it is rounded to. -/
theorem nearest_le (hq : 0 < q) (h : p ≤ units m * q) : nearest p q ≤ m := by
  obtain ⟨hnormal, hlt⟩ := significand_bounds (p / q)
  unfold nearest
  refine (min_le_left _ _).trans ?_
  generalize (p / q).log2 - 52 = k at *
  have hcut : units (k * 2 ^ 52 + p / q / 2 ^ k) = p / q / 2 ^ k * 2 ^ k := units_significand hnormal hlt.le
  split
  · rw [← Nat.div_div_eq_div_mul, ← units_strictMono.le_iff_le, hcut]
    have hle : p / q ≤ units m := Nat.div_le_of_le_mul (by rwa [Nat.mul_comm])
    exact (Nat.div_mul_le_self _ _).trans hle
  · rename_i hr
    -- rounded up, so something was cut off, and the double is above what is left
    rw [← Nat.div_div_eq_div_mul, ← Nat.add_assoc, Nat.succ_le_iff, ← units_strictMono.lt_iff_lt, hcut]
    have hd : 0 < q * 2 ^ k := Nat.mul_pos hq (Nat.two_pow_pos k)
    have hrest : 0 < p % (q * 2 ^ k) := by omega
    have hsum := Nat.div_add_mod p (q * 2 ^ k)
    have hlt : q * 2 ^ k * (p / (q * 2 ^ k)) < units m * q := by omega
    rw [← Nat.div_div_eq_div_mul, Nat.mul_assoc, Nat.mul_comm q, Nat.mul_lt_mul_right hq, Nat.mul_comm] at hlt
    exact hlt

theorem nearest_le_infinity (p q : Nat) : nearest p q ≤ infinity := by
  unfold nearest
  exact min_le_right _ _

end Nearest

/-- The quotient of two finite doubles, the second of them not zero. -/
theorem div_of_isFinite {a b : F64} (ha : a.isFinite = true) (hb : b.isFinite = true) (h : b.magnitude ≠ 0) :
    a.div b = ofMagnitude (a.bits.msb ^^ b.bits.msb) (nearest (units a.magnitude * 2 ^ 1074) (units b.magnitude)) := by
  have hna := isNaN_of_isFinite ha
  have hnb := isNaN_of_isFinite hb
  unfold div
  generalize 2 ^ 1074 = unit
  simp [ha, hb, hna, hnb, h]

/-! ## Casts -/

/-- The magnitude of `2 ^ 64`. -/
def wordMagnitude : Nat := 0x43F0000000000000

/-- A magnitude saturates if it is that of `2 ^ 64` or more: the one before it is `2 ^ 64 - 2 ^ 11`. -/
theorem saturates_iff (m : Nat) : 2 ^ 64 - 1 ≤ units m / 2 ^ 1074 ↔ wordMagnitude ≤ m := by
  have hmono := units_strictMono.monotone
  constructor
  · intro h
    by_contra hlt
    have hle : units m / 2 ^ 1074 ≤ units (wordMagnitude - 1) / 2 ^ 1074 := Nat.div_le_div_right (hmono (by omega))
    have hlast : units (wordMagnitude - 1) / 2 ^ 1074 < 2 ^ 64 - 1 := by decide +kernel
    omega
  · intro h
    have hle : units wordMagnitude / 2 ^ 1074 ≤ units m / 2 ^ 1074 := Nat.div_le_div_right (hmono h)
    have hword : 2 ^ 64 - 1 ≤ units wordMagnitude / 2 ^ 1074 := by decide +kernel
    omega

theorem toU64_eq_max_iff {a : F64} (hn : a.isNaN = false) (hs : a.bits.msb = false) :
    a.toU64 = 0xFFFFFFFFFFFFFFFF ↔ wordMagnitude ≤ a.magnitude := by
  rw [← saturates_iff, toU64, hn, hs, ← UInt64.toNat_inj]
  simp only [Bool.or_false, Bool.false_eq_true, if_false]
  generalize units a.magnitude / 2 ^ 1074 = x
  rw [UInt64.toNat_ofNat_of_lt' (by rw [UInt64.size]; omega)]
  change min x (2 ^ 64 - 1) = 2 ^ 64 - 1 ↔ _
  omega

/-- A double that is not negative saturates if its floor does: from `2 ^ 52` on it is its own floor. -/
theorem toU64_floor_eq_max_iff {a : F64} (hn : a.isNaN = false) (hs : a.bits.msb = false) :
    a.floor.toU64 = 0xFFFFFFFFFFFFFFFF ↔ wordMagnitude ≤ a.magnitude := by
  by_cases hwhole : a.magnitude = 0 ∨ 1075 ≤ a.magnitude / 2 ^ 52
  · rw [floor, if_pos hwhole]
    exact toU64_eq_max_iff hn hs
  have hsmall : a.magnitude < wordMagnitude := by
    unfold wordMagnitude
    omega
  -- the floor is not larger, so neither of them saturates
  obtain ⟨m, hm, hfloor⟩ : ∃ m ≤ a.magnitude, a.floor = ofMagnitude false m := by
    rw [floor, if_neg hwhole, hs]
    simp only [Bool.false_eq_true, if_false]
    split
    · exact ⟨0, Nat.zero_le _, rfl⟩
    · exact ⟨_, Nat.div_mul_le_self _ _, rfl⟩
  have hword : wordMagnitude < infinity := by decide
  have hlt : m < 2 ^ 63 := by
    unfold wordMagnitude at hsmall
    omega
  have hnum : (ofMagnitude false m).isNaN = false := by
    rw [isNaN, magnitude_ofMagnitude hlt, decide_eq_false_iff_not]
    unfold infinity at hword
    omega
  rw [hfloor, toU64_eq_max_iff hnum (msb_ofMagnitude hlt false), magnitude_ofMagnitude hlt]
  omega

example : div (ofMagnitude false 0x3FF0000000000000) (ofMagnitude true 0x4008000000000000) = ⟨0xBFD5555555555555⟩ := by
  decide +kernel

end F64
