import Twitch1337.Settings.Migrate

/-!
# Intervals of an earlier version

A legacy interval is read exactly unless digits without a unit are left at its end, a negative number stands in it, or its total is
beyond 64 bits. Where it is read exactly, its row gets that interval, or a minute.
-/

namespace Twitch1337.Dashboard

open Decimal RustStr Text

variable {T : LowerTable} {b : Build} {s : String}

/-! ## What intervals are -/

/-- Numbers with units, and their total in seconds. A number fits into 64 bits with a sign. -/
inductive Pairs : Text → Int → Prop
  | nil : Pairs [] 0
  | snoc {pre digits : Text} {unit : Char} {total secs : Int} : Pairs pre total → digits ≠ [] →
    (∀ c ∈ digits, c.isDigit = true) → InI64 (Nat.ofDigitChars 10 digits 0) → unitSecs unit = some secs →
    Pairs (pre ++ digits ++ [unit]) (total + Nat.ofDigitChars 10 digits 0 * secs)

/-- The form of an interval: hours and minutes that are not negative, or numbers with units in lower case. -/
inductive Legacy (T : LowerTable) (s : String) : Int → Prop
  | clock {hours minutes : Text} {h m : Int} : (trim s).toList = hours ++ ':' :: minutes → readInt hours = some h →
    readInt minutes = some m → 0 ≤ h → 0 ≤ m → Legacy T s (h * 3600 + m * 60)
  | units {total : Int} : (T.toLowercase (trim s)).toList ≠ [] → Pairs (T.toLowercase (trim s)).toList total → Legacy T s total

/-- In every build a text is read, and only as the interval it is. -/
def ReadsExactly (T : LowerTable) (s : String) : Prop :=
  ∀ b, ∃ r, parseIntervalLegacy b T s = .ok r ∧ ∀ n, r = some n → Legacy T s n

/-- A text that is read exactly: its totals fit, no number of a positive total is negative, and no digits without a unit follow
a total. -/
structure Clean (T : LowerTable) (s : String) : Prop where
  clock : ∀ hours minutes h m, (trim s).toList = hours ++ ':' :: minutes → readI64 hours = some h → readI64 minutes = some m →
    InI64 (h * 3600) ∧ InI64 (m * 60) ∧ InI64 (h * 3600 + m * 60) ∧ (0 < h * 3600 + m * 60 → 0 ≤ h ∧ 0 ≤ m)
  fits : ':' ∉ (trim s).toList → ∀ pre total, pre <+: (T.toLowercase (trim s)).toList → Pairs pre total → InI64 total
  ends : ':' ∉ (trim s).toList → ∀ pre digits total, (T.toLowercase (trim s)).toList = pre ++ digits → Pairs pre total →
    (∀ c ∈ digits, c.isDigit = true) → digits ≠ [] → total = 0

/-! ## Numbers with units -/

/-- A unit is no digit and lasts at least a second. -/
theorem unitSecs_cases {unit : Char} {secs : Int} (h : unitSecs unit = some secs) :
    unit.isDigit = false ∧ 1 ≤ secs := by
  unfold unitSecs at h
  split at h <;> first
    | (obtain rfl := Option.some.inj h; decide)
    | cases h

/-- No sum of units is negative. -/
theorem Pairs.nonneg {t : Text} {total : Int} (h : Pairs t total) : 0 ≤ total := by
  induction h with
  | nil => exact le_rfl
  | snoc _ _ _ _ hunit ih =>
    have hsecs := (unitSecs_cases hunit).2
    exact Int.add_nonneg ih (Int.mul_nonneg (Int.natCast_nonneg _) (by omega))

/-- Nothing adds up to nothing. -/
theorem Pairs.eq_zero {t : Text} {total : Int} (h : Pairs t total) (ht : t = []) : total = 0 := by
  cases h with
  | nil => rfl
  | snoc _ _ _ _ _ => simp at ht

/-- What is left after numbers with units does not begin with a unit. -/
theorem Pairs.last {t : Text} {total : Int} (h : Pairs t total) {c : Char} (hc : t.getLast? = some c) :
    c.isDigit = false := by
  cases h with
  | nil => cases hc
  | snoc _ _ _ _ hunit =>
    rw [List.getLast?_concat, Option.some.injEq] at hc
    exact hc ▸ (unitSecs_cases hunit).1

/-- Digits are collected until their unit. -/
theorem accumulate_digits {cur digits : Text} (h : ∀ c ∈ digits, c.isDigit = true) (total : Int) (rest : Text) :
    accumulate b cur total (digits ++ rest) = accumulate b (cur ++ digits) total rest := by
  induction digits generalizing cur with
  | nil => rw [List.append_nil, List.nil_append]
  | cons c digits ih =>
    rw [List.cons_append, accumulate, if_pos (h c List.mem_cons_self), ih fun d hd => h d (List.mem_cons_of_mem c hd),
      List.append_assoc, List.singleton_append]

/-- A number with its unit is added to the total. -/
theorem accumulate_unit {digits : Text} {unit : Char} {total secs : Int} (hne : digits ≠ [])
    (hdigits : ∀ c ∈ digits, c.isDigit = true) (hfits : InI64 (Nat.ofDigitChars 10 digits 0))
    (hunit : unitSecs unit = some secs) (rest : Text) :
    accumulate b [] total (digits ++ unit :: rest) = (do
      let product ← b.i64 (Nat.ofDigitChars 10 digits 0 * secs)
      let total ← b.i64 (total + product)
      accumulate b [] total rest) := by
  rw [accumulate_digits hdigits, List.nil_append, accumulate, (unitSecs_cases hunit).1, if_neg Bool.false_ne_true,
    readI64_of_digits hne hdigits, if_pos hfits, hunit]

/-- Where a total fits, what is added to it does as well. -/
theorem fits_of_add {total product : Int} (htotal : 0 ≤ total) (hproduct : 0 ≤ product) (h : InI64 (total + product)) :
    InI64 total ∧ InI64 product := by
  unfold InI64 at h ⊢
  omega

/-- Numbers with units whose total fits are read as this total, in every build. -/
theorem accumulate_pairs {pre : Text} {total : Int} (h : Pairs pre total) (hfits : InI64 total) (rest : Text) :
    accumulate b [] 0 (pre ++ rest) = accumulate b [] total rest := by
  induction h generalizing rest with
  | nil => rfl
  | @snoc pre digits unit total secs hpre hne hdigits hnumber hunit ih =>
    have hsecs := (unitSecs_cases hunit).2
    obtain ⟨htotal, hproduct⟩ := fits_of_add hpre.nonneg (Int.mul_nonneg (Int.natCast_nonneg _) (by omega)) hfits
    have happ : pre ++ digits ++ [unit] ++ rest = pre ++ (digits ++ unit :: rest) := by simp
    rw [happ, ih htotal, accumulate_unit hne hdigits hnumber hunit, Build.i64_of_fits hproduct]
    exact congrArg (· >>= fun total => accumulate b [] total rest) (Build.i64_of_fits hfits b)

/-- A build with overflow checks stops at a total that does not fit. -/
theorem accumulate_overflow {pre : Text} {total : Int} (h : Pairs pre total) (hfits : ¬ InI64 total) (rest : Text) :
    accumulate .dev [] 0 (pre ++ rest) = .error .overflow := by
  induction h generalizing rest with
  | nil => exact absurd (by decide) hfits
  | @snoc pre digits unit total secs hpre hne hdigits hnumber hunit ih =>
    have happ : pre ++ digits ++ [unit] ++ rest = pre ++ (digits ++ unit :: rest) := by simp
    rw [happ]
    by_cases htotal : InI64 total
    · rw [accumulate_pairs hpre htotal, accumulate_unit hne hdigits hnumber hunit]
      by_cases hproduct : InI64 (Nat.ofDigitChars 10 digits 0 * secs)
      · rw [Build.i64_of_fits hproduct]
        exact congrArg (· >>= fun total => accumulate .dev [] total rest) (i64_dev hfits)
      · rw [i64_dev hproduct]
        rfl
    · exact ih htotal _

/-- Where all totals fit, the loop ends with the total of numbers with units, and drops the digits that are left. -/
theorem accumulate_ok {done cur rest : Text} {total : Int} (hdone : Pairs done total) (hcur : ∀ c ∈ cur, c.isDigit = true)
    (hfits : ∀ pre total, pre <+: done ++ cur ++ rest → Pairs pre total → InI64 total) :
    ∃ r, accumulate b cur total rest = .ok r ∧ ∀ n, r = some n →
      ∃ pre digits, done ++ cur ++ rest = pre ++ digits ∧ Pairs pre n ∧ ∀ c ∈ digits, c.isDigit = true := by
  induction rest generalizing done cur total with
  | nil =>
    refine ⟨some total, rfl, fun n hn => ?_⟩
    obtain rfl := Option.some.inj hn
    exact ⟨done, cur, List.append_nil _, hdone, hcur⟩
  | cons c rest ih =>
    rw [accumulate]
    by_cases hc : c.isDigit = true
    · rw [if_pos hc]
      have happ : done ++ cur ++ c :: rest = done ++ (cur ++ [c]) ++ rest := by simp
      rw [happ] at hfits ⊢
      refine ih hdone (fun d hd => ?_) hfits
      rcases List.mem_append.mp hd with hd | hd
      · exact hcur d hd
      · exact List.mem_singleton.mp hd ▸ hc
    · rw [if_neg hc]
      split
      · rename_i n secs hn hunit
        have hne : cur ≠ [] := by
          rintro rfl
          cases hn
        rw [readI64_of_digits hne hcur] at hn
        split at hn
        · rename_i hnumber
          obtain rfl := Option.some.inj hn
          have hnext : Pairs (done ++ cur ++ [c]) (total + Nat.ofDigitChars 10 cur 0 * secs) :=
            hdone.snoc hne hcur hnumber hunit
          have happ : done ++ cur ++ c :: rest = done ++ cur ++ [c] ++ [] ++ rest := by simp
          have hsum := hfits _ _ ⟨rest, by simp⟩ hnext
          have hsecs := (unitSecs_cases hunit).2
          obtain ⟨-, hproduct⟩ := fits_of_add hdone.nonneg (Int.mul_nonneg (Int.natCast_nonneg _) (by omega)) hsum
          rw [happ] at hfits ⊢
          rw [Build.i64_of_fits hproduct]
          obtain ⟨r, hr, hread⟩ := ih hnext (by simp) hfits
          refine ⟨r, ?_, hread⟩
          exact (congrArg (· >>= fun total => accumulate b [] total rest) (Build.i64_of_fits hsum b)).trans hr
        · cases hn
      · exact ⟨none, rfl, by simp⟩

/-- A text whose sums fit is read without an overflow, and what is read is the sum of its units. -/
theorem accumulate_units_ok (b : Build) {t : Text} (hfits : ∀ pre total, pre <+: t → Pairs pre total → InI64 total) :
    ∃ r, accumulate b [] 0 t = .ok r ∧ ∀ n, r = some n →
      ∃ pre digits, t = pre ++ digits ∧ Pairs pre n ∧ ∀ c ∈ digits, c.isDigit = true := by
  have hnil : ∀ c ∈ ([] : Text), c.isDigit = true := fun _ hc => absurd hc List.not_mem_nil
  exact accumulate_ok .nil hnil hfits

/-! ## Texts -/

/-- There is no colon in a number. -/
theorem colon_not_mem_of_readInt {t : Text} {n : Int} (h : readInt t = some n) : ':' ∉ t := by
  intro hmem
  rcases chars_of_readInt h ':' hmem with h | h | h
  · exact absurd h (by decide)
  · exact absurd h (by decide)
  · exact absurd h (by decide)

/-- Only one colon stands between two numbers. -/
theorem splitOnce_clock {hours minutes : Text} {h : Int} (ht : (trim s).toList = hours ++ ':' :: minutes)
    (hh : readInt hours = some h) : splitOnce [':'] (trim s).toList = some (hours, minutes) := by
  rw [ht, splitOnce_char (colon_not_mem_of_readInt hh)]

/-- A text that is not split has no colon. -/
theorem colon_not_mem_of_splitOnce (h : splitOnce [':'] (trim s).toList = none) : ':' ∉ (trim s).toList := by
  intro hmem
  obtain ⟨hours, minutes, ht⟩ := List.append_of_mem hmem
  have hin : [':'] <:+: (trim s).toList := ⟨hours, minutes, by rw [ht]; simp⟩
  have hsome := isSome_splitOnce_of_infix hin
  rw [h] at hsome
  cases hsome

/-- Lower case keeps a colon, which is in no number with a unit. -/
theorem colon_mem_lowerFrom {before t : Text} (h : ':' ∈ t) : ':' ∈ T.lowerFrom before t := by
  induction t generalizing before with
  | nil => cases h
  | cons c t ih =>
    rw [LowerTable.lowerFrom, List.mem_append]
    rcases List.mem_cons.mp h with rfl | h
    · rw [if_neg (by decide), T.lower_ascii ':' (by decide)]
      exact .inl (by decide)
    · exact .inr (ih h)

/-- There is no colon in numbers with units. -/
theorem Pairs.colon_not_mem {t : Text} {total : Int} (h : Pairs t total) : ':' ∉ t := by
  induction h with
  | nil => exact List.not_mem_nil
  | snoc _ _ hdigits _ hunit ih =>
    intro hmem
    rcases List.mem_append.mp hmem with hmem | hmem
    · rcases List.mem_append.mp hmem with hmem | hmem
      · exact ih hmem
      · exact absurd (hdigits ':' hmem) (by decide)
    · rw [← List.mem_singleton.mp hmem] at hunit
      cases hunit

/-- What holds of a text with a colon between two numbers: it is an interval in one way only. -/
theorem legacy_clock_iff {hours minutes : Text} {h m n : Int} (ht : (trim s).toList = hours ++ ':' :: minutes)
    (hh : readInt hours = some h) (hm : readInt minutes = some m) :
    Legacy T s n ↔ 0 ≤ h ∧ 0 ≤ m ∧ n = h * 3600 + m * 60 := by
  constructor
  · intro hlegacy
    cases hlegacy with
    | clock ht' hh' hm' h0 m0 =>
      have hsplit := (splitOnce_clock ht hh).symm.trans (splitOnce_clock ht' hh')
      rw [Option.some.injEq, Prod.mk.injEq] at hsplit
      obtain ⟨rfl, rfl⟩ := hsplit
      obtain rfl := Option.some.inj (hh.symm.trans hh')
      obtain rfl := Option.some.inj (hm.symm.trans hm')
      exact ⟨h0, m0, rfl⟩
    | units _ hpairs =>
      refine absurd ?_ hpairs.colon_not_mem
      rw [LowerTable.toLowercase, String.toList_ofList]
      exact colon_mem_lowerFrom (by rw [ht]; simp)
  · rintro ⟨h0, m0, rfl⟩
    exact .clock ht hh hm h0 m0

/-- Without a colon, an interval is a sum of units. -/
theorem legacy_units_iff {n : Int} (hcolon : ':' ∉ (trim s).toList) :
    Legacy T s n ↔ (T.toLowercase (trim s)).toList ≠ [] ∧ Pairs (T.toLowercase (trim s)).toList n := by
  constructor
  · intro hlegacy
    cases hlegacy with
    | clock ht _ _ _ _ => exact absurd (by rw [ht]; simp) hcolon
    | units hne hpairs => exact ⟨hne, hpairs⟩
  · rintro ⟨hne, hpairs⟩
    exact .units hne hpairs

/-! ## Reading -/

/-- With a colon, hours and minutes are read. -/
theorem parse_clock {hours minutes : Text} (ht : splitOnce [':'] (trim s).toList = some (hours, minutes)) :
    parseIntervalLegacy b T s =
      match readI64 hours, readI64 minutes with
      | some h, some m => do
        let hours ← b.i64 (h * 3600)
        let minutes ← b.i64 (m * 60)
        let total ← b.i64 (hours + minutes)
        return if total ≤ 0 then none else some total
      | _, _ => .ok none := by
  cases hh : readI64 hours <;> cases hm : readI64 minutes <;> simp only [parseIntervalLegacy, ht, hh, hm]

/-- Without one, units are. -/
theorem parse_units (ht : splitOnce [':'] (trim s).toList = none) :
    parseIntervalLegacy b T s = do
      let total ← accumulate b [] 0 (T.toLowercase (trim s)).toList
      return total.filter fun total => total ≠ 0 := by
  rw [parseIntervalLegacy, ht]

/-- Where nothing overflows, hours and minutes are read as their total. -/
theorem parse_clock_ok {hours minutes : Text} {h m : Int} (ht : splitOnce [':'] (trim s).toList = some (hours, minutes))
    (hh : readI64 hours = some h) (hm : readI64 minutes = some m) (hfits : InI64 (h * 3600)) (mfits : InI64 (m * 60))
    (tfits : InI64 (h * 3600 + m * 60)) :
    parseIntervalLegacy b T s = .ok (if h * 3600 + m * 60 ≤ 0 then none else some (h * 3600 + m * 60)) := by
  rw [parse_clock ht, hh, hm]
  dsimp only
  rw [Build.i64_of_fits hfits, Build.i64_of_fits mfits]
  exact congrArg (· >>= fun total => pure (if total ≤ 0 then none else some total)) (Build.i64_of_fits tfits b)

/-- A build with overflow checks reads hours and minutes only where nothing overflows. -/
theorem fits_of_parse_clock {hours minutes : Text} {h m : Int} {r : Option Int}
    (ht : splitOnce [':'] (trim s).toList = some (hours, minutes)) (hh : readI64 hours = some h)
    (hm : readI64 minutes = some m) (hr : parseIntervalLegacy .dev T s = .ok r) :
    InI64 (h * 3600) ∧ InI64 (m * 60) ∧ InI64 (h * 3600 + m * 60) := by
  rw [parse_clock ht, hh, hm] at hr
  dsimp only at hr
  by_cases hfits : InI64 (h * 3600)
  · rw [Build.i64_of_fits hfits] at hr
    by_cases mfits : InI64 (m * 60)
    · rw [Build.i64_of_fits mfits] at hr
      refine ⟨hfits, mfits, ?_⟩
      by_contra tfits
      have hover : (Build.dev.i64 (h * 3600 + m * 60) >>= fun total =>
          pure (if total ≤ 0 then none else some total) : Except Overflow (Option Int)) = .ok r := hr
      rw [i64_dev tfits] at hover
      cases hover
    · rw [i64_dev mfits] at hr
      cases hr
  · rw [i64_dev hfits] at hr
    cases hr

/-- With a colon, a text is clean when its only hours and minutes are. -/
theorem clean_clock_iff {hours minutes : Text} (ht : splitOnce [':'] (trim s).toList = some (hours, minutes)) :
    Clean T s ↔ ∀ h m, readI64 hours = some h → readI64 minutes = some m →
      InI64 (h * 3600) ∧ InI64 (m * 60) ∧ InI64 (h * 3600 + m * 60) ∧ (0 < h * 3600 + m * 60 → 0 ≤ h ∧ 0 ≤ m) := by
  have htext : (trim s).toList = hours ++ ':' :: minutes := by
    rw [eq_of_splitOnce ht]
    simp
  have hcolon : ':' ∈ (trim s).toList := by
    rw [htext]
    simp
  constructor
  · intro hclean h m hh hm
    exact hclean.clock hours minutes h m htext hh hm
  · intro hall
    refine ⟨fun hours' minutes' h m ht' hh hm => ?_, fun hno => absurd hcolon hno, fun hno => absurd hcolon hno⟩
    have hsplit := (splitOnce_clock ht' (readI64_eq_some_iff.mp hh).1).symm.trans ht
    rw [Option.some.injEq, Prod.mk.injEq] at hsplit
    obtain ⟨rfl, rfl⟩ := hsplit
    exact hall h m hh hm

/-- A clock is read as it should when it is clean. -/
theorem readsExactly_clock_iff {hours minutes : Text} (ht : splitOnce [':'] (trim s).toList = some (hours, minutes)) :
    ReadsExactly T s ↔ Clean T s := by
  have htext : (trim s).toList = hours ++ ':' :: minutes := by
    rw [eq_of_splitOnce ht]
    simp
  rw [clean_clock_iff ht]
  constructor
  · intro hread h m hh hm
    obtain ⟨r, hr, hexact⟩ := hread .dev
    obtain ⟨hfits, mfits, tfits⟩ := fits_of_parse_clock ht hh hm hr
    refine ⟨hfits, mfits, tfits, fun hpos => ?_⟩
    rw [parse_clock_ok ht hh hm hfits mfits tfits, if_neg (by omega)] at hr
    have hlegacy := hexact _ (Except.ok.inj hr).symm
    have hform := (legacy_clock_iff htext (readI64_eq_some_iff.mp hh).1 (readI64_eq_some_iff.mp hm).1).mp hlegacy
    exact ⟨hform.1, hform.2.1⟩
  · intro hall b
    cases hh : readI64 hours with
    | none => exact ⟨none, by rw [parse_clock ht, hh], by simp⟩
    | some h =>
      cases hm : readI64 minutes with
      | none => exact ⟨none, by rw [parse_clock ht, hh, hm], by simp⟩
      | some m =>
        obtain ⟨hfits, mfits, tfits, hsigns⟩ := hall h m hh hm
        refine ⟨_, parse_clock_ok ht hh hm hfits mfits tfits, fun n hn => ?_⟩
        split at hn
        · cases hn
        · rename_i hpos
          obtain rfl := Option.some.inj hn
          obtain ⟨h0, m0⟩ := hsigns (by omega)
          exact .clock htext (readI64_eq_some_iff.mp hh).1 (readI64_eq_some_iff.mp hm).1 h0 m0

/-- Numbers with units are read as they should when they are clean. -/
theorem readsExactly_units_iff (ht : splitOnce [':'] (trim s).toList = none) : ReadsExactly T s ↔ Clean T s := by
  have hcolon := colon_not_mem_of_splitOnce ht
  constructor
  · intro hread
    have hfits : ∀ pre total, pre <+: (T.toLowercase (trim s)).toList → Pairs pre total → InI64 total := by
      rintro pre total ⟨rest, hrest⟩ hpairs
      by_contra hover
      obtain ⟨r, hr, -⟩ := hread .dev
      rw [parse_units ht, ← hrest, accumulate_overflow hpairs hover] at hr
      cases hr
    refine ⟨fun hours minutes h m htext => absurd (by rw [htext]; simp) hcolon, fun _ => hfits, ?_⟩
    intro _ pre digits total hsplit hpairs hdigits hne
    by_contra htotal
    obtain ⟨r, hr, hexact⟩ := hread .dev
    have hloop : accumulate .dev [] 0 (T.toLowercase (trim s)).toList = .ok (some total) := by
      rw [hsplit, accumulate_pairs hpairs (hfits pre total ⟨digits, hsplit.symm⟩ hpairs)]
      calc accumulate .dev [] total digits = accumulate .dev [] total (digits ++ []) := by rw [List.append_nil]
        _ = accumulate .dev ([] ++ digits) total [] := accumulate_digits hdigits total []
        _ = .ok (some total) := rfl
    have hresult : r = some total := by
      rw [parse_units ht, hloop] at hr
      have hfilter : (some total).filter (fun total => decide (total ≠ 0)) = r := Except.ok.inj hr
      rw [← hfilter, Option.filter_some, if_pos (decide_eq_true htotal)]
    -- it ends with a digit, and not with a unit
    obtain ⟨-, hwhole⟩ := (legacy_units_iff hcolon).mp (hexact total hresult)
    have hlast : (T.toLowercase (trim s)).toList.getLast? = some (digits.getLast hne) := by
      rw [hsplit, List.getLast?_append_of_ne_nil _ hne, List.getLast?_eq_some_getLast hne]
    have hunit := hwhole.last hlast
    rw [hdigits _ (List.getLast_mem hne)] at hunit
    cases hunit
  · intro hclean b
    obtain ⟨r, hr, hread⟩ := accumulate_units_ok b (hclean.fits hcolon)
    refine ⟨r.filter fun total => total ≠ 0, by rw [parse_units ht, hr]; rfl, fun n hn => ?_⟩
    obtain ⟨hr', hne⟩ := Option.filter_eq_some_iff.mp hn
    obtain ⟨pre, digits, hsplit, hpairs, hdigits⟩ := hread n hr'
    have hnone : digits = [] := by
      by_contra hleft
      rw [hclean.ends hcolon pre digits n hsplit hpairs hdigits hleft] at hne
      cases hne
    rw [hnone, List.append_nil] at hsplit
    refine .units ?_ (hsplit ▸ hpairs)
    intro hnil
    rw [hpairs.eq_zero (hsplit.symm.trans hnil)] at hne
    cases hne

/-- A text is read exactly precisely when it is clean. -/
theorem readsExactly_iff_clean : ReadsExactly T s ↔ Clean T s := by
  cases ht : splitOnce [':'] (trim s).toList with
  | some parts => exact readsExactly_clock_iff ht
  | none => exact readsExactly_units_iff ht

/-! ## Rows -/

/-- The interval of a row without a trigger, as a text. -/
def Ron.intervalText (row : Ron) : Option String := (row.get "interval").bind Ron.asStr

/-- The interval of a row with a trigger. -/
def Ron.every (row : Ron) : Option Ron := (row.get "trigger").bind fun trigger => trigger.get "every"

/-- What becomes of a row: one with a trigger stays, and another gets its exact interval, or a minute. -/
structure RowExact (T : LowerTable) (row row' : Ron) : Prop where
  kept : (row.get "trigger").isSome = true → row' = row
  migrated : ∀ fields, row = .map fields → row.get "trigger" = none →
    ∃ n : Int, row'.every = some (.string s!"{n}s") ∧ ((∃ s, row.intervalText = some s ∧ Legacy T s n) ∨ n = 60)

/-- The rows of the schedules. -/
def Ron.rows (root : Ron) : List Ron :=
  match root.get "schedules" with
  | some (.option (some (.seq rows))) => rows
  | _ => []

/-- In every build the schedules are migrated row by row. -/
def MigratesExactly (T : LowerTable) (root : Ron) : Prop :=
  ∀ b, ∃ root' changed, migrateSchedules b T root = .ok (root', changed) ∧ List.Forall₂ (RowExact T) root.rows root'.rows

/-- What is inserted is found. -/
theorem get_insert_self (fields : List (String × Ron)) (key : String) (value : Ron) :
    ((Ron.map fields).insert key value).get key = some value := List.lookup_cons_self

/-- Another key is found where it was. -/
theorem lookup_filter_ne {key other : String} (h : key ≠ other) (fields : List (String × Ron)) :
    (fields.filter fun field => field.1 ≠ other).lookup key = fields.lookup key := by
  induction fields with
  | nil => rfl
  | cons field fields ih =>
    obtain ⟨name, value⟩ := field
    by_cases hname : name = other
    · have hkey : (key == name) = false := beq_false_of_ne (hname ▸ h)
      rw [List.filter_cons_of_neg (by simpa using hname), ih, List.lookup_cons, hkey]
    · rw [List.filter_cons_of_pos (by simpa using hname), List.lookup_cons, List.lookup_cons, ih]

/-- What is removed does not hide another key. -/
theorem get_remove_ne (v : Ron) {key other : String} (h : key ≠ other) : (v.remove other).get key = v.get key := by
  cases v with
  | map fields => exact lookup_filter_ne h fields
  | _ => rfl

/-- A map with a date put right is a map. -/
theorem convertDateField_map (fields : List (String × Ron)) (key : String) :
    ∃ fields', (Ron.map fields).convertDateField key = .map fields' := by
  unfold Ron.convertDateField
  split
  · exact ⟨_, rfl⟩
  · exact ⟨_, rfl⟩
  · exact ⟨fields, rfl⟩

/-- The trigger that is written has the interval in seconds. -/
theorem every_withTrigger (fields : List (String × Ron)) (n : Int) :
    ((Ron.map fields).withTrigger n).every = some (.string s!"{n}s") := by
  obtain ⟨started, hstarted⟩ := convertDateField_map fields "start_date"
  obtain ⟨ended, hended⟩ := convertDateField_map started "end_date"
  unfold Ron.every Ron.withTrigger
  rw [hstarted, hended]
  dsimp only
  rw [get_remove_ne _ (by decide), get_remove_ne _ (by decide), get_remove_ne _ (by decide), get_insert_self, Option.bind_some]
  rfl

/-- Where no element overflows, none does, and each is what is said of it. -/
theorem mapM_ok {α β : Type} {f : α → Except Overflow β} {P : α → β → Prop} {l : List α}
    (h : ∀ a ∈ l, ∃ x, f a = .ok x ∧ P a x) : ∃ xs, l.mapM f = .ok xs ∧ List.Forall₂ P l xs := by
  induction l with
  | nil => exact ⟨[], rfl, .nil⟩
  | cons a l ih =>
    obtain ⟨x, hx, hP⟩ := h a List.mem_cons_self
    obtain ⟨xs, hxs, hPs⟩ := ih fun c hc => h c (List.mem_cons_of_mem a hc)
    refine ⟨x :: xs, ?_, .cons hP hPs⟩
    rw [List.mapM_cons, hx, hxs]
    rfl

/-- A row with a clean interval, or none, is migrated exactly. -/
theorem rowExact_of_clean {row : Ron} (h : row.get "trigger" = none → ∀ s, row.intervalText = some s → Clean T s) :
    ∃ r, migrateOneRow b T row = .ok r ∧ RowExact T row r.1 := by
  unfold migrateOneRow
  by_cases htrigger : (row.get "trigger").isSome = true
  · rw [if_pos htrigger]
    refine ⟨(row, false), rfl, ⟨fun _ => rfl, fun fields _ hnone => ?_⟩⟩
    rw [hnone] at htrigger
    cases htrigger
  · rw [if_neg htrigger]
    obtain ⟨interval, hinterval, hexact⟩ : ∃ interval, legacyInterval b T row = .ok interval ∧
        ∀ n, interval = some n → ∃ s, row.intervalText = some s ∧ Legacy T s n := by
      unfold legacyInterval
      cases htext : (row.get "interval").bind Ron.asStr with
      | none => exact ⟨none, rfl, by simp⟩
      | some s =>
        obtain ⟨r, hr, hread⟩ := readsExactly_iff_clean.mpr (h (Option.not_isSome_iff_eq_none.mp htrigger) s htext) b
        exact ⟨r, hr, fun n hn => ⟨s, htext, hread n hn⟩⟩
    rw [hinterval]
    refine ⟨(row.withTrigger (interval.getD 60), true), rfl, ⟨fun hsome => absurd hsome htrigger, ?_⟩⟩
    rintro fields rfl -
    refine ⟨interval.getD 60, every_withTrigger fields _, ?_⟩
    cases interval with
    | none => exact .inr rfl
    | some n => exact .inl (hexact n rfl)

/-- Rows whose intervals are clean are migrated as they should. -/
theorem migratesExactly_of_clean {root : Ron}
    (h : ∀ row ∈ root.rows, row.get "trigger" = none → ∀ s, row.intervalText = some s → Clean T s) :
    MigratesExactly T root := by
  intro b
  unfold migrateSchedules
  split
  · rename_i rows hrows
    have hroot : root.rows = rows := by
      rw [Ron.rows, hrows]
    rw [hroot] at h ⊢
    obtain ⟨migrated, hmigrated, hexact⟩ := mapM_ok (f := migrateOneRow b T) (P := fun row r => RowExact T row r.1)
      fun row hrow => rowExact_of_clean (h row hrow)
    rw [hmigrated]
    refine ⟨_, _, rfl, ?_⟩
    cases root with
    | map fields =>
      rw [Ron.rows, get_insert_self]
      exact List.forall₂_map_right_iff.mpr hexact
    | _ => cases hrows
  · rename_i hno
    refine ⟨root, false, rfl, ?_⟩
    have hrows : root.rows = [] := by
      unfold Ron.rows
      split
      · rename_i rows hrows
        exact absurd hrows (hno rows)
      · rfl
    rw [hrows]
    exact .nil

/-- Legacy intervals are read exactly precisely when they are clean, and where all are, every row gets its exact interval or a
minute. -/
theorem legacy_intervals_iff (T : LowerTable) : (∀ s, ReadsExactly T s ↔ Clean T s) ∧
    ∀ root : Ron, (∀ row ∈ root.rows, row.get "trigger" = none → ∀ s, row.intervalText = some s → Clean T s) →
      MigratesExactly T root :=
  ⟨fun _ => readsExactly_iff_clean, fun _ => migratesExactly_of_clean⟩

theorem hour_and_half : Legacy .umlaut "1h30m" 5400 := by
  have htext : (LowerTable.umlaut.toLowercase (trim "1h30m")).toList = [] ++ ['1'] ++ ['h'] ++ ['3', '0'] ++ ['m'] := by
    decide +kernel
  have hhour : Pairs ([] ++ ['1'] ++ ['h']) 3600 :=
    Pairs.snoc .nil (List.cons_ne_nil '1' []) (by simp) (by decide) (rfl : unitSecs 'h' = some 3600)
  have hhalf : Pairs ([] ++ ['1'] ++ ['h'] ++ ['3', '0'] ++ ['m']) 5400 :=
    Pairs.snoc hhour (List.cons_ne_nil '3' ['0']) (by simp) (by decide) (rfl : unitSecs 'm' = some 60)
  rw [← htext] at hhalf
  exact .units (by rw [htext]; decide) hhalf

/-- A row with an interval of an hour and a half is migrated exactly. -/
theorem legacy_intervals_hour_and_half :
    MigratesExactly .umlaut
      (.map [("schedules", .option (some (.seq [.map [("name", .string "hydrate"), ("interval", .string "1h30m")]])))]) := by
  refine (legacy_intervals_iff .umlaut).2 _ ?_
  intro row hrow _ s hs
  obtain rfl := List.mem_singleton.mp hrow
  obtain rfl : "1h30m" = s := Option.some.inj hs
  refine ((legacy_intervals_iff .umlaut).1 "1h30m").mp fun b => ?_
  refine ⟨some 5400, by cases b <;> decide +kernel, fun n hn => ?_⟩
  obtain rfl := Option.some.inj hn
  exact hour_and_half

/-- The half hour without a unit is dropped, a negative hour is added up, and a number of hours is out of range. -/
theorem trailing_digits_dropped :
    parseIntervalLegacy .release .umlaut "1h30" = .ok (some 3600) ∧ ¬ Legacy .umlaut "1h30" 3600 ∧
      parseIntervalLegacy .release .umlaut "-1:90" = .ok (some 1800) ∧ ¬ Legacy .umlaut "-1:90" 1800 ∧
      parseIntervalLegacy .dev .umlaut "9223372036854775807h" = .error .overflow := by
  refine ⟨by decide +kernel, fun hlegacy => ?_, by decide +kernel, fun hlegacy => ?_, by decide +kernel⟩
  · obtain ⟨-, hpairs⟩ := (legacy_units_iff (by decide +kernel)).mp hlegacy
    have hlast : (LowerTable.umlaut.toLowercase (trim "1h30")).toList.getLast? = some '0' := by decide +kernel
    exact absurd (hpairs.last hlast) (by decide)
  · have htext : (trim "-1:90").toList = ['-', '1'] ++ ':' :: ['9', '0'] := by decide +kernel
    have hform := (legacy_clock_iff (h := -1) (m := 90) htext (by rfl) (by rfl)).mp hlegacy
    omega

end Twitch1337.Dashboard
