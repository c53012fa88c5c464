import Twitch1337.Bot.Util

/-!
# Durations and their grammar

A duration is a row of numbers with units. The products and the sum are not checked, so that a row whose sum does not fit stops one
build and is wrong in the other.
-/

namespace Twitch1337.Util

open Text Decimal

/-! ## The grammar -/

/-- A text is a row of numbers, each with its unit; of a unit, the seconds. -/
inductive Reads : Text → List (Nat × Nat) → Prop
  | nil : Reads [] []
  | pair {digits : Text} {unit : Char} {number secs : Nat} {rest : Text} {row : List (Nat × Nat)}
      (hdigits : readNat digits = some number) (hunit : unitSecs unit = some secs) (hrest : Reads rest row) :
      Reads (digits ++ unit :: rest) ((number, secs) :: row)

/-- The seconds of a row. -/
def seconds (row : List (Nat × Nat)) : Nat := (row.map fun pair => pair.1 * pair.2).sum

@[simp] theorem seconds_nil : seconds [] = 0 := rfl

@[simp] theorem seconds_cons (number secs : Nat) (row : List (Nat × Nat)) :
    seconds ((number, secs) :: row) = number * secs + seconds row := rfl

/-- The numbers of a row fit in 64 bits. -/
def Small (row : List (Nat × Nat)) : Prop := ∀ pair ∈ row, pair.1 < 2 ^ 64

theorem small_cons {number secs : Nat} {row : List (Nat × Nat)} :
    Small ((number, secs) :: row) ↔ number < 2 ^ 64 ∧ Small row := List.forall_mem_cons

theorem unitSecs_of_isDigit {c : Char} (h : c.isDigit = true) : unitSecs c = none := by
  have hascii : c.toNat < 128 := RustStr.ascii_of_isAlphanum (RustStr.isAlphanum_of_isDigit h)
  revert h
  exact RustStr.ascii_induction (P := fun c => c.isDigit = true → unitSecs c = none) (by decide) hascii

theorem not_isDigit_of_unit {unit : Char} {secs : Nat} (h : unitSecs unit = some secs) : unit.isDigit = false := by
  by_contra hdigit
  rw [unitSecs_of_isDigit (by simpa using hdigit)] at h
  cases h

/-- Where the first number ends is not in doubt. -/
theorem pair_unique {digits digits' : Text} {unit unit' : Char} {rest rest' : Text}
    (hd : ∀ c ∈ digits, c.isDigit = true) (hd' : ∀ c ∈ digits', c.isDigit = true)
    (hu : unit.isDigit = false) (hu' : unit'.isDigit = false)
    (h : digits ++ unit :: rest = digits' ++ unit' :: rest') : digits = digits' ∧ unit = unit' ∧ rest = rest' := by
  have htake : ∀ {d : Text} {u : Char} (r : Text), (∀ c ∈ d, c.isDigit = true) → u.isDigit = false →
      (d ++ u :: r).takeWhile Char.isDigit = d := by
    intro d u r hd hu
    rw [List.takeWhile_append_of_pos hd, List.takeWhile_cons_of_neg (by simp [hu]), List.append_nil]
  obtain rfl : digits = digits' := by
    rw [← htake rest hd hu, h, htake rest' hd' hu']
  have htail := List.append_cancel_left h
  rw [List.cons.injEq] at htail
  exact ⟨rfl, htail⟩

/-- Behind a row comes the rest of every row that the text is. -/
theorem Reads.rest {t : Text} {row all : List (Nat × Nat)} {rest : Text} (h : Reads t row) (hall : Reads (t ++ rest) all) :
    ∃ more, all = row ++ more ∧ Reads rest more := by
  induction h generalizing all with
  | nil => exact ⟨all, rfl, hall⟩
  | @pair digits unit number secs tail row hdigits hunit _ ih =>
    generalize hwhole : digits ++ unit :: tail ++ rest = whole at hall
    rw [List.append_assoc, List.cons_append] at hwhole
    cases hall with
    | nil => simp at hwhole
    | pair hdigits' hunit' hrest' =>
      obtain ⟨rfl, rfl, rfl⟩ := pair_unique (digits_of_readNat hdigits) (digits_of_readNat hdigits')
        (not_isDigit_of_unit hunit) (not_isDigit_of_unit hunit') hwhole
      obtain rfl := Option.some.inj (hdigits.symm.trans hdigits')
      obtain rfl := Option.some.inj (hunit.symm.trans hunit')
      obtain ⟨more, rfl, hmore⟩ := ih hrest'
      exact ⟨more, rfl, hmore⟩

/-! ## The loop -/

variable {b : Build}

theorem durationLoop_digits {digits : Text} (h : ∀ c ∈ digits, c.isDigit = true) (total : Nat) (num rest : Text) :
    durationLoop b total num (digits ++ rest) = durationLoop b total (num ++ digits) rest := by
  induction digits generalizing num with
  | nil => simp
  | cons c digits ih =>
    rw [List.cons_append, durationLoop, if_pos (h c List.mem_cons_self), ih fun d hd => h d (List.mem_cons_of_mem _ hd)]
    simp

/-- One pair: its product and the new sum have to fit. -/
theorem durationLoop_pair {digits : Text} {unit : Char} {number secs : Nat} (hdigits : readNat digits = some number)
    (hunit : unitSecs unit = some secs) (hsmall : number < 2 ^ 64) (total : Nat) (rest : Text) :
    durationLoop b total [] (digits ++ unit :: rest) = (do
      let product ← b.u64 (number * secs)
      let total ← b.u64 (total + product)
      durationLoop b total [] rest) := by
  have hread : readU64 digits = some number := by
    rw [readU64_of_digits (digits_of_readNat hdigits), hdigits, Option.filter_some, if_pos (decide_eq_true hsmall)]
  rw [durationLoop_digits (digits_of_readNat hdigits), List.nil_append, durationLoop, not_isDigit_of_unit hunit, hunit]
  simp only [hread, Bool.false_eq_true, if_false]

theorem durationLoop_pair_fits {digits : Text} {unit : Char} {number secs : Nat} (hdigits : readNat digits = some number)
    (hunit : unitSecs unit = some secs) (hsmall : number < 2 ^ 64) {total : Nat} (hfits : total + number * secs < 2 ^ 64)
    (rest : Text) :
    durationLoop b total [] (digits ++ unit :: rest) = durationLoop b (total + number * secs) [] rest := by
  have hproduct : b.u64 (number * secs) = .ok (number * secs) := Build.u64_of_fits (by omega) b
  have hsum : b.u64 (total + number * secs) = .ok (total + number * secs) := Build.u64_of_fits hfits b
  rw [durationLoop_pair hdigits hunit hsmall, hproduct]
  change (b.u64 (total + number * secs) >>= _) = _
  rw [hsum]
  rfl

theorem durationLoop_pair_overflow {digits : Text} {unit : Char} {number secs : Nat} (hdigits : readNat digits = some number)
    (hunit : unitSecs unit = some secs) (hsmall : number < 2 ^ 64) {total : Nat} (hover : 2 ^ 64 ≤ total + number * secs)
    (rest : Text) : durationLoop .dev total [] (digits ++ unit :: rest) = .error .overflow := by
  rw [durationLoop_pair hdigits hunit hsmall]
  by_cases hproduct : number * secs < 2 ^ 64
  · rw [Build.u64_of_fits hproduct]
    change (Build.dev.u64 (total + number * secs) >>= _) = _
    rw [u64_dev (by omega)]
    rfl
  · rw [u64_dev hproduct]
    rfl

/-- A row whose sum fits is added up. -/
theorem durationLoop_row {t : Text} {row : List (Nat × Nat)} (h : Reads t row) (hsmall : Small row) {total : Nat}
    (hfits : total + seconds row < 2 ^ 64) (rest : Text) :
    durationLoop b total [] (t ++ rest) = durationLoop b (total + seconds row) [] rest := by
  induction h generalizing total with
  | nil => rfl
  | @pair digits unit number secs tail row hdigits hunit _ ih =>
    obtain ⟨hnumber, hrow⟩ := small_cons.mp hsmall
    rw [seconds_cons] at hfits ⊢
    rw [List.append_assoc, List.cons_append, durationLoop_pair_fits hdigits hunit hnumber (by omega), ih hrow (by omega),
      Nat.add_assoc]

/-- With overflow checks, a row whose sum does not fit stops the program. -/
theorem durationLoop_overflow {t : Text} {row : List (Nat × Nat)} (h : Reads t row) (hsmall : Small row) {total : Nat}
    (htotal : total < 2 ^ 64) (hover : 2 ^ 64 ≤ total + seconds row) (rest : Text) :
    durationLoop .dev total [] (t ++ rest) = .error .overflow := by
  induction h generalizing total with
  | nil => exact absurd hover (by simpa using htotal)
  | @pair digits unit number secs tail row hdigits hunit _ ih =>
    obtain ⟨hnumber, hrow⟩ := small_cons.mp hsmall
    rw [seconds_cons] at hover
    rw [List.append_assoc, List.cons_append]
    by_cases hsum : total + number * secs < 2 ^ 64
    · rw [durationLoop_pair_fits hdigits hunit hnumber hsum, ih hrow hsum (by omega)]
    · exact durationLoop_pair_overflow hdigits hunit hnumber (by omega) _

/-! ## Where the loop stops -/

/-- No number of 64 bits with a unit is at the front. -/
def Stuck (t : Text) : Prop :=
  ∀ digits unit rest number secs, t = digits ++ unit :: rest → readNat digits = some number → unitSecs unit = some secs →
    2 ^ 64 ≤ number

/-- Every text is a row and what the loop does not get past. -/
theorem exists_row (t : Text) : ∃ front row rest, t = front ++ rest ∧ Reads front row ∧ Small row ∧ Stuck rest := by
  induction hn : t.length using Nat.strong_induction_on generalizing t with
  | _ n ih =>
    by_cases hstuck : Stuck t
    · exact ⟨[], [], t, rfl, .nil, by simp [Small], hstuck⟩
    · simp only [Stuck, not_forall, Nat.not_le] at hstuck
      obtain ⟨digits, unit, rest, number, secs, rfl, hdigits, hunit, hsmall⟩ := hstuck
      obtain ⟨front, row, rest', rfl, hfront, hrow, hrest⟩ := ih rest.length (by simp at hn; omega) rest rfl
      exact ⟨digits ++ unit :: front, (number, secs) :: row, rest', by simp, .pair hdigits hunit hfront,
        small_cons.mpr ⟨hsmall, hrow⟩, hrest⟩

/-- There the loop ends, with the sum when nothing is left. -/
theorem durationLoop_of_stuck {t : Text} (h : Stuck t) (total : Nat) :
    durationLoop b total [] t = .ok (if t = [] ∧ total ≠ 0 then some total else none) := by
  have hsplit := (List.takeWhile_append_dropWhile (p := Char.isDigit) (l := t)).symm
  have hdigits : ∀ c ∈ t.takeWhile Char.isDigit, c.isDigit = true := fun c hc => List.mem_takeWhile_imp hc
  generalize t.takeWhile Char.isDigit = digits at hsplit hdigits
  cases hrest : t.dropWhile Char.isDigit with
  | nil =>
    rw [hrest, List.append_nil] at hsplit
    subst hsplit
    have := durationLoop_digits (b := b) hdigits total [] []
    rw [List.append_nil, List.nil_append] at this
    rw [this, durationLoop]
    cases t <;> by_cases htotal : total = 0 <;> simp [htotal]
  | cons unit rest =>
    have hunit : unit.isDigit = false := by
      have := List.head_dropWhile_not Char.isDigit (l := t) (by simp [hrest])
      simpa [hrest] using this
    rw [hrest] at hsplit
    rw [if_neg (by simp [hsplit]), hsplit, durationLoop_digits hdigits, List.nil_append, durationLoop, hunit]
    cases hsecs : unitSecs unit with
    | none => rfl
    | some secs =>
      have hread : readU64 digits = none := by
        rw [readU64_of_digits hdigits, Option.filter_eq_none_iff]
        intro number hnumber
        have := h digits unit rest number secs hsplit hnumber hsecs
        simpa using this
      simp only [hread, Bool.false_eq_true, if_false]

/-! ## What is accepted -/

/-- A duration is accepted if and only if it is a row with a positive sum that fits, as that sum, and in no build does the program
stop or count wrong. -/
def ReadsExactly (s : Text) : Prop :=
  ∀ b : Build, ∃ r, parseFlightDuration b s = .ok r ∧
    ∀ d, r = some d ↔ (∃ row, Reads (RustStr.trimChars s) row ∧ seconds row = d) ∧ 0 < d ∧ d < 2 ^ 64

/-- Every row at the front of the text, of numbers that fit, has a sum that fits. -/
def FrontFits (s : Text) : Prop :=
  ∀ front row, front <+: RustStr.trimChars s → Reads front row → Small row → seconds row < 2 ^ 64

theorem parseFlightDuration_eq (s : Text) : parseFlightDuration b s = durationLoop b 0 [] (RustStr.trimChars s) := by
  rw [parseFlightDuration]
  split
  · rename_i h
    rw [List.isEmpty_iff.mp h]
    rfl
  · rfl

/-- A text that starts with a row and goes on with what the loop does not get past is a row with a sum that fits only if that is
all of it. -/
theorem Stuck.row_eq {front rest : Text} {row all : List (Nat × Nat)} (hrest : Stuck rest) (hfront : Reads front row)
    (hall : Reads (front ++ rest) all) (hfits : seconds all < 2 ^ 64) : rest = [] ∧ all = row := by
  obtain ⟨more, rfl, hmore⟩ := hfront.rest hall
  cases hmore with
  | nil => simp
  | @pair digits unit number secs rest more hdigits hunit _ =>
    exfalso
    have hbig := hrest digits unit rest number secs rfl hdigits hunit
    have hsecs : 1 ≤ secs := by
      unfold unitSecs at hunit
      split at hunit <;> simp_all <;> omega
    have hproduct : number * 1 ≤ number * secs := Nat.mul_le_mul_left number hsecs
    have hsum : seconds (row ++ (number, secs) :: more) = seconds row + (number * secs + seconds more) := by
      simp [seconds]
    omega

/-- The grammar is met where no row at the front of the text has a sum that does not fit. -/
theorem readsExactly_iff (s : Text) : ReadsExactly s ↔ FrontFits s := by
  constructor
  · intro h front row hfront hrow hsmall
    by_contra hover
    obtain ⟨rest, hrest⟩ := hfront
    obtain ⟨r, hr, -⟩ := h .dev
    rw [parseFlightDuration_eq, ← hrest, durationLoop_overflow hrow hsmall (by decide) (by omega)] at hr
    cases hr
  · intro h b
    obtain ⟨front, row, rest, hsplit, hfront, hsmall, hstuck⟩ := exists_row (RustStr.trimChars s)
    have hfits := h front row ⟨rest, hsplit.symm⟩ hfront hsmall
    refine ⟨if rest = [] ∧ seconds row ≠ 0 then some (seconds row) else none, ?_, ?_⟩
    · rw [parseFlightDuration_eq, hsplit, durationLoop_row hfront hsmall (by omega), Nat.zero_add, durationLoop_of_stuck hstuck]
    · intro d
      rw [hsplit]
      constructor
      · intro hd
        split at hd
        · rename_i hend
          obtain rfl := Option.some.inj hd
          exact ⟨⟨row, by rw [hend.1, List.append_nil]; exact hfront, rfl⟩, Nat.pos_of_ne_zero hend.2, hfits⟩
        · cases hd
      · rintro ⟨⟨all, hall, rfl⟩, hpos, hlt⟩
        obtain ⟨rfl, rfl⟩ := hstuck.row_eq hfront hall hlt
        rw [if_pos ⟨rfl, by omega⟩]

/-- An hour count of 64 bits whose seconds do not fit. -/
theorem not_readsExactly : ¬ ReadsExactly "5124095576030432h".toList := by
  intro h
  obtain ⟨r, hr, -⟩ := h .dev
  have hstop : parseFlightDuration .dev "5124095576030432h".toList = .error .overflow := by decide +kernel
  rw [hstop] at hr
  cases hr

end Twitch1337.Util
