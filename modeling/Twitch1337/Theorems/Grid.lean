import Mathlib.Algebra.Order.Ring.Int
import Mathlib.Data.Int.LeastGreatest
import Mathlib.Order.Bounds.Basic
import Twitch1337.Schedule.Trigger

/-!
# The grid of an interval

An interval trigger fires on the grid that starts at every midnight. The slots it scans are counted from the midnight of the
date it is asked on, and carried over the midnights after it. So it hits the grid exactly when those midnights lie on it.
-/

namespace Twitch1337.Schedules

open Chrono

/-! ## The grid -/

/-- An instant lies a whole number of intervals from the midnight of its own date. -/
def OnGrid (Z : Zone) (every : Duration) (t : Instant) : Prop :=
  ∃ start, dayStart Z (Z.date t) = some start ∧ seconds every.secs.toNat ∣ t - start

/-- The instants at which an interval trigger is to fire. -/
structure Fires (Z : Zone) (every : Duration) (days : WeekdaySet) (activeFrom activeTo : Option NaiveTime) (t : Instant) :
    Prop where
  instant : inRange t
  grid : OnGrid Z every t
  eligible : eligible Z days activeFrom activeTo t = true

/-- What is documented of a time zone: a day starts at an instant, and the day of a later instant starts no earlier. -/
structure Zone.Lawful (Z : Zone) : Prop where
  inRange : ∀ date start, dayStart Z date = some start → inRange start
  ordered : ∀ t t' start start', t ≤ t' → dayStart Z (Z.date t) = some start → dayStart Z (Z.date t') = some start' →
    start ≤ start'

/-! ## Slots -/

variable {Z : Zone} {every : Duration} {days : WeekdaySet} {activeFrom activeTo : Option NaiveTime}

/-- The slot a scan begins with. -/
def firstSlot (now start : Instant) (everySecs : Int) : Int :=
  ((max (numSeconds (now - start)) 0).tdiv everySecs + 1) * everySecs

/-- The next slot of an interval, from the start of the day on. -/
theorem nextInterval_eq (Z : Zone) (now : Instant) (every : Duration) (days : WeekdaySet)
    (activeFrom activeTo : Option NaiveTime) :
    nextInterval Z now every days activeFrom activeTo =
      (dayStart Z (Z.date now)).bind fun start =>
        scanSlots Z days activeFrom activeTo start every.secsI64 maxSlots (firstSlot now start every.secsI64) := rfl

/-- Seconds that can be added are. -/
theorem addSeconds_eq_some {t u : Instant} {secs : Int} (h : addSeconds t secs = some u) : u = t + seconds secs := by
  unfold addSeconds at h
  split at h
  · exact (Option.some.inj h).symm
  · cases h

theorem seconds_add (a b : Int) : seconds (a + b) = seconds a + seconds b := Int.add_mul a b _

/-- They can when the sum is in range. -/
theorem addSeconds_of_inRange {t : Instant} {secs : Int} (h : inRange (t + seconds secs)) :
    addSeconds t secs = some (t + seconds secs) :=
  if_pos h

/-- A scan ends at the first of its slots that is eligible, or after the last, when there are instants up to it. -/
theorem scanSlots_eq_some {start r : Instant} {e : Int} {n : Nat} {slot : Int} :
    scanSlots Z days activeFrom activeTo start e n slot = some r ↔
      ∃ k : Nat, k ≤ n ∧ r = start + seconds (slot + k * e) ∧ inRange r ∧
        (k = n ∨ eligible Z days activeFrom activeTo r = true) ∧
        ∀ i < k, inRange (start + seconds (slot + i * e)) ∧
          eligible Z days activeFrom activeTo (start + seconds (slot + i * e)) = false := by
  have hzero : ∀ slot : Int, slot + ((0 : Nat) : Int) * e = slot := by simp
  have hshift : ∀ (slot : Int) (i : Nat), slot + ((i + 1 : Nat) : Int) * e = slot + e + i * e := by
    intro slot i
    rw [Nat.cast_add, Nat.cast_one, Int.add_mul, Int.one_mul]
    omega
  induction n generalizing slot with
  | zero =>
    constructor
    · intro h
      obtain rfl := addSeconds_eq_some h
      refine ⟨0, le_rfl, by rw [hzero], ?_, .inl rfl, by simp⟩
      unfold scanSlots addSeconds at h
      split at h
      · assumption
      · cases h
    · rintro ⟨k, hk, rfl, hin, -, -⟩
      obtain rfl := Nat.le_zero.mp hk
      rw [hzero] at hin ⊢
      exact addSeconds_of_inRange hin
  | succ n ih =>
    rw [scanSlots]
    by_cases hin : inRange (start + seconds slot)
    · rw [addSeconds_of_inRange hin, Option.bind_some]
      cases helig : eligible Z days activeFrom activeTo (start + seconds slot) with
      | true =>
        rw [if_pos rfl]
        constructor
        · intro h
          obtain rfl := Option.some.inj h
          exact ⟨0, Nat.zero_le _, by rw [hzero], hin, .inr helig, by simp⟩
        · rintro ⟨k, -, rfl, -, -, hskip⟩
          cases k with
          | zero => rw [hzero]
          | succ k =>
            have hfirst := (hskip 0 (Nat.zero_lt_succ k)).2
            rw [hzero, helig] at hfirst
            cases hfirst
      | false =>
        rw [if_neg Bool.false_ne_true]
        refine (@ih (slot + e)).trans ?_
        constructor
        · rintro ⟨k, hk, hr, hrin, hend, hskip⟩
          refine ⟨k + 1, Nat.succ_le_succ hk, by rw [hr, hshift], hrin, ?_, ?_⟩
          · exact hend.imp_left fun h => by rw [h]
          · intro i hi
            cases i with
            | zero =>
              rw [hzero]
              exact ⟨hin, helig⟩
            | succ i =>
              rw [hshift]
              exact hskip i (Nat.lt_of_succ_lt_succ hi)
        · rintro ⟨k, hk, hr, hrin, hend, hskip⟩
          cases k with
          | zero =>
            rw [hzero] at hr
            rw [hr, helig] at hend
            rcases hend with h | h <;> cases h
          | succ k =>
            refine ⟨k, Nat.le_of_succ_le_succ hk, by rw [hr, hshift], hrin, ?_, ?_⟩
            · exact hend.imp_left Nat.succ.inj
            · intro i hi
              rw [← hshift]
              exact hskip (i + 1) (Nat.succ_lt_succ hi)
    · rw [addSeconds, if_neg hin, Option.bind_none]
      constructor
      · intro h
        cases h
      · rintro ⟨k, -, hr, hrin, -, hskip⟩
        cases k with
        | zero =>
          rw [hzero] at hr
          exact absurd (hr ▸ hrin) hin
        | succ k =>
          have hfirst := (hskip 0 (Nat.zero_lt_succ k)).1
          rw [hzero] at hfirst
          exact absurd hfirst hin

/-- The elapsed seconds are those of the difference, or none. -/
theorem elapsed_cases (d : Int) :
    (0 ≤ d ∧ max (numSeconds d) 0 = d / 1000000000) ∨ (d < 0 ∧ max (numSeconds d) 0 = 0) := by
  by_cases hd : 0 ≤ d
  · left
    rw [numSeconds, Int.tdiv_eq_ediv_of_nonneg hd]
    omega
  · right
    have hneg : numSeconds d ≤ 0 := by
      have h : 0 ≤ (-d).tdiv 1000000000 := Int.tdiv_nonneg (by omega) (by omega)
      rw [Int.neg_tdiv] at h
      rw [numSeconds]
      omega
    omega

/-- A positive slot lies after an instant when it exceeds the elapsed seconds. -/
theorem lt_slot_iff {now start : Instant} {F : Int} (hF : 0 < F) :
    now < start + seconds F ↔ max (numSeconds (now - start)) 0 < F := by
  rcases elapsed_cases (now - start) with ⟨hd, hE⟩ | ⟨hd, hE⟩
  · rw [hE]
    unfold seconds Instant
    omega
  · rw [hE]
    unfold seconds Instant
    omega

/-- The first slot is the first multiple of the interval that lies after the instant asked about. -/
theorem firstSlot_spec (now start : Instant) {e : Int} (he : 0 < e) :
    (∃ j : Int, 1 ≤ j ∧ firstSlot now start e = j * e) ∧ now < start + seconds (firstSlot now start e) ∧
      ∀ j : Int, 1 ≤ j → now < start + seconds (j * e) → firstSlot now start e ≤ j * e := by
  have hE₀ : 0 ≤ max (numSeconds (now - start)) 0 := le_max_right _ _
  have hpos : ∀ j : Int, 1 ≤ j → 0 < j * e := fun j hj => Int.mul_pos (by omega) he
  have hfirst : firstSlot now start e = (max (numSeconds (now - start)) 0 / e + 1) * e := by
    rw [firstSlot, Int.tdiv_eq_ediv_of_nonneg hE₀]
  have hq : 0 ≤ max (numSeconds (now - start)) 0 / e := Int.ediv_nonneg hE₀ (by omega)
  rw [hfirst]
  refine ⟨⟨_, by omega, rfl⟩, ?_, fun j hj hnow => ?_⟩
  · rw [lt_slot_iff (hpos _ (by omega))]
    exact Int.lt_ediv_add_one_mul_self _ he
  · rw [lt_slot_iff (hpos j hj)] at hnow
    refine Int.mul_le_mul_of_nonneg_right ?_ (by omega)
    have hdiv : max (numSeconds (now - start)) 0 / e < j := Int.ediv_lt_of_lt_mul he hnow
    omega

/-! ## Intervals that fit -/

/-- Seconds that fit are kept. -/
theorem secsI64_of_lt {d : Duration} (h : d.secs.toNat < 2 ^ 63) : d.secsI64 = d.secs.toNat := if_pos h

/-- An interval beyond the `i64` turns negative. -/
theorem secsI64_neg {d : Duration} (h : ¬ d.secs.toNat < 2 ^ 63) : d.secsI64 < 0 := by
  have hlt : d.secs.toNat < 2 ^ 64 := d.secs.toNat_lt
  rw [Duration.secsI64, if_neg h]
  omega

/-- With a negative interval every slot lies before the elapsed seconds. -/
theorem slot_neg (now start : Instant) {e : Int} (he : e < 0) (k : Nat) :
    firstSlot now start e + k * e < max (numSeconds (now - start)) 0 := by
  have hE₀ : 0 ≤ max (numSeconds (now - start)) 0 := le_max_right _ _
  have hq : (max (numSeconds (now - start)) 0).tdiv e * e ≤ max (numSeconds (now - start)) 0 := by
    have hmod := Int.tdiv_mul_add_tmod (max (numSeconds (now - start)) 0) e
    have hrest := Int.tmod_nonneg e hE₀
    omega
  have hk : (k : Int) * e ≤ 0 := Int.mul_nonpos_of_nonneg_of_nonpos (by omega) (by omega)
  rw [firstSlot, Int.add_mul, Int.one_mul]
  omega

/-- A valid interval lasts a minute at least. -/
theorem every_of_validate {R : Render} {s : Schedule} {pre : String}
    (htrigger : s.trigger = .interval every days activeFrom activeTo) (hvalid : s.validate R pre = []) :
    60 ≤ every.secs.toNat := by
  unfold Schedule.validate at hvalid
  rw [htrigger] at hvalid
  simp only [List.append_eq_nil_iff, Trigger.validate, errorIf] at hvalid
  obtain ⟨⟨-, hinterval, -⟩, -⟩ := hvalid
  by_contra hshort
  have hlt : every.secs < 60 := UInt64.lt_iff_toNat_lt.2 (by simpa using hshort)
  simp [hlt] at hinterval

/-! ## Fires on the grid, and midnights on it -/

/-- The trigger fires next at the first instant of the grid, whenever it is asked before that, if the grid has an instant in
the fourteen days to come. -/
def FiresOnGrid (Z : Zone) (every : Duration) (days : WeekdaySet) (activeFrom activeTo : Option NaiveTime) (now : Instant) :
    Prop :=
  (∃ g, Fires Z every days activeFrom activeTo g ∧ now < g ∧ g ≤ now + seconds (14 * 86400)) →
    ∃ next, (Trigger.interval every days activeFrom activeTo).nextFireAfter Z now = some (.ofInstant next) ∧
      IsLeast {g | Fires Z every days activeFrom activeTo g ∧ now < g} next ∧
      ∀ now', now ≤ now' → now' < next →
        (Trigger.interval every days activeFrom activeTo).nextFireAfter Z now' = some (.ofInstant next)

/-- The interval divides the time from one midnight to the next: on every date from now to the next instant of the grid, the
day starts before that instant, and a whole number of intervals before the day of that instant. -/
def MidnightsOnGrid (Z : Zone) (every : Duration) (days : WeekdaySet) (activeFrom activeTo : Option NaiveTime)
    (now : Instant) : Prop :=
  ∀ g last, IsLeast {g | Fires Z every days activeFrom activeTo g ∧ now < g} g → g ≤ now + seconds (14 * 86400) →
    dayStart Z (Z.date g) = some last → ∀ t, now ≤ t → t < g →
      ∃ start, dayStart Z (Z.date t) = some start ∧ start < g ∧ seconds every.secs.toNat ∣ last - start

/-! ## From the midnights to the fires -/

theorem seconds_mul (e j : Int) : seconds e * j = seconds (j * e) := by
  rw [seconds, seconds, Int.mul_right_comm, Int.mul_comm e j]

/-- What is between two times in range is. -/
theorem inRange_between {t u v : Instant} (ht : inRange t) (hv : inRange v) (htu : t ≤ u) (huv : u ≤ v) : inRange u :=
  ⟨ht.1.trans htu, huv.trans_lt hv.2⟩

/-- A multiple of the interval after the start of a day is a slot of that day. -/
theorem slot_of_dvd {start g : Instant} {e : Int} (he : 0 < e) (hdvd : seconds e ∣ g - start) (hlt : start < g) :
    ∃ j : Int, 1 ≤ j ∧ g = start + seconds (j * e) := by
  obtain ⟨j, hj⟩ := hdvd
  refine ⟨j, ?_, ?_⟩
  · by_contra hneg
    have hle : seconds e * j ≤ 0 :=
      Int.mul_nonpos_of_nonneg_of_nonpos (Int.mul_nonneg (by omega) (by omega)) (by omega)
    have hpos : 0 < g - start := Int.sub_pos_of_lt hlt
    rw [hj] at hpos
    exact absurd hpos (not_lt_of_ge hle)
  · rw [← seconds_mul, ← hj, Int.add_comm, Int.sub_add_cancel]

/-- The interval of a slot that is an instant fits an `i64`. -/
theorem every_lt_of_slot {start g : Instant} {e j : Int} (hs : inRange start) (hg : inRange g) (hj : 1 ≤ j) (he : 0 ≤ e)
    (h : g = start + seconds (j * e)) : e < 2 ^ 63 := by
  have hle : 1 * e ≤ j * e := Int.mul_le_mul_of_nonneg_right hj he
  obtain ⟨hs, -⟩ := hs
  obtain ⟨-, hg⟩ := hg
  unfold seconds Instant at *
  omega

/-- Whenever it is asked before it, the trigger hits the first instant of the grid, when the interval divides the times
between the midnights up to it. -/
theorem nextInterval_of_midnights (hZ : Z.Lawful) (hevery : 60 ≤ every.secs.toNat) {now g last t : Instant}
    (hnow : inRange now) (hleast : IsLeast {g | Fires Z every days activeFrom activeTo g ∧ now < g} g)
    (hfar : g ≤ now + seconds (14 * 86400)) (hlast : dayStart Z (Z.date g) = some last)
    (hmid : ∀ t, now ≤ t → t < g →
      ∃ start, dayStart Z (Z.date t) = some start ∧ start < g ∧ seconds every.secs.toNat ∣ last - start)
    (ht : now ≤ t) (htg : t < g) : nextInterval Z t every days activeFrom activeTo = some g := by
  obtain ⟨⟨hfires, -⟩, hmin⟩ := hleast
  obtain ⟨last', hlast', hgrid⟩ := hfires.grid
  obtain rfl : last = last' := Option.some.inj (hlast.symm.trans hlast')
  have hdvd : ∀ {start}, seconds every.secs.toNat ∣ last - start → seconds every.secs.toNat ∣ g - start := by
    intro start h
    rw [← sub_add_sub_cancel g last start]
    exact Int.dvd_add hgrid h
  obtain ⟨start, hstart, hlt, hd⟩ := hmid t ht htg
  obtain ⟨j, hj, hslot⟩ := slot_of_dvd (by omega) (hdvd hd) hlt
  have hfits := every_lt_of_slot (hZ.inRange _ _ hstart) hfires.instant hj (by omega) hslot
  have he : every.secsI64 = every.secs.toNat := secsI64_of_lt (by omega)
  rw [nextInterval_eq, hstart, Option.bind_some, he]
  generalize hE : (every.secs.toNat : Int) = e at *
  obtain ⟨⟨j₀, hj₀, hfirst⟩, hafter, hfirstMin⟩ := firstSlot_spec t start (e := e) (by omega)
  have hle := hfirstMin j hj (hslot ▸ htg)
  rw [hfirst] at hafter hle ⊢
  obtain ⟨k, rfl⟩ : ∃ k : Nat, j = j₀ + k := by
    have hj₀j : j₀ ≤ j := Int.le_of_mul_le_mul_right hle (by omega)
    exact ⟨(j - j₀).toNat, by omega⟩
  rw [Int.add_mul] at hslot
  -- The slots up to `g` are instants after `t`, a whole number of intervals before `g`.
  have hslots : ∀ i ≤ k, t < start + seconds (j₀ * e + i * e) ∧ start + seconds (j₀ * e + i * e) ≤ g := by
    intro i hi
    have hpos : 0 ≤ (i : Int) * e := Int.mul_nonneg (by omega) (by omega)
    have hik : (i : Int) * e ≤ k * e := Int.mul_le_mul_of_nonneg_right (by omega) (by omega)
    rw [hslot]
    unfold seconds Instant at *
    omega
  have hin : ∀ i ≤ k, inRange (start + seconds (j₀ * e + i * e)) := fun i hi =>
    inRange_between hnow hfires.instant (ht.trans (hslots i hi).1.le) (hslots i hi).2
  rw [hslot]
  refine scanSlots_eq_some.mpr ⟨k, ?_, rfl, hin k le_rfl, .inr (hslot ▸ hfires.eligible), fun i hi => ⟨hin i hi.le, ?_⟩⟩
  · have hk : (k : Int) * 60 ≤ k * e := Int.mul_le_mul_of_nonneg_left (by omega) (by omega)
    have hmax : maxSlots = 20160 := rfl
    unfold seconds Instant at *
    omega
  · -- An eligible slot before `g` would be on the grid as well.
    have hlti : start + seconds (j₀ * e + i * e) < g := by
      have hik : ((i : Int) + 1) * e ≤ k * e := Int.mul_le_mul_of_nonneg_right (by omega) (by omega)
      rw [Int.add_mul, Int.one_mul] at hik
      rw [hslot]
      unfold seconds Instant at *
      omega
    obtain ⟨starti, hstarti, -, hdi⟩ := hmid _ (ht.trans (hslots i hi.le).1.le) hlti
    have hgap : seconds e ∣ g - (start + seconds (j₀ * e + i * e)) := by
      refine ⟨k - i, ?_⟩
      rw [hslot, seconds_mul, Int.sub_mul]
      unfold seconds Instant
      omega
    have hgrid : seconds e ∣ start + seconds (j₀ * e + i * e) - starti := by
      rw [← sub_sub_sub_cancel_left _ _ g]
      exact Int.dvd_sub (hdvd hdi) hgap
    by_contra helig
    rw [Bool.not_eq_false] at helig
    have hgi := hmin ⟨⟨hin i hi.le, ⟨starti, hstarti, hE ▸ hgrid⟩, helig⟩, ht.trans_lt (hslots i hi.le).1⟩
    exact absurd hlti (not_lt_of_ge hgi)

/-- A trigger that hits a grid instant, asked before it, does so from a day whose midnight the interval divides. -/
theorem midnights_of_nextInterval (hZ : Z.Lawful) (hevery : 60 ≤ every.secs.toNat) {g last t : Instant} (hg : inRange g)
    (hlast : dayStart Z (Z.date g) = some last) (hgrid : seconds every.secs.toNat ∣ g - last) (htg : t < g)
    (hnext : nextInterval Z t every days activeFrom activeTo = some g) :
    ∃ start, dayStart Z (Z.date t) = some start ∧ start < g ∧ seconds every.secs.toNat ∣ last - start := by
  rw [nextInterval_eq, Option.bind_eq_some_iff] at hnext
  obtain ⟨start, hstart, hscan⟩ := hnext
  obtain ⟨k, -, hk, -⟩ := scanSlots_eq_some.mp hscan
  by_cases hfits : every.secs.toNat < 2 ^ 63
  · rw [secsI64_of_lt hfits] at hk
    obtain ⟨⟨j, hj, hfirst⟩, -, -⟩ := firstSlot_spec t start (e := every.secs.toNat) (by omega)
    rw [hfirst, ← Int.add_mul] at hk
    refine ⟨start, hstart, ?_, ?_⟩
    · have hpos : 0 < (j + k) * (every.secs.toNat : Int) := Int.mul_pos (by omega) (by omega)
      rw [hk]
      unfold seconds Instant
      omega
    · rw [← sub_sub_sub_cancel_left _ _ g]
      refine Int.dvd_sub ⟨j + k, ?_⟩ hgrid
      rw [hk, seconds_mul, add_sub_cancel_left]
  · -- A negative interval only has slots before `t` or before the midnight of its day, but `g` is not before its own.
    exfalso
    have hneg := slot_neg t start (secsI64_neg hfits) k
    have hlr := hZ.inRange _ _ hlast
    have hord := hZ.ordered t g start last htg.le hstart hlast
    obtain ⟨m, hm⟩ := hgrid
    rw [seconds_mul] at hm
    have hmul : m * (every.secs.toNat : Int) ≤ -1 * every.secs.toNat ∨ 0 ≤ m * (every.secs.toNat : Int) := by
      by_cases hm₀ : 0 ≤ m
      · exact Or.inr (Int.mul_nonneg hm₀ (by omega))
      · exact Or.inl (Int.mul_le_mul_of_nonneg_right (by omega) (by omega))
    generalize firstSlot t start every.secsI64 + k * every.secsI64 = slot at hk hneg
    obtain ⟨-, hlr⟩ := hlr
    obtain ⟨hg, -⟩ := hg
    rcases elapsed_cases (t - start) with ⟨hd, hE⟩ | ⟨hd, hE⟩
    · unfold seconds Instant at *
      omega
    · unfold seconds Instant at *
      omega

/-! ## The exact condition -/

/-- Different instants are different points in time. -/
theorem ofInstant_injective {t u : Instant} (h : DateTime.ofInstant t = .ofInstant u) : t = u := by
  simp only [DateTime.ofInstant, DateTime.mk.injEq] at h
  unfold seconds Instant at *
  omega

/-- The next fire of an interval is its next slot. -/
theorem nextFireAfter_interval {now next : Instant} :
    (Trigger.interval every days activeFrom activeTo).nextFireAfter Z now = some (.ofInstant next) ↔
      nextInterval Z now every days activeFrom activeTo = some next := by
  rw [Trigger.nextFireAfter, Option.map_eq_some_iff]
  constructor
  · rintro ⟨t, ht, heq⟩
    rw [ht, ofInstant_injective heq]
  · intro h
    exact ⟨next, h, rfl⟩

/-- An interval trigger that passes validation fires on its grid exactly when its interval divides the times between the
midnights up to the next instant of the grid. -/
theorem fires_on_grid_iff_midnights_on_grid (hZ : Z.Lawful) (R : Render) (s : Schedule) (pre : String)
    (htrigger : s.trigger = .interval every days activeFrom activeTo) (hvalid : s.validate R pre = [])
    {now : Instant} (hnow : inRange now) :
    FiresOnGrid Z every days activeFrom activeTo now ↔ MidnightsOnGrid Z every days activeFrom activeTo now := by
  have hevery := every_of_validate htrigger hvalid
  constructor
  · intro hgrid g last hleast hfar hlast t ht htg
    obtain ⟨next, -, hnext, hstable⟩ := hgrid ⟨g, hleast.1.1, hleast.1.2, hfar⟩
    obtain rfl := hnext.unique hleast
    obtain ⟨hfires, -⟩ := hleast.1
    obtain ⟨last', hlast', hdvd⟩ := hfires.grid
    obtain rfl : last = last' := Option.some.inj (hlast.symm.trans hlast')
    exact midnights_of_nextInterval hZ hevery hfires.instant hlast hdvd htg (nextFireAfter_interval.mp (hstable t ht htg))
  · rintro hmid ⟨g₀, hfires₀, hlt₀, hfar₀⟩
    obtain ⟨g, hg, hmin⟩ := Int.exists_least_of_bdd (P := fun g => Fires Z every days activeFrom activeTo g ∧ now < g)
      ⟨now, fun g hg => hg.2.le⟩ ⟨g₀, hfires₀, hlt₀⟩
    have hleast : IsLeast {g | Fires Z every days activeFrom activeTo g ∧ now < g} g := ⟨hg, fun g' hg' => hmin g' hg'⟩
    have hfar : g ≤ now + seconds (14 * 86400) := (hmin g₀ ⟨hfires₀, hlt₀⟩).trans hfar₀
    obtain ⟨last, hlast, -⟩ := hg.1.grid
    have hhit : ∀ t, now ≤ t → t < g → nextInterval Z t every days activeFrom activeTo = some g := fun t ht htg =>
      nextInterval_of_midnights hZ hevery hnow hleast hfar hlast (fun t ht htg => hmid g last hleast hfar hlast t ht htg) ht htg
    exact ⟨g, nextFireAfter_interval.mpr (hhit now le_rfl hg.2), hleast,
      fun t ht htg => nextFireAfter_interval.mpr (hhit t ht htg)⟩

/-- A zone that is two hours ahead of UTC, as Berlin is in summer. -/
def summerTime : Zone := .fixed 7200

/-- The first second of a day. -/
theorem andTime_midnight (date : NaiveDate) : andTime date (.fromHms 0 0 0) = seconds (date * 86400) := by
  simp [andTime, NaiveTime.fromHms]

/-- A local time of a summer is two hours ahead. -/
theorem fromLocal_summerTime (secs : Int) : summerTime.fromLocal (seconds secs) =
    if inRange (seconds (secs - 7200)) then .single (seconds (secs - 7200)) else .none := by
  have hsub : seconds secs - seconds 7200 = seconds (secs - 7200) := (Int.sub_mul secs 7200 _).symm
  show (if inRange (seconds secs - seconds 7200) then _ else _) = _
  rw [hsub]

/-- A day of summer time starts at its midnight, or an hour later where that is no instant. -/
theorem dayStart_summerTime (date : NaiveDate) : dayStart summerTime date =
    if inRange (seconds (date * 86400 - 7200)) then some (seconds (date * 86400 - 7200))
    else if inRange (seconds (date * 86400 - 3600)) then some (seconds (date * 86400 - 3600)) else none := by
  have hadd : seconds (date * 86400) + seconds 3600 = seconds (date * 86400 + 3600) := (seconds_add _ _).symm
  have hsub : date * 86400 + 3600 - 7200 = date * 86400 - 3600 := add_sub_assoc (date * 86400) 3600 7200
  unfold dayStart
  simp only [andTime_midnight, fromLocal_summerTime, hadd, hsub]
  by_cases h₁ : inRange (seconds (date * 86400 - 7200))
  · rw [if_pos h₁, if_pos h₁]
  · rw [if_neg h₁, if_neg h₁]
    by_cases h₂ : inRange (seconds (date * 86400 - 3600))
    · rw [if_pos h₂, if_pos h₂]
      rfl
    · rw [if_neg h₂, if_neg h₂]
      rfl

/-- A day starts at midnight, or an hour later. -/
theorem dayStart_summerTime_cases {date : NaiveDate} {start : Instant} (h : dayStart summerTime date = some start) :
    inRange start ∧ (start = seconds (date * 86400 - 7200) ∨ start = seconds (date * 86400 - 3600)) := by
  rw [dayStart_summerTime] at h
  split at h
  · rename_i hin
    obtain rfl := Option.some.inj h
    exact ⟨hin, Or.inl rfl⟩
  · split at h
    · rename_i hin
      obtain rfl := Option.some.inj h
      exact ⟨hin, Or.inr rfl⟩
    · cases h

/-- It is lawful. -/
theorem lawful_summerTime : summerTime.Lawful := by
  refine ⟨fun date start h => (dayStart_summerTime_cases h).1, fun t t' start start' hle h h' => ?_⟩
  have hdate : summerTime.date t ≤ summerTime.date t' :=
    Int.ediv_le_ediv (by decide) (Int.add_le_add_right hle _)
  by_cases heq : summerTime.date t = summerTime.date t'
  · rw [heq, h'] at h
    exact (Option.some.inj h).ge
  · have hlt : summerTime.date t + 1 ≤ summerTime.date t' := Int.add_one_le_iff.2 (lt_of_le_of_ne hdate heq)
    obtain ⟨-, h⟩ := dayStart_summerTime_cases h
    obtain ⟨-, h'⟩ := dayStart_summerTime_cases h'
    generalize summerTime.date t = d at hlt h
    generalize summerTime.date t' = d' at hlt h'
    unfold seconds NaiveDate Instant at *
    omega

/-- A day of summer time that lies among the instants starts at its midnight. -/
theorem midnight_summerTime {t : Instant} (hbefore : inRange (t - seconds 86400)) (ht : inRange t) :
    ∃ date : Int, dayStart summerTime (summerTime.date t) = some (seconds (date * 86400 - 7200)) ∧
      seconds (date * 86400 - 7200) ≤ t := by
  have hdate : summerTime.date t = (t + seconds 7200) / seconds 86400 := rfl
  have hle : seconds (summerTime.date t * 86400 - 7200) ≤ t := by
    rw [hdate]
    unfold seconds Instant at *
    omega
  have hge : t - seconds 86400 ≤ seconds (summerTime.date t * 86400 - 7200) := by
    rw [hdate]
    unfold seconds Instant at *
    omega
  refine ⟨summerTime.date t, ?_, hle⟩
  rw [dayStart_summerTime, if_pos (inRange_between hbefore ht hge hle)]

/-- In summer time an hourly trigger has every midnight on its grid. -/
theorem midnights_hourly {nanos : UInt32} {now : Instant} (hbefore : inRange (now - seconds 86400)) :
    MidnightsOnGrid summerTime ⟨3600, nanos⟩ days activeFrom activeTo now := by
  intro g last hleast _ hlast t ht htg
  have hg := hleast.1.1.instant
  have hgap : now - seconds 86400 ≤ t := by
    unfold seconds Instant at *
    omega
  have hsub : ∀ {u : Instant}, now ≤ u → u ≤ g → inRange (u - seconds 86400) := by
    intro u hu hug
    refine inRange_between hbefore hg (Int.sub_le_sub_right hu _) ?_
    unfold seconds Instant at *
    omega
  obtain ⟨date, hstart, hle⟩ := midnight_summerTime (hsub ht htg.le) (inRange_between hbefore hg hgap htg.le)
  obtain ⟨date', hlast', -⟩ := midnight_summerTime (hsub (ht.trans htg.le) le_rfl) hg
  obtain rfl := Option.some.inj (hlast.symm.trans hlast')
  refine ⟨_, hstart, hle.trans_lt htg, (date' - date) * 24, ?_⟩
  rw [seconds_mul]
  have hsecs : ((3600 : UInt64).toNat : Int) = 3600 := rfl
  rw [hsecs]
  unfold seconds Instant
  omega

/-- A schedule of a fixed interval, on every day at every time. -/
def everySchedule (every : Duration) : Schedule where
  name := "ping"
  message := "hi"
  trigger := .interval every ⟨∅⟩ none none
  startDate := none
  endDate := none
  enabled := true

/-- An hourly trigger hits the hours from the night of 2026-05-29 on. -/
theorem hourly_fires_on_grid : FiresOnGrid summerTime ⟨3600, 0⟩ ⟨∅⟩ none none (seconds 1780010000) :=
  (fires_on_grid_iff_midnights_on_grid lawful_summerTime ⟨String.ofList, id⟩ (everySchedule ⟨3600, 0⟩) "schedules[0]" rfl
    (by decide +kernel) (by decide)).2 (midnights_hourly (by decide))

/-- A trigger of seven hours, asked at 23:00, has its next slot at 04:00, though the day begins on the grid. -/
theorem sevenHours_skips_midnight : ¬ FiresOnGrid summerTime ⟨25200, 0⟩ ⟨∅⟩ none none (seconds 1780002000) := by
  intro h
  have hmidnight : Fires summerTime ⟨25200, 0⟩ ⟨∅⟩ none none (seconds 1780005600) :=
    ⟨by decide, ⟨seconds 1780005600, by decide +kernel, by decide⟩, by decide +kernel⟩
  obtain ⟨next, hnext, hleast, -⟩ := h ⟨_, hmidnight, by decide, by decide⟩
  have hslot : nextInterval summerTime (seconds 1780002000) ⟨25200, 0⟩ ⟨∅⟩ none none = some (seconds 1780020000) := by
    decide +kernel
  obtain rfl := Option.some.inj ((nextFireAfter_interval.mp hnext).symm.trans hslot)
  exact absurd (hleast.2 ⟨hmidnight, by decide⟩) (by decide)

end Twitch1337.Schedules
