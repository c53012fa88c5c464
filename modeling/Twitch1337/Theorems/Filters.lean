import Twitch1337.Theorems.Grid

/-!
# The filters of a schedule

A schedule fires after the instant it is asked at, on one of its weekdays and in its window, but for four ways to misfire. The
scan of an interval ends with a slot that no filter has seen, an interval beyond the `i64` counts backwards, the second before
a start date may be over for the most part, and an hour added in a gap of the clock may lead into the next day.
-/

namespace Twitch1337.Schedules

open Chrono

/-! ## The local clock -/

/-- The first instant of a local reading. -/
def LocalResult.first? : LocalResult → Option Instant
  | single t => some t
  | ambiguous t _ => some t
  | none => Option.none

/-- What is documented of the clocks of Berlin: an instant reads as what it was found for, what falls into a gap is read once
an hour later, and the date never goes back. -/
structure Zone.Civil (Z : Zone) : Prop where
  reads : ∀ naive t, (Z.fromLocal naive).first? = some t → Z.local t = naive
  gap : ∀ naive, inRange naive → inRange (naive + seconds 3600) → Z.fromLocal naive = .none →
    ∃ t, Z.fromLocal (naive + seconds 3600) = .single t
  ordered : ∀ t t', t ≤ t' → Z.date t ≤ Z.date t'

/-- A local time that is there once is there. -/
theorem first?_of_single? {r : LocalResult} {t : Instant} (h : r.single? = some t) : r.first? = some t := by
  cases r with
  | single u => exact h
  | ambiguous u v => cases h
  | none => cases h

/-- An instant that was found for a reading of whole seconds begins a second. -/
theorem whole_of_reads {Z : Zone} {t : Instant} {n : Int} (h : Z.local t = seconds n) : ∃ m, t = seconds m := by
  refine ⟨n - Z.offset t, ?_⟩
  unfold Zone.local NaiveDateTime at h
  unfold seconds Instant at *
  omega

/-- The date is the day of the local clock. -/
theorem date_of_reads {Z : Zone} {t : Instant} {n : Int} (h : Z.local t = seconds n) : Z.date t = n / 86400 := by
  rw [Zone.date, h]
  unfold seconds Instant NaiveDate
  omega

/-! ## Points in time -/

/-- Points in time are ordered by their second, then by what is after it. -/
theorem DateTime.lt_iff {a b : DateTime} :
    a.lt b = true ↔ a.second < b.second ∨ (a.second = b.second ∧ a.frac < b.frac) := by
  rw [DateTime.lt, decide_eq_true_eq]

/-- Instants are ordered as their points in time. -/
theorem lt_ofInstant {t u : Instant} : (DateTime.ofInstant t).lt (.ofInstant u) = true ↔ t < u := by
  rw [DateTime.lt_iff]
  unfold DateTime.ofInstant seconds Instant at *
  dsimp only
  omega

/-- A whole second has nothing after it. -/
theorem ofInstant_seconds (n : Int) : DateTime.ofInstant (seconds n) = ⟨seconds n, 0⟩ := by
  have hdiv : seconds n / 1000000000 = n := Int.mul_ediv_cancel n (by decide)
  have hmod : seconds n % 1000000000 = 0 := Int.mul_emod_left n _
  rw [DateTime.ofInstant, hdiv, hmod]
  rfl

/-- A point in a second that begins after an instant is after it. -/
theorem lt_of_second {now : Instant} {t : DateTime} (h : now < t.second) : (DateTime.ofInstant now).lt t = true := by
  rw [DateTime.lt_iff]
  left
  unfold DateTime.ofInstant seconds Instant at *
  dsimp only
  omega

/-! ## The filters -/

/-- The time of day at a point in time. -/
def DateTime.time (Z : Zone) (t : DateTime) : NaiveTime := ⟨(Z.time t.second).secs, t.frac⟩

/-- A trigger may fire at a point in time. -/
def Trigger.Admits (Z : Zone) (t : DateTime) : Trigger → Prop
  | .interval _ days activeFrom activeTo =>
    days.allows (Z.weekday t.second) = true ∧ inWindow (t.time Z) activeFrom activeTo = true
  | .calendar days _ => days.allows (Z.weekday t.second) = true

/-- A schedule that is asked at an instant fires after it and where its trigger may fire, and not at all if there is no such
point in time. -/
def Schedule.FiresWithin (Z : Zone) (s : Schedule) (now : Instant) : Prop :=
  (∀ t, s.nextActiveFire Z now = .fire t → (DateTime.ofInstant now).lt t = true ∧ s.trigger.Admits Z t) ∧
    ((∀ t, ¬ s.trigger.Admits Z t) → ∀ t, s.nextActiveFire Z now ≠ .fire t)

/-- The instant a trigger is asked at: `now`, or the second before the start date. -/
def Schedule.anchor (Z : Zone) (s : Schedule) (now : Instant) : Option Instant :=
  match s.startDate with
  | none => some now
  | some start =>
    ((Z.fromLocal (andTime start (.fromHms 0 0 0))).single?).bind fun startDt =>
      if now < startDt then addSeconds startDt (-1) else some now

/-- A point in time that the end date does not cut off. -/
def Schedule.Lasts (Z : Zone) (s : Schedule) (t : DateTime) : Prop :=
  ∀ end_, s.endDate = some end_ → ∃ endDt, (Z.fromLocal (andTime end_ (.fromHms 23 59 59))).single? = some endDt ∧
    (DateTime.ofInstant endDt).lt t = false

/-- What the end date leaves of the next fire of the trigger. -/
def Schedule.upToEnd (Z : Zone) (s : Schedule) (next : DateTime) : NextFire :=
  match s.endDate with
  | none => .fire next
  | some end_ =>
    match (Z.fromLocal (andTime end_ (.fromHms 23 59 59))).single? with
    | none => .panics
    | some endDt => if (DateTime.ofInstant endDt).lt next then .ended else .fire next

/-- The next fire is the trigger's next one after the anchor, when the schedule lasts until then. -/
theorem nextActiveFire_eq (Z : Zone) (s : Schedule) (now : Instant) :
    s.nextActiveFire Z now = ((s.anchor Z now).bind (s.trigger.nextFireAfter Z)).elim .panics (s.upToEnd Z) := by
  unfold Schedule.nextActiveFire Schedule.anchor
  cases s.startDate with
  | none =>
    dsimp only
    generalize Option.bind _ (s.trigger.nextFireAfter Z) = next
    cases next <;> rfl
  | some start =>
    dsimp only
    generalize Option.bind _ (s.trigger.nextFireAfter Z) = next
    cases next <;> rfl

/-- A fire stays one when the schedule lasts. -/
theorem upToEnd_eq_fire {Z : Zone} {s : Schedule} {next t : DateTime} : s.upToEnd Z next = .fire t ↔ next = t ∧ s.Lasts Z t := by
  unfold Schedule.upToEnd Schedule.Lasts
  cases hend : s.endDate with
  | none => simp
  | some end_ =>
    cases hdt : (Z.fromLocal (andTime end_ (.fromHms 23 59 59))).single? with
    | none => simp [hdt]
    | some endDt =>
      simp only [hdt, Option.some.injEq, forall_eq', exists_eq_left']
      cases hlt : (DateTime.ofInstant endDt).lt next with
      | true =>
        constructor
        · intro h
          cases h
        · rintro ⟨rfl, h⟩
          rw [hlt] at h
          cases h
      | false =>
        constructor
        · intro h
          obtain rfl := NextFire.fire.inj h
          exact ⟨rfl, hlt⟩
        · rintro ⟨rfl, -⟩
          rfl

/-- The end date is read without a check that it has an instant. -/
theorem upToEnd_eq_panics {Z : Zone} {s : Schedule} {next : DateTime} :
    s.upToEnd Z next = .panics ↔
      ∃ end_, s.endDate = some end_ ∧ (Z.fromLocal (andTime end_ (.fromHms 23 59 59))).single? = none := by
  unfold Schedule.upToEnd
  cases hend : s.endDate with
  | none => simp
  | some end_ =>
    cases hdt : (Z.fromLocal (andTime end_ (.fromHms 23 59 59))).single? with
    | none => simp [hdt]
    | some endDt =>
      simp only [hdt, Option.some.injEq, exists_eq_left', reduceCtorEq, iff_false]
      split <;> simp

/-- What a next fire is. -/
theorem nextActiveFire_eq_fire {Z : Zone} {s : Schedule} {now : Instant} {t : DateTime} :
    s.nextActiveFire Z now = .fire t ↔
      ∃ a, s.anchor Z now = some a ∧ s.trigger.nextFireAfter Z a = some t ∧ s.Lasts Z t := by
  have hbind : (∃ a, s.anchor Z now = some a ∧ s.trigger.nextFireAfter Z a = some t ∧ s.Lasts Z t) ↔
      (s.anchor Z now).bind (s.trigger.nextFireAfter Z) = some t ∧ s.Lasts Z t := by
    simp only [Option.bind_eq_some_iff]
    constructor
    · rintro ⟨a, ha, ht, hl⟩
      exact ⟨⟨a, ha, ht⟩, hl⟩
    · rintro ⟨⟨a, ha, ht⟩, hl⟩
      exact ⟨a, ha, ht, hl⟩
  rw [hbind, nextActiveFire_eq]
  cases (s.anchor Z now).bind (s.trigger.nextFireAfter Z) with
  | none => simp
  | some next => rw [Option.elim_some, upToEnd_eq_fire, Option.some.injEq]

/-- A schedule whose end date has an instant of its own fires at the next fire of its trigger, or has ended. -/
theorem nextActiveFire_of_next {Z : Zone} {s : Schedule} {now a : Instant} {t : DateTime} (ha : s.anchor Z now = some a)
    (ht : s.trigger.nextFireAfter Z a = some t)
    (hend : ∀ end_, s.endDate = some end_ → ∃ endDt, (Z.fromLocal (andTime end_ (.fromHms 23 59 59))).single? = some endDt) :
    (s.Lasts Z t ∧ s.nextActiveFire Z now = .fire t) ∨ (¬ s.Lasts Z t ∧ s.nextActiveFire Z now = .ended) := by
  have hnext : s.nextActiveFire Z now = s.upToEnd Z t := by rw [nextActiveFire_eq, ha, Option.bind_some, ht, Option.elim_some]
  rw [hnext]
  cases hleft : s.upToEnd Z t with
  | fire t' =>
    obtain ⟨rfl, hlasts⟩ := upToEnd_eq_fire.mp hleft
    exact .inl ⟨hlasts, rfl⟩
  | ended =>
    refine .inr ⟨fun hlasts => ?_, rfl⟩
    rw [upToEnd_eq_fire.mpr ⟨rfl, hlasts⟩] at hleft
    cases hleft
  | panics =>
    obtain ⟨end_, hdate, hnone⟩ := upToEnd_eq_panics.mp hleft
    obtain ⟨endDt, hdt⟩ := hend end_ hdate
    rw [hnone] at hdt
    cases hdt

/-- Asking for the next fire of a schedule comes to an end exactly where there is an instant to ask its trigger at, the trigger
fires, and the end date has an instant of its own. -/
theorem nextActiveFire_ne_panics_iff {Z : Zone} {s : Schedule} {now : Instant} :
    s.nextActiveFire Z now ≠ .panics ↔ (∃ a t, s.anchor Z now = some a ∧ s.trigger.nextFireAfter Z a = some t) ∧
      ∀ end_, s.endDate = some end_ → ∃ endDt, (Z.fromLocal (andTime end_ (.fromHms 23 59 59))).single? = some endDt := by
  constructor
  · intro h
    rw [nextActiveFire_eq] at h
    cases hbind : (s.anchor Z now).bind (s.trigger.nextFireAfter Z) with
    | none =>
      rw [hbind] at h
      exact absurd rfl h
    | some t =>
      obtain ⟨a, ha, ht⟩ := Option.bind_eq_some_iff.mp hbind
      refine ⟨⟨a, t, ha, ht⟩, fun end_ hdate => ?_⟩
      rw [hbind, Option.elim_some, Ne, upToEnd_eq_panics] at h
      exact Option.ne_none_iff_exists'.mp fun hnone => h ⟨end_, hdate, hnone⟩
  · rintro ⟨⟨a, t, ha, ht⟩, hend⟩ hpanics
    rcases nextActiveFire_of_next ha ht hend with ⟨-, h⟩ | ⟨-, h⟩
    · rw [h] at hpanics
      cases hpanics
    · rw [h] at hpanics
      cases hpanics

section Steps

variable {Z : Zone} {s : Schedule} {now anchor : Instant}

/-- The instant a trigger is asked at is `now`, or it begins the second before an instant that lies ahead. -/
theorem anchor_cases (hZ : Z.Civil) (h : s.anchor Z now = some anchor) :
    anchor = now ∨ ∃ n, anchor = seconds n ∧ now < anchor + seconds 1 := by
  unfold Schedule.anchor at h
  cases hstart : s.startDate with
  | none =>
    rw [hstart] at h
    exact .inl (Option.some.inj h).symm
  | some start =>
    rw [hstart] at h
    simp only [Option.bind_eq_some_iff] at h
    obtain ⟨startDt, hdt, h⟩ := h
    split at h
    · right
      obtain rfl := addSeconds_eq_some h
      have hreads := hZ.reads _ _ (first?_of_single? hdt)
      rw [andTime_midnight] at hreads
      obtain ⟨m, rfl⟩ := whole_of_reads hreads
      refine ⟨m + -1, (seconds_add m (-1)).symm, ?_⟩
      rw [← seconds_add, ← seconds_add, Int.neg_add_cancel_right]
      assumption
    · exact .inl (Option.some.inj h).symm

/-- What begins a second after the instant asked at is after `now` as well. -/
theorem now_lt_of_anchor_lt (hZ : Z.Civil) (h : s.anchor Z now = some anchor) {m : Int} (hlt : anchor < seconds m) :
    now < seconds m := by
  rcases anchor_cases hZ h with rfl | ⟨n, rfl, hnow⟩
  · exact hlt
  · unfold seconds Instant at *
    omega

/-! ## Intervals -/

variable {every : Duration} {days : WeekdaySet} {activeFrom activeTo : Option NaiveTime}

/-- A slot that is scanned on a day that starts at an instant. -/
def slotAt (anchor start : Instant) (every : Duration) (k : Nat) : Instant :=
  start + seconds (firstSlot anchor start every.secsI64 + k * every.secsI64)

/-- The next fire of an interval is the first slot that is eligible, or the last of all. -/
theorem nextInterval_eq_some {r : Instant} :
    nextInterval Z anchor every days activeFrom activeTo = some r ↔
      ∃ start, dayStart Z (Z.date anchor) = some start ∧ ∃ k ≤ maxSlots, r = slotAt anchor start every k ∧ inRange r ∧
        (k = maxSlots ∨ eligible Z days activeFrom activeTo r = true) ∧
        ∀ i < k, inRange (slotAt anchor start every i) ∧
          eligible Z days activeFrom activeTo (slotAt anchor start every i) = false := by
  rw [nextInterval_eq, Option.bind_eq_some_iff]
  simp only [scanSlots_eq_some, slotAt]

/-- A day starts with a second. -/
theorem dayStart_whole (hZ : Z.Civil) {date : NaiveDate} {start : Instant} (h : dayStart Z date = some start) :
    ∃ m, start = seconds m := by
  unfold dayStart at h
  rw [andTime_midnight] at h
  cases hlocal : Z.fromLocal (seconds (date * 86400)) with
  | single t =>
    simp only [hlocal, Option.some.injEq] at h
    subst h
    exact whole_of_reads (hZ.reads _ _ (by rw [hlocal]; rfl))
  | ambiguous t t' =>
    simp only [hlocal, Option.some.injEq] at h
    subst h
    exact whole_of_reads (hZ.reads _ _ (by rw [hlocal]; rfl))
  | none =>
    simp only [hlocal] at h
    rw [← seconds_add] at h
    exact whole_of_reads (hZ.reads _ _ (first?_of_single? h))

/-- Slots are whole seconds. -/
theorem slotAt_whole (hZ : Z.Civil) {start : Instant} (h : dayStart Z (Z.date anchor) = some start) (k : Nat) :
    ∃ m, slotAt anchor start every k = seconds m := by
  obtain ⟨m, rfl⟩ := dayStart_whole hZ h
  exact ⟨_, (seconds_add _ _).symm⟩

/-- The slots of an interval that fits an `i64` lie after the instant asked at. -/
theorem lt_slotAt (hpos : 0 < every.secs.toNat) (hfits : every.secs.toNat < 2 ^ 63) (start : Instant) (k : Nat) :
    anchor < slotAt anchor start every k := by
  obtain ⟨-, hafter, -⟩ := firstSlot_spec anchor start (e := every.secsI64) (by rw [secsI64_of_lt hfits]; omega)
  rw [slotAt, secsI64_of_lt hfits] at *
  have hk : 0 ≤ (k : Int) * every.secs.toNat := Int.mul_nonneg (by omega) (by omega)
  unfold seconds Instant at *
  omega

/-- At an instant that begins a second, the filters of an interval are those of its slots. -/
theorem admits_interval_iff {m : Int} :
    (Trigger.interval every days activeFrom activeTo).Admits Z (.ofInstant (seconds m)) ↔
      eligible Z days activeFrom activeTo (seconds m) = true := by
  have htime : DateTime.time Z ⟨seconds m, 0⟩ = Z.time (seconds m) := by
    have hfrac : (Z.local (seconds m) % seconds 86400).toNat % 1000000000 = 0 := by
      unfold Zone.local NaiveDateTime seconds Instant
      omega
    simp only [DateTime.time, Zone.time, hfrac]
  rw [ofInstant_seconds, Trigger.Admits, htime, eligible, Bool.and_eq_true]
  exact and_comm

/-! ## Calendars -/

variable {at_ : NaiveTime}

/-- A day that the scan of a calendar trigger leaves behind. -/
def Passes (Z : Zone) (anchor : Instant) (days : WeekdaySet) (at_ : NaiveTime) (date : NaiveDate) : Prop :=
  inRange (seconds (date * 86400)) ∧
    (days.allows (weekdayOf date) = true →
      ∃ c, calendarInstant Z anchor date at_ = some c ∧ (DateTime.ofInstant anchor).lt c = false)

/-- A day on which it stops. -/
structure Stops (Z : Zone) (anchor : Instant) (days : WeekdaySet) (at_ : NaiveTime) (date : NaiveDate) (t : DateTime) :
    Prop where
  inRange : inRange (seconds (date * 86400))
  allowed : days.allows (weekdayOf date) = true
  found : calendarInstant Z anchor date at_ = some t
  after : (DateTime.ofInstant anchor).lt t = true

/-- The scan stops at a day, or passes it and goes on. -/
theorem scanDays_cons {base : NaiveDate} {o : Nat} {rest : List Nat} {t : DateTime} :
    scanDays Z anchor days at_ base (o :: rest) = some t ↔
      Stops Z anchor days at_ (base + (o : Int)) t ∨
        (Passes Z anchor days at_ (base + (o : Int)) ∧ scanDays Z anchor days at_ base rest = some t) := by
  rw [scanDays]
  by_cases hin : inRange (seconds ((base + (o : Int)) * 86400))
  · rw [if_pos hin]
    cases hallowed : days.allows (weekdayOf (base + (o : Int))) with
    | true =>
      rw [if_pos rfl]
      cases hfound : calendarInstant Z anchor (base + (o : Int)) at_ with
      | none =>
        constructor
        · intro h
          cases h
        · rintro (h | ⟨⟨-, h⟩, -⟩)
          · exact absurd (hfound.symm.trans h.found) (Option.some_ne_none t).symm
          · obtain ⟨c, hc, -⟩ := h hallowed
            exact absurd (hfound.symm.trans hc) (Option.some_ne_none c).symm
      | some c =>
        rw [Option.bind_some]
        cases hafter : (DateTime.ofInstant anchor).lt c with
        | true =>
          rw [if_pos rfl]
          constructor
          · intro h
            obtain rfl := Option.some.inj h
            exact .inl ⟨hin, hallowed, hfound, hafter⟩
          · rintro (h | ⟨⟨-, h⟩, -⟩)
            · exact hfound.symm.trans h.found
            · obtain ⟨c', hc', hbefore⟩ := h hallowed
              obtain rfl := Option.some.inj (hfound.symm.trans hc')
              rw [hafter] at hbefore
              cases hbefore
        | false =>
          rw [if_neg Bool.false_ne_true]
          constructor
          · intro h
            exact .inr ⟨⟨hin, fun _ => ⟨c, hfound, hafter⟩⟩, h⟩
          · rintro (h | ⟨-, h⟩)
            · obtain rfl := Option.some.inj (hfound.symm.trans h.found)
              rw [h.after] at hafter
              cases hafter
            · exact h
    | false =>
      rw [if_neg Bool.false_ne_true]
      constructor
      · intro h
        refine .inr ⟨⟨hin, fun hyes => ?_⟩, h⟩
        rw [hallowed] at hyes
        cases hyes
      · rintro (h | ⟨-, h⟩)
        · have hyes := h.allowed
          rw [hallowed] at hyes
          cases hyes
        · exact h
  · rw [if_neg hin]
    constructor
    · intro h
      cases h
    · rintro (h | ⟨h, -⟩)
      · exact absurd h.inRange hin
      · exact absurd h.1 hin

/-- A scan stops on the first day it does not pass, or passes all of them. -/
theorem scanDays_range' {base : NaiveDate} {i n : Nat} {t : DateTime} :
    scanDays Z anchor days at_ base (List.range' i n) = some t ↔
      (∃ o, i ≤ o ∧ o < i + n ∧ (∀ o', i ≤ o' → o' < o → Passes Z anchor days at_ (base + (o' : Int))) ∧
          Stops Z anchor days at_ (base + (o : Int)) t) ∨
        ((∀ o, i ≤ o → o < i + n → Passes Z anchor days at_ (base + (o : Int))) ∧
          scanDays Z anchor days at_ base [] = some t) := by
  induction n generalizing i with
  | zero =>
    constructor
    · intro h
      exact .inr ⟨fun o hi hn => absurd hn (by omega), h⟩
    · rintro (⟨o, hi, hn, -⟩ | ⟨-, h⟩)
      · omega
      · exact h
  | succ n ih =>
    rw [List.range'_succ, scanDays_cons, ih]
    constructor
    · rintro (h | ⟨hpass, ⟨o, hi, hn, hpassed, h⟩ | ⟨hall, h⟩⟩)
      · exact .inl ⟨i, le_rfl, by omega, fun o' hi hlt => absurd hlt (by omega), h⟩
      · refine .inl ⟨o, by omega, by omega, fun o' hi' hlt => ?_, h⟩
        rcases Nat.eq_or_lt_of_le hi' with rfl | hgt
        · exact hpass
        · exact hpassed o' hgt hlt
      · refine .inr ⟨fun o hi hn => ?_, h⟩
        rcases Nat.eq_or_lt_of_le hi with rfl | hgt
        · exact hpass
        · exact hall o hgt (by omega)
    · rintro (⟨o, hi, hn, hpassed, h⟩ | ⟨hall, h⟩)
      · rcases Nat.eq_or_lt_of_le hi with rfl | hgt
        · exact .inl h
        · exact .inr ⟨hpassed i le_rfl hgt, .inl ⟨o, hgt, by omega, fun o' hi' => hpassed o' (by omega), h⟩⟩
      · exact .inr ⟨hall i le_rfl (by omega), .inr ⟨fun o hi hn => hall o (by omega) (by omega), h⟩⟩

/-- Where the time of day lies on a date: at the reading itself, or an hour after one in a gap. -/
theorem calendarInstant_cases (hZ : Z.Civil) (hat : at_.secs < 86400) {date : NaiveDate} {t : DateTime}
    (hin : inRange (seconds (date * 86400))) (h : calendarInstant Z anchor date at_ = some t) :
    (Z.fromLocal (seconds (date * 86400 + at_.secs)) ≠ .none ∧ Z.local t.second = seconds (date * 86400 + at_.secs)) ∨
      (Z.fromLocal (seconds (date * 86400 + at_.secs)) = .none ∧
        Z.local t.second = seconds (date * 86400 + at_.secs + 3600)) := by
  unfold calendarInstant at h
  cases hlocal : Z.fromLocal (seconds (date * 86400 + at_.secs)) with
  | single u =>
    simp only [hlocal, Option.some.injEq] at h
    subst h
    exact .inl ⟨by simp, hZ.reads _ _ (by rw [hlocal]; rfl)⟩
  | ambiguous u u' =>
    simp only [hlocal, Option.some.injEq] at h
    subst h
    exact .inl ⟨by simp, hZ.reads _ _ (by rw [hlocal]; rfl)⟩
  | none =>
    right
    refine ⟨rfl, ?_⟩
    simp only [hlocal] at h
    split at h
    · rename_i hbump
      have hnaive : inRange (seconds (date * 86400 + at_.secs)) := by
        obtain ⟨hlow, hhigh⟩ := hin
        unfold inRange
        unfold seconds Instant NaiveDate at *
        omega
      obtain ⟨u, hu⟩ := hZ.gap _ hnaive hbump hlocal
      rw [hu] at h
      obtain rfl := Option.some.inj h
      rw [seconds_add]
      exact hZ.reads _ _ (by rw [hu]; rfl)
    · cases h

/-- A day that is found fires on that day, or later. -/
theorem le_date_of_calendarInstant (hZ : Z.Civil) (hat : at_.secs < 86400) {date : NaiveDate} {t : DateTime}
    (hin : inRange (seconds (date * 86400))) (h : calendarInstant Z anchor date at_ = some t) : date ≤ Z.date t.second := by
  rcases calendarInstant_cases hZ hat hin h with ⟨-, hreads⟩ | ⟨-, hreads⟩
  · rw [date_of_reads hreads]
    unfold NaiveDate at *
    omega
  · rw [date_of_reads hreads]
    unfold NaiveDate at *
    omega

/-- On a later date than that of the instant asked at, the time is still to come. -/
theorem lt_calendarInstant (hZ : Z.Civil) (hat : at_.secs < 86400) {date : NaiveDate} {t : DateTime}
    (hin : inRange (seconds (date * 86400))) (h : calendarInstant Z anchor date at_ = some t) (hlater : Z.date anchor < date) :
    (DateTime.ofInstant anchor).lt t = true := by
  refine lt_of_second (lt_of_not_ge fun hle => ?_)
  have hdate := hZ.ordered _ _ hle
  exact absurd hlater (not_lt_of_ge ((le_date_of_calendarInstant hZ hat hin h).trans hdate))

/-- Every weekday is one of the next seven. -/
theorem exists_weekdayOf (base : NaiveDate) (day : Weekday) :
    ∃ o : Nat, 1 ≤ o ∧ o < 8 ∧ weekdayOf (base + (o : Int)) = day := by
  have hmod : ∀ o : Nat, weekdayOf (base + (o : Int)) = weekdayOf (base % 7 + (o : Int)) := by
    intro o
    unfold weekdayOf
    rw [Int.emod_add_emod]
  have hcases : ∀ r : Fin 7, ∀ day : Weekday, ∃ o : Fin 8, 1 ≤ o.val ∧ weekdayOf ((r.val : Int) + (o.val : Int)) = day := by
    intro r day
    cases day <;> revert r <;> decide
  obtain ⟨o, ho, hday⟩ := hcases ⟨(base % 7).toNat, by unfold NaiveDate at *; omega⟩ day
  refine ⟨o, ho, o.isLt, ?_⟩
  rw [hmod, ← hday]
  congr 2
  unfold NaiveDate at *
  simp only
  omega

/-- One of seven days is allowed. -/
theorem exists_allowed (base : NaiveDate) (days : WeekdaySet) :
    ∃ o : Nat, 1 ≤ o ∧ o < 8 ∧ days.allows (weekdayOf (base + (o : Int))) = true := by
  by_cases hempty : days.days = ∅
  · exact ⟨1, le_rfl, by decide, by simp [WeekdaySet.allows, hempty]⟩
  · obtain ⟨day, hday⟩ := Finset.nonempty_iff_ne_empty.mpr hempty
    obtain ⟨o, h1, h8, heq⟩ := exists_weekdayOf base day
    exact ⟨o, h1, h8, by simp [WeekdaySet.allows, heq, hday]⟩

/-- A calendar trigger fires on the first of eight days that its scan stops on: one of the last seven is an allowed day. -/
theorem nextCalendar_eq_some (hZ : Z.Civil) (hat : at_.secs < 86400) {t : DateTime} :
    nextCalendar Z anchor days at_ = some t ↔
      ∃ o : Nat, o < 8 ∧ (∀ o' < o, Passes Z anchor days at_ (Z.date anchor + (o' : Int))) ∧
        Stops Z anchor days at_ (Z.date anchor + (o : Int)) t := by
  rw [nextCalendar, List.range_eq_range', scanDays_range']
  constructor
  · rintro (⟨o, -, ho, hpassed, hstop⟩ | ⟨hall, -⟩)
    · exact ⟨o, by omega, fun o' hlt => hpassed o' (Nat.zero_le o') hlt, hstop⟩
    · exfalso
      obtain ⟨o, h1, h8, hallowed⟩ := exists_allowed (Z.date anchor) days
      obtain ⟨hin, hpass⟩ := hall o (Nat.zero_le o) (by omega)
      obtain ⟨c, hc, hbefore⟩ := hpass hallowed
      have hafter := lt_calendarInstant hZ hat hin hc (by unfold NaiveDate at *; omega)
      rw [hafter] at hbefore
      cases hbefore
  · rintro ⟨o, ho, hpassed, hstop⟩
    exact .inl ⟨o, Nat.zero_le o, by omega, fun o' _ hlt => hpassed o' hlt, hstop⟩

/-! ## Misfires -/

/-- How a trigger that is asked at an instant fires at a point in time where it should not. -/
inductive Misfire (Z : Zone) (now anchor : Instant) : Trigger → DateTime → Prop where
  /-- The filters allow no slot of the scan, nor the one after it. -/
  | exhausted {every : Duration} {days : WeekdaySet} {activeFrom activeTo : Option NaiveTime} {start : Instant}
    (hstart : dayStart Z (Z.date anchor) = some start)
    (h : ∀ k ≤ maxSlots, inRange (slotAt anchor start every k) ∧
      eligible Z days activeFrom activeTo (slotAt anchor start every k) = false) :
    Misfire Z now anchor (.interval every days activeFrom activeTo) (.ofInstant (slotAt anchor start every maxSlots))
  /-- The interval is negative as an `i64`, and the first slot that the filters allow is not after `now`. -/
  | backwards {every : Duration} {days : WeekdaySet} {activeFrom activeTo : Option NaiveTime} {start : Instant} {k : Nat}
    (hevery : 2 ^ 63 ≤ every.secs.toNat) (hstart : dayStart Z (Z.date anchor) = some start) (hk : k ≤ maxSlots)
    (hskip : ∀ i < k, inRange (slotAt anchor start every i) ∧
      eligible Z days activeFrom activeTo (slotAt anchor start every i) = false)
    (hin : inRange (slotAt anchor start every k))
    (hhit : eligible Z days activeFrom activeTo (slotAt anchor start every k) = true)
    (hpast : slotAt anchor start every k ≤ now) :
    Misfire Z now anchor (.interval every days activeFrom activeTo) (.ofInstant (slotAt anchor start every k))
  /-- The time lies in the second before the start date, and `now` is not before it. -/
  | early {days : WeekdaySet} {at_ : NaiveTime} {t : DateTime} (hstop : Stops Z anchor days at_ (Z.date anchor) t)
    (hpast : (DateTime.ofInstant now).lt t = false) : Misfire Z now anchor (.calendar days at_) t
  /-- On the first of the allowed days still to come, the time lies in a gap that leads into a day that is not allowed. -/
  | crossing {days : WeekdaySet} {at_ : NaiveTime} {t : DateTime} {o : Nat} (ho : o < 8)
    (hpassed : ∀ o' < o, Passes Z anchor days at_ (Z.date anchor + (o' : Int)))
    (hstop : Stops Z anchor days at_ (Z.date anchor + (o : Int)) t)
    (hgap : Z.fromLocal (seconds ((Z.date anchor + (o : Int)) * 86400 + at_.secs)) = .none) (hlate : 82800 ≤ at_.secs)
    (hnext : days.allows (weekdayOf (Z.date anchor + (o : Int) + 1)) = false) : Misfire Z now anchor (.calendar days at_) t

/-- A schedule misfires, and its end date does not prevent it. -/
def Schedule.Misfires (Z : Zone) (s : Schedule) (now : Instant) : Prop :=
  ∃ anchor t, s.anchor Z now = some anchor ∧ Misfire Z now anchor s.trigger t ∧ s.Lasts Z t

/-- A misfire is a fire. -/
theorem nextFireAfter_of_misfire (hZ : Z.Civil) {trigger : Trigger}
    (hat : ∀ days at_, trigger = .calendar days at_ → at_.secs < 86400) {t : DateTime}
    (h : Misfire Z now anchor trigger t) : trigger.nextFireAfter Z anchor = some t := by
  cases h with
  | exhausted hstart h =>
    have hlast := h maxSlots le_rfl
    rw [nextFireAfter_interval, nextInterval_eq_some]
    exact ⟨_, hstart, maxSlots, le_rfl, rfl, hlast.1, .inl rfl, fun i hi => h i hi.le⟩
  | backwards hevery hstart hk hskip hin hhit hpast =>
    rw [nextFireAfter_interval, nextInterval_eq_some]
    exact ⟨_, hstart, _, hk, rfl, hin, .inr hhit, hskip⟩
  | early hstop hpast =>
    refine (nextCalendar_eq_some hZ (hat _ _ rfl)).mpr ⟨0, by decide, fun o' ho' => absurd ho' (Nat.not_lt_zero o'), ?_⟩
    rwa [Nat.cast_zero, Int.add_zero]
  | crossing ho hpassed hstop hgap hlate hnext =>
    exact (nextCalendar_eq_some hZ (hat _ _ rfl)).mpr ⟨_, ho, hpassed, hstop⟩

/-- ... at which the trigger should not fire. -/
theorem violates_of_misfire (hZ : Z.Civil) {trigger : Trigger}
    (hat : ∀ days at_, trigger = .calendar days at_ → at_.secs < 86400) {t : DateTime}
    (h : Misfire Z now anchor trigger t) :
    ¬ ((DateTime.ofInstant now).lt t = true ∧ trigger.Admits Z t) := by
  rintro ⟨hafter, hadmits⟩
  cases h with
  | exhausted hstart h =>
    have hlast := h maxSlots le_rfl
    obtain ⟨m, hm⟩ := slotAt_whole hZ hstart maxSlots
    rw [hm] at hlast hadmits
    rw [admits_interval_iff, hlast.2] at hadmits
    cases hadmits
  | backwards hevery hstart hk hskip hin hhit hpast => exact absurd (lt_ofInstant.mp hafter) (not_lt_of_ge hpast)
  | early hstop hpast =>
    rw [hpast] at hafter
    cases hafter
  | crossing ho hpassed hstop hgap hlate hnext =>
    have hsecs := hat _ _ rfl
    rcases calendarInstant_cases hZ hsecs hstop.inRange hstop.found with ⟨hread, -⟩ | ⟨-, hreads⟩
    · exact absurd hgap hread
    · rw [Trigger.Admits, Zone.weekday, date_of_reads hreads] at hadmits
      refine absurd hadmits (Bool.eq_false_iff.mp ?_)
      rw [← hnext]
      congr 2
      unfold NaiveDate at *
      omega

/-- A fire where the trigger should not fire is a misfire. -/
theorem misfire_of_violates (hZ : Z.Civil) {trigger : Trigger}
    (hat : ∀ days at_, trigger = .calendar days at_ → at_.secs < 86400)
    (hevery : ∀ every days activeFrom activeTo, trigger = .interval every days activeFrom activeTo → 0 < every.secs.toNat)
    (ha : s.anchor Z now = some anchor) {t : DateTime} (h : trigger.nextFireAfter Z anchor = some t)
    (hv : ¬ ((DateTime.ofInstant now).lt t = true ∧ trigger.Admits Z t)) : Misfire Z now anchor trigger t := by
  cases trigger with
  | interval every days activeFrom activeTo =>
    obtain ⟨r, hr, rfl⟩ := Option.map_eq_some_iff.mp h
    obtain ⟨start, hstart, k, hk, rfl, hin, hend, hskip⟩ := nextInterval_eq_some.mp hr
    obtain ⟨m, hm⟩ : ∃ m, slotAt anchor start every k = seconds m := slotAt_whole hZ hstart k
    cases helig : eligible Z days activeFrom activeTo (slotAt anchor start every k) with
    | false =>
      rw [helig] at hend
      obtain rfl := hend.resolve_right Bool.false_ne_true
      refine .exhausted hstart fun i hi => ?_
      rcases Nat.eq_or_lt_of_le hi with rfl | hlt
      · exact ⟨hin, helig⟩
      · exact hskip i hlt
    | true =>
      have hpast : slotAt anchor start every k ≤ now := by
        by_contra hlt
        refine hv ⟨lt_ofInstant.mpr (not_le.mp hlt), ?_⟩
        rw [hm, admits_interval_iff, ← hm, helig]
      refine .backwards ?_ hstart hk hskip hin helig hpast
      by_contra hfits
      have hlt : anchor < slotAt anchor start every k := lt_slotAt (hevery _ _ _ _ rfl) (not_le.mp hfits) start k
      rw [hm] at hlt hpast
      exact absurd (now_lt_of_anchor_lt hZ ha hlt) (not_lt_of_ge hpast)
  | calendar days at_ =>
    have hsecs := hat _ _ rfl
    obtain ⟨o, ho, hpassed, hstop⟩ := (nextCalendar_eq_some hZ hsecs).mp h
    cases hafter : (DateTime.ofInstant now).lt t with
    | false =>
      have hne : anchor ≠ now := by
        rintro rfl
        have := hstop.after
        rw [hafter] at this
        cases this
      obtain ⟨n, rfl, hnow⟩ := (anchor_cases hZ ha).resolve_left hne
      have hsecond : t.second = seconds n := by
        have hlt := hstop.after
        rw [ofInstant_seconds, DateTime.lt_iff] at hlt
        refine (hlt.resolve_left fun hsecond => ?_).1.symm
        -- a point in a later second would be after `now`
        rw [DateTime.lt_iff.mpr (.inl ?_)] at hafter
        · cases hafter
        · unfold DateTime.ofInstant seconds Instant at *
          dsimp only at *
          omega
      have hle := le_date_of_calendarInstant hZ hsecs hstop.inRange hstop.found
      rw [hsecond] at hle
      obtain rfl : o = 0 := by
        unfold NaiveDate at *
        omega
      rw [Nat.cast_zero, Int.add_zero] at hstop
      exact .early hstop hafter
    | true =>
      have hnot : ¬ days.allows (Z.weekday t.second) = true := fun hyes => hv ⟨hafter, hyes⟩
      rw [Zone.weekday] at hnot
      rcases calendarInstant_cases hZ hsecs hstop.inRange hstop.found with ⟨-, hreads⟩ | ⟨hgap, hreads⟩
      · rw [date_of_reads hreads] at hnot
        refine absurd ?_ hnot
        rw [← hstop.allowed]
        congr 2
        unfold NaiveDate at *
        omega
      · rw [date_of_reads hreads] at hnot
        by_cases hlate : 82800 ≤ at_.secs
        · refine .crossing ho hpassed hstop hgap hlate ?_
          rw [← Bool.eq_false_iff.mpr hnot]
          congr 2
          unfold NaiveDate at *
          omega
        · refine absurd ?_ hnot
          rw [← hstop.allowed]
          congr 2
          unfold NaiveDate at *
          omega

/-- What misfires does not fire within its filters. -/
theorem not_firesWithin_of_misfires (hZ : Z.Civil)
    (hat : ∀ days at_, s.trigger = .calendar days at_ → at_.secs < 86400) (h : s.Misfires Z now) : ¬ s.FiresWithin Z now := by
  intro hw
  obtain ⟨a, t, ha, hmis, hlasts⟩ := h
  have hfire := nextActiveFire_eq_fire.mpr ⟨a, ha, nextFireAfter_of_misfire hZ hat hmis, hlasts⟩
  exact violates_of_misfire hZ hat hmis (hw.1 t hfire)

/-- What does not misfire does. -/
theorem firesWithin_of_not_misfires (hZ : Z.Civil)
    (hat : ∀ days at_, s.trigger = .calendar days at_ → at_.secs < 86400)
    (hevery : ∀ every days activeFrom activeTo, s.trigger = .interval every days activeFrom activeTo → 0 < every.secs.toNat)
    (h : ¬ s.Misfires Z now) : s.FiresWithin Z now := by
  have hwithin : ∀ t, s.nextActiveFire Z now = .fire t → (DateTime.ofInstant now).lt t = true ∧ s.trigger.Admits Z t := by
    intro t hfire
    obtain ⟨a, ha, hnext, hlasts⟩ := nextActiveFire_eq_fire.mp hfire
    by_contra hv
    exact h ⟨a, t, ha, misfire_of_violates hZ hat hevery ha hnext hv, hlasts⟩
  exact ⟨hwithin, fun hnone t hfire => hnone t (hwithin t hfire).2⟩

/-- A schedule that passes validation fires after the instant it is asked at and within its filters, unless it misfires in one
of the four ways. -/
theorem fires_within_iff_not_misfires (hZ : Z.Civil) (R : Render) (pre : String) (hvalid : s.validate R pre = [])
    (hat : ∀ days at_, s.trigger = .calendar days at_ → at_.secs < 86400) (now : Instant) :
    s.FiresWithin Z now ↔ ¬ s.Misfires Z now := by
  have hevery : ∀ every days activeFrom activeTo, s.trigger = .interval every days activeFrom activeTo →
      0 < every.secs.toNat := by
    intro every days activeFrom activeTo htrigger
    exact Nat.lt_of_lt_of_le (by decide) (every_of_validate htrigger hvalid)
  exact ⟨fun hw h => not_firesWithin_of_misfires hZ hat h hw, firesWithin_of_not_misfires hZ hat hevery⟩

end Steps

/-! ## Winter and summer -/

/-- A zone that is the same number of seconds ahead of UTC, also where the calendar ends. -/
def Zone.steady (secs : Int) : Zone := ⟨fun _ => secs, fun naive => .single (naive - seconds secs)⟩

/-- A zone without changes is civil. -/
theorem civil_steady (secs : Int) : (Zone.steady secs).Civil := by
  refine ⟨fun naive t h => ?_, (fun naive _ _ h => by cases h), fun t t' h => ?_⟩
  · obtain rfl := Option.some.inj h
    exact Int.sub_add_cancel naive (seconds secs)
  · exact Int.ediv_le_ediv (by decide) (Int.add_le_add_right h _)

/-- An hour ahead of UTC, as Berlin is in winter, and two hours ahead, as it is in summer. -/
def winterTime : Zone := .steady 3600

/-- Two hours ahead all the year. -/
def daylightTime : Zone := .steady 7200

/-- A schedule of every half hour from 08:00 to 18:00, from Monday to Friday. -/
def officeHours : Schedule where
  name := "ping"
  message := "hi"
  trigger := .interval ⟨1800, 0⟩ ⟨{.mon, .tue, .wed, .thu, .fri}⟩ (some (.fromHms 8 0 0)) (some (.fromHms 18 0 0))
  startDate := none
  endDate := none
  enabled := true

/-- The evening of a Friday: 2026-05-29 at 23:00. -/
def fridayEvening : Instant := seconds 1780088400

theorem not_misfires_officeHours : ¬ officeHours.Misfires daylightTime fridayEvening := by
  rintro ⟨anchor, t, ha, hmis, -⟩
  obtain rfl : fridayEvening = anchor := Option.some.inj ha
  have hday : dayStart daylightTime (daylightTime.date fridayEvening) = some (seconds 1780005600) := by decide +kernel
  cases hmis with
  | exhausted hstart h =>
    obtain rfl := Option.some.inj (hday.symm.trans hstart)
    -- the slot of Monday morning
    have hslot := (h 113 (by decide)).2
    revert hslot
    decide +kernel
  | backwards hevery => exact absurd hevery (by decide)

/-- Asked then, the schedule next fires on Monday morning at 08:00, which is in its hours. -/
theorem office_hours_fire_within :
    officeHours.nextActiveFire daylightTime fridayEvening = .fire ⟨seconds 1780293600, 0⟩ ∧
      officeHours.FiresWithin daylightTime fridayEvening := by
  refine ⟨by decide +kernel, (fires_within_iff_not_misfires (civil_steady 7200) ⟨String.ofList, id⟩ "schedules[0]"
    (by decide +kernel) (fun days at_ htrigger => ?_) _).mpr not_misfires_officeHours⟩
  cases htrigger

/-- A schedule of every minute from 08:00 to 08:00, a window that holds no time. -/
def emptyWindow : Schedule where
  name := "ping"
  message := "hi"
  trigger := .interval ⟨60, 0⟩ ⟨∅⟩ (some (.fromHms 8 0 0)) (some (.fromHms 8 0 0))
  startDate := none
  endDate := none
  enabled := true

/-- Nothing is in a window that ends where it begins. -/
theorem inWindow_empty (t from_ : NaiveTime) : inWindow t (some from_) (some from_) = false := by
  have hlt : from_.lt from_ = false := by simp [NaiveTime.lt]
  simp [inWindow, hlt]

theorem misfires_emptyWindow : emptyWindow.Misfires winterTime 0 := by
  have hstart : dayStart winterTime (winterTime.date 0) = some (seconds (-3600)) := by decide
  refine ⟨0, _, rfl, .exhausted hstart fun k hk => ⟨?_, ?_⟩, ?_⟩
  · have hslot : slotAt 0 (seconds (-3600)) ⟨60, 0⟩ k = seconds (-3600) + seconds (3660 + k * 60) := rfl
    have hmax : maxSlots = 20160 := rfl
    rw [hslot]
    unfold inRange seconds Instant
    omega
  · rw [eligible, inWindow_empty, Bool.false_and]
  · intro end_ hend
    cases hend

/-- A schedule that may fire at no time fires. -/
theorem emptyWindow_fires : ¬ ∀ (Z : Zone) (R : Render) (pre : String) (s : Schedule), Z.Civil → s.validate R pre = [] →
    (∀ days at_, s.trigger = .calendar days at_ → at_.secs < 86400) → ∀ now, s.FiresWithin Z now := by
  intro h
  have hat : ∀ days at_, emptyWindow.trigger = .calendar days at_ → at_.secs < 86400 := by
    intro days at_ htrigger
    cases htrigger
  exact not_firesWithin_of_misfires (civil_steady 3600) hat misfires_emptyWindow
    (h winterTime ⟨String.ofList, id⟩ "schedules[0]" emptyWindow (civil_steady 3600) (by decide +kernel) hat 0)

end Twitch1337.Schedules
