import Mathlib.Data.Int.LeastGreatest
import Twitch1337.Theorems.Calendar

/-!
# The dates of a calendar schedule

A schedule fires next at the least fire of its trigger that is on a date from its first to its last. What can go wrong are the second
before the first midnight, the second after 23:59:59 of the last date, a fire that is carried over midnight, and local times that have
no instant of their own.
-/

namespace Twitch1337.Schedules

open Chrono

variable {Z : Zone} {s : Schedule} {days : WeekdaySet} {at_ : NaiveTime} {date : NaiveDate} {t u f : DateTime}
  {now anchor startDt endDt : Instant}

/-! ## What is to be found -/

/-- A date lies between the first and the last date of a schedule. -/
structure Schedule.Covers (s : Schedule) (date : NaiveDate) : Prop where
  start : ∀ start, s.startDate = some start → start ≤ date
  end_ : ∀ end_, s.endDate = some end_ → date ≤ end_

/-- The least fire after an instant that is on a date of the schedule. -/
structure NextInRange (Z : Zone) (s : Schedule) (days : WeekdaySet) (at_ : NaiveTime) (now : Instant) (date : NaiveDate)
    (t : DateTime) : Prop where
  fires : FiresOn Z days at_ date t
  after : (DateTime.ofInstant now).lt t = true
  covered : s.Covers (Z.date t.second)
  least : ∀ date' u, FiresOn Z days at_ date' u → (DateTime.ofInstant now).lt u = true → s.Covers (Z.date u.second) →
    u.lt t = false

/-- A schedule fires at the least fire on its dates, and has ended exactly where there is none. -/
structure RangeExact (Z : Zone) (s : Schedule) (days : WeekdaySet) (at_ : NaiveTime) (now : Instant) : Prop where
  fire : ∀ t, s.nextActiveFire Z now = .fire t ↔ ∃ date, NextInRange Z s days at_ now date t
  ended : s.nextActiveFire Z now = .ended ↔
    ∀ date t, FiresOn Z days at_ date t → (DateTime.ofInstant now).lt t = true → ¬ s.Covers (Z.date t.second)

/-- That nothing goes wrong. -/
structure Precise (Z : Zone) (s : Schedule) (days : WeekdaySet) (at_ : NaiveTime) (now : Instant) : Prop where
  /-- The midnight of the first date has an instant of its own. If it is still to come, there is a second before it, and no fire
  after the beginning of that second. -/
  start : ∀ start, s.startDate = some start → ∃ startDt, Z.fromLocal (andTime start (.fromHms 0 0 0)) = .single startDt ∧
    (now < startDt → inRange (startDt + seconds (-1)) ∧
      ∀ date t, FiresOn Z days at_ date t → t.second = startDt + seconds (-1) → t.frac = 0)
  /-- The end of the last date has an instant of its own, and the least fire is not after the beginning of its second. -/
  end_ : ∀ end_, s.endDate = some end_ → ∃ endDt, Z.fromLocal (andTime end_ (.fromHms 23 59 59)) = .single endDt ∧
    ∀ date t, NextInRange Z s days at_ now date t → t.second = endDt → t.frac = 0
  /-- There is a fire still to come, whether the last date is over or not. -/
  later : ∃ date t, FiresOn Z days at_ date t ∧ (DateTime.ofInstant now).lt t = true ∧ Z.date now ≤ date ∧
    ∀ start, s.startDate = some start → start ≤ Z.date t.second
  /-- The least fire is not one of an earlier date that is carried over midnight. -/
  uncarried : ∀ date t, NextInRange Z s days at_ now date t → Z.date now ≤ date

/-! ## Local times -/

/-- A fire begins with a second. -/
theorem OnDate.whole (hZ : Z.Berlin) (h : OnDate Z at_ date t) : ∃ n, t.second = seconds n := by
  rcases h.reads hZ with hreads | hreads
  · exact whole_of_reads hreads
  · exact whole_of_reads hreads

/-- It is on its date, or on the next. -/
theorem OnDate.date_le (hZ : Z.Berlin) (hat : at_.secs < 86400) (h : OnDate Z at_ date t) :
    date ≤ Z.date t.second ∧ Z.date t.second ≤ date + 1 := by
  rcases h.reads hZ with hreads | hreads
  · rw [date_of_reads hreads]
    unfold NaiveDate at *
    omega
  · rw [date_of_reads hreads]
    unfold NaiveDate at *
    omega

/-- An instant is before the midnight of a date exactly where it is on an earlier date. -/
theorem lt_midnight_iff (hZ : Z.Berlin) {start : NaiveDate} (h : Z.fromLocal (andTime start (.fromHms 0 0 0)) = .single startDt)
    (u : Instant) : u < startDt ↔ Z.date u < start := by
  rw [andTime_midnight] at h
  rw [(hZ.single _ _ u h).1, Zone.date]
  unfold seconds Instant NaiveDate NaiveDateTime at *
  omega

/-- A second begins after the last one of a date exactly where it is on a later date. -/
theorem end_lt_iff (hZ : Z.Berlin) {end_ : NaiveDate} (h : Z.fromLocal (andTime end_ (.fromHms 23 59 59)) = .single endDt)
    (hfires : FiresOn Z days at_ date t) : endDt < t.second ↔ end_ < Z.date t.second := by
  have hend : andTime end_ (.fromHms 23 59 59) = seconds (end_ * 86400 + 86399) := by simp [andTime, NaiveTime.fromHms]
  rw [hend] at h
  rw [(hZ.single _ _ t.second h).2]
  rcases hfires.onDate.reads hZ with hreads | hreads
  · rw [date_of_reads hreads, hreads]
    unfold seconds Instant NaiveDate NaiveDateTime at *
    omega
  · rw [date_of_reads hreads, hreads]
    unfold seconds Instant NaiveDate NaiveDateTime at *
    omega

/-- The end of a date is on it. -/
theorem date_of_end (hZ : Z.Berlin) {end_ : NaiveDate} (h : Z.fromLocal (andTime end_ (.fromHms 23 59 59)) = .single endDt) :
    Z.date endDt = end_ := by
  have hend : andTime end_ (.fromHms 23 59 59) = seconds (end_ * 86400 + 86399) := by simp [andTime, NaiveTime.fromHms]
  rw [hend] at h
  rw [date_of_reads (hZ.reads _ _ (by rw [h]; rfl))]
  unfold NaiveDate
  omega

/-- A midnight begins a second. -/
theorem midnight_whole (hZ : Z.Berlin) {start : NaiveDate} (h : Z.fromLocal (andTime start (.fromHms 0 0 0)) = .single startDt) :
    ∃ n, startDt = seconds n := by
  rw [andTime_midnight] at h
  exact whole_of_reads (hZ.reads _ _ (by rw [h]; rfl))

/-! ## The least of fires -/

/-- A fire after an instant is on its date or on a later one, up to two. -/
theorem le_date_of_after (hZ : Z.Berlin) (hat : at_.secs < 86400) (h : OnDate Z at_ date t)
    (hafter : (DateTime.ofInstant now).lt t = true) : Z.date now - 2 ≤ date := by
  have hnow := hZ.ahead now
  have ht := hZ.ahead t.second
  rw [DateTime.lt_iff] at hafter
  have hsecond : now < t.second + seconds 1 := by
    unfold DateTime.ofInstant at hafter
    dsimp only at hafter
    unfold seconds Instant at *
    omega
  rcases h.reads hZ with hreads | hreads
  all_goals
    unfold Zone.date
    unfold Zone.local at *
    unfold seconds Instant NaiveDate NaiveDateTime at *
    omega

/-- Of the fires after an instant of which something holds there is a least one. -/
theorem exists_least_fire (hZ : Z.Berlin) (hat : at_.secs < 86400) {Q : NaiveDate → DateTime → Prop}
    (h : ∃ date t, FiresOn Z days at_ date t ∧ (DateTime.ofInstant now).lt t = true ∧ Q date t) :
    ∃ date t, FiresOn Z days at_ date t ∧ (DateTime.ofInstant now).lt t = true ∧ Q date t ∧
      ∀ date' u, FiresOn Z days at_ date' u → (DateTime.ofInstant now).lt u = true → Q date' u → u.lt t = false := by
  obtain ⟨date, ⟨t, ht, hafter, hQ⟩, hleast⟩ : ∃ date : Int,
      (∃ t, FiresOn Z days at_ date t ∧ (DateTime.ofInstant now).lt t = true ∧ Q date t) ∧
        ∀ date' : Int, (∃ t, FiresOn Z days at_ date' t ∧ (DateTime.ofInstant now).lt t = true ∧ Q date' t) → date ≤ date' := by
    refine Int.exists_least_of_bdd ⟨Z.date now - 2, ?_⟩ h
    rintro date ⟨t, ht, hafter, -⟩
    exact le_date_of_after hZ hat ht.onDate hafter
  refine ⟨date, t, ht, hafter, hQ, fun date' u hu hafter' hQ' => ?_⟩
  rcases eq_or_lt_of_le (hleast date' ⟨u, hu, hafter', hQ'⟩) with rfl | hlt
  · rw [hu.onDate.unique ht.onDate]
    exact DateTime.lt_irrefl t
  · exact DateTime.not_lt_of_lt (ht.onDate.lt hZ hu.onDate hlt)

/-- Two fires of which neither is less are the same. -/
theorem fire_eq_of_not_lt (hZ : Z.Berlin) {date' : NaiveDate} (ht : FiresOn Z days at_ date t) (hu : FiresOn Z days at_ date' u)
    (htu : t.lt u = false) (hut : u.lt t = false) : t = u := by
  rcases lt_trichotomy date date' with hlt | rfl | hgt
  · rw [ht.onDate.lt hZ hu.onDate hlt] at htu
    cases htu
  · exact ht.onDate.unique hu.onDate
  · rw [hu.onDate.lt hZ ht.onDate hgt] at hut
    cases hut

/-! ## The first date -/

/-- A point in time is not before the first date. -/
def Started (Z : Zone) (s : Schedule) (t : DateTime) : Prop := ∀ start, s.startDate = some start → start ≤ Z.date t.second

/-- The first date is as `Precise` wants it. -/
def StartsWell (Z : Zone) (s : Schedule) (days : WeekdaySet) (at_ : NaiveTime) (now : Instant) : Prop :=
  ∀ start, s.startDate = some start → ∃ startDt, Z.fromLocal (andTime start (.fromHms 0 0 0)) = .single startDt ∧
    (now < startDt → inRange (startDt + seconds (-1)) ∧
      ∀ date t, FiresOn Z days at_ date t → t.second = startDt + seconds (-1) → t.frac = 0)

theorem anchor_eq_some_iff :
    s.anchor Z now = some anchor ↔ (s.startDate = none ∧ anchor = now) ∨
      ∃ start startDt, s.startDate = some start ∧ Z.fromLocal (andTime start (.fromHms 0 0 0)) = .single startDt ∧
        ((startDt ≤ now ∧ anchor = now) ∨
          (now < startDt ∧ inRange (startDt + seconds (-1)) ∧ anchor = startDt + seconds (-1))) := by
  unfold Schedule.anchor
  cases hstart : s.startDate with
  | none => simp [eq_comm]
  | some start =>
    simp only [Option.bind_eq_some_iff, single?_eq_some_iff]
    constructor
    · rintro ⟨startDt, hlocal, h⟩
      refine .inr ⟨start, startDt, rfl, hlocal, ?_⟩
      split at h
      · rename_i hlt
        unfold addSeconds at h
        split at h
        · rename_i hin
          exact .inr ⟨hlt, hin, (Option.some.inj h).symm⟩
        · cases h
      · rename_i hge
        exact .inl ⟨not_lt.mp hge, (Option.some.inj h).symm⟩
    · rintro (⟨hnone, -⟩ | ⟨start', startDt, hsome, hlocal, h⟩)
      · cases hnone
      · obtain rfl := Option.some.inj hsome
        refine ⟨startDt, hlocal, ?_⟩
        rcases h with ⟨hge, rfl⟩ | ⟨hlt, hin, rfl⟩
        · exact if_neg (not_lt.mpr hge)
        · rw [if_pos hlt, addSeconds, if_pos hin]

/-- There is an instant to ask a trigger at exactly where the midnight of the first date has one, and a second before it. -/
theorem exists_anchor_iff : (∃ anchor, s.anchor Z now = some anchor) ↔
    ∀ start, s.startDate = some start → ∃ startDt, Z.fromLocal (andTime start (.fromHms 0 0 0)) = .single startDt ∧
      (now < startDt → inRange (startDt + seconds (-1))) := by
  simp only [anchor_eq_some_iff]
  constructor
  · rintro ⟨anchor, ⟨hnone, -⟩ | ⟨start, startDt, hsome, hlocal, hasked⟩⟩ start' hsome'
    · rw [hnone] at hsome'
      cases hsome'
    · obtain rfl := Option.some.inj (hsome.symm.trans hsome')
      refine ⟨startDt, hlocal, fun hlt => ?_⟩
      rcases hasked with ⟨hge, -⟩ | ⟨-, hin, -⟩
      · exact absurd hlt (not_lt_of_ge hge)
      · exact hin
  · intro h
    cases hstart : s.startDate with
    | none => exact ⟨now, .inl ⟨rfl, rfl⟩⟩
    | some start =>
      obtain ⟨startDt, hlocal, hbefore⟩ := h start hstart
      rcases le_or_gt startDt now with hge | hlt
      · exact ⟨now, .inr ⟨start, startDt, rfl, hlocal, .inl ⟨hge, rfl⟩⟩⟩
      · exact ⟨_, .inr ⟨start, startDt, rfl, hlocal, .inr ⟨hlt, hbefore hlt, rfl⟩⟩⟩

/-- Where the first date is as it should be, its trigger is asked at an instant. -/
theorem anchor_of_startsWell (h : StartsWell Z s days at_ now) : ∃ anchor, s.anchor Z now = some anchor := by
  refine exists_anchor_iff.mpr fun start hstart => ?_
  obtain ⟨startDt, hlocal, hbefore⟩ := h start hstart
  exact ⟨startDt, hlocal, fun hlt => (hbefore hlt).1⟩

/-- A point in time after an instant is not before the second that this instant is in. -/
theorem le_second_of_after {n : Int} (hle : seconds n ≤ now) (h : (DateTime.ofInstant now).lt t = true) : seconds n ≤ t.second := by
  rw [DateTime.lt_iff] at h
  unfold DateTime.ofInstant at h
  dsimp only at h
  unfold seconds Instant at *
  omega

/-- What is asked for before the first date is what is still to come from it on. -/
theorem asked_iff (hZ : Z.Berlin) (hat : at_.secs < 86400) (hstart : StartsWell Z s days at_ now)
    (ha : s.anchor Z now = some anchor) (hu : FiresOn Z days at_ date u) :
    ((DateTime.ofInstant anchor).lt u = true ∧ Z.date anchor ≤ date) ↔
      ((DateTime.ofInstant now).lt u = true ∧ Z.date now ≤ date ∧ Started Z s u) := by
  rcases anchor_eq_some_iff.mp ha with ⟨hnone, rfl⟩ | ⟨start, startDt, hsome, hlocal, ⟨hge, rfl⟩ | ⟨hlt, -, rfl⟩⟩
  · have hstarted : Started Z s u := by
      intro start hsome
      rw [hnone] at hsome
      cases hsome
    exact ⟨fun h => ⟨h.1, h.2, hstarted⟩, fun h => ⟨h.1, h.2.1⟩⟩
  · refine ⟨fun h => ⟨h.1, h.2, fun start' hsome' => ?_⟩, fun h => ⟨h.1, h.2.1⟩⟩
    obtain rfl := Option.some.inj (hsome.symm.trans hsome')
    obtain ⟨n, rfl⟩ := midnight_whole hZ hlocal
    exact not_lt.mp fun hbefore => absurd ((lt_midnight_iff hZ hlocal _).mpr hbefore) (not_lt_of_ge (le_second_of_after hge h.1))
  · obtain ⟨startDt', hlocal', hbefore⟩ := hstart start hsome
    obtain rfl := LocalResult.single.inj (hlocal.symm.trans hlocal')
    obtain ⟨-, hearly⟩ := hbefore hlt
    obtain ⟨n, rfl⟩ := midnight_whole hZ hlocal
    obtain ⟨m, hm⟩ := hu.onDate.whole hZ
    have hdates := hu.onDate.date_le hZ hat
    have hnow : Z.date now < start := (lt_midnight_iff hZ hlocal now).mp hlt
    have hasked : seconds n + seconds (-1) < seconds n := by
      unfold seconds Instant at *
      omega
    have hstarted : Started Z s u ↔ seconds n ≤ u.second := by
      rw [← not_lt, lt_midnight_iff hZ hlocal]
      constructor
      · exact fun h => not_lt.mpr (h start hsome)
      · intro h start' hsome'
        obtain rfl := Option.some.inj (hsome.symm.trans hsome')
        exact not_lt.mp h
    constructor
    · rintro ⟨hafter, -⟩
      have hle : seconds n ≤ u.second := by
        rw [← seconds_add, ofInstant_seconds, DateTime.lt_iff] at hafter
        rcases hafter with hafter | ⟨heq, hfrac⟩
        · rw [hm] at hafter ⊢
          dsimp only at hafter
          unfold seconds Instant at *
          omega
        · rw [hearly date u hu (heq.symm.trans (seconds_add n (-1)))] at hfrac
          cases hfrac
      have hdate := hstarted.mpr hle start hsome
      exact ⟨lt_of_second (lt_of_lt_of_le hlt hle), by unfold NaiveDate at *; omega, hstarted.mpr hle⟩
    · rintro ⟨-, -, hwell⟩
      have hle := hstarted.mp hwell
      have hdate := hwell start hsome
      have hanchor := (lt_midnight_iff hZ hlocal _).mp hasked
      exact ⟨lt_of_second (lt_of_lt_of_le hasked hle), by unfold NaiveDate at *; omega⟩

/-! ## What is found -/

theorem exists_nextInRange (hZ : Z.Berlin) (hat : at_.secs < 86400)
    (h : ∃ date t, FiresOn Z days at_ date t ∧ (DateTime.ofInstant now).lt t = true ∧ s.Covers (Z.date t.second)) :
    ∃ date t, NextInRange Z s days at_ now date t := by
  obtain ⟨date, t, hfires, hafter, hcovered, hleast⟩ :=
    exists_least_fire (Q := fun _ t => s.Covers (Z.date t.second)) hZ hat h
  exact ⟨date, t, hfires, hafter, hcovered, hleast⟩

/-- What is exact does not panic: there is a least fire to find, or none. -/
theorem RangeExact.ne_panics (hZ : Z.Berlin) (hat : at_.secs < 86400) (h : RangeExact Z s days at_ now) :
    s.nextActiveFire Z now ≠ .panics := by
  intro hpanics
  by_cases hex : ∃ date t, FiresOn Z days at_ date t ∧ (DateTime.ofInstant now).lt t = true ∧ s.Covers (Z.date t.second)
  · obtain ⟨date, t, hnext⟩ := exists_nextInRange hZ hat hex
    rw [(h.fire t).mpr ⟨date, hnext⟩] at hpanics
    cases hpanics
  · have hended := h.ended.mpr fun date t hfires hafter hcovered => hex ⟨date, t, hfires, hafter, hcovered⟩
    rw [hended] at hpanics
    cases hpanics

theorem dates_of_validate {R : Render} {pre : String} (hvalid : s.validate R pre = []) :
    ∀ start end_, s.startDate = some start → s.endDate = some end_ → start ≤ end_ := by
  intro start end_ hstart hend
  unfold Schedule.validate at hvalid
  rw [hstart, hend] at hvalid
  simp only [List.append_eq_nil_iff, errorIf] at hvalid
  obtain ⟨-, hdates⟩ := hvalid
  by_contra hlt
  rw [if_pos (decide_eq_true (not_le.mp hlt))] at hdates
  cases hdates

/-- The end of a date cuts off what is on a later date, and what is in its last second but not at the beginning. -/
theorem end_lt_fire_iff (hZ : Z.Berlin) {end_ : NaiveDate}
    (h : Z.fromLocal (andTime end_ (.fromHms 23 59 59)) = .single endDt) (hfires : FiresOn Z days at_ date t) :
    (DateTime.ofInstant endDt).lt t = false ↔ Z.date t.second ≤ end_ ∧ (t.second = endDt → t.frac = 0) := by
  have hend : andTime end_ (.fromHms 23 59 59) = seconds (end_ * 86400 + 86399) := by simp [andTime, NaiveTime.fromHms]
  obtain ⟨n, rfl⟩ : ∃ n, endDt = seconds n := by
    rw [hend] at h
    exact whole_of_reads (hZ.reads _ _ (by rw [h]; rfl))
  rw [Bool.eq_false_iff, Ne, ofInstant_seconds, DateTime.lt_iff, not_or, end_lt_iff hZ h hfires, not_lt, not_and, Nat.pos_iff_ne_zero,
    not_not, eq_comm (a := seconds n)]

theorem le_of_anchor (ha : s.anchor Z now = some anchor) (hnow : inRange now) : seconds (-8334601315200) ≤ anchor := by
  rcases anchor_eq_some_iff.mp ha with ⟨-, rfl⟩ | ⟨start, startDt, -, -, ⟨-, rfl⟩ | ⟨-, hin, rfl⟩⟩
  · exact hnow.1
  · exact hnow.1
  · exact hin.1

theorem date_le_of_not_lt (hZ : Z.Berlin) (h : u.lt t = false) : Z.date t.second ≤ Z.date u.second := by
  refine hZ.ordered _ _ (not_lt.mp fun hlt => ?_)
  rw [DateTime.lt_iff.mpr (.inl hlt)] at h
  cases h

/-- Where nothing goes wrong, the trigger's first fire is the least one on the dates of the schedule, or there is none. -/
theorem rangeExact_of_precise (hZ : Z.Berlin) (hat : at_.secs < 86400) (htrigger : s.trigger = .calendar days at_)
    (hnow : inRange now) (h : Precise Z s days at_ now) : RangeExact Z s days at_ now := by
  obtain ⟨anchor, ha⟩ := anchor_of_startsWell h.start
  have hasked : ∀ date u, FiresOn Z days at_ date u → (((DateTime.ofInstant anchor).lt u = true ∧ Z.date anchor ≤ date) ↔
      ((DateTime.ofInstant now).lt u = true ∧ Z.date now ≤ date ∧ Started Z s u)) :=
    fun date u hu => asked_iff hZ hat h.start ha hu
  -- the trigger fires from the anchor on
  obtain ⟨later, v, hv, hvafter, hvdate, hvstarted⟩ := h.later
  obtain ⟨hvanchor, hvonward⟩ := (hasked later v hv).mpr ⟨hvafter, hvdate, hvstarted⟩
  obtain ⟨date, f, hf, hfafter, hfonward, hfleast⟩ :=
    exists_least_fire (Q := fun date _ => Z.date anchor ≤ date) hZ hat ⟨later, v, hv, hvanchor, hvonward⟩
  have hfirst : FirstFrom Z days at_ anchor date f :=
    ⟨hf, hfafter, hfonward, fun date' u hle hu hafter => hfleast date' u hu hafter hle⟩
  have hnext : s.trigger.nextFireAfter Z anchor = some f := by
    rw [htrigger]
    exact (nextCalendar_iff hZ hat (le_of_anchor ha hnow)).mpr ⟨date, hfirst⟩
  obtain ⟨hfnow, hfdate, hfstarted⟩ := (hasked date f hf).mp ⟨hfafter, hfonward⟩
  -- no fire on the dates of the schedule is less
  have hleast : ∀ date' u, NextInRange Z s days at_ now date' u → u.lt f = false := by
    intro date' u hu
    obtain ⟨hafter, honward⟩ := (hasked date' u hu.fires).mpr ⟨hu.after, h.uncarried date' u hu, hu.covered.start⟩
    exact hfleast date' u hu.fires hafter honward
  have hinRange : s.Covers (Z.date f.second) → NextInRange Z s days at_ now date f := by
    intro hcovered
    obtain ⟨date', u, hu⟩ := exists_nextInRange hZ hat ⟨date, f, hf, hfnow, hcovered⟩
    obtain rfl := fire_eq_of_not_lt hZ hu.fires hf (hleast date' u hu) (hu.least date f hf hfnow hcovered)
    exact ⟨hf, hfnow, hcovered, hu.least⟩
  have hend : ∀ end_, s.endDate = some end_ → ∃ endDt, (Z.fromLocal (andTime end_ (.fromHms 23 59 59))).single? = some endDt := by
    intro end_ hdate
    obtain ⟨endDt, hlocal, -⟩ := h.end_ end_ hdate
    exact ⟨endDt, single?_eq_some_iff.mpr hlocal⟩
  have hcovers : s.Covers (Z.date f.second) ↔ s.Lasts Z f := by
    constructor
    · intro hcovered end_ hdate
      obtain ⟨endDt, hlocal, hlast⟩ := h.end_ end_ hdate
      refine ⟨endDt, single?_eq_some_iff.mpr hlocal, (end_lt_fire_iff hZ hlocal hf).mpr ⟨hcovered.end_ end_ hdate, ?_⟩⟩
      exact hlast date f (hinRange hcovered)
    · intro hlasts
      refine ⟨hfstarted, fun end_ hdate => ?_⟩
      obtain ⟨endDt, hlocal, hlt⟩ := hlasts end_ hdate
      exact ((end_lt_fire_iff hZ (single?_eq_some_iff.mp hlocal) hf).mp hlt).1
  rcases nextActiveFire_of_next ha hnext hend with ⟨hlasts, hfire⟩ | ⟨hlasts, hended⟩
  · have hmine := hinRange (hcovers.mpr hlasts)
    refine ⟨fun t => ?_, ?_⟩
    · rw [hfire, NextFire.fire.injEq]
      constructor
      · rintro rfl
        exact ⟨date, hmine⟩
      · rintro ⟨date', ht⟩
        exact (fire_eq_of_not_lt hZ ht.fires hf (hleast date' t ht) (ht.least date f hf hfnow hmine.covered)).symm
    · rw [hfire]
      refine iff_of_false (fun heq => by cases heq) fun hnone => ?_
      exact hnone date f hf hfnow hmine.covered
  · have hnone : ∀ date' u, ¬ NextInRange Z s days at_ now date' u := by
      intro date' u hu
      refine hlasts (hcovers.mp ⟨hfstarted, fun end_ hdate => ?_⟩)
      exact (date_le_of_not_lt hZ (hleast date' u hu)).trans (hu.covered.end_ end_ hdate)
    refine ⟨fun t => ?_, ?_⟩
    · rw [hended]
      refine iff_of_false (fun heq => by cases heq) ?_
      rintro ⟨date', ht⟩
      exact hnone date' t ht
    · refine iff_of_true hended fun date' t ht hafter hcovered => ?_
      obtain ⟨date', u, hu⟩ := exists_nextInRange hZ hat ⟨date', t, ht, hafter, hcovered⟩
      exact hnone date' u hu

/-! ## What goes wrong -/

/-- A fire in the second before a midnight is not carried over the midnight before. -/
theorem date_le_of_before_midnight (hZ : Z.Berlin) (hat : at_.secs < 86400) {start : NaiveDate}
    (hlocal : Z.fromLocal (andTime start (.fromHms 0 0 0)) = .single startDt) (ht : FiresOn Z days at_ date t)
    (hsecond : t.second = startDt + seconds (-1)) : Z.date (startDt + seconds (-1)) ≤ date := by
  have hbefore : startDt + seconds (-1) < startDt := by
    unfold seconds Instant
    omega
  have hdate := (lt_midnight_iff hZ hlocal _).mp hbefore
  rw [andTime_midnight] at hlocal
  have hmidnight : Z.local startDt = seconds (start * 86400) := hZ.reads _ _ (by rw [hlocal]; rfl)
  have hstart := hZ.ahead startDt
  have hasked := hZ.ahead (startDt + seconds (-1))
  rcases ht.onDate.reads hZ with hreads | hreads
  all_goals
    rw [hsecond] at hreads
    rw [date_of_reads hreads] at hdate ⊢
    unfold Zone.local at hreads hmidnight
    unfold seconds Instant NaiveDate NaiveDateTime at *
    omega

/-- A fire after the beginning of the second before the first midnight is found, and is not on the dates of the schedule. -/
theorem not_rangeExact_of_early (hZ : Z.Berlin) (hat : at_.secs < 86400) (htrigger : s.trigger = .calendar days at_)
    (hdates : ∀ start end_, s.startDate = some start → s.endDate = some end_ → start ≤ end_) {start : NaiveDate}
    (hstart : s.startDate = some start) (hlocal : Z.fromLocal (andTime start (.fromHms 0 0 0)) = .single startDt)
    (hlt : now < startDt) (hin : inRange (startDt + seconds (-1))) (ht : FiresOn Z days at_ date t)
    (hsecond : t.second = startDt + seconds (-1)) (hfrac : t.frac ≠ 0) : ¬ RangeExact Z s days at_ now := by
  intro hexact
  obtain ⟨⟨a, f, ha, hf⟩, hend⟩ := nextActiveFire_ne_panics_iff.mp (hexact.ne_panics hZ hat)
  obtain rfl : a = startDt + seconds (-1) := by
    have hanchor : s.anchor Z now = some (startDt + seconds (-1)) :=
      anchor_eq_some_iff.mpr (.inr ⟨start, startDt, hstart, hlocal, .inr ⟨hlt, hin, rfl⟩⟩)
    exact Option.some.inj (ha.symm.trans hanchor)
  have hnext := hf
  rw [htrigger] at hf
  obtain ⟨date', hfirst⟩ := (nextCalendar_iff hZ hat hin.1).mp hf
  obtain ⟨n, rfl⟩ := midnight_whole hZ hlocal
  have hbefore : t.second < seconds n := by
    rw [hsecond]
    unfold seconds Instant
    omega
  have hafter : (DateTime.ofInstant (seconds n + seconds (-1))).lt t = true := by
    rw [← seconds_add, ofInstant_seconds, DateTime.lt_iff]
    exact .inr ⟨(seconds_add n (-1)).trans hsecond.symm, Nat.pos_of_ne_zero hfrac⟩
  have hle := hfirst.least date t (date_le_of_before_midnight hZ hat hlocal ht hsecond) ht hafter
  -- what is found is on a date before the first one
  have hearly : Z.date f.second < start := by
    refine (lt_midnight_iff hZ hlocal _).mp (lt_of_le_of_lt (not_lt.mp fun hgt => ?_) hbefore)
    rw [DateTime.lt_iff.mpr (.inl hgt)] at hle
    cases hle
  rcases nextActiveFire_of_next ha hnext hend with ⟨-, hfire⟩ | ⟨hlasts, -⟩
  · obtain ⟨date'', hmine⟩ := (hexact.fire f).mp hfire
    exact absurd hearly (not_lt_of_ge (hmine.covered.start start hstart))
  · refine hlasts fun end_ hdate => ?_
    obtain ⟨endDt, hdt⟩ := hend end_ hdate
    have hstartEnd := hdates start end_ hstart hdate
    refine ⟨endDt, hdt, (end_lt_fire_iff hZ (single?_eq_some_iff.mp hdt) hfirst.fires).mpr ⟨(hearly.trans_le hstartEnd).le, ?_⟩⟩
    intro heq
    rw [heq, date_of_end hZ (single?_eq_some_iff.mp hdt)] at hearly
    exact absurd hearly (not_lt_of_ge hstartEnd)

/-- An exact schedule is one where nothing goes wrong. -/
theorem precise_of_rangeExact (hZ : Z.Berlin) (hat : at_.secs < 86400) (htrigger : s.trigger = .calendar days at_)
    (hdates : ∀ start end_, s.startDate = some start → s.endDate = some end_ → start ≤ end_)
    (hnow : inRange now) (h : RangeExact Z s days at_ now) : Precise Z s days at_ now := by
  obtain ⟨⟨anchor, f, ha, hnext⟩, hend⟩ := nextActiveFire_ne_panics_iff.mp (h.ne_panics hZ hat)
  have hf := hnext
  rw [htrigger] at hf
  obtain ⟨date, hfirst⟩ := (nextCalendar_iff hZ hat (le_of_anchor ha hnow)).mp hf
  have hstart : StartsWell Z s days at_ now := by
    intro start hsome
    rcases anchor_eq_some_iff.mp ha with ⟨hnone, -⟩ | ⟨start', startDt, hsome', hlocal, hasked⟩
    · rw [hsome] at hnone
      cases hnone
    · obtain rfl := Option.some.inj (hsome.symm.trans hsome')
      refine ⟨startDt, hlocal, fun hlt => ?_⟩
      rcases hasked with ⟨hge, -⟩ | ⟨-, hin, -⟩
      · exact absurd hlt (not_lt_of_ge hge)
      · refine ⟨hin, fun date t ht hsecond => ?_⟩
        by_contra hfrac
        exact not_rangeExact_of_early hZ hat htrigger hdates hsome hlocal hlt hin ht hsecond hfrac h
  obtain ⟨hafter, hdate, hstarted⟩ := (asked_iff hZ hat hstart ha hfirst.fires).mp ⟨hfirst.after, hfirst.onward⟩
  refine ⟨hstart, fun end_ hsome => ?_, ⟨date, f, hfirst.fires, hafter, hdate, hstarted⟩, fun date' t ht => ?_⟩
  · obtain ⟨endDt, hdt⟩ := hend end_ hsome
    refine ⟨endDt, single?_eq_some_iff.mp hdt, fun date' t ht => ?_⟩
    obtain ⟨-, -, -, hlasts⟩ := nextActiveFire_eq_fire.mp ((h.fire t).mpr ⟨date', ht⟩)
    obtain ⟨endDt', hdt', hlt⟩ := hlasts end_ hsome
    obtain rfl := Option.some.inj (hdt.symm.trans hdt')
    exact ((end_lt_fire_iff hZ (single?_eq_some_iff.mp hdt) ht.fires).mp hlt).2
  · obtain ⟨a, ha', ht', -⟩ := nextActiveFire_eq_fire.mp ((h.fire t).mpr ⟨date', ht⟩)
    obtain rfl := Option.some.inj (ha.symm.trans ha')
    obtain rfl := Option.some.inj (hnext.symm.trans ht')
    rwa [ht.fires.onDate.date_unique hZ hfirst.fires.onDate]

/-- A calendar schedule fires at the least fire on its dates, and has ended exactly where there is none, exactly where nothing of
what can go wrong does. -/
theorem range_exact_iff_precise (hZ : Z.Berlin) (R : Render) (pre : String) (hvalid : s.validate R pre = [])
    (htrigger : s.trigger = .calendar days at_) (hat : at_.secs < 86400) (hnow : inRange now) :
    RangeExact Z s days at_ now ↔ Precise Z s days at_ now :=
  ⟨precise_of_rangeExact hZ hat htrigger (dates_of_validate hvalid) hnow, rangeExact_of_precise hZ hat htrigger hnow⟩

/-! ## Two schedules -/

/-- Noon, from the day after a long night for a week. -/
def noonWeek : Schedule where
  name := "ping"
  message := "hi"
  trigger := .calendar ⟨∅⟩ (.fromHms 12 0 0)
  startDate := some 20752
  endDate := some 20758
  enabled := true

theorem frac_noon {Z : Zone} (h : OnDate Z (.fromHms 12 0 0) date t) : t.frac = 0 := by
  cases h <;> rfl

theorem precise_noonWeek : Precise autumnTime noonWeek ⟨∅⟩ (.fromHms 12 0 0) (seconds 1792879200) := by
  refine ⟨fun start hstart => ?_, fun end_ hend => ?_, ?_, fun date t hnext => ?_⟩
  · obtain rfl := Option.some.inj hstart
    exact ⟨seconds 1792969200, single?_eq_some_iff.mp (by decide), fun _ => ⟨by decide, fun _ _ ht _ => frac_noon ht.onDate⟩⟩
  · obtain rfl := Option.some.inj hend
    exact ⟨seconds 1793573999, single?_eq_some_iff.mp (by decide), fun _ _ ht _ => frac_noon ht.fires.onDate⟩
  · refine ⟨20752, ⟨seconds 1793012400, 0⟩, ⟨by decide, by decide, .read (by decide)⟩, by decide, by decide, ?_⟩
    intro start hstart
    obtain rfl := Option.some.inj hstart
    decide
  · have hdate := (hnext.fires.onDate.date_le berlin_autumnTime (by decide)).2
    have hstart := hnext.covered.start 20752 rfl
    have hnow : autumnTime.date (seconds 1792879200) = 20751 := by decide
    rw [hnow]
    unfold NaiveDate at *
    omega

/-- It is exact the noon before. -/
theorem range_exact_noonWeek : RangeExact autumnTime noonWeek ⟨∅⟩ (.fromHms 12 0 0) (seconds 1792879200) :=
  (range_exact_iff_precise berlin_autumnTime ⟨String.ofList, id⟩ "schedules[0]" (by decide +kernel) rfl (by decide)
    (by decide)).mpr precise_noonWeek

/-- Half a second before midnight, until the day after a long night. -/
def lastMoment : Schedule where
  name := "ping"
  message := "hi"
  trigger := .calendar ⟨∅⟩ ⟨86399, 500000000⟩
  startDate := none
  endDate := some 20752
  enabled := true

/-- At noon of its last day it has ended, although it is still to fire on that day. -/
theorem last_moment_lost :
    lastMoment.validate ⟨String.ofList, id⟩ "schedules[0]" = [] ∧
      lastMoment.nextActiveFire autumnTime (seconds 1793012400) = .ended ∧
      FiresOn autumnTime ⟨∅⟩ ⟨86399, 500000000⟩ 20752 ⟨seconds 1793055599, 500000000⟩ ∧
      autumnTime.date (seconds 1793055599) = 20752 ∧
      ¬ RangeExact autumnTime lastMoment ⟨∅⟩ ⟨86399, 500000000⟩ (seconds 1793012400) := by
  have hended : lastMoment.nextActiveFire autumnTime (seconds 1793012400) = .ended := by decide
  have hfires : FiresOn autumnTime ⟨∅⟩ ⟨86399, 500000000⟩ 20752 ⟨seconds 1793055599, 500000000⟩ :=
    ⟨by decide, by decide, .read (by decide)⟩
  have hdate : autumnTime.date (seconds 1793055599) = 20752 := by decide
  refine ⟨by decide +kernel, hended, hfires, hdate, fun hexact => ?_⟩
  refine hexact.ended.mp hended 20752 _ hfires (by decide) ⟨fun start hstart => ?_, fun end_ hend => ?_⟩
  · cases hstart
  · obtain rfl := Option.some.inj hend
    exact hdate.le

end Twitch1337.Schedules
