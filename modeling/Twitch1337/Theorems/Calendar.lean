import Twitch1337.Theorems.Zones

/-!
# The fires of a calendar trigger

A calendar trigger fires at its time of day on each date it allows: at the first of two instants, and an hour later where there is
none. It finds the least fire after the instant it is asked at, unless this lies on a later date than the one it is the fire of, and
the instant asked at is on that later date already.
-/

namespace Twitch1337.Schedules

open Chrono

variable {Z : Zone} {days : WeekdaySet} {at_ : NaiveTime} {date date' : NaiveDate} {t u : DateTime} {now : Instant}

/-! ## Fires -/

/-- A point in time is a time of day on a date. -/
inductive OnDate (Z : Zone) (at_ : NaiveTime) (date : NaiveDate) : DateTime → Prop
  | read {t : Instant} (h : (Z.fromLocal (seconds (date * 86400 + at_.secs))).first? = some t) : OnDate Z at_ date ⟨t, at_.frac⟩
  /-- What is added to a leap second is added to the second before it. -/
  | gap {t : Instant} (h : Z.fromLocal (seconds (date * 86400 + at_.secs)) = .none)
    (hlater : Z.fromLocal (seconds (date * 86400 + at_.secs) + seconds 3600) = .single t) :
    OnDate Z at_ date ⟨t, at_.frac % 1000000000⟩

/-- A trigger fires on a date of the calendar at a point in time. -/
structure FiresOn (Z : Zone) (days : WeekdaySet) (at_ : NaiveTime) (date : NaiveDate) (t : DateTime) : Prop where
  inRange : inRange (seconds (date * 86400))
  allowed : days.allows (weekdayOf date) = true
  onDate : OnDate Z at_ date t

/-- The least fire after an instant, and its date. -/
structure NextFireOn (Z : Zone) (days : WeekdaySet) (at_ : NaiveTime) (now : Instant) (date : NaiveDate) (t : DateTime) :
    Prop where
  fires : FiresOn Z days at_ date t
  after : (DateTime.ofInstant now).lt t = true
  least : ∀ date' u, FiresOn Z days at_ date' u → (DateTime.ofInstant now).lt u = true → u.lt t = false

/-- A trigger that is asked at an instant finds its least fire on one of the eight days of its scan, and the same one at every
instant from then on until it fires. -/
def FindsLeast (Z : Zone) (days : WeekdaySet) (at_ : NaiveTime) (now : Instant) : Prop :=
  ∃ date t, NextFireOn Z days at_ now date t ∧
    (∃ o : Nat, o < 8 ∧ (∀ o' < o, Passes Z now days at_ (Z.date now + (o' : Int))) ∧
      Stops Z now days at_ (Z.date now + (o : Int)) t) ∧
    ∀ now', now ≤ now' → (DateTime.ofInstant now').lt t = true →
      (Trigger.calendar days at_).nextFireAfter Z now' = some t

/-- No instant from now until the least fire is on a later date than the one of this fire. -/
def Uncarried (Z : Zone) (days : WeekdaySet) (at_ : NaiveTime) (now : Instant) : Prop :=
  ∃ date t, NextFireOn Z days at_ now date t ∧
    ∀ now', now ≤ now' → (DateTime.ofInstant now').lt t = true → Z.date now' ≤ date

/-! ## Points in time -/

theorem DateTime.lt_trans {a b c : DateTime} (hab : a.lt b = true) (hbc : b.lt c = true) : a.lt c = true := by
  rw [DateTime.lt_iff] at *
  unfold Instant at *
  omega

theorem DateTime.lt_irrefl (a : DateTime) : a.lt a = false := by
  rw [Bool.eq_false_iff, Ne, DateTime.lt_iff]
  rintro (h | ⟨-, h⟩)
  · exact absurd h (Int.lt_irrefl _)
  · exact absurd h (Nat.lt_irrefl _)

theorem DateTime.not_lt_of_lt {a b : DateTime} (h : a.lt b = true) : b.lt a = false := by
  cases hba : b.lt a with
  | false => rfl
  | true =>
    have hcycle := DateTime.lt_trans h hba
    rw [DateTime.lt_irrefl] at hcycle
    cases hcycle

theorem DateTime.lt_of_le_of_lt {now now' : Instant} (hle : now ≤ now') (h : (DateTime.ofInstant now').lt t = true) :
    (DateTime.ofInstant now).lt t = true := by
  rcases eq_or_lt_of_le hle with rfl | hlt
  · exact h
  · exact DateTime.lt_trans (lt_ofInstant.mpr hlt) h

/-! ## One date -/

theorem calendarInstant_eq_some_iff (hZ : Z.Berlin) (hat : at_.secs < 86400) (hin : inRange (seconds (date * 86400))) :
    calendarInstant Z now date at_ = some t ↔ OnDate Z at_ date t := by
  constructor
  · intro h
    unfold calendarInstant at h
    dsimp only at h
    split at h
    · rename_i hlocal
      obtain rfl := Option.some.inj h
      exact .read (by rw [hlocal]; rfl)
    · rename_i hlocal
      obtain rfl := Option.some.inj h
      exact .read (by rw [hlocal]; rfl)
    · rename_i hlocal
      split at h
      · rename_i hbump
        have hnaive : inRange (seconds (date * 86400 + at_.secs)) := by
          unfold inRange seconds Instant NaiveDate at *
          omega
        obtain ⟨u, hu⟩ := hZ.gap _ hnaive hbump hlocal
        rw [hu] at h
        obtain rfl := Option.some.inj h
        exact .gap hlocal hu
      · cases h
  · intro h
    unfold calendarInstant
    dsimp only
    cases h with
    | read h =>
      cases hlocal : Z.fromLocal (seconds (date * 86400 + at_.secs)) with
      | single t =>
        rw [hlocal] at h
        obtain rfl := Option.some.inj h
        rfl
      | ambiguous t t' =>
        rw [hlocal] at h
        obtain rfl := Option.some.inj h
        rfl
      | none =>
        rw [hlocal] at h
        cases h
    | gap h hlater =>
      have hbump : inRange (seconds (date * 86400 + at_.secs) + seconds 3600) := by
        by_contra hout
        rw [hZ.beyond _ hout] at hlater
        cases hlater
      rw [h, hlater]
      exact if_pos hbump

theorem OnDate.unique (h : OnDate Z at_ date t) (h' : OnDate Z at_ date u) : t = u := by
  cases h with
  | read h =>
    cases h' with
    | read h' =>
      obtain rfl := Option.some.inj (h.symm.trans h')
      rfl
    | gap h' _ =>
      rw [h'] at h
      cases h
  | gap h hlater =>
    cases h' with
    | read h' =>
      rw [h] at h'
      cases h'
    | gap _ hlater' =>
      obtain rfl := LocalResult.single.inj (hlater.symm.trans hlater')
      rfl

/-- What the clock reads at a time of day on a date: the time itself, or the time an hour later. -/
theorem OnDate.reads (hZ : Z.Berlin) (h : OnDate Z at_ date t) :
    Z.local t.second = seconds (date * 86400 + at_.secs) ∨ Z.local t.second = seconds (date * 86400 + at_.secs + 3600) := by
  cases h with
  | read h => exact .inl (hZ.reads _ _ h)
  | gap h hlater =>
    right
    rw [seconds_add]
    exact hZ.reads _ _ (by rw [hlater]; rfl)

/-- Times of day come in the order of their dates. -/
theorem OnDate.lt (hZ : Z.Berlin) (h : OnDate Z at_ date t) (h' : OnDate Z at_ date' u) (hlt : date < date') :
    t.lt u = true := by
  refine DateTime.lt_iff.mpr (.inl ?_)
  have ht := hZ.ahead t.second
  have hu := hZ.ahead u.second
  rcases h.reads hZ with hreads | hreads <;> rcases h'.reads hZ with hreads' | hreads'
  all_goals
    unfold Zone.local at hreads hreads'
    unfold seconds Instant NaiveDate NaiveDateTime at *
    omega

/-- A point in time is a time of day on one date only. -/
theorem OnDate.date_unique (hZ : Z.Berlin) (h : OnDate Z at_ date t) (h' : OnDate Z at_ date' t) : date = date' := by
  rcases lt_trichotomy date date' with hlt | heq | hgt
  · have hlt' := h.lt hZ h' hlt
    rw [DateTime.lt_irrefl] at hlt'
    cases hlt'
  · exact heq
  · have hlt' := h'.lt hZ h hgt
    rw [DateTime.lt_irrefl] at hlt'
    cases hlt'

/-- Before a date of the calendar every date has a point in time. -/
theorem exists_onDate (hZ : Z.Berlin) (hat : at_.secs < 86400) (hin : inRange (seconds (date * 86400)))
    (hlt : date < date') (hin' : inRange (seconds (date' * 86400))) : ∃ t, OnDate Z at_ date t := by
  cases hlocal : Z.fromLocal (seconds (date * 86400 + at_.secs)) with
  | single t => exact ⟨_, .read (t := t) (by rw [hlocal]; rfl)⟩
  | ambiguous t t' => exact ⟨_, .read (t := t) (by rw [hlocal]; rfl)⟩
  | none =>
    have hnaive : inRange (seconds (date * 86400 + at_.secs)) := by
      unfold inRange seconds Instant NaiveDate at *
      omega
    have hbump : inRange (seconds (date * 86400 + at_.secs) + seconds 3600) := by
      unfold inRange seconds Instant NaiveDate at *
      omega
    obtain ⟨u, hu⟩ := hZ.gap _ hnaive hbump hlocal
    exact ⟨_, .gap hlocal hu⟩

/-! ## The scan -/

/-- The dates from that of an instant on are in the calendar, up to one that is. -/
theorem inRange_of_le (hZ : Z.Berlin) (hnow : seconds (-8334601315200) ≤ now) (hle : Z.date now ≤ date) (hle' : date ≤ date')
    (hin : inRange (seconds (date' * 86400))) : inRange (seconds (date * 86400)) := by
  have hlow : -8334601315200 ≤ Z.date now * 86400 := by
    have hahead := hZ.ahead now
    unfold Zone.date Zone.local
    unfold seconds Instant NaiveDate NaiveDateTime at *
    omega
  unfold inRange seconds Instant NaiveDate at *
  omega

/-- The least fire after an instant of those that are on its date or on a later one. -/
structure FirstFrom (Z : Zone) (days : WeekdaySet) (at_ : NaiveTime) (now : Instant) (date : NaiveDate) (t : DateTime) : Prop where
  fires : FiresOn Z days at_ date t
  after : (DateTime.ofInstant now).lt t = true
  onward : Z.date now ≤ date
  least : ∀ date' u, Z.date now ≤ date' → FiresOn Z days at_ date' u → (DateTime.ofInstant now).lt u = true → u.lt t = false

/-- On an allowed date from that of the instant asked at on and before that of the first fire, the time is over. -/
theorem FirstFrom.passes (hZ : Z.Berlin) (hat : at_.secs < 86400) (hnow : seconds (-8334601315200) ≤ now)
    (h : FirstFrom Z days at_ now date' t) (hle : Z.date now ≤ date) (hlt : date < date') : Passes Z now days at_ date := by
  have hin := inRange_of_le hZ hnow hle hlt.le h.fires.inRange
  refine ⟨hin, fun hallowed => ?_⟩
  obtain ⟨u, hu⟩ := exists_onDate hZ hat hin hlt h.fires.inRange
  refine ⟨u, (calendarInstant_eq_some_iff hZ hat hin).mpr hu, ?_⟩
  cases hafter : (DateTime.ofInstant now).lt u with
  | false => rfl
  | true =>
    have hleast := h.least date u hle ⟨hin, hallowed, hu⟩ hafter
    rw [hu.lt hZ h.fires.onDate hlt] at hleast
    cases hleast

/-- The first fire is on one of the eight dates of the scan: one of the last seven is allowed, and its time is still to come. -/
theorem FirstFrom.date_lt (hZ : Z.Berlin) (hat : at_.secs < 86400) (hnow : seconds (-8334601315200) ≤ now)
    (h : FirstFrom Z days at_ now date t) : date < Z.date now + 8 := by
  by_contra hfar
  obtain ⟨o, h1, h8, hallowed⟩ := exists_allowed (Z.date now) days
  have hle : Z.date now ≤ Z.date now + (o : Int) := by unfold NaiveDate at *; omega
  have hlt : Z.date now + (o : Int) < date := by unfold NaiveDate at *; omega
  obtain ⟨hin, hpass⟩ := h.passes hZ hat hnow hle hlt
  obtain ⟨c, hc, hbefore⟩ := hpass hallowed
  rw [lt_calendarInstant hZ.toCivil hat hin hc (by unfold NaiveDate at *; omega)] at hbefore
  cases hbefore

/-- The scan stops at the first fire. -/
theorem FirstFrom.stops (hZ : Z.Berlin) (hat : at_.secs < 86400) (hnow : seconds (-8334601315200) ≤ now)
    (h : FirstFrom Z days at_ now date t) :
    ∃ o : Nat, o < 8 ∧ (∀ o' < o, Passes Z now days at_ (Z.date now + (o' : Int))) ∧
      Stops Z now days at_ (Z.date now + (o : Int)) t := by
  have hlt := h.date_lt hZ hat hnow
  have honward := h.onward
  obtain ⟨o, ho⟩ : ∃ o : Nat, date = Z.date now + (o : Int) := ⟨(date - Z.date now).toNat, by unfold NaiveDate at *; omega⟩
  refine ⟨o, by unfold NaiveDate at *; omega, fun o' ho' => ?_, ?_⟩
  · exact h.passes hZ hat hnow (by unfold NaiveDate at *; omega) (by unfold NaiveDate at *; omega)
  · rw [← ho]
    exact ⟨h.fires.inRange, h.fires.allowed, (calendarInstant_eq_some_iff hZ hat h.fires.inRange).mpr h.fires.onDate, h.after⟩

/-- A calendar trigger fires at the first fire from the date on that it is asked on. -/
theorem nextCalendar_iff (hZ : Z.Berlin) (hat : at_.secs < 86400) (hnow : seconds (-8334601315200) ≤ now) :
    nextCalendar Z now days at_ = some t ↔ ∃ date, FirstFrom Z days at_ now date t := by
  constructor
  · intro h
    obtain ⟨o, -, hpassed, hstop⟩ := (nextCalendar_eq_some hZ.toCivil hat).mp h
    have honDate := (calendarInstant_eq_some_iff hZ hat hstop.inRange).mp hstop.found
    refine ⟨Z.date now + (o : Int), ⟨hstop.inRange, hstop.allowed, honDate⟩, hstop.after, by unfold NaiveDate at *; omega, ?_⟩
    intro date' u hle hu hafter
    rcases lt_trichotomy date' (Z.date now + (o : Int)) with hlt | rfl | hgt
    · obtain ⟨o', ho'⟩ : ∃ o' : Nat, date' = Z.date now + (o' : Int) :=
        ⟨(date' - Z.date now).toNat, by unfold NaiveDate at *; omega⟩
      obtain ⟨hin, hpass⟩ := hpassed o' (by unfold NaiveDate at *; omega)
      rw [← ho'] at hin hpass
      obtain ⟨c, hc, hbefore⟩ := hpass hu.allowed
      rw [((calendarInstant_eq_some_iff hZ hat hin).mp hc).unique hu.onDate, hafter] at hbefore
      cases hbefore
    · rw [hu.onDate.unique honDate]
      exact DateTime.lt_irrefl t
    · exact DateTime.not_lt_of_lt (honDate.lt hZ hu.onDate hgt)
  · rintro ⟨date, h⟩
    exact (nextCalendar_eq_some hZ.toCivil hat).mpr (h.stops hZ hat hnow)

/-! ## The least fire -/

/-- The least fire after an instant is the least one after every instant before it. -/
theorem NextFireOn.later {now' : Instant} (h : NextFireOn Z days at_ now date t) (hle : now ≤ now')
    (hlt : (DateTime.ofInstant now').lt t = true) : NextFireOn Z days at_ now' date t :=
  ⟨h.fires, hlt, fun date' u hu hafter => h.least date' u hu (DateTime.lt_of_le_of_lt hle hafter)⟩

theorem NextFireOn.firstFrom (h : NextFireOn Z days at_ now date t) (hdate : Z.date now ≤ date) :
    FirstFrom Z days at_ now date t :=
  ⟨h.fires, h.after, hdate, fun date' u _ hu hafter => h.least date' u hu hafter⟩

/-- A trigger finds its least fire exactly where no instant until then is on a later date than the one of this fire. -/
theorem finds_least_iff (hZ : Z.Berlin) (hat : at_.secs < 86400) (hnow : inRange now) :
    FindsLeast Z days at_ now ↔ Uncarried Z days at_ now := by
  constructor
  · rintro ⟨date, t, hnext, -, hstable⟩
    refine ⟨date, t, hnext, fun now' hle hlt => ?_⟩
    obtain ⟨date', hfirst⟩ := (nextCalendar_iff hZ hat (hnow.1.trans hle)).mp (hstable now' hle hlt)
    exact hnext.fires.onDate.date_unique hZ hfirst.fires.onDate ▸ hfirst.onward
  · rintro ⟨date, t, hnext, huncarried⟩
    refine ⟨date, t, hnext, (hnext.firstFrom (huncarried now le_rfl hnext.after)).stops hZ hat hnow.1, fun now' hle hlt => ?_⟩
    exact (nextCalendar_iff hZ hat (hnow.1.trans hle)).mpr ⟨date, (hnext.later hle hlt).firstFrom (huncarried now' hle hlt)⟩

/-! ## Two nights -/

theorem onDate_autumn : OnDate autumnTime (.fromHms 2 30 0) 20751 ⟨seconds 1792888200, 0⟩ := .read (by decide)

theorem onDate_autumn_before : OnDate autumnTime (.fromHms 2 30 0) 20750 ⟨seconds 1792801800, 0⟩ := .read (by decide)

theorem nextFireOn_autumn :
    NextFireOn autumnTime ⟨∅⟩ (.fromHms 2 30 0) (seconds 1792879200) 20751 ⟨seconds 1792888200, 0⟩ := by
  refine ⟨⟨by decide, by decide, onDate_autumn⟩, by decide, fun date u hu hafter => ?_⟩
  cases hbefore : u.lt ⟨seconds 1792888200, 0⟩ with
  | false => rfl
  | true =>
    rcases lt_trichotomy date 20751 with hlt | rfl | hgt
    · -- it is the time of the day before at the latest, which is over
      have hle : date ≤ 20750 := Int.lt_add_one_iff.mp hlt
      rcases eq_or_lt_of_le hle with rfl | hlt
      · obtain rfl := hu.onDate.unique onDate_autumn_before
        exact absurd hafter (by decide)
      · have hover := DateTime.lt_trans hafter (hu.onDate.lt berlin_autumnTime onDate_autumn_before hlt)
        exact absurd hover (by decide)
    · obtain rfl := hu.onDate.unique onDate_autumn
      rw [DateTime.lt_irrefl] at hbefore
      cases hbefore
    · rw [DateTime.not_lt_of_lt (onDate_autumn.lt berlin_autumnTime hu.onDate hgt)] at hbefore
      cases hbefore

/-- The first half past two of a long night. -/
theorem finds_least_autumn : FindsLeast autumnTime ⟨∅⟩ (.fromHms 2 30 0) (seconds 1792879200) := by
  refine (finds_least_iff berlin_autumnTime (by decide) (by decide)).mpr ⟨20751, _, nextFireOn_autumn, fun now' _ hlt => ?_⟩
  have hle : now' ≤ seconds 1792888200 := by
    have hbefore : now' < seconds 1792888200 := by
      rw [← ofInstant_seconds, lt_ofInstant] at hlt
      exact hlt
    exact hbefore.le
  have hdate := berlin_autumnTime.ordered _ _ hle
  have hlast : autumnTime.date (seconds 1792888200) = 20751 := by decide
  rwa [hlast] at hdate

/-- The half past eleven of a Sunday whose last hour was left out is half past midnight on Monday, which is not found ten minutes
after midnight. -/
theorem carried_fire_lost :
    FiresOn springTime ⟨{.sun}⟩ (.fromHms 23 30 0) (-19604) ⟨seconds (-1693704600), 0⟩ ∧
      (Trigger.calendar ⟨{.sun}⟩ (.fromHms 23 30 0)).nextFireAfter springTime (seconds (-1693705800)) =
        some ⟨seconds (-1693103400), 0⟩ ∧
      ¬ FindsLeast springTime ⟨{.sun}⟩ (.fromHms 23 30 0) (seconds (-1693705800)) := by
  have hfires : FiresOn springTime ⟨{.sun}⟩ (.fromHms 23 30 0) (-19604) ⟨seconds (-1693704600), 0⟩ :=
    ⟨by decide, by decide, .gap (first?_eq_none_iff.mp (by decide)) (single?_eq_some_iff.mp (by decide))⟩
  have hfire : (Trigger.calendar ⟨{.sun}⟩ (.fromHms 23 30 0)).nextFireAfter springTime (seconds (-1693705800)) =
      some ⟨seconds (-1693103400), 0⟩ := by decide
  refine ⟨hfires, hfire, ?_⟩
  rintro ⟨date, t, hnext, -, hstable⟩
  obtain rfl := Option.some.inj (hfire.symm.trans (hstable _ le_rfl hnext.after))
  have hleast := hnext.least _ _ hfires (by decide)
  exact absurd hleast (by decide)

end Twitch1337.Schedules
