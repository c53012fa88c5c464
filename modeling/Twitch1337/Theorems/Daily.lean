import Twitch1337.Memory.Ritual
import Twitch1337.Theorems.Zones

/-!
# The ritual and a daily trigger

The next ritual is the next fire of a calendar trigger of every day, unless the time of day is read twice on the date in question:
the trigger takes its first instant, and the ritual is an hour later on the clock.
-/

namespace Twitch1337.Memory

open Chrono Schedules

variable {Z : Zone} {date : NaiveDate} {time : NaiveTime} {now : Instant}

/-- A time of day is read twice on a date. -/
def Folds (Z : Zone) (date : NaiveDate) (time : NaiveTime) : Prop :=
  ∃ t t', Z.fromLocal (andTime date time) = .ambiguous t t'

/-- A time of day is over on a date: an hour later, where it has no instant of its own. -/
def Over (Z : Zone) (date : NaiveDate) (time : NaiveTime) (now : Instant) : Prop :=
  ∀ t, Z.fromLocal (andTime date time) = .single t ∨
    ((Z.fromLocal (andTime date time)).single? = none ∧ Z.fromLocal (andTime date time + seconds 3600) = .single t) → t ≤ now

/-- The time of day of a ritual is over today if it is read twice today, and it is not read twice tomorrow if it is over today. -/
structure Steady (Z : Zone) (time : NaiveTime) (now : Instant) : Prop where
  today : Folds Z (Z.date now) time → Over Z (Z.date now) time now
  tomorrow : Over Z (Z.date now) time now → ¬ Folds Z (Z.date now + 1) time

/-! ## One date -/

theorem resolveRunAt_eq_some_iff {t : Instant} :
    resolveRunAt Z date time = some t ↔ Z.fromLocal (andTime date time) = .single t ∨
      ((Z.fromLocal (andTime date time)).single? = none ∧ Z.fromLocal (andTime date time + seconds 3600) = .single t) := by
  rw [← single?_eq_some_iff, ← single?_eq_some_iff]
  unfold resolveRunAt
  dsimp only
  cases (Z.fromLocal (andTime date time)).single? with
  | some u => simp
  | none => simp

/-- A time of day is over exactly where its ritual is not still to come. -/
theorem over_iff : Over Z date time now ↔ (resolveRunAt Z date time).filter (fun t => decide (now < t)) = none := by
  simp only [Over, ← resolveRunAt_eq_some_iff, Option.filter_eq_none_iff, decide_eq_true_eq, not_lt]

/-- A time of day without a fraction on a date. -/
theorem andTime_whole (hfrac : time.frac = 0) : andTime date time = seconds (date * 86400 + time.secs) := by
  rw [andTime, hfrac]
  exact Int.add_zero _

theorem ofInstant_of_reads {t : Instant} (hfrac : time.frac = 0) {n : Int} (h : Z.local t = seconds n) :
    (⟨t, time.frac⟩ : DateTime) = .ofInstant t := by
  obtain ⟨m, rfl⟩ := whole_of_reads h
  rw [hfrac, ofInstant_seconds]

/-- Where a time of day is not read twice, the ritual and the trigger lie at the same instant. -/
theorem calendarInstant_eq_of_not_folds (hZ : Z.Berlin) (hfrac : time.frac = 0) (hsecs : time.secs < 86400)
    (hin : inRange (seconds (date * 86400))) (h : ¬ Folds Z date time) :
    calendarInstant Z now date time = (resolveRunAt Z date time).map DateTime.ofInstant := by
  rw [Folds, andTime_whole hfrac] at h
  unfold calendarInstant resolveRunAt
  rw [andTime_whole hfrac]
  dsimp only
  cases hlocal : Z.fromLocal (seconds (date * 86400 + time.secs)) with
  | single t =>
    have hreads : Z.local t = seconds (date * 86400 + time.secs) := hZ.reads _ _ (by rw [hlocal]; rfl)
    exact congrArg some (ofInstant_of_reads hfrac hreads)
  | ambiguous t t' => exact absurd ⟨t, t', hlocal⟩ h
  | none =>
    have hnaive : inRange (seconds (date * 86400 + time.secs)) := by
      unfold inRange at *
      unfold seconds Instant NaiveDate at *
      omega
    have hnone : LocalResult.none.single? = none := rfl
    dsimp only
    rw [hnone]
    dsimp only
    by_cases hbump : inRange (seconds (date * 86400 + time.secs) + seconds 3600)
    · rw [if_pos hbump]
      obtain ⟨u, hu⟩ := hZ.gap _ hnaive hbump hlocal
      have hreads : Z.local u = seconds (date * 86400 + time.secs + 3600) := by
        rw [seconds_add]
        exact hZ.reads _ _ (by rw [hu]; rfl)
      have hpoint := ofInstant_of_reads hfrac hreads
      rw [hfrac] at hpoint
      rw [hu, hfrac]
      exact congrArg some hpoint
    · rw [if_neg hbump, hZ.beyond _ hbump]
      rfl

/-- Where it is read twice, the trigger takes the first of its instants, and the ritual is later. -/
theorem calendarInstant_of_folds (hZ : Z.Berlin) (hfrac : time.frac = 0) (h : Folds Z date time) (now : Instant) :
    ∃ t u, calendarInstant Z now date time = some (.ofInstant t) ∧ resolveRunAt Z date time = some u ∧ t < u ∧
      Z.local u = seconds (date * 86400 + time.secs + 3600) := by
  obtain ⟨t, t', hlocal⟩ := h
  obtain ⟨u, hu, hlt⟩ := hZ.fold _ _ _ hlocal
  have hresolve : resolveRunAt Z date time = some u := by
    rw [resolveRunAt_eq_some_iff, hlocal]
    exact .inr ⟨rfl, hu⟩
  rw [andTime_whole hfrac] at hlocal hu
  refine ⟨t, u, ?_, hresolve, hlt, ?_⟩
  · have hreads : Z.local t = seconds (date * 86400 + time.secs) := hZ.reads _ _ (by rw [hlocal]; rfl)
    unfold calendarInstant
    dsimp only
    rw [hlocal]
    exact congrArg some (ofInstant_of_reads hfrac hreads)
  · rw [seconds_add]
    exact hZ.reads _ _ (by rw [hu]; rfl)

theorem ofInstant_inj {t u : Instant} : DateTime.ofInstant t = .ofInstant u ↔ t = u := by
  constructor
  · intro h
    obtain ⟨hsecond, hfrac⟩ := DateTime.mk.inj h
    unfold seconds Instant at *
    omega
  · rintro rfl
    rfl

/-- On a date after the calendar nothing is read. -/
theorem resolveRunAt_beyond (hZ : Z.Berlin) (hfrac : time.frac = 0) (hlow : -8334601315200 ≤ date * 86400)
    (hin : ¬ inRange (seconds (date * 86400))) : resolveRunAt Z date time = none ∧ ¬ Folds Z date time := by
  have hout : ¬ inRange (andTime date time) := by
    rw [andTime_whole hfrac]
    unfold inRange seconds Instant NaiveDate at *
    omega
  have hlater : ¬ inRange (andTime date time + seconds 3600) := by
    rw [andTime_whole hfrac]
    unfold inRange seconds Instant NaiveDate at *
    omega
  constructor
  · unfold resolveRunAt
    dsimp only
    rw [hZ.beyond _ hout, hZ.beyond _ hlater]
    rfl
  · rintro ⟨t, t', hfold⟩
    rw [hZ.beyond _ hout] at hfold
    cases hfold

/-- The trigger and the ritual agree about a date exactly where the time of day is not read twice on it. -/
theorem agree_iff_not_folds (hZ : Z.Berlin) (hfrac : time.frac = 0) (hsecs : time.secs < 86400) (now : Instant)
    (date : NaiveDate) (hlow : -8334601315200 ≤ date * 86400) :
    (resolveRunAt Z date time).map DateTime.ofInstant =
      (if inRange (seconds (date * 86400)) then calendarInstant Z now date time else none) ↔ ¬ Folds Z date time := by
  by_cases hin : inRange (seconds (date * 86400))
  · rw [if_pos hin]
    constructor
    · intro heq hfold
      obtain ⟨t, u, ht, hu, hlt, -⟩ := calendarInstant_of_folds hZ hfrac hfold now
      rw [ht, hu, Option.map_some, Option.some.injEq, ofInstant_inj] at heq
      exact absurd heq (ne_of_gt hlt)
    · intro hfold
      exact (calendarInstant_eq_of_not_folds hZ hfrac hsecs hin hfold).symm
  · obtain ⟨hresolve, hfold⟩ := resolveRunAt_beyond hZ hfrac hlow hin
    rw [if_neg hin, hresolve]
    exact iff_of_true rfl hfold

theorem calendarInstant_eq_none (h : calendarInstant Z now date time = none) :
    ¬ inRange (seconds (date * 86400 + time.secs) + seconds 3600) := by
  intro hbump
  unfold calendarInstant at h
  dsimp only at h
  split at h
  · cases h
  · cases h
  · rw [if_pos hbump] at h
    cases h

/-- Where an hour after a time of day is beyond the calendar, it ends with the date. -/
theorem not_inRange_next (hin : inRange (seconds (date * 86400))) (hsecs : time.secs < 86400)
    (h : ¬ inRange (seconds (date * 86400 + time.secs) + seconds 3600)) : ¬ inRange (seconds ((date + 1) * 86400)) := by
  unfold inRange seconds Instant NaiveDate at *
  omega

/-! ## Two dates -/

/-- A trigger of every day fires today if its time is still to come, else tomorrow. -/
theorem nextCalendar_daily (hZ : Z.Berlin) (hsecs : time.secs < 86400) (hin : inRange (seconds (Z.date now * 86400))) :
    nextCalendar Z now ⟨∅⟩ time = (calendarInstant Z now (Z.date now) time).bind fun c =>
      if (DateTime.ofInstant now).lt c then some c
      else if inRange (seconds ((Z.date now + 1) * 86400)) then calendarInstant Z now (Z.date now + 1) time else none := by
  have hall : ∀ day, (⟨∅⟩ : WeekdaySet).allows day = true := fun _ => rfl
  have hrange : List.range 8 = 0 :: 1 :: [2, 3, 4, 5, 6, 7] := rfl
  have hbase : Z.date now + ((0 : Nat) : Int) = Z.date now := Int.add_zero _
  have hnext : Z.date now + ((1 : Nat) : Int) = Z.date now + 1 := rfl
  rw [nextCalendar, hrange, scanDays, hbase]
  rw [if_pos hin, if_pos (hall _)]
  refine congrArg _ (funext fun c => ?_)
  split
  · rfl
  · rw [scanDays, hnext]
    split
    · rename_i hin'
      rw [if_pos (hall _)]
      cases hfound : calendarInstant Z now (Z.date now + 1) time with
      | none => rfl
      | some c' =>
        have hlater : Z.date now < Z.date now + 1 := Int.lt_add_one_iff.mpr le_rfl
        exact if_pos (lt_calendarInstant hZ.toCivil hsecs hin' hfound hlater)
    · rfl

/-- A point of a later date is not the one an hour after the time of day of today. -/
theorem ne_of_next_date (hZ : Z.Berlin) (hsecs : time.secs < 86400) {u : Instant}
    (hu : Z.local u = seconds (Z.date now * 86400 + time.secs + 3600)) :
    (if inRange (seconds ((Z.date now + 1) * 86400)) then calendarInstant Z now (Z.date now + 1) time else none) ≠
      some (.ofInstant u) := by
  intro heq
  split at heq
  · rename_i hin
    obtain ⟨m, rfl⟩ := whole_of_reads hu
    rw [ofInstant_seconds] at heq
    rcases calendarInstant_cases hZ.toCivil hsecs hin heq with ⟨-, hreads⟩ | ⟨-, hreads⟩
    · rw [hu] at hreads
      unfold seconds Instant NaiveDate NaiveDateTime at *
      omega
    · rw [hu] at hreads
      unfold seconds Instant NaiveDate NaiveDateTime at *
      omega
  · cases heq

/-! ## The next ritual -/

theorem nextRitual_of_over (h : Over Z (Z.date now) time now) :
    nextRitual Z time now = resolveRunAt Z (Z.date now + 1) time := by
  rw [nextRitual, over_iff.mp h]

theorem nextRitual_of_not_over (h : ¬ Over Z (Z.date now) time now) :
    ∃ u, resolveRunAt Z (Z.date now) time = some u ∧ now < u ∧ nextRitual Z time now = some u := by
  obtain ⟨u, hu⟩ := Option.ne_none_iff_exists'.mp (fun hnone => h (over_iff.mpr hnone))
  obtain ⟨hresolve, hlt⟩ := Option.filter_eq_some_iff.mp hu
  exact ⟨u, hresolve, of_decide_eq_true hlt, by rw [nextRitual, hu]⟩

/-- Beyond the calendar there is neither a ritual nor a fire. -/
theorem ritual_iff_steady_of_not_inRange (hZ : Z.Berlin) (hfrac : time.frac = 0)
    (hlow : -8334601315200 ≤ Z.date now * 86400) (hin : ¬ inRange (seconds (Z.date now * 86400))) :
    (nextRitual Z time now).map DateTime.ofInstant = nextCalendar Z now ⟨∅⟩ time ↔ Steady Z time now := by
  have hin' : ¬ inRange (seconds ((Z.date now + 1) * 86400)) := by
    unfold inRange seconds Instant NaiveDate at *
    omega
  obtain ⟨hresolve, hfold⟩ := resolveRunAt_beyond hZ hfrac hlow hin
  obtain ⟨hresolve', hfold'⟩ := resolveRunAt_beyond hZ hfrac (by unfold NaiveDate at *; omega) hin'
  have hcalendar : nextCalendar Z now ⟨∅⟩ time = none := by
    have hrange : List.range 8 = 0 :: List.range' 1 7 := rfl
    have hbase : Z.date now + ((0 : Nat) : Int) = Z.date now := Int.add_zero _
    rw [nextCalendar, hrange, scanDays, hbase]
    exact if_neg hin
  have hritual : nextRitual Z time now = none := by
    rw [nextRitual, hresolve, hresolve']
    rfl
  rw [hritual, hcalendar]
  exact iff_of_true rfl ⟨fun h => absurd h hfold, fun _ => hfold'⟩

theorem ritual_iff_steady_of_folds (hZ : Z.Berlin) (hfrac : time.frac = 0) (hsecs : time.secs < 86400)
    (hlow : -8334601315200 ≤ Z.date now * 86400) (hin : inRange (seconds (Z.date now * 86400)))
    (hfold : Folds Z (Z.date now) time) :
    (nextRitual Z time now).map DateTime.ofInstant = nextCalendar Z now ⟨∅⟩ time ↔ Steady Z time now := by
  have hnext := agree_iff_not_folds hZ hfrac hsecs now (Z.date now + 1) (by unfold NaiveDate at *; omega)
  obtain ⟨t, u, ht, hu, hlt, hreads⟩ := calendarInstant_of_folds hZ hfrac hfold now
  rw [nextCalendar_daily hZ hsecs hin, ht, Option.bind_some]
  by_cases hover : Over Z (Z.date now) time now
  · have hpast : u ≤ now := hover u (resolveRunAt_eq_some_iff.mp hu)
    rw [nextRitual_of_over hover, if_neg (by rw [lt_ofInstant]; exact not_lt_of_ge (hlt.le.trans hpast)), hnext]
    exact ⟨fun h => ⟨fun _ => hover, fun _ => h⟩, fun h => h.tomorrow hover⟩
  · obtain ⟨u', hu', -, hritual⟩ := nextRitual_of_not_over hover
    obtain rfl := Option.some.inj (hu.symm.trans hu')
    rw [hritual, Option.map_some]
    refine iff_of_false (fun heq => ?_) fun h => hover (h.today hfold)
    split at heq
    · exact absurd (ofInstant_inj.mp (Option.some.inj heq)) (ne_of_gt hlt)
    · exact ne_of_next_date hZ hsecs hreads heq.symm

theorem ritual_iff_steady_of_not_folds (hZ : Z.Berlin) (hfrac : time.frac = 0) (hsecs : time.secs < 86400)
    (hlow : -8334601315200 ≤ Z.date now * 86400) (hin : inRange (seconds (Z.date now * 86400)))
    (hfold : ¬ Folds Z (Z.date now) time) :
    (nextRitual Z time now).map DateTime.ofInstant = nextCalendar Z now ⟨∅⟩ time ↔ Steady Z time now := by
  have hnext := agree_iff_not_folds hZ hfrac hsecs now (Z.date now + 1) (by unfold NaiveDate at *; omega)
  rw [nextCalendar_daily hZ hsecs hin, calendarInstant_eq_of_not_folds hZ hfrac hsecs hin hfold]
  by_cases hover : Over Z (Z.date now) time now
  · have hsteady : ¬ Folds Z (Z.date now + 1) time ↔ Steady Z time now :=
      ⟨fun h => ⟨fun _ => hover, fun _ => h⟩, fun h => h.tomorrow hover⟩
    rw [nextRitual_of_over hover, ← hsteady, ← hnext]
    cases hresolve : resolveRunAt Z (Z.date now) time with
    | none =>
      have hend : ¬ inRange (seconds ((Z.date now + 1) * 86400)) := by
        have hnone : calendarInstant Z now (Z.date now) time = none := by
          rw [calendarInstant_eq_of_not_folds hZ hfrac hsecs hin hfold, hresolve]
          rfl
        exact not_inRange_next hin hsecs (calendarInstant_eq_none hnone)
      rw [if_neg hend]
      rfl
    | some u =>
      have hpast : u ≤ now := hover u (resolveRunAt_eq_some_iff.mp hresolve)
      rw [Option.map_some, Option.bind_some, if_neg (by rw [lt_ofInstant]; exact not_lt_of_ge hpast)]
  · obtain ⟨u, hu, hlt, hritual⟩ := nextRitual_of_not_over hover
    rw [hritual, hu, Option.map_some, Option.bind_some, if_pos (lt_ofInstant.mpr hlt)]
    exact iff_of_true rfl ⟨fun h => absurd h hfold, fun h => absurd h hover⟩

/-- The next ritual is the next fire of a daily trigger exactly where the time of day is not read twice on the date it depends
on. -/
theorem ritual_iff_steady (hZ : Z.Berlin) {hour min : Nat} (hhour : hour < 24) (hmin : min < 60) (hnow : inRange now) :
    (nextRitual Z (.fromHms hour min 0) now).map DateTime.ofInstant =
        (Trigger.calendar ⟨∅⟩ (.fromHms hour min 0)).nextFireAfter Z now ↔
      Steady Z (.fromHms hour min 0) now := by
  obtain ⟨time, htime⟩ : ∃ time, NaiveTime.fromHms hour min 0 = time := ⟨_, rfl⟩
  have hfrac : time.frac = 0 := by
    rw [← htime]
    rfl
  have hsecs : time.secs < 86400 := by
    rw [← htime, NaiveTime.fromHms]
    dsimp only
    omega
  have hahead := hZ.ahead now
  have hlow : -8334601315200 ≤ Z.date now * 86400 := by
    unfold Zone.date Zone.local
    unfold inRange at hnow
    unfold seconds Instant NaiveDate NaiveDateTime at *
    omega
  rw [htime]
  by_cases hin : inRange (seconds (Z.date now * 86400))
  · by_cases hfold : Folds Z (Z.date now) time
    · exact ritual_iff_steady_of_folds hZ hfrac hsecs hlow hin hfold
    · exact ritual_iff_steady_of_not_folds hZ hfrac hsecs hlow hin hfold
  · exact ritual_iff_steady_of_not_inRange hZ hfrac hlow hin

/-- At four in the morning the ritual comes with the trigger, also on the day after a long night. -/
theorem ritual_steady_at_four :
    (nextRitual autumnTime (.fromHms 4 0 0) (seconds 1792879200)).map DateTime.ofInstant =
      (Trigger.calendar ⟨∅⟩ (.fromHms 4 0 0)).nextFireAfter autumnTime (seconds 1792879200) := by
  have htoday : autumnTime.fromLocal (andTime 20751 (.fromHms 4 0 0)) = .single (seconds 1792897200) :=
    single?_eq_some_iff.mp (by decide)
  have htomorrow : autumnTime.fromLocal (andTime 20752 (.fromHms 4 0 0)) = .single (seconds 1792983600) :=
    single?_eq_some_iff.mp (by decide)
  have hdate : autumnTime.date (seconds 1792879200) = 20751 := by decide
  have hnext : (20751 : NaiveDate) + 1 = 20752 := rfl
  refine (ritual_iff_steady berlin_autumnTime (by decide) (by decide) (by decide)).mpr ⟨?_, ?_⟩
  · rintro ⟨t, t', hfold⟩
    rw [hdate, htoday] at hfold
    cases hfold
  · rintro - ⟨t, t', hfold⟩
    rw [hdate, hnext, htomorrow] at hfold
    cases hfold

/-- A half past two that comes twice: the trigger fires at the first, and the ritual is at half past three. -/
theorem ritual_after_fold :
    autumnTime.Berlin ∧ nextRitual autumnTime (.fromHms 2 30 0) (seconds 1792879200) = some (seconds 1792895400) ∧
      (Trigger.calendar ⟨∅⟩ (.fromHms 2 30 0)).nextFireAfter autumnTime (seconds 1792879200) =
        some (.ofInstant (seconds 1792888200)) :=
  ⟨berlin_autumnTime, by decide, by decide⟩

end Twitch1337.Memory
