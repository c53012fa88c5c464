import Twitch1337.Theorems.Range

/-!
# Schedules that panic

Asking a schedule for its next fire comes to an end unless a local time of its dates has no instant of its own, the slots of its
interval leave the calendar before one is found, or the dates of the calendar run out.
-/

namespace Twitch1337.Schedules

open Chrono

variable {Z : Zone} {s : Schedule} {days : WeekdaySet} {activeFrom activeTo : Option NaiveTime} {every : Duration} {at_ : NaiveTime}
  {now anchor start : Instant}

/-- A trigger that is asked at an instant finds a fire: its day has a start, and of the slots that are scanned one in the calendar
may fire or is the last one, or there is a time of day still to come. -/
def Trigger.Finds (Z : Zone) (anchor : Instant) : Trigger → Prop
  | .interval every days activeFrom activeTo =>
    ∃ start, dayStart Z (Z.date anchor) = some start ∧ inRange (slotAt anchor start every 0) ∧
      ∃ k ≤ maxSlots, inRange (slotAt anchor start every k) ∧
        (k = maxSlots ∨ eligible Z days activeFrom activeTo (slotAt anchor start every k) = true)
  | .calendar days at_ =>
    ∃ date t, FiresOn Z days at_ date t ∧ (DateTime.ofInstant anchor).lt t = true ∧ Z.date anchor ≤ date

/-- Nothing stops the search for the next fire of a schedule. -/
structure Completes (Z : Zone) (s : Schedule) (now : Instant) : Prop where
  start : ∀ start, s.startDate = some start → ∃ startDt, Z.fromLocal (andTime start (.fromHms 0 0 0)) = .single startDt ∧
    (now < startDt → inRange (startDt + seconds (-1)))
  end_ : ∀ end_, s.endDate = some end_ → ∃ endDt, Z.fromLocal (andTime end_ (.fromHms 23 59 59)) = .single endDt
  finds : ∀ anchor, s.anchor Z now = some anchor → s.trigger.Finds Z anchor

/-- The slots between two of the calendar are in it. -/
theorem inRange_slotAt {i k : Nat} (h0 : inRange (slotAt anchor start every 0)) (hk : inRange (slotAt anchor start every k))
    (hik : i ≤ k) : inRange (slotAt anchor start every i) := by
  unfold slotAt inRange at *
  rcases Int.le_total 0 every.secsI64 with hpos | hneg
  · have hle : (i : Int) * every.secsI64 ≤ k * every.secsI64 := Int.mul_le_mul_of_nonneg_right (by omega) hpos
    have hge : 0 ≤ (i : Int) * every.secsI64 := Int.mul_nonneg (by omega) hpos
    unfold seconds Instant at *
    omega
  · have hle : (k : Int) * every.secsI64 ≤ i * every.secsI64 := Int.mul_le_mul_of_nonpos_right (by omega) hneg
    have hge : (i : Int) * every.secsI64 ≤ 0 := Int.mul_nonpos_of_nonneg_of_nonpos (by omega) hneg
    unfold seconds Instant at *
    omega

theorem interval_finds_iff :
    (∃ t, (Trigger.interval every days activeFrom activeTo).nextFireAfter Z anchor = some t) ↔
      (Trigger.interval every days activeFrom activeTo).Finds Z anchor := by
  constructor
  · rintro ⟨t, ht⟩
    obtain ⟨r, hr, -⟩ := Option.map_eq_some_iff.mp ht
    obtain ⟨start, hstart, k, hk, rfl, hin, hend, hskip⟩ := nextInterval_eq_some.mp hr
    refine ⟨start, hstart, ?_, k, hk, hin, hend⟩
    rcases Nat.eq_zero_or_pos k with rfl | hpos
    · exact hin
    · exact (hskip 0 hpos).1
  · rintro ⟨start, hstart, h0, k, hk, hin, hend⟩
    -- the first slot that may fire, or the last one
    have hex : ∃ k, k = maxSlots ∨ eligible Z days activeFrom activeTo (slotAt anchor start every k) = true := ⟨k, hend⟩
    have hle : Nat.find hex ≤ k := Nat.find_min' hex hend
    have hnext : nextInterval Z anchor every days activeFrom activeTo = some (slotAt anchor start every (Nat.find hex)) := by
      refine nextInterval_eq_some.mpr
        ⟨start, hstart, Nat.find hex, hle.trans hk, rfl, inRange_slotAt h0 hin hle, Nat.find_spec hex, ?_⟩
      intro i hi
      have hnot := Nat.find_min hex hi
      exact ⟨inRange_slotAt h0 hin (hi.le.trans hle), Bool.eq_false_iff.mpr fun heligible => hnot (.inr heligible)⟩
    exact ⟨_, congrArg (Option.map DateTime.ofInstant) hnext⟩

theorem calendar_finds_iff (hZ : Z.Berlin) (hat : at_.secs < 86400) (hlow : seconds (-8334601315200) ≤ anchor) :
    (∃ t, (Trigger.calendar days at_).nextFireAfter Z anchor = some t) ↔ (Trigger.calendar days at_).Finds Z anchor := by
  constructor
  · rintro ⟨t, ht⟩
    obtain ⟨date, hfirst⟩ := (nextCalendar_iff hZ hat hlow).mp ht
    exact ⟨date, t, hfirst.fires, hfirst.after, hfirst.onward⟩
  · intro h
    obtain ⟨date, t, hfires, hafter, honward, hleast⟩ := exists_least_fire (Q := fun date _ => Z.date anchor ≤ date) hZ hat h
    exact ⟨t, (nextCalendar_iff hZ hat hlow).mpr
      ⟨date, hfires, hafter, honward, fun date' u hle hu hafter' => hleast date' u hu hafter' hle⟩⟩

theorem finds_iff (hZ : Z.Berlin) {trigger : Trigger} (hat : ∀ days at_, trigger = .calendar days at_ → at_.secs < 86400)
    (hlow : seconds (-8334601315200) ≤ anchor) : (∃ t, trigger.nextFireAfter Z anchor = some t) ↔ trigger.Finds Z anchor := by
  cases trigger with
  | interval every days activeFrom activeTo => exact interval_finds_iff
  | calendar days at_ => exact calendar_finds_iff hZ (hat days at_ rfl) hlow

/-- Asking for the next fire of a schedule panics exactly where something stops the search for it. -/
theorem completes_iff (hZ : Z.Berlin) (hat : ∀ days at_, s.trigger = .calendar days at_ → at_.secs < 86400) (hnow : inRange now) :
    s.nextActiveFire Z now ≠ .panics ↔ Completes Z s now := by
  rw [nextActiveFire_ne_panics_iff]
  simp only [single?_eq_some_iff]
  constructor
  · rintro ⟨⟨anchor, t, ha, ht⟩, hend⟩
    refine ⟨exists_anchor_iff.mp ⟨anchor, ha⟩, hend, fun anchor' ha' => ?_⟩
    obtain rfl := Option.some.inj (ha.symm.trans ha')
    exact (finds_iff hZ hat (le_of_anchor ha hnow)).mp ⟨t, ht⟩
  · rintro ⟨hstart, hend, hfinds⟩
    obtain ⟨anchor, ha⟩ := exists_anchor_iff.mpr hstart
    obtain ⟨t, ht⟩ := (finds_iff hZ hat (le_of_anchor ha hnow)).mpr (hfinds anchor ha)
    exact ⟨⟨anchor, t, ha, ht⟩, hend⟩

/-- Every hour of the week after a long night. -/
def hourlyWeek : Schedule where
  name := "ping"
  message := "hi"
  trigger := .interval ⟨3600, 0⟩ ⟨∅⟩ none none
  startDate := some 20752
  endDate := some 20758
  enabled := true

theorem hourlyWeek_completes : hourlyWeek.nextActiveFire autumnTime (seconds 1792879200) ≠ .panics := by
  have hasked : hourlyWeek.anchor autumnTime (seconds 1792879200) = some (seconds 1792969199) := by decide
  have hday : dayStart autumnTime (autumnTime.date (seconds 1792969199)) = some (seconds 1792879200) := by decide
  refine (completes_iff berlin_autumnTime (fun _ _ h => by cases h) (by decide)).mpr ⟨fun start hstart => ?_, fun end_ hend => ?_, ?_⟩
  · obtain rfl := Option.some.inj hstart
    exact ⟨seconds 1792969200, single?_eq_some_iff.mp (by decide), fun _ => by decide⟩
  · obtain rfl := Option.some.inj hend
    exact ⟨seconds 1793573999, single?_eq_some_iff.mp (by decide)⟩
  · intro anchor ha
    obtain rfl := Option.some.inj (hasked.symm.trans ha)
    exact ⟨_, hday, by decide, 0, by decide, by decide, .inr (by decide)⟩

/-- An interval of 2^62 seconds. -/
def endless : Schedule where
  name := "ping"
  message := "hi"
  trigger := .interval ⟨4611686018427387904, 0⟩ ⟨∅⟩ none none
  startDate := none
  endDate := none
  enabled := true

/-- A schedule that passes validation panics. -/
theorem endless_panics :
    endless.validate ⟨String.ofList, id⟩ "schedules[0]" = [] ∧ endless.nextActiveFire autumnTime (seconds 1792879200) = .panics :=
  ⟨by decide +kernel, by decide⟩

end Twitch1337.Schedules
