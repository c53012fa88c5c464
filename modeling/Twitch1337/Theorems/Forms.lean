import Twitch1337.Web.ScheduleForm

/-!
# Schedules through their form

A schedule that is edited without a change comes back with its name and its message trimmed, and with its interval and its times
of day cut to whole minutes.
-/

namespace Twitch1337.Web

open Civil Decimal RustStr Schedules

variable {C : Readers} {b : Build}

/-! ## What comes back -/

/-- A time of day without its seconds. -/
def toMinute (t : NaiveTime) : NaiveTime := ⟨t.secs / 60 * 60, 0⟩

/-- A trigger without the seconds of its interval and of its times of day. -/
def triggerToMinute : Trigger → Trigger
  | .interval every days activeFrom activeTo =>
    .interval ⟨.ofNat (every.secs.toNat / 60 * 60), 0⟩ days (activeFrom.map toMinute) (activeTo.map toMinute)
  | .calendar days at_ => .calendar days (toMinute at_)

/-- The schedule that comes back. -/
def inForm (s : Schedule) : Schedule :=
  { s with name := trim s.name, message := trim s.message, trigger := triggerToMinute s.trigger }

/-- The interval of a trigger. -/
def everyOf : Trigger → Option Duration
  | .interval every _ _ _ => some every
  | .calendar _ _ => none

/-- The times of day of a trigger. -/
def timesOf : Trigger → List NaiveTime
  | .interval _ _ activeFrom activeTo => activeFrom.toList ++ activeTo.toList
  | .calendar _ at_ => [at_]

/-- The values there are: times of day within a day, and dates of the calendar. -/
structure Representable (s : Schedule) : Prop where
  times : ∀ t ∈ timesOf s.trigger, t.secs < 86400
  startDate : ∀ date ∈ s.startDate, IsDate date
  endDate : ∀ date ∈ s.endDate, IsDate date

/-- What the form can express. -/
structure Expressible (s : Schedule) : Prop where
  name : trim s.name = s.name
  message : trim s.message = s.message
  every : ∀ every ∈ everyOf s.trigger, every.secs.toNat % 60 = 0 ∧ every.nanos = 0
  times : ∀ t ∈ timesOf s.trigger, t.secs % 60 = 0 ∧ t.frac = 0

/-- A time comes back when it is a whole minute. -/
theorem toMinute_eq_iff {t : NaiveTime} : toMinute t = t ↔ t.secs % 60 = 0 ∧ t.frac = 0 := by
  obtain ⟨secs, frac⟩ := t
  rw [toMinute, NaiveTime.mk.injEq]
  dsimp only
  omega

/-- A time that may be missing comes back when it is missing or a whole minute. -/
theorem map_toMinute_eq_iff {t : Option NaiveTime} : t.map toMinute = t ↔ ∀ u ∈ t.toList, u.secs % 60 = 0 ∧ u.frac = 0 := by
  cases t with
  | none => simp
  | some t =>
    rw [Option.map_some, Option.some.injEq, toMinute_eq_iff]
    simp

/-- An interval without its seconds is the same exactly where it has none. -/
theorem every_eq_iff {every : Duration} :
    (⟨.ofNat (every.secs.toNat / 60 * 60), 0⟩ : Duration) = every ↔ every.secs.toNat % 60 = 0 ∧ every.nanos = 0 := by
  obtain ⟨secs, nanos⟩ := every
  have hlt := secs.toNat_lt
  have hfits : secs.toNat / 60 * 60 < UInt64.size := lt_of_le_of_lt (Nat.div_mul_le_self _ _) hlt
  rw [Duration.mk.injEq, ← UInt64.toNat_inj, UInt64.toNat_ofNat_of_lt' hfits]
  dsimp only
  constructor
  · rintro ⟨hsecs, rfl⟩
    exact ⟨by omega, rfl⟩
  · rintro ⟨hsecs, rfl⟩
    exact ⟨by omega, rfl⟩

/-- A trigger comes back when its interval and its times are whole minutes. -/
theorem triggerToMinute_eq_iff {trigger : Trigger} :
    triggerToMinute trigger = trigger ↔
      (∀ every ∈ everyOf trigger, every.secs.toNat % 60 = 0 ∧ every.nanos = 0) ∧
      ∀ t ∈ timesOf trigger, t.secs % 60 = 0 ∧ t.frac = 0 := by
  cases trigger with
  | interval every days activeFrom activeTo =>
    have hevery : (∀ d ∈ everyOf (.interval every days activeFrom activeTo), d.secs.toNat % 60 = 0 ∧ d.nanos = 0) ↔
        every.secs.toNat % 60 = 0 ∧ every.nanos = 0 := by simp [everyOf]
    rw [triggerToMinute, Trigger.interval.injEq, every_eq_iff, map_toMinute_eq_iff, map_toMinute_eq_iff, hevery, timesOf,
      List.forall_mem_append, eq_self_iff_true, true_and]
  | calendar days at_ =>
    rw [triggerToMinute, Trigger.calendar.injEq, toMinute_eq_iff]
    simp [timesOf, everyOf]

/-- A schedule comes back as it was exactly where the form can express it. -/
theorem inForm_eq_iff {s : Schedule} : inForm s = s ↔ Expressible s := by
  have hfields : inForm s = s ↔ trim s.name = s.name ∧ trim s.message = s.message ∧ triggerToMinute s.trigger = s.trigger := by
    obtain ⟨name, message, trigger, startDate, endDate, enabled⟩ := s
    simp [inForm]
  rw [hfields, triggerToMinute_eq_iff]
  constructor
  · rintro ⟨hname, hmessage, hevery, htimes⟩
    exact ⟨hname, hmessage, hevery, htimes⟩
  · rintro ⟨hname, hmessage, hevery, htimes⟩
    exact ⟨hname, hmessage, hevery, htimes⟩

/-! ## Texts -/

/-- A text of digits and of marks between them. -/
def Plain (t : List Char) : Prop := ∀ c ∈ t, c.isDigit = true ∨ c = ':' ∨ c = '-' ∨ c = '+'

/-- Digits are plain. -/
theorem plain_pad (width n : Nat) : Plain (pad width n).toList := fun _ hc => .inl (isDigit_of_mem_pad hc)

/-- A plain text with a separator before it is plain. -/
theorem plain_cons {c : Char} (hc : c = ':' ∨ c = '-' ∨ c = '+') {t : List Char} (ht : Plain t) : Plain (c :: t) :=
  List.forall_mem_cons.mpr ⟨.inr hc, ht⟩

/-- Two plain texts together are plain. -/
theorem plain_append {t u : List Char} (ht : Plain t) (hu : Plain u) : Plain (t ++ u) :=
  List.forall_mem_append.mpr ⟨ht, hu⟩

/-- A plain text has no blanks around it. -/
theorem trim_of_plain {s : String} (h : Plain s.toList) : trim s = s := by
  refine trim_of_solid fun c hc => ?_
  rcases h c hc with hdigit | rfl | rfl | rfl
  · exact not_isWhitespace_of_isDigit hdigit
  · rfl
  · rfl
  · rfl

theorem trim_empty : trim "" = "" := trim_of_plain fun _ hc => absurd hc List.not_mem_nil

/-- Hours and minutes, two digits each. -/
theorem toList_hmText (hours minutes : Nat) :
    (hmText hours minutes).toList = (pad 2 hours).toList ++ ':' :: (pad 2 minutes).toList := by
  have hcolon : ":".toList = [':'] := rfl
  rw [hmText, String.toList_append, String.toList_append, hcolon, List.append_assoc, List.singleton_append]

/-- They are plain. -/
theorem plain_hmText (hours minutes : Nat) : Plain (hmText hours minutes).toList := by
  rw [toList_hmText]
  exact plain_append (plain_pad _ _) (plain_cons (.inl rfl) (plain_pad _ _))

/-- A year, a month and a day. -/
theorem toList_dateText (date : Int) :
    (dateText date).toList = (yearText (ymd date).1).toList ++ '-' :: ((pad 2 (ymd date).2.1).toList ++ '-' ::
      (pad 2 (ymd date).2.2).toList) := by
  have hdash : "-".toList = ['-'] := rfl
  rw [dateText]
  dsimp only
  rw [String.toList_append, String.toList_append, String.toList_append, String.toList_append, hdash, List.append_assoc,
    List.append_assoc, List.append_assoc, List.singleton_append, List.singleton_append]

/-- They are plain. -/
theorem plain_dateText (date : Int) : Plain (dateText date).toList := by
  rw [toList_dateText]
  refine plain_append ?_ (plain_cons (.inr (.inl rfl)) (plain_append (plain_pad _ _) (plain_cons (.inr (.inl rfl)) (plain_pad _ _))))
  unfold yearText
  split
  · exact plain_pad _ _
  · split
    · rw [String.toList_append]
      exact plain_cons (.inr (.inl rfl)) (plain_pad _ _)
    · rw [String.toList_append]
      exact plain_cons (.inr (.inr rfl)) (plain_pad _ _)

theorem isEmpty_of_mem {s : String} {c : Char} (h : c ∈ s.toList) : s.isEmpty = false := by
  cases hs : s.isEmpty with
  | false => rfl
  | true =>
    rw [String.isEmpty_iff.mp hs] at h
    cases h

/-! ## Fields -/

/-- A time of day comes back without its seconds. -/
theorem parseHhmm_formatHm {t : NaiveTime} (h : t.secs < 86400) : parseHhmm C (formatHm t) = some (toMinute t) := by
  have hcolon : ':' ∈ (formatHm t).toList := by
    rw [formatHm, toList_hmText]
    simp
  rw [parseHhmm, formatHm, trim_of_plain (plain_hmText _ _), ← formatHm, isEmpty_of_mem hcolon, if_neg Bool.false_ne_true,
    formatHm, C.readTime_hmText _ _ (by omega) (by omega), toMinute, NaiveTime.fromHms]
  congr 2
  omega

/-- A time comes back to the minute, and none as none. -/
theorem parseHhmm_optional {t : Option NaiveTime} (h : ∀ u ∈ t.toList, u.secs < 86400) :
    parseHhmm C ((t.map formatHm).getD "") = t.map toMinute := by
  cases t with
  | none => rw [Option.map_none, Option.getD_none, parseHhmm, trim_empty]; rfl
  | some t => exact parseHhmm_formatHm (h t (by simp))

/-- A date comes back, and none as none. -/
theorem parseDate_optional {date : Option NaiveDate} (h : ∀ d ∈ date, IsDate d) :
    parseDate C ((date.map dateText).getD "") = date := by
  cases date with
  | none => rw [Option.map_none, Option.getD_none, parseDate, trim_empty]; rfl
  | some date =>
    have hdash : '-' ∈ (dateText date).toList := by
      rw [toList_dateText]
      simp
    rw [Option.map_some, Option.getD_some, parseDate, trim_of_plain (plain_dateText date)]
    rw [isEmpty_of_mem hdash, if_neg Bool.false_ne_true, C.readDate_dateText date (h date rfl)]

/-- An interval comes back without its seconds, and nothing overflows. -/
theorem parseHhmmToSecs_hmText {total : Nat} (h : total < 2 ^ 64) :
    parseHhmmToSecs b (hmText (total / 3600) (total / 60 % 60)) = .ok (some (total / 60 * 60)) := by
  have hsum : total / 3600 * 3600 + total / 60 % 60 * 60 = total / 60 * 60 := by omega
  rw [parseHhmmToSecs, trim_of_plain (plain_hmText _ _), toList_hmText, Text.splitOnce_char (not_mem_pad (by decide))]
  dsimp only
  rw [readU64_pad (by omega), readU64_pad (by omega)]
  dsimp only
  rw [Build.u64_of_fits (by omega), Build.u64_of_fits (by omega)]
  have htotal : b.u64 (total / 3600 * 3600 + total / 60 % 60 * 60) = .ok (total / 60 * 60) := by
    rw [hsum]
    exact Build.u64_of_fits (by omega) b
  exact congrArg (· >>= fun total => (return some total : Except Overflow (Option Nat))) htotal

/-- Every day has its box. -/
theorem weekdayText_mem (day : Weekday) : weekdayText day ∈ dayValues := by
  cases day <;> decide

/-- The days whose boxes are checked come back. -/
theorem parseWeekdays_dayTexts (set : WeekdaySet) :
    parseWeekdays C (dayValues.filter fun value => value ∈ dayTexts set) = set := by
  obtain ⟨days⟩ := set
  rw [parseWeekdays, WeekdaySet.mk.injEq]
  ext day
  rw [List.mem_toFinset, List.mem_filterMap]
  constructor
  · rintro ⟨value, hvalue, hday⟩
    obtain ⟨day', hday', rfl⟩ := Finset.mem_image.mp (of_decide_eq_true (List.mem_filter.mp hvalue).2)
    rw [C.readWeekday_text, Option.some.injEq] at hday
    exact hday ▸ hday'
  · intro hday
    refine ⟨weekdayText day, List.mem_filter.mpr ⟨weekdayText_mem day, ?_⟩, C.readWeekday_text day⟩
    exact decide_eq_true (Finset.mem_image_of_mem _ hday)

/-! ## The form -/

/-- A form of an interval is read as that interval. -/
theorem tryIntoTrigger_interval (R : Render) {form : ScheduleForm} {secs : Nat} (hkind : form.kind = "interval")
    (hevery : parseHhmmToSecs b form.intervalEvery = .ok (some secs)) :
    form.tryIntoTrigger b C R = .ok (.interval ⟨.ofNat secs, 0⟩ (parseWeekdays C form.intervalDays)
      (parseHhmm C form.intervalActiveFrom) (parseHhmm C form.intervalActiveTo), []) := by
  rw [ScheduleForm.tryIntoTrigger, if_pos hkind, hevery]
  rfl

/-- A form of a calendar is read as that calendar. -/
theorem tryIntoTrigger_calendar (R : Render) {form : ScheduleForm} {at_ : NaiveTime} (hkind : form.kind = "calendar")
    (hat : parseHhmm C form.calendarAt = some at_) :
    form.tryIntoTrigger b C R = .ok (.calendar (parseWeekdays C form.calendarDays) at_, []) := by
  rw [ScheduleForm.tryIntoTrigger, if_neg (by rw [hkind]; decide), if_pos hkind, hat]

/-- What the form of an interval submits. -/
theorem submit_interval {s : Schedule} {every : Duration} {days : WeekdaySet} {activeFrom activeTo : Option NaiveTime}
    (h : s.trigger = .interval every days activeFrom activeTo) :
    (formStateFromSchedule s).submit.kind = "interval" ∧
      (formStateFromSchedule s).submit.intervalEvery = hmText (every.secs.toNat / 3600) (every.secs.toNat / 60 % 60) ∧
      (formStateFromSchedule s).submit.intervalDays = (dayValues.filter fun value => value ∈ dayTexts days) ∧
      (formStateFromSchedule s).submit.intervalActiveFrom = (activeFrom.map formatHm).getD "" ∧
      (formStateFromSchedule s).submit.intervalActiveTo = (activeTo.map formatHm).getD "" := by
  rw [formStateFromSchedule, h]
  exact ⟨rfl, rfl, rfl, rfl, rfl⟩

/-- What the form of a calendar submits. -/
theorem submit_calendar {s : Schedule} {days : WeekdaySet} {at_ : NaiveTime} (h : s.trigger = .calendar days at_) :
    (formStateFromSchedule s).submit.kind = "calendar" ∧ (formStateFromSchedule s).submit.calendarAt = formatHm at_ ∧
      (formStateFromSchedule s).submit.calendarDays = (dayValues.filter fun value => value ∈ dayTexts days) := by
  rw [formStateFromSchedule, h]
  exact ⟨rfl, rfl, rfl⟩

/-- The trigger comes back without its seconds. -/
theorem tryIntoTrigger_submit (R : Render) {s : Schedule} (h : ∀ t ∈ timesOf s.trigger, t.secs < 86400) :
    (formStateFromSchedule s).submit.tryIntoTrigger b C R = .ok (triggerToMinute s.trigger, []) := by
  cases htrigger : s.trigger with
  | interval every days activeFrom activeTo =>
    rw [htrigger] at h
    obtain ⟨hfrom, hto⟩ := List.forall_mem_append.mp h
    obtain ⟨hkind, hevery, hdays, hactiveFrom, hactiveTo⟩ := submit_interval htrigger
    have hsecs : parseHhmmToSecs b (formStateFromSchedule s).submit.intervalEvery = .ok (some (every.secs.toNat / 60 * 60)) := by
      rw [hevery]
      exact parseHhmmToSecs_hmText every.secs.toNat_lt
    rw [tryIntoTrigger_interval R hkind hsecs, hdays, hactiveFrom, hactiveTo, parseWeekdays_dayTexts, parseHhmm_optional hfrom,
      parseHhmm_optional hto, triggerToMinute]
  | calendar days at_ =>
    rw [htrigger] at h
    obtain ⟨hkind, hat, hdays⟩ := submit_calendar htrigger
    have htime : parseHhmm C (formStateFromSchedule s).submit.calendarAt = some (toMinute at_) := by
      rw [hat]
      exact parseHhmm_formatHm (h at_ List.mem_cons_self)
    rw [tryIntoTrigger_calendar R hkind htime, hdays, parseWeekdays_dayTexts, triggerToMinute]

/-- What every schedule puts into the fields that its trigger has no part in. -/
theorem submit_formStateFromSchedule (s : Schedule) :
    (formStateFromSchedule s).submit.name = s.name ∧ (formStateFromSchedule s).submit.message = s.message ∧
      (formStateFromSchedule s).submit.startDate = (s.startDate.map dateText).getD "" ∧
      (formStateFromSchedule s).submit.endDate = (s.endDate.map dateText).getD "" ∧
      (formStateFromSchedule s).submit.enabled.isSome = s.enabled := by
  obtain ⟨name, message, trigger, startDate, endDate, enabled⟩ := s
  cases trigger <;> cases enabled <;> exact ⟨rfl, rfl, rfl, rfl, rfl⟩

/-- The form of a schedule that it can represent is read as what it shows. -/
theorem tryIntoSchedule_submit (R : Render) {s : Schedule} (h : Representable s) :
    (formStateFromSchedule s).submit.tryIntoSchedule b C R = .ok (.ok (inForm s)) := by
  obtain ⟨hname, hmessage, hstart, hend, henabled⟩ := submit_formStateFromSchedule s
  rw [ScheduleForm.tryIntoSchedule, tryIntoTrigger_submit R h.times, hname, hmessage, hstart, hend, henabled,
    parseDate_optional h.startDate, parseDate_optional h.endDate]
  rfl

/-- A schedule that is edited without a change comes back with its name and message trimmed, its interval and times of day cut to
whole minutes and the rest as it was: the same schedule exactly where the form can express it. -/
theorem form_round_trip (C : Readers) (R : Render) (s : Schedule) (h : Representable s) :
    (∀ b, (formStateFromSchedule s).submit.tryIntoSchedule b C R = .ok (.ok (inForm s))) ∧
      (inForm s = s ↔ Expressible s) :=
  ⟨fun _ => tryIntoSchedule_submit R h, inForm_eq_iff⟩

/-! ## A reader, and two schedules -/

/-- A text without its sign. -/
def splitSign : Text → Int × Text
  | '-' :: t => (-1, t)
  | '+' :: t => (1, t)
  | t => (1, t)

/-- The numbers of a text of year, month and day. -/
def splitDate (t : Text) : Option (Int × Nat × Nat) :=
  match Text.splitOnce ['-'] (splitSign t).2 with
  | none => none
  | some (y, rest) =>
    match Text.splitOnce ['-'] rest with
    | none => none
    | some (m, d) =>
      match readNat y, readNat m, readNat d with
      | some y, some m, some d => some ((splitSign t).1 * y, m, d)
      | _, _, _ => none

/-- A date of digits has no sign. -/
theorem splitSign_pad (width n : Nat) (rest : Text) :
    splitSign ((pad width n).toList ++ '-' :: rest) = (1, (pad width n).toList ++ '-' :: rest) := by
  have hne : (pad width n).toList ≠ [] := by
    intro hnil
    have hread := readNat_pad width n
    rw [hnil] at hread
    cases hread
  cases ht : (pad width n).toList with
  | nil => exact absurd ht hne
  | cons c t =>
    have hc : c.isDigit = true := isDigit_of_mem_pad (ht ▸ List.mem_cons_self)
    unfold splitSign
    split
    · rename_i heq
      rw [(List.cons.inj heq).1] at hc
      cases hc
    · rename_i heq
      rw [(List.cons.inj heq).1] at hc
      cases hc
    · rfl

/-- A year is read with its sign. -/
theorem splitSign_yearText (y : Int) (rest : Text) :
    ∃ sign : Int, splitSign ((yearText y).toList ++ '-' :: rest) = (sign, (pad 4 y.natAbs).toList ++ '-' :: rest) ∧
      sign * y.natAbs = y := by
  have hdash : "-".toList = ['-'] := rfl
  have hplus : "+".toList = ['+'] := rfl
  unfold yearText
  split
  · rename_i hy
    have habs : y.toNat = y.natAbs := by omega
    rw [habs]
    exact ⟨1, splitSign_pad _ _ _, by omega⟩
  · split
    · rw [String.toList_append, hdash]
      exact ⟨-1, rfl, by omega⟩
    · rw [String.toList_append, hplus]
      exact ⟨1, rfl, by omega⟩

/-- A date is split into its numbers. -/
theorem splitDate_dateText (date : Int) : splitDate (dateText date).toList = some (ymd date) := by
  obtain ⟨sign, hsign, hyear⟩ :=
    splitSign_yearText (ymd date).1 ((pad 2 (ymd date).2.1).toList ++ '-' :: (pad 2 (ymd date).2.2).toList)
  rw [toList_dateText, splitDate, hsign]
  dsimp only
  rw [Text.splitOnce_char (not_mem_pad (by decide))]
  dsimp only
  rw [Text.splitOnce_char (not_mem_pad (by decide))]
  dsimp only
  rw [readNat_pad, readNat_pad, readNat_pad]
  dsimp only
  rw [hyear]

/-- Readers of what is written. -/
def Readers.plain : Readers where
  readTime s :=
    match Text.splitOnce [':'] s.toList with
    | none => none
    | some (h, m) =>
      match readNat h, readNat m with
      | some h, some m => if h < 24 ∧ m < 60 then some (.fromHms h m 0) else none
      | _, _ => none
  readDate s :=
    match splitDate s.toList with
    | none => none
    | some (y, m, d) => if ymd (dayOf y m d) = (y, m, d) then some (dayOf y m d) else none
  readWeekday s := [Weekday.mon, .tue, .wed, .thu, .fri, .sat, .sun].find? fun day => weekdayText day = s
  readTime_hmText hours minutes hh hm := by
    rw [toList_hmText, Text.splitOnce_char (not_mem_pad (by decide))]
    dsimp only
    rw [readNat_pad, readNat_pad]
    exact if_pos ⟨hh, hm⟩
  readDate_dateText date _ := by
    rw [splitDate_dateText]
    dsimp only
    rw [dayOf_ymd]
    exact if_pos rfl
  readWeekday_text day := by cases day <;> decide

/-- Every Friday at half past six in the evening, from a day in June on. -/
def fridays : Schedule where
  name := "quiz"
  message := "Quiz!"
  trigger := .calendar ⟨{.fri}⟩ (.fromHms 18 30 0)
  startDate := some 20605
  endDate := none
  enabled := true

theorem form_round_trip_fridays :
    (formStateFromSchedule fridays).submit.tryIntoSchedule .dev .plain ⟨String.ofList, id⟩ = .ok (.ok fridays) := by
  have hvalues : Representable fridays := by
    refine ⟨by decide, fun date hdate => ?_, (fun _ hdate => by cases hdate)⟩
    obtain rfl := Option.some.inj hdate
    exact ⟨by decide, by decide⟩
  obtain ⟨hform, hsame⟩ := form_round_trip .plain ⟨String.ofList, id⟩ fridays hvalues
  have hexpressible : Expressible fridays :=
    ⟨by decide +kernel, by decide +kernel, (fun _ hevery => by cases hevery), by decide⟩
  rw [hform, hsame.mpr hexpressible]

/-- Every ninety seconds. -/
def ninety : Schedule where
  name := "hydrate"
  message := "Wasser!"
  trigger := .interval ⟨90, 0⟩ ⟨∅⟩ none none
  startDate := none
  endDate := none
  enabled := true

/-- The interval comes back as a minute. -/
theorem ninety_cut :
    ninety.validate ⟨String.ofList, id⟩ "schedules[0]" = [] ∧ ninety ≠ { ninety with trigger := .interval ⟨60, 0⟩ ⟨∅⟩ none none } ∧
      ∀ b C R, (formStateFromSchedule ninety).submit.tryIntoSchedule b C R =
        .ok (.ok { ninety with trigger := .interval ⟨60, 0⟩ ⟨∅⟩ none none }) := by
  refine ⟨by decide +kernel, by decide, fun b C R => ?_⟩
  have hvalues : Representable ninety :=
    ⟨(fun _ ht => by cases ht), (fun _ hdate => by cases hdate), (fun _ hdate => by cases hdate)⟩
  have hcut : inForm ninety = { ninety with trigger := .interval ⟨60, 0⟩ ⟨∅⟩ none none } := by
    decide +kernel
  rw [tryIntoSchedule_submit R hvalues, hcut]

end Twitch1337.Web
