import Mathlib.Data.Finset.Image
import Twitch1337.Lib.Decimal
import Twitch1337.Schedule.Types

/-!
# The form of a schedule

`web/routes/schedules.rs`: `form_state_from_schedule`, the fields of the form that a browser submits, and
`ScheduleForm::try_into_schedule`. What is read as a time, a date or a weekday is a parameter.
-/

namespace Twitch1337.Web

open Civil Decimal RustStr Schedules

/-! ## Texts -/

/-- Two numbers with a colon between them: hours and minutes. -/
def hmText (hours minutes : Nat) : String := pad 2 hours ++ ":" ++ pad 2 minutes

/-- A time of day as `%H:%M`. -/
def formatHm (t : NaiveTime) : String := hmText (t.secs / 3600) (t.secs / 60 % 60)

/-- The text of a weekday. -/
def weekdayText : Weekday → String
  | .mon => "Mon"
  | .tue => "Tue"
  | .wed => "Wed"
  | .thu => "Thu"
  | .fri => "Fri"
  | .sat => "Sat"
  | .sun => "Sun"

/-- The dates there are: from the year -262143 to the year 262142. -/
def IsDate (date : NaiveDate) : Prop := -96465292 ≤ date ∧ date < 95026237

/-- How texts are read: a time of day as `%H:%M`, a date as `%Y-%m-%d`, and a weekday. A text that is written in this form is read
as what was written. -/
structure Readers where
  readTime : String → Option NaiveTime
  readDate : String → Option NaiveDate
  readWeekday : String → Option Weekday
  readTime_hmText : ∀ hours minutes, hours < 24 → minutes < 60 →
    readTime (hmText hours minutes) = some (.fromHms hours minutes 0)
  readDate_dateText : ∀ date, IsDate date → readDate (dateText date) = some date
  readWeekday_text : ∀ day, readWeekday (weekdayText day) = some day

/-! ## From a schedule -/

structure FormState where
  name : String := ""
  message : String := ""
  kind : String := ""
  intervalEvery : String := ""
  intervalActiveFrom : String := ""
  intervalActiveTo : String := ""
  intervalDays : Finset String := ∅
  calendarAt : String := ""
  calendarDays : Finset String := ∅
  startDate : String := ""
  endDate : String := ""
  enabled : Bool := false

/-- The texts of the days of a set. -/
def dayTexts (set : WeekdaySet) : Finset String := set.days.image weekdayText

def formStateFromSchedule (s : Schedule) : FormState :=
  let fs : FormState := {
    name := s.name
    message := s.message
    enabled := s.enabled
    startDate := (s.startDate.map dateText).getD ""
    endDate := (s.endDate.map dateText).getD "" }
  match s.trigger with
  | .interval every days activeFrom activeTo =>
    let total := every.secs.toNat
    { fs with
      kind := "interval"
      intervalEvery := hmText (total / 3600) (total / 60 % 60)
      intervalActiveFrom := (activeFrom.map formatHm).getD ""
      intervalActiveTo := (activeTo.map formatHm).getD ""
      intervalDays := dayTexts days }
  | .calendar days at_ =>
    { fs with
      kind := "calendar"
      calendarAt := formatHm at_
      calendarDays := dayTexts days }

/-! ## To a schedule -/

/-- The fields of the form that are read. -/
structure ScheduleForm where
  name : String
  message : String
  kind : String
  intervalEvery : String
  intervalActiveFrom : String
  intervalActiveTo : String
  intervalDays : List String
  calendarAt : String
  calendarDays : List String
  startDate : String
  endDate : String
  enabled : Option String

/-- The values of the boxes for the days, as they stand in the form. -/
def dayValues : List String := ["Mon", "Tue", "Wed", "Thu", "Fri", "Sat", "Sun"]

/-- The form as it is submitted when nothing was changed in it: the texts, the kind that is chosen, and the boxes that are
checked. The texts are those of the page: what a browser does to a text of its own accord is not in the model. -/
def FormState.submit (fs : FormState) : ScheduleForm where
  name := fs.name
  message := fs.message
  kind := if fs.kind = "interval" ∨ fs.kind.isEmpty then "interval" else fs.kind
  intervalEvery := fs.intervalEvery
  intervalActiveFrom := fs.intervalActiveFrom
  intervalActiveTo := fs.intervalActiveTo
  intervalDays := dayValues.filter fun value => value ∈ fs.intervalDays
  calendarAt := fs.calendarAt
  calendarDays := dayValues.filter fun value => value ∈ fs.calendarDays
  startDate := fs.startDate
  endDate := fs.endDate
  enabled := if fs.enabled then some "true" else none

def parseHhmm (C : Readers) (s : String) : Option NaiveTime :=
  let s := trim s
  if s.isEmpty then none else C.readTime s

def parseHhmmToSecs (b : Build) (s : String) : Except Overflow (Option Nat) :=
  match Text.splitOnce [':'] (trim s).toList with
  | none => .ok none
  | some (h, m) =>
    match readU64 h, readU64 m with
    | some h, some m => do
      let hours ← b.u64 (h * 3600)
      let minutes ← b.u64 (m * 60)
      return some (← b.u64 (hours + minutes))
    | _, _ => .ok none

def parseDate (C : Readers) (s : String) : Option NaiveDate :=
  let s := trim s
  if s.isEmpty then none else C.readDate s

def parseWeekdays (C : Readers) (values : List String) : WeekdaySet := ⟨(values.filterMap C.readWeekday).toFinset⟩

/-- The trigger of a form, and what is wrong with it. -/
def ScheduleForm.tryIntoTrigger (b : Build) (C : Readers) (R : Render) (form : ScheduleForm) :
    Except Overflow (Trigger × List FieldError) :=
  if form.kind = "interval" then do
    let secs := (← parseHhmmToSecs b form.intervalEvery).getD 0
    return (.interval ⟨.ofNat secs, 0⟩ (parseWeekdays C form.intervalDays) (parseHhmm C form.intervalActiveFrom)
      (parseHhmm C form.intervalActiveTo), [])
  else if form.kind = "calendar" then
    .ok <|
      match parseHhmm C form.calendarAt with
      | some at_ => (.calendar (parseWeekdays C form.calendarDays) at_, [])
      | none => (.calendar (parseWeekdays C form.calendarDays) (.fromHms 0 0 0),
          [⟨"form.calendar_at", s!"must be HH:MM (got {R.debugStr form.calendarAt})"⟩])
  else
    .ok (.calendar ⟨∅⟩ (.fromHms 0 0 0), [⟨"form.kind", s!"unknown trigger kind {R.debugStr form.kind}"⟩])

def ScheduleForm.tryIntoSchedule (b : Build) (C : Readers) (R : Render) (form : ScheduleForm) :
    Except Overflow (Except (List FieldError) Schedule) := do
  let (trigger, errs) ← form.tryIntoTrigger b C R
  if errs.isEmpty then
    return .ok {
      name := trim form.name
      message := trim form.message
      trigger
      startDate := parseDate C form.startDate
      endDate := parseDate C form.endDate
      enabled := form.enabled.isSome }
  else return .error errs

end Twitch1337.Web
