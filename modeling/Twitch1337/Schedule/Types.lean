import Mathlib.Algebra.Group.Int.Defs
import Mathlib.Algebra.GroupWithZero.Nat
import Mathlib.Data.Finset.Insert
import Twitch1337.Lib.Civil
import Twitch1337.Lib.Str

/-!
# Schedules: their data and their validation

`schedule/weekday.rs`, `schedule/trigger.rs` and `schedule/schedule.rs`, but for the arithmetic of time. What the `Debug`
formatter of the standard library writes in an error is a parameter.
-/

namespace Twitch1337.Schedules

open RustStr

/-! ## Days and times -/

inductive Weekday where
  | mon | tue | wed | thu | fri | sat | sun
  deriving DecidableEq, Repr

/-- A day of the calendar, counted from 1970-01-01. -/
abbrev NaiveDate : Type := Int

/-- The weekday of a date. 1970-01-01 was a Thursday. -/
def weekdayOf (date : NaiveDate) : Weekday :=
  match (date % 7).toNat with
  | 0 => .thu
  | 1 => .fri
  | 2 => .sat
  | 3 => .sun
  | 4 => .mon
  | 5 => .tue
  | _ => .wed

/-- A time of day: the second, and the nanoseconds in it, which go beyond a second in a leap second. -/
structure NaiveTime where
  secs : Nat
  frac : Nat
  deriving DecidableEq, Repr

def NaiveTime.fromHms (hour min sec : Nat) : NaiveTime := ⟨hour * 3600 + min * 60 + sec, 0⟩

def NaiveTime.lt (a b : NaiveTime) : Bool := decide (a.secs < b.secs ∨ (a.secs = b.secs ∧ a.frac < b.frac))

/-- A span of time that is not negative. -/
structure Duration where
  secs : UInt64
  nanos : UInt32
  deriving DecidableEq, Repr

/-- The weekdays a trigger is eligible to fire on. The empty set means every day. -/
structure WeekdaySet where
  days : Finset Weekday
  deriving DecidableEq

def WeekdaySet.allows (set : WeekdaySet) (day : Weekday) : Bool := decide (set.days = ∅) || decide (day ∈ set.days)

/-! ## Schedules -/

inductive Trigger where
  | interval (every : Duration) (days : WeekdaySet) (activeFrom activeTo : Option NaiveTime)
  | calendar (days : WeekdaySet) (at_ : NaiveTime)
  deriving DecidableEq

/-- A single recurring chat schedule. -/
structure Schedule where
  name : String
  message : String
  trigger : Trigger
  startDate : Option NaiveDate
  endDate : Option NaiveDate
  enabled : Bool
  deriving DecidableEq

/-! ## Validation -/

/-- Why a field was turned down. -/
structure FieldError where
  field : String
  message : String
  deriving DecidableEq, Repr

/-- How values are written in error messages: the `Debug` text of characters, and of strings. -/
structure Render where
  debugChars : List Char → String
  debugStr : String → String

/-- The control characters of Unicode. -/
def isControl (c : Char) : Bool := decide (c.toNat < 0x20) || (decide (0x7F ≤ c.toNat) && decide (c.toNat ≤ 0x9F))

/-- The characters that a name must not contain. -/
def isBadNameChar (c : Char) : Bool :=
  "/?#%&+= '\"".toList.contains c || isControl c

/-- An error of a field, when something is wrong with it. -/
def errorIf (wrong : Bool) (field message : String) : List FieldError := if wrong then [⟨field, message⟩] else []

def Trigger.validate (t : Trigger) (pre : String) : List FieldError :=
  match t with
  | .interval every _ activeFrom activeTo =>
    errorIf (every.secs < 60) (pre ++ ".trigger.every") s!"must be ≥ 1 minute (got {every.secs.toNat}s)" ++
      match activeFrom, activeTo with
      | some _, none => [⟨pre ++ ".trigger.active_to", "must be set when active_from is set"⟩]
      | none, some _ => [⟨pre ++ ".trigger.active_from", "must be set when active_to is set"⟩]
      | _, _ => []
  | .calendar _ _ => []

/-- The errors of a schedule, under the path it stands at. -/
def Schedule.validate (R : Render) (s : Schedule) (pre : String) : List FieldError :=
  let bad := s.name.toList.filter isBadNameChar
  errorIf (trim s.name).isEmpty (pre ++ ".name") "must not be blank" ++
  errorIf (!bad.isEmpty) (pre ++ ".name")
    s!"must not contain URL-reserved, whitespace, quote, or control characters {R.debugChars bad}" ++
  errorIf (trim s.message).isEmpty (pre ++ ".message") "must not be blank" ++
  errorIf (s.message.toList.any isControl) (pre ++ ".message") "must not contain control characters" ++
  s.trigger.validate pre ++
  match s.startDate, s.endDate with
  | some start, some end_ =>
    errorIf (end_ < start) (pre ++ ".end_date")
      s!"must be ≥ start_date (start={Civil.isoDate start}, end={Civil.isoDate end_})"
  | _, _ => []

end Twitch1337.Schedules
