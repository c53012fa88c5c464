import Twitch1337.Lib.Chrono
import Twitch1337.Schedule.Types

/-!
# When a trigger fires

`schedule/trigger.rs` and `Schedule::next_active_fire`. Instants are nanoseconds since the Unix epoch, and so are local
readings of the calendar and the clock, as if the local time were UTC. The clock is never in a leap second, but the time of a
calendar trigger may be. The time zone is a parameter. A function that can panic returns nothing where it does: a time of the
calendar that no instant has, or an instant or a date beyond those there are.
-/

namespace Twitch1337.Schedules

open Chrono

/-! ## Instants -/

/-- A local reading of calendar and clock. -/
abbrev NaiveDateTime : Type := Int

/-- The instants there are: from the year -262143 to the year 262142. -/
def inRange (t : Instant) : Prop := seconds (-8334601315200) ≤ t ∧ t < seconds 8210266876800

instance (t : Instant) : Decidable (inRange t) := inferInstanceAs (Decidable (_ ∧ _))

/-- An instant moved by a number of seconds. -/
def addSeconds (t : Instant) (secs : Int) : Option Instant :=
  if inRange (t + seconds secs) then some (t + seconds secs) else none

/-- A point in time: the instant at which its second begins, and the nanoseconds since then, which go beyond a second in a
leap second. -/
structure DateTime where
  second : Instant
  frac : Nat
  deriving DecidableEq

def DateTime.ofInstant (t : Instant) : DateTime := ⟨seconds (t / 1000000000), (t % 1000000000).toNat⟩

def DateTime.lt (a b : DateTime) : Bool := decide (a.second < b.second ∨ (a.second = b.second ∧ a.frac < b.frac))

/-! ## The time zone -/

/-- The instants with a local reading. -/
inductive LocalResult where
  | single (t : Instant)
  | ambiguous (first second : Instant)
  | none

/-- A time zone: its offset from UTC at every instant, in seconds, and the instants with a local reading. -/
structure Zone where
  offset : Instant → Int
  fromLocal : NaiveDateTime → LocalResult

/-- A zone that is the same number of seconds ahead of UTC at all times. -/
def Zone.fixed (secs : Int) : Zone where
  offset _ := secs
  fromLocal naive := if inRange (naive - seconds secs) then .single (naive - seconds secs) else .none

def Zone.local (Z : Zone) (t : Instant) : NaiveDateTime := t + seconds (Z.offset t)

def Zone.date (Z : Zone) (t : Instant) : NaiveDate := Z.local t / seconds 86400

def Zone.time (Z : Zone) (t : Instant) : NaiveTime :=
  let nanos := (Z.local t % seconds 86400).toNat
  ⟨nanos / 1000000000, nanos % 1000000000⟩

def Zone.weekday (Z : Zone) (t : Instant) : Weekday := weekdayOf (Z.date t)

/-- A date at a time of day. -/
def andTime (date : NaiveDate) (time : NaiveTime) : NaiveDateTime := seconds (date * 86400 + time.secs) + time.frac

def LocalResult.single? : LocalResult → Option Instant
  | single t => some t
  | _ => Option.none

/-! ## Intervals -/

/-- The start of a local day. Where midnight falls into a gap, it is an hour later. -/
def dayStart (Z : Zone) (date : NaiveDate) : Option Instant :=
  let naive := andTime date (.fromHms 0 0 0)
  match Z.fromLocal naive with
  | .single t => some t
  | .ambiguous t1 _ => some t1
  | .none => (Z.fromLocal (naive + seconds 3600)).single?

/-- Whether a time of day lies in a window. One that ends before it starts goes over midnight. -/
def inWindow (t : NaiveTime) (from_ to_ : Option NaiveTime) : Bool :=
  match from_, to_ with
  | some f, some e => if e.lt f then !t.lt f || t.lt e else !t.lt f && t.lt e
  | _, _ => true

/-- Whether an interval trigger may fire at an instant. -/
def eligible (Z : Zone) (days : WeekdaySet) (activeFrom activeTo : Option NaiveTime) (t : Instant) : Bool :=
  inWindow (Z.time t) activeFrom activeTo && days.allows (Z.weekday t)

/-- The number of seconds, as an `i64`. -/
def Duration.secsI64 (d : Duration) : Int :=
  if d.secs.toNat < 2 ^ 63 then d.secs.toNat else (d.secs.toNat : Int) - 2 ^ 64

/-- The first eligible slot of a number of them. When there is none, the slot after them. -/
def scanSlots (Z : Zone) (days : WeekdaySet) (activeFrom activeTo : Option NaiveTime) (start : Instant) (everySecs : Int) :
    Nat → Int → Option Instant
  | 0, slot => addSeconds start slot
  | n + 1, slot =>
    (addSeconds start slot).bind fun candidate =>
      if eligible Z days activeFrom activeTo candidate then some candidate
      else scanSlots Z days activeFrom activeTo start everySecs n (slot + everySecs)

/-- Safety bound: at most 14 days of slots are scanned. -/
def maxSlots : Nat := 14 * 1440

def nextInterval (Z : Zone) (now : Instant) (every : Duration) (days : WeekdaySet) (activeFrom activeTo : Option NaiveTime) :
    Option Instant :=
  let everySecs := every.secsI64
  (dayStart Z (Z.date now)).bind fun start =>
    let elapsed := max (numSeconds (now - start)) 0
    let slot := (elapsed.tdiv everySecs + 1) * everySecs
    scanSlots Z days activeFrom activeTo start everySecs maxSlots slot

/-! ## The calendar -/

/-- A date at a time of day as a point in time: the first of two, and an hour later where there is none. -/
def calendarInstant (Z : Zone) (now : Instant) (date : NaiveDate) (at_ : NaiveTime) : Option DateTime :=
  let naive := seconds (date * 86400 + at_.secs)
  match Z.fromLocal naive with
  | .single t => some ⟨t, at_.frac⟩
  | .ambiguous t1 _ => some ⟨t1, at_.frac⟩
  | .none =>
    let bumped := naive + seconds 3600
    if inRange bumped then
      some <|
        match (Z.fromLocal bumped).single? with
        -- what is added to a leap second is added to the second before it
        | some t => ⟨t, at_.frac % 1000000000⟩
        | none => .ofInstant now
    else none

/-- The first of a number of days, given by their distance, at which the trigger fires after `now`. When there is none, it is
the day a week later. -/
def scanDays (Z : Zone) (now : Instant) (days : WeekdaySet) (at_ : NaiveTime) (baseDate : NaiveDate) :
    List Nat → Option DateTime
  | [] =>
    (addSeconds now (7 * 86400)).bind fun later =>
      some <|
        match (Z.fromLocal (seconds ((baseDate + 7) * 86400 + at_.secs))).single? with
        | some t => ⟨t, at_.frac⟩
        | none => .ofInstant later
  | offset :: rest =>
    let date := baseDate + (offset : Int)
    if inRange (seconds (date * 86400)) then
      if days.allows (weekdayOf date) then
        (calendarInstant Z now date at_).bind fun candidate =>
          if (DateTime.ofInstant now).lt candidate then some candidate else scanDays Z now days at_ baseDate rest
      else scanDays Z now days at_ baseDate rest
    else none

def nextCalendar (Z : Zone) (now : Instant) (days : WeekdaySet) (at_ : NaiveTime) : Option DateTime :=
  scanDays Z now days at_ (Z.date now) (List.range 8)

/-! ## The next fire -/

/-- The next instant after `now` at which a trigger fires. -/
def Trigger.nextFireAfter (Z : Zone) (trigger : Trigger) (now : Instant) : Option DateTime :=
  match trigger with
  | .interval every days activeFrom activeTo =>
    (nextInterval Z now every days activeFrom activeTo).map DateTime.ofInstant
  | .calendar days at_ => nextCalendar Z now days at_

/-- What comes of asking a schedule for its next fire. -/
inductive NextFire where
  | fire (t : DateTime)
  | ended
  | panics
  deriving DecidableEq

/-- The next fire between the first and the last date of a schedule, both included. -/
def Schedule.nextActiveFire (Z : Zone) (s : Schedule) (now : Instant) : NextFire :=
  let anchor : Option Instant :=
    match s.startDate with
    | none => some now
    | some start =>
      ((Z.fromLocal (andTime start (.fromHms 0 0 0))).single?).bind fun startDt =>
        if now < startDt then addSeconds startDt (-1) else some now
  match anchor.bind (s.trigger.nextFireAfter Z) with
  | none => .panics
  | some next =>
    match s.endDate with
    | none => .fire next
    | some end_ =>
      match (Z.fromLocal (andTime end_ (.fromHms 23 59 59))).single? with
      | none => .panics
      | some endDt => if (DateTime.ofInstant endDt).lt next then .ended else .fire next

end Twitch1337.Schedules
