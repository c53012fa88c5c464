import Twitch1337.Tracker.Types

/-!
# When a flight is polled

`aviation/tracker/schedule.rs`: the pending schedule before the first confirmed sighting, the live interval after it, and
whether a flight is due.
-/

namespace Twitch1337.Tracker

open Chrono

def pendingPoll60Sec : Instant := seconds 60
def pendingPoll2Min : Instant := seconds 120
def pendingPoll5Min : Instant := seconds 300
def pendingPoll10Min : Instant := seconds 600
def pendingPoll15Min : Instant := seconds 900
def pendingPoll30Min : Instant := seconds 1800

def pendingScheduledWakeBefore : Instant := seconds (3 * 60 * 60)
def pendingScheduledLockInBefore : Instant := seconds (60 * 60)
def pendingScheduledHuntBefore : Instant := seconds (30 * 60)
def pendingScheduledNearAfter : Instant := seconds (45 * 60)
def pendingScheduledMidAfter : Instant := seconds (3 * 60 * 60)
def pendingScheduledExpireAfter : Instant := seconds (12 * 60 * 60)
def pendingUnknownFastAfterTrack : Instant := seconds (10 * 60)
def pendingUnknownNormalAfterTrack : Instant := seconds (6 * 60 * 60)
def pendingUnknownExpireAfter : Instant := seconds (24 * 60 * 60)

def pollFast : Instant := seconds 30
def pollNormal : Instant := seconds 60
def pollSlow : Instant := seconds 120

/-- When a flight that was not seen yet is polled: how often, from when on, when that changes, and until when. -/
inductive PendingPollSchedule where
  | active (interval startsAt : Instant) (refreshAt : Option Instant) (expiresAt : Instant)
  | expired
  deriving DecidableEq

/-- Whether a flight is due, and when it will be. -/
inductive PollReadiness where
  | due
  | notDue (nextAt : Instant)
  | expired
  deriving DecidableEq

/-- A flight whose aircraft has not been seen yet. -/
def isPendingAdsb (flight : TrackedFlight) : Bool :=
  flight.targetConfirmation == .pending ||
    (flight.targetConfirmation == .aircraftVisible && flight.lastVisibleAt.isNone)

/-- How often a flight is polled that was seen: fast near the ground and after a change. -/
def livePollInterval (flight : TrackedFlight) : Instant :=
  if decide (flight.pollsSinceChange < 5) || flight.phase == .takeoff || flight.phase == .approach ||
      flight.phase == .landing then
    pollFast
  else if flight.phase == .climb || flight.phase == .descent then
    pollNormal
  else
    pollSlow

/-- The schedule of a flight whose departure is not known, by the time since it is tracked. -/
def pendingUnknownPollSchedule (flight : TrackedFlight) (now : Instant) : PendingPollSchedule :=
  let expiresAt := flight.trackedAt + pendingUnknownExpireAfter
  if expiresAt ≤ now then
    .expired
  else
    let age := now - flight.trackedAt
    let interval :=
      if age < pendingUnknownFastAfterTrack then pendingPoll2Min
      else if age < pendingUnknownNormalAfterTrack then pendingPoll10Min
      else pendingPoll30Min
    .active interval flight.trackedAt none expiresAt

/-- The schedule around a departure: the interval, when it starts, and when it changes. -/
def scheduledPollWindow (departure now : Instant) : Instant × Instant × Option Instant :=
  let untilDeparture := departure - now
  let sinceDeparture := now - departure
  let wakeAt := departure - pendingScheduledWakeBefore
  let lockInAt := departure - pendingScheduledLockInBefore
  let huntAt := departure - pendingScheduledHuntBefore
  let nearAfterEndsAt := departure + pendingScheduledNearAfter
  let midAfterEndsAt := departure + pendingScheduledMidAfter
  if pendingScheduledWakeBefore < untilDeparture then (pendingPoll15Min, wakeAt, some wakeAt)
  else if pendingScheduledLockInBefore < untilDeparture then (pendingPoll15Min, wakeAt, some lockInAt)
  else if pendingScheduledHuntBefore < untilDeparture then (pendingPoll5Min, lockInAt, some huntAt)
  else if now ≤ departure then (pendingPoll60Sec, huntAt, some departure)
  else if sinceDeparture ≤ pendingScheduledNearAfter then (pendingPoll2Min, departure, some nearAfterEndsAt)
  else if sinceDeparture ≤ pendingScheduledMidAfter then (pendingPoll5Min, nearAfterEndsAt, some midAfterEndsAt)
  else (pendingPoll15Min, midAfterEndsAt, none)

/-- The schedule of a flight by its departure, or as of one whose departure is not known. -/
def pendingPollSchedule (flight : TrackedFlight) (now : Instant) : PendingPollSchedule :=
  match flight.scheduledDepartureAt with
  | none => pendingUnknownPollSchedule flight now
  | some departure =>
    let expiresAt := departure + pendingScheduledExpireAfter
    if expiresAt ≤ flight.trackedAt then
      pendingUnknownPollSchedule flight now
    else if expiresAt ≤ now then
      .expired
    else
      let (interval, startsAt, refreshAt) := scheduledPollWindow departure now
      .active interval startsAt refreshAt expiresAt

/-- One interval after the last poll, and now when there was none. -/
def nextDueAfterLastPoll (lastAdsbPollAt : Option Instant) (interval now : Instant) : Instant :=
  match lastAdsbPollAt with
  | some lastPoll => lastPoll + interval
  | none => now

/-- When a pending flight is due next: not before its schedule starts, and no later than the schedule changes or ends. -/
def pendingDueAt (lastAdsbPollAt : Option Instant) (interval startsAt : Instant) (refreshAt : Option Instant)
    (expiresAt now : Instant) : Instant :=
  let dueAt := max (nextDueAfterLastPoll lastAdsbPollAt interval now) startsAt
  let dueAt :=
    match refreshAt with
    | some refreshAt => if now < refreshAt ∧ refreshAt < dueAt then refreshAt else dueAt
    | none => dueAt
  if dueAt ≤ expiresAt then dueAt else expiresAt

/-- Whether an instant has come. -/
def readyAt (nextDue now : Instant) : PollReadiness := if nextDue ≤ now then .due else .notDue nextDue

/-- A flight that was not seen yet follows its schedule, any other its interval. -/
def pollReadiness (flight : TrackedFlight) (now : Instant) : PollReadiness :=
  if isPendingAdsb flight then
    match pendingPollSchedule flight now with
    | .expired => .expired
    | .active interval startsAt refreshAt expiresAt =>
      readyAt (pendingDueAt flight.lastAdsbPollAt interval startsAt refreshAt expiresAt now) now
  else
    readyAt (nextDueAfterLastPoll flight.lastAdsbPollAt (livePollInterval flight) now) now

/-- When a flight is to be looked at again: at once when it is due or expired. -/
def PollReadiness.wakeAt (now : Instant) : PollReadiness → Instant
  | due | expired => now
  | notDue nextAt => nextAt

/-- The first instant at which one of the flights is to be looked at. -/
def nextPollAt (flights : List TrackedFlight) (now : Instant) : Option Instant :=
  (flights.map fun flight => (pollReadiness flight now).wakeAt now).min?

end Twitch1337.Tracker
