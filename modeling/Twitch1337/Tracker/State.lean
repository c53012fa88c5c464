import Twitch1337.Tracker.Commands

/-!
# Loading the state

`aviation/tracker/state.rs`: what is done to a state that has been read from its file. Each migration also returns how many
flights it changed.
-/

namespace Twitch1337.Tracker

open Chrono

/-- Changes the flights that meet a condition, and counts them. -/
def migrateFlights (p : TrackedFlight → Bool) (f : TrackedFlight → TrackedFlight) (state : FlightTrackerState) :
    FlightTrackerState × Nat :=
  ({ state with flights := state.flights.map fun flight => if p flight then f flight else flight },
    state.flights.countP p)

def clearPendingCallsignHexes (state : FlightTrackerState) : FlightTrackerState × Nat :=
  migrateFlights
    (fun flight => flight.identifier.isCallsign && flight.lastSeen.isNone && flight.hex.isSome &&
      flight.hexSource != some .aviationStack)
    (fun flight => { flight with hex := none, hexSource := none }) state

def migrateTargetConfirmations (state : FlightTrackerState) : FlightTrackerState × Nat :=
  migrateFlights (fun flight => flight.targetConfirmation == .pending && flight.lastSeen.isSome)
    (fun flight =>
      { flight with
        targetConfirmation :=
          match flight.identifier with
          | .hex _ => .inferredByAssignedHex
          | .callsign _ => .confirmedByCallsign }) state

def seedMissingAliases (Γ : Ctx) (state : FlightTrackerState) : FlightTrackerState :=
  { state with flights := state.flights.map (seedFlightAliases Γ) }

/-- Seed `lastVisibleAt` for flights stored before the field existed: with the last poll, but not before `lastSeen`. -/
def backfillVisibleAnchor (state : FlightTrackerState) : FlightTrackerState × Nat :=
  migrateFlights (fun flight => flight.lastVisibleAt.isNone && flight.lastSeen.isSome)
    (fun flight =>
      { flight with
        lastVisibleAt := flight.lastSeen.map fun lastSeen =>
          match flight.lastAdsbPollAt with
          | some lastPoll => max lastPoll lastSeen
          | none => lastSeen }) state

/-- What is made of a state that its file decodes to. -/
def loadTrackerState (Γ : Ctx) (state : FlightTrackerState) : FlightTrackerState :=
  let (state, _) := clearPendingCallsignHexes state
  let (state, _) := migrateTargetConfirmations state
  let state := seedMissingAliases Γ state
  let (state, _) := backfillVisibleAnchor state
  state

end Twitch1337.Tracker
