import Twitch1337.Lib.Decimal
import Twitch1337.Schedule.Trigger
import Twitch1337.Tracker.Advance

/-!
# The transition of a flight, with the operations that can go wrong

`advance_flight` of `aviation/tracker/advance.rs` with what it calls, as the two builds run it: `+=` and `abs` overflow or wrap, and
an instant that is moved out of the calendar stops the program. The other counter of a flight and that of the misses are added to
with `saturating_add`, and `live_poll_interval` does no more than compare.
-/

namespace Twitch1337.Tracker.Checked

open Chrono Decimal

/-- Why a transition stops. -/
inductive Fault where
  /-- An integer operation overflows. -/
  | overflow
  /-- An instant is moved out of the calendar. -/
  | calendar
  deriving DecidableEq

/-- The result of an integer operation. -/
def arith {α : Type} : Except Overflow α → Except Fault α
  | .ok a => .ok a
  | .error .overflow => .error .overflow

/-- An instant moved by a difference. -/
def shift (t d : Instant) : Except Fault Instant := if Schedules.inRange (t + d) then .ok (t + d) else .error .calendar

/-! ## Which aircraft is the target -/

def inferredByHexWindow (flight : TrackedFlight) (now : Instant) : Except Fault Bool :=
  if flight.identifier.isHex then return true
  else
    match flight.scheduledDepartureAt with
    | none => return false
    | some departure => do
      let opensAt ← shift departure (-seconds (30 * 60))
      if opensAt ≤ now then
        let closesAt ← shift departure (seconds (3 * 60 * 60))
        return decide (now ≤ closesAt)
      else return false

def targetConfirmationForAircraft (flight : TrackedFlight) (ac : NearbyAircraft) (usedHex : Bool) (now : Instant) :
    Except Fault (Option TargetConfirmation) :=
  if (aircraftCallsign ac).any (flightMatchesCallsign flight) then
    return some .confirmedByCallsign
  else if !usedHex then
    return none
  else if flight.identifier.isHex || (aircraftCallsign ac).isNone then do
    if ← inferredByHexWindow flight now then return some .inferredByAssignedHex else return some .aircraftVisible
  else
    return some .aircraftVisible

section builds

variable (b : Build)

/-! ## The phase -/

/-- The rule for a cruise. The rate is looked at when the altitude is high enough. -/
def cruises (flight : TrackedFlight) (ac : NearbyAircraft) : Except Fault Bool :=
  match altitudeFt ac, verticalRate ac with
  | some altVal, some vr =>
    if cruiseMinAltitude < altVal then do
      let rate ← arith (b.abs vr)
      return decide (rate < cruiseRateThreshold) && decide (cruiseStablePolls ≤ flight.pollsSinceChange) &&
        !(flight.phase == .descent || flight.phase == .approach)
    else return false
  | _, _ => return false

def detectPhase (flight : TrackedFlight) (ac : NearbyAircraft) : Except Fault FlightPhase :=
  let alt := altitudeFt ac
  let vrate := verticalRate ac
  let gs := ac.gs.getD F64.zero
  let hasApproachMode := ac.navModes.any fun modes => modes.any (· == "approach")
  if isOnGround ac && !flight.phase.isParked then
    return .landing
  else if isOnGround ac then
    return .ground
  else if flight.phase.isParked && takeoffMinSpeed.lt gs && decide (0 < vrate.getD 0) then
    return .takeoff
  else if vrate.any fun vr => decide (vr < descentRateThreshold) then
    if alt.any fun altVal => decide (altVal < approachMaxAltitude) || hasApproachMode || flight.phase == .approach then
      return .approach
    else
      return .descent
  else if hasApproachMode && decide (vrate.getD 0 < 0) then
    return .approach
  else do
    if ← cruises b flight ac then
      return .cruise
    else if vrate.any fun vr => decide (climbRateThreshold < vr) then
      return .climb
    else
      return flight.phase

def phaseStep (flight : TrackedFlight) (ac : NearbyAircraft) (now : Instant) : Except Fault (TrackedFlight × List Emit) := do
  let newPhase ← detectPhase b flight ac
  let oldPhase := flight.phase
  if newPhase = oldPhase then
    let polls ← arith (b.u32 (flight.pollsSinceChange.toNat + 1))
    return ({ flight with pollsSinceChange := polls }, [])
  else
    let takeoffAt :=
      if oldPhase == .ground && isAirbornePhase newPhase && flight.takeoffAt.isNone then some now else flight.takeoffAt
    let flight := { flight with lastPhaseChange := some now, pollsSinceChange := 0 }
    if newPhase = .landing then
      return ({ flight with phase := .ground, takeoffAt := none }, phaseEmits newPhase takeoffAt)
    else
      return ({ flight with phase := newPhase, takeoffAt := takeoffAt }, phaseEmits newPhase takeoffAt)

variable (Γ : Ctx)

def observePhase (flight : TrackedFlight) (ac : NearbyAircraft) (restart phaseSampleConfirmed : Bool)
    (prevLat prevLon : Option F64) (now : Instant) : Except Fault (TrackedFlight × List Emit) := do
  let flight := if restart then resetPhase flight else flight
  let (flight, phased) ← if phaseSampleConfirmed then phaseStep b flight ac now else pure (flight, [])
  let (flight, diverted) := divertStep Γ flight prevLat prevLon phaseSampleConfirmed
  return (flight, phased ++ diverted)

/-! ## The transition -/

/-- An accepted hit. -/
def advanceHit (flight : TrackedFlight) (ac : NearbyAircraft) (rawConfirmation : TargetConfirmation) (usedHex : Bool)
    (now : Instant) : Except Fault (TrackedFlight × FlightUpdate) := do
  let directTargetConfirmed := rawConfirmation.isTargetConfirmed
  let confirmation :=
    if shouldKeepPriorConfirmation flight rawConfirmation usedHex now then flight.targetConfirmation else rawConfirmation
  let eligible := phaseSampleConfirmed flight ac rawConfirmation usedHex now
  let becameTargetConfirmed := !flight.targetConfirmation.isTargetConfirmed && directTargetConfirmed
  let restart := becameTargetConfirmed && isPendingAdsb flight
  let prevLat := flight.lat
  let prevLon := flight.lon
  let prevSquawk := flight.squawk
  let flight :=
    { flight with
      lastVisibleAt := some now
      lastSeen := if directTargetConfirmed then some now else flight.lastSeen }
  let (flight, newlyResolved) := applyObservedAircraft Γ flight ac confirmation directTargetConfirmed
  let followups :=
    match newlyResolved with
    | some cs => if flight.route.isNone then [.fetchRoute cs] else []
    | none => []
  let squawked := squawkEmits prevSquawk ac.squawk eligible
  let visible := if becameTargetConfirmed then [.adsbVisible] else []
  let (flight, phased) ← observePhase b Γ flight ac restart eligible prevLat prevLon now
  return (flight, { emits := squawked ++ visible ++ phased, followups := followups })

/-- The transition of a flight under one observation. -/
def advanceFlight (flight : TrackedFlight) (obs : Observation) (now : Instant) : Except Fault (TrackedFlight × FlightUpdate) :=
  let flight := { flight with lastAdsbPollAt := some now }
  match obs.outcome with
  | .miss => return advanceMiss flight now
  | .error => return (flight, {})
  | .timeout => return (flight, {})
  | .hit ac => do
    match ← targetConfirmationForAircraft flight ac obs.usedHex now with
    | none => return (flight, {})
    | some rawConfirmation => advanceHit b Γ flight ac rawConfirmation obs.usedHex now

end builds

end Twitch1337.Tracker.Checked
