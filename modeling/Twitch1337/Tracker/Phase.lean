import Twitch1337.Tracker.Types

/-!
# Flight phases

`aviation/tracker/phase.rs`: what one sample of an aircraft says about the phase of its flight.
-/

namespace Twitch1337.Tracker

open Chrono

def climbRateThreshold : Int64 := 500
def descentRateThreshold : Int64 := -500
def cruiseRateThreshold : Int64 := 300
def cruiseMinAltitude : Int64 := 10000
def approachMaxAltitude : Int64 := 10000
def groundMaxAltitude : Int64 := 200

/-- `30.0` -/
def groundMaxSpeed : F64 := ⟨0x403E000000000000⟩

/-- `60.0` -/
def takeoffMinSpeed : F64 := ⟨0x404E000000000000⟩

def cruiseStablePolls : UInt32 := 2

/-- The height in feet, which is zero on the ground. -/
def altitudeFt (ac : NearbyAircraft) : Option Int64 :=
  match ac.altBaro with
  | some (.feet ft) => some ft
  | some .ground => some 0
  | none => none

/-- The rate by the barometer, or else by the position. -/
def verticalRate (ac : NearbyAircraft) : Option Int64 := ac.baroRate.or ac.geomRate

/-- On the ground, or low and slow. -/
def isOnGround (ac : NearbyAircraft) : Bool :=
  match ac.altBaro with
  | some .ground => true
  | some (.feet ft) => decide (ft < groundMaxAltitude) && (ac.gs.getD F64.zero).lt groundMaxSpeed
  | none => false

/-- The phases in the air. -/
def isAirbornePhase : FlightPhase → Bool
  | .takeoff | .climb | .cruise | .descent | .approach => true
  | .unknown | .ground | .landing => false

/-- A `u32` plus one, or the largest `u32`. -/
def saturatingSucc (n : UInt32) : UInt32 := if n = 0xFFFFFFFF then n else n + 1

/-- The divert counter after a sample, and whether it calls for an alert. -/
def updateDivertCounter (counter : UInt32) (isAnomalous : Bool) : UInt32 × Bool :=
  if isAnomalous then
    let counter := saturatingSucc counter
    (counter, decide (divertConsecutivePolls ≤ counter))
  else
    (0, false)

/-- Ground or unknown: the phases a flight can take off from, and in which an aircraft on the ground has not landed. -/
def FlightPhase.isParked : FlightPhase → Bool
  | .ground | .unknown => true
  | _ => false

/-- The phase a sample puts a flight in. The rules are tried in this order. -/
def detectPhase (flight : TrackedFlight) (ac : NearbyAircraft) : FlightPhase :=
  let alt := altitudeFt ac
  let vrate := verticalRate ac
  let gs := ac.gs.getD F64.zero
  let hasApproachMode := ac.navModes.any fun modes => modes.any (· == "approach")
  if isOnGround ac && !flight.phase.isParked then
    .landing
  else if isOnGround ac then
    .ground
  else if flight.phase.isParked && takeoffMinSpeed.lt gs && decide (0 < vrate.getD 0) then
    .takeoff
  else if vrate.any fun vr => decide (vr < descentRateThreshold) then
    if alt.any fun altVal => decide (altVal < approachMaxAltitude) || hasApproachMode || flight.phase == .approach then
      .approach
    else
      .descent
  else if hasApproachMode && decide (vrate.getD 0 < 0) then
    .approach
  else if (alt.any fun altVal => decide (cruiseMinAltitude < altVal)) &&
      (vrate.any fun vr => decide (vr.abs < cruiseRateThreshold)) &&
      decide (cruiseStablePolls ≤ flight.pollsSinceChange) && !(flight.phase == .descent || flight.phase == .approach) then
    .cruise
  else if vrate.any fun vr => decide (climbRateThreshold < vr) then
    .climb
  else
    flight.phase

/-- The three squawks of an emergency. -/
def emergencySquawkMeaning (squawk : String) : Option String :=
  if squawk = "7500" then some "Hijack"
  else if squawk = "7600" then some "Radio Failure"
  else if squawk = "7700" then some "Emergency"
  else none

end Twitch1337.Tracker
