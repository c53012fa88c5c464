import Twitch1337.Tracker.Metadata
import Twitch1337.Tracker.Phase
import Twitch1337.Tracker.Schedule

/-!
# The transition of a flight under one observation

`aviation/tracker/advance.rs`. `advanceFlight` is the transition; its branches are definitions of their own: what a miss
does, and what an accepted hit does to the identity and telemetry, to the confirmation, to the phase and to the divert counter
of the flight. The journal of debug events is left out.
-/

namespace Twitch1337.Tracker

open RustStr Chrono

inductive PollOutcome where
  | hit (ac : NearbyAircraft)
  | miss
  | error
  | timeout

structure Observation where
  usedHex : Bool
  outcome : PollOutcome

inductive Emit where
  | adsbVisible | takeoff | cruise | descent | approach
  | landing (takeoffAt : Option Instant)
  | squawkEmergency (code meaning : String)
  | possibleDivert | trackingLost | pendingExpired
  deriving DecidableEq, Repr

inductive RemovalReason where
  | trackingLost (secs : Int)
  deriving DecidableEq, Repr

inductive Followup where
  | fetchRoute (callsign : String)
  deriving DecidableEq, Repr

/-- What the poll loop has to do after a transition. -/
structure FlightUpdate where
  emits : List Emit := []
  followups : List Followup := []
  removal : Option RemovalReason := none

/-- Applies a freshly fetched route to a flight. -/
def applyRoute (Γ : Ctx) (flight : TrackedFlight) (origin dest : String) : TrackedFlight :=
  setRouteFromIata Γ flight origin dest

/-! ## Which aircraft is the target -/

def flightMatchesCallsign (flight : TrackedFlight) (actual : String) : Bool :=
  flight.callsign.any (eqIgnoreAsciiCase · actual) ||
    flight.aliasCallsigns.any (eqIgnoreAsciiCase · actual) ||
    (identifierCallsign flight.identifier).any (eqIgnoreAsciiCase · actual)

def candidateCallsignMatchesFlight (flight : TrackedFlight) (candidate : String) : Bool :=
  flightMatchesCallsign flight candidate || flight.observedCallsign.any (eqIgnoreAsciiCase · candidate)

/-- An aircraft under the hex of a flight is taken for the flight when the user named the hex, or near the departure. -/
def inferredByHexWindow (flight : TrackedFlight) (now : Instant) : Bool :=
  flight.identifier.isHex ||
    flight.scheduledDepartureAt.any fun departure =>
      decide (departure - seconds (30 * 60) ≤ now) && decide (now ≤ departure + seconds (3 * 60 * 60))

def shouldKeepPriorConfirmation (flight : TrackedFlight) (confirmation : TargetConfirmation) (usedHex : Bool)
    (now : Instant) : Bool :=
  usedHex && flight.targetConfirmation.isTargetConfirmed && confirmation == .aircraftVisible &&
    flight.lastSeen.any fun lastSeen => decide (now - lastSeen ≤ trackingLostThreshold)

/-- What an aircraft found for a flight confirms, or nothing when it is not the flight's. -/
def targetConfirmationForAircraft (flight : TrackedFlight) (ac : NearbyAircraft) (usedHex : Bool) (now : Instant) :
    Option TargetConfirmation :=
  if (aircraftCallsign ac).any (flightMatchesCallsign flight) then
    some .confirmedByCallsign
  else if !usedHex then
    none
  else if flight.identifier.isHex || (aircraftCallsign ac).isNone then
    if inferredByHexWindow flight now then some .inferredByAssignedHex else some .aircraftVisible
  else
    some .aircraftVisible

/-! ## Identity and telemetry -/

/-- The callsign a flight takes over from an aircraft: the transmitted one, where the flight has none and the aircraft is
confirmed by callsign or the user named the hex. -/
def newlyResolvedCallsign (flight : TrackedFlight) (ac : NearbyAircraft) (confirmation : TargetConfirmation) :
    Option String :=
  if (confirmation == .confirmedByCallsign || flight.identifier.isHex) && flight.callsign.isNone then
    aircraftCallsign ac
  else
    none

/-- A flight with a newly resolved callsign, if there is one. -/
def resolveCallsignTo (Γ : Ctx) (flight : TrackedFlight) : Option String → TrackedFlight
  | none => flight
  | some cs => addAliasCallsign Γ { flight with callsign := some cs } cs

/-- Seed a flight's identity and telemetry from a confirming observation's aircraft. Returns the callsign newly resolved by
this observation, if any. -/
def applyObservedAircraft (Γ : Ctx) (flight : TrackedFlight) (ac : NearbyAircraft) (confirmation : TargetConfirmation)
    (directTargetConfirmed : Bool) : TrackedFlight × Option String :=
  let flight := { flight with targetConfirmation := confirmation, observedCallsign := aircraftCallsign ac }
  let newlyResolved := newlyResolvedCallsign flight ac confirmation
  let flight := resolveCallsignTo Γ flight newlyResolved
  let flight := setHexFrom Γ flight ac.hex .adsb directTargetConfirmed
  ({ flight with
      aircraftType := flight.aircraftType.or ac.t
      altitudeFt := altitudeFt ac
      verticalRateFpm := verticalRate ac
      groundSpeedKts := ac.gs
      lat := ac.lat
      lon := ac.lon
      squawk := ac.squawk },
    newlyResolved)

/-! ## The transition -/

/-- A miss: the flight is lost when its aircraft was last visible long enough ago. -/
def advanceMiss (flight : TrackedFlight) (now : Instant) : TrackedFlight × FlightUpdate :=
  match flight.lastVisibleAt with
  | none => ({ flight with pollsSinceChange := saturatingSucc flight.pollsSinceChange }, {})
  | some lastVisibleAt =>
    let lostDuration := now - lastVisibleAt
    if trackingLostRemoval ≤ lostDuration then
      (flight, { emits := [.trackingLost], removal := some (.trackingLost (numSeconds lostDuration)) })
    else
      (flight, {})

/-- The announcement of an emergency squawk: one that a phase sample reports and the last accepted aircraft did not. -/
def squawkEmits (prevSquawk newSquawk : Option String) (phaseSampleConfirmed : Bool) : List Emit :=
  match newSquawk with
  | none => []
  | some code =>
    if phaseSampleConfirmed && prevSquawk != some code then
      match emergencySquawkMeaning code with
      | some meaning => [.squawkEmergency code meaning]
      | none => []
    else
      []

/-- The phase of a pending flight starts over when its target is first confirmed. -/
def resetPhase (flight : TrackedFlight) : TrackedFlight :=
  { flight with phase := .unknown, lastPhaseChange := none, pollsSinceChange := 0 }

/-- What a change to a phase announces. The takeoff time is the one from before the landing clears it. -/
def phaseEmits (newPhase : FlightPhase) (takeoffAt : Option Instant) : List Emit :=
  match newPhase with
  | .takeoff => [.takeoff]
  | .cruise => [.cruise]
  | .descent => [.descent]
  | .approach => [.approach]
  | .landing => [.landing takeoffAt]
  | .unknown | .ground | .climb => []

/-- The phase branch: a changed phase is stored and announced, a takeoff is timed, a landing leaves the flight on the
ground. -/
def phaseStep (flight : TrackedFlight) (ac : NearbyAircraft) (now : Instant) : TrackedFlight × List Emit :=
  let newPhase := detectPhase flight ac
  let oldPhase := flight.phase
  if newPhase = oldPhase then
    ({ flight with pollsSinceChange := flight.pollsSinceChange + 1 }, [])
  else
    let takeoffAt :=
      if oldPhase == .ground && isAirbornePhase newPhase && flight.takeoffAt.isNone then some now else flight.takeoffAt
    let flight := { flight with lastPhaseChange := some now, pollsSinceChange := 0 }
    if newPhase = .landing then
      ({ flight with phase := .ground, takeoffAt := none }, phaseEmits newPhase takeoffAt)
    else
      ({ flight with phase := newPhase, takeoffAt := takeoffAt }, phaseEmits newPhase takeoffAt)

/-- The diversion branch: with both positions and the destination known, a descending flight is compared with its course; a
sample of any other flight sets the counter back. -/
def divertStep (Γ : Ctx) (flight : TrackedFlight) (prevLat prevLon : Option F64) (phaseSampleConfirmed : Bool) :
    TrackedFlight × List Emit :=
  if phaseSampleConfirmed && (flight.phase == .descent || flight.phase == .approach) then
    match flight.destLat, flight.destLon, flight.lat, flight.lon, prevLat, prevLon with
    | some destLat, some destLon, some curLat, some curLon, some pLat, some pLon =>
      let (counter, alertEmitted) :=
        updateDivertCounter flight.divertConsecutivePolls (Γ.offHeading (pLat, pLon) (curLat, curLon) (destLat, destLon))
      ({ flight with divertConsecutivePolls := counter }, if alertEmitted then [.possibleDivert] else [])
    | _, _, _, _, _, _ => (flight, [])
  else
    ({ flight with divertConsecutivePolls := 0 }, [])

/-- What an accepted hit does to the phase of a flight and to its divert counter, and what it announces of them. -/
def observePhase (Γ : Ctx) (flight : TrackedFlight) (ac : NearbyAircraft) (restart phaseSampleConfirmed : Bool)
    (prevLat prevLon : Option F64) (now : Instant) : TrackedFlight × List Emit :=
  let flight := if restart then resetPhase flight else flight
  let (flight, phased) := if phaseSampleConfirmed then phaseStep flight ac now else (flight, [])
  let (flight, diverted) := divertStep Γ flight prevLat prevLon phaseSampleConfirmed
  (flight, phased ++ diverted)

/-- Whether the sample of an accepted hit counts for the phase: the target is confirmed directly, or its confirmation is kept
and the aircraft transmits no callsign. -/
def phaseSampleConfirmed (flight : TrackedFlight) (ac : NearbyAircraft) (rawConfirmation : TargetConfirmation)
    (usedHex : Bool) (now : Instant) : Bool :=
  rawConfirmation.isTargetConfirmed ||
    (shouldKeepPriorConfirmation flight rawConfirmation usedHex now && (aircraftCallsign ac).isNone)

/-- An accepted hit. -/
def advanceHit (Γ : Ctx) (flight : TrackedFlight) (ac : NearbyAircraft) (rawConfirmation : TargetConfirmation)
    (usedHex : Bool) (now : Instant) : TrackedFlight × FlightUpdate :=
  let directTargetConfirmed := rawConfirmation.isTargetConfirmed
  let confirmation :=
    if shouldKeepPriorConfirmation flight rawConfirmation usedHex now then flight.targetConfirmation else rawConfirmation
  let eligible := phaseSampleConfirmed flight ac rawConfirmation usedHex now
  let becameTargetConfirmed := !flight.targetConfirmation.isTargetConfirmed && directTargetConfirmed
  let restart := becameTargetConfirmed && isPendingAdsb flight
  let prevLat := flight.lat
  let prevLon := flight.lon
  let prevSquawk := flight.squawk
  let flight :=
    { flight with
      lastVisibleAt := some now
      lastSeen := if directTargetConfirmed then some now else flight.lastSeen }
  let (flight, newlyResolved) := applyObservedAircraft Γ flight ac confirmation directTargetConfirmed
  let followups :=
    match newlyResolved with
    | some cs => if flight.route.isNone then [.fetchRoute cs] else []
    | none => []
  let squawked := squawkEmits prevSquawk ac.squawk eligible
  let visible := if becameTargetConfirmed then [.adsbVisible] else []
  let (flight, phased) := observePhase Γ flight ac restart eligible prevLat prevLon now
  (flight, { emits := squawked ++ visible ++ phased, followups := followups })

/-- The transition of a flight under one observation. -/
def advanceFlight (Γ : Ctx) (flight : TrackedFlight) (obs : Observation) (now : Instant) :
    TrackedFlight × FlightUpdate :=
  let flight := { flight with lastAdsbPollAt := some now }
  match obs.outcome with
  | .miss => advanceMiss flight now
  | .error => (flight, {})
  | .timeout => (flight, {})
  | .hit ac =>
    match targetConfirmationForAircraft flight ac obs.usedHex now with
    | none => (flight, {})
    | some rawConfirmation => advanceHit Γ flight ac rawConfirmation obs.usedHex now

end Twitch1337.Tracker
