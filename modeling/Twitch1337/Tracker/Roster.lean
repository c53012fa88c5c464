import Twitch1337.Tracker.Round

/-!
# The roster: what the tracker is for

The tracker keeps a list of flights. A flight joins it by a track, leaves it by its place, and is observed in its place. This
is the abstract model the loop and its rounds refine; a flight of the roster has a history, the samples it was observed with.
-/

namespace Twitch1337.Tracker

open Chrono

/-! ## The life of one flight -/

/-- One observation of a flight, with its time and the answers to the route lookups it asks for. -/
structure Sample where
  obs : Observation
  now : Instant
  getFlightRoute : String → Option FlightRoute

/-- A flight after a sample. -/
def pollStep (Γ : Ctx) (flight : TrackedFlight) (s : Sample) : TrackedFlight :=
  let (flight, update) := advanceFlight Γ flight s.obs s.now
  performFollowups Γ s.getFlightRoute flight update.followups

/-- What a sample announces. -/
def sampleEmits (Γ : Ctx) (flight : TrackedFlight) (s : Sample) : List Emit := (advanceFlight Γ flight s.obs s.now).2.emits

/-- The aircraft of a sample that a flight accepts, and what it confirms. -/
def acceptedHit (flight : TrackedFlight) (s : Sample) : Option (NearbyAircraft × TargetConfirmation) :=
  match s.obs.outcome with
  | .hit ac => (targetConfirmationForAircraft flight ac s.obs.usedHex s.now).map fun confirmation => (ac, confirmation)
  | _ => none

/-- A flight after the samples of a history. -/
def flyThrough (Γ : Ctx) (flight : TrackedFlight) (samples : List Sample) : TrackedFlight :=
  samples.foldl (pollStep Γ) flight

/-- What is looked for in the samples of a history, each in the state the flight had then, in their order. -/
def recordOf {α : Type} (Γ : Ctx) (look : TrackedFlight → Sample → Option α) : TrackedFlight → List Sample → List α
  | _, [] => []
  | flight, s :: rest => (look flight s).toList ++ recordOf Γ look (pollStep Γ flight s) rest

/-- The aircraft of a sample that counts for the phase of a flight. -/
def eligibleHit (flight : TrackedFlight) (s : Sample) : Option NearbyAircraft :=
  match acceptedHit flight s with
  | some (ac, raw) => if phaseSampleConfirmed flight ac raw s.obs.usedHex s.now then some ac else none
  | none => none

/-- The last time the aircraft of a flight was visible: at the last accepted sample of its history, or else when it was
tracked. -/
def lastHit (Γ : Ctx) (flight : TrackedFlight) (samples : List Sample) : Option Instant :=
  (recordOf Γ (fun f s => (acceptedHit f s).map fun _ => s.now) flight samples).getLast?.or flight.lastVisibleAt

/-! ## The beginning of a flight -/

/-- The flight of a request when its first ADS-B lookup is made. -/
def preparedFlight (Γ : Ctx) (env : Env) (state : FlightTrackerState) (identifier : FlightIdentifier)
    (requestedBy : String) : TrackedFlight :=
  let resolvedCallsign := (identifierCallsign identifier).map (resolveCallsign Γ env)
  let lookup := (earlyMetadata Γ env state identifier resolvedCallsign).2
  applyMetadataFrom Γ (newFlight Γ identifier requestedBy resolvedCallsign lookup.checked env.now) lookup.metadata

/-- The aircraft that the first ADS-B lookup of a flight finds and the flight accepts. -/
def initialHit (Γ : Ctx) (env : Env) (flight : TrackedFlight) : Option NearbyAircraft :=
  if shouldSkipAdsbForStrictChill flight env.now then
    none
  else
    match initialLookup Γ env flight with
    | (usedHex, some (.answer (some ac))) =>
      (targetConfirmationForAircraft flight ac (usedHex && flight.hex.isSome) env.now).map fun _ => ac
    | _ => none

/-- A flight is produced by a track. -/
def ProducedBy (Γ : Ctx) (env : Env) (state : FlightTrackerState) (identifier : FlightIdentifier) (requestedBy : String)
    (flight : TrackedFlight) : Prop :=
  (handleTrack Γ env state identifier requestedBy).1.flights = state.flights ++ [flight]

/-- A flight is produced by some track. -/
def Produced (Γ : Ctx) (flight : TrackedFlight) : Prop :=
  ∃ env state identifier requestedBy, ProducedBy Γ env state identifier requestedBy flight

/-! ## What a step of the loop is about -/

/-- The command a step of the loop processes. -/
def TrackerLoop.processes : TrackerLoop → Event → Option (Env × TrackerCommand)
  | .serving _ [], .command env cmd => some (env, cmd)
  | .serving _ (cmd :: _), .resume env => some (env, cmd)
  | _, _ => none

/-- The flight a step of the loop observes, with its place and the sample. -/
def TrackerLoop.observes : TrackerLoop → Event → Option (Nat × TrackedFlight × Sample)
  | .polling r, .round (.apply getFlightRoute) =>
    match r.fetchResults with
    | [] => none
    | attempt :: _ =>
      (findIndexByIdentifier r.state.flights attempt.identifier).bind fun i =>
        (r.state.flights[i]?).map fun flight =>
          (i, flight, ⟨⟨attempt.usedHex, attempt.result.outcome⟩, r.now, getFlightRoute⟩)
  | _, _ => none

/-! ## The roster -/

/-- One step of the roster. A flight is looked up by hex only when it has one. -/
inductive RosterStep (Γ : Ctx) : List TrackedFlight → List TrackedFlight → Prop
  | track (env : Env) (state : FlightTrackerState) (identifier : FlightIdentifier) (requestedBy : String)
      (flight : TrackedFlight) (h : ProducedBy Γ env state identifier requestedBy flight) :
      RosterStep Γ state.flights (state.flights ++ [flight])
  | leave (flights : List TrackedFlight) (i : Nat) : RosterStep Γ flights (flights.eraseIdx i)
  | observe (flights : List TrackedFlight) (i : Nat) (flight : TrackedFlight) (s : Sample)
      (h : flights[i]? = some flight) (byHex : s.obs.usedHex = true → shouldPollByHex flight = true) :
      RosterStep Γ flights (flights.set i (pollStep Γ flight s))

/-- The rosters that some run of joins, leaves and observations makes of the empty one. -/
def Roster (Γ : Ctx) (flights : List TrackedFlight) : Prop := Relation.ReflTransGen (RosterStep Γ) [] flights

end Twitch1337.Tracker
