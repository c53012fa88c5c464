import Twitch1337.Lib.Chrono
import Twitch1337.Lib.F64
import Twitch1337.Lib.Str

/-!
# The flight tracker: its data

The types of `aviation/types.rs` and `aviation/tracker/mod.rs`, their constants, and what the tracker reads from outside.
Instants are nanoseconds since the Unix epoch, altitudes and rates are `i64`, the counters of a flight are `u32`. A record of
another service holds the fields that the tracker reads.
-/

namespace Twitch1337.Tracker

open RustStr Chrono

/-! ## Constants -/

/-- Maximum number of simultaneously tracked flights. -/
def maxTrackedFlights : Nat := 12

/-- Maximum number of flights a single user can track. -/
def maxFlightsPerUser : Nat := 3

/-- No data threshold before declaring tracking lost. -/
def trackingLostThreshold : Instant := seconds 300

/-- Time after tracking lost before auto-removing. -/
def trackingLostRemoval : Instant := seconds 1800

def divertConsecutivePolls : UInt32 := 3

/-! ## What the services answer -/

/-- The altitude an aircraft reports. -/
inductive AltBaro where
  | feet (ft : Int64)
  | ground
  deriving DecidableEq, Repr

/-- An aircraft of an ADS-B aggregator. -/
structure NearbyAircraft where
  hex : Option String := none
  flight : Option String := none
  t : Option String := none
  altBaro : Option AltBaro := none
  lat : Option F64 := none
  lon : Option F64 := none
  gs : Option F64 := none
  baroRate : Option Int64 := none
  geomRate : Option Int64 := none
  squawk : Option String := none
  navModes : Option (List String) := none

/-- A route of adsbdb: the IATA codes of origin and destination. -/
structure FlightRoute where
  origin : String
  destination : String

/-- What AviationStack knows of a flight. -/
structure AviationstackFlightMetadata where
  flightDate : Option String := none
  flightStatus : Option String := none
  flightIata : Option String := none
  flightIcao : Option String := none
  flightNumber : Option String := none
  airlineIcao : Option String := none
  departureIata : Option String := none
  departureScheduled : Option Instant := none
  departureActual : Option Instant := none
  departureActualRunway : Option Instant := none
  arrivalIata : Option String := none
  arrivalScheduled : Option Instant := none
  arrivalEstimated : Option Instant := none
  arrivalActual : Option Instant := none
  aircraftIcao24 : Option String := none
  aircraftIcao : Option String := none

def AviationstackFlightMetadata.takeoffTime (m : AviationstackFlightMetadata) : Option Instant :=
  m.departureActualRunway.or m.departureActual

/-- The answer to a live lookup under a timeout: the timeout elapsed, the lookup failed, or it found an aircraft or none. -/
inductive PollResult where
  | elapsed
  | report
  | answer (ac : Option NearbyAircraft)

/-! ## Identifiers -/

/-- Identifies a flight either by callsign or by ICAO24 hex code. -/
inductive FlightIdentifier where
  | callsign (s : String)
  | hex (s : String)
  deriving DecidableEq, Repr

namespace FlightIdentifier

/-- The display string: the callsign or the hex value. -/
def asStr : FlightIdentifier → String
  | callsign s => s
  | hex s => s

def isCallsign : FlightIdentifier → Bool
  | callsign _ => true
  | hex _ => false

def isHex : FlightIdentifier → Bool
  | callsign _ => false
  | hex _ => true

/-- Whether the identifier matches a given callsign or hex. -/
def isMatch (id : FlightIdentifier) (cs hx : Option String) : Bool :=
  match id with
  | callsign s => cs.any (eqIgnoreAsciiCase · s)
  | hex s => hx.any (eqIgnoreAsciiCase · s)

def isValidIcao24Hex (value : String) : Bool :=
  value.utf8ByteSize == 6 && value.toList.all isAsciiHexdigit

end FlightIdentifier

/-- Two upper-case letters and one to four digits. -/
def isIataFlightNumber (s : String) : Bool :=
  decide (3 ≤ s.utf8ByteSize ∧ s.utf8ByteSize ≤ 6) &&
    match s.toList with
    | a :: b :: rest => a.isUpper && b.isUpper && rest.all Char.isDigit
    | _ => false

/-! ## Tracked flights -/

/-- Detected flight phase. -/
inductive FlightPhase where
  | unknown | ground | takeoff | climb | cruise | descent | approach | landing
  deriving DecidableEq, Repr

/-- Where the stored ICAO24 hex came from. -/
inductive HexSource where
  | userInput | aviationStack | adsb
  deriving DecidableEq, Repr

/-- How confidently the observed aircraft matches the requested flight. -/
inductive TargetConfirmation where
  | pending | aircraftVisible | confirmedByCallsign | inferredByAssignedHex
  deriving DecidableEq, Repr

def TargetConfirmation.isTargetConfirmed : TargetConfirmation → Bool
  | confirmedByCallsign | inferredByAssignedHex => true
  | pending | aircraftVisible => false

/-- What a flight was asked for with. No step changes it. -/
structure Ticket where
  identifier : FlightIdentifier
  trackedBy : String
  trackedAt : Instant

/-- What a flight goes by besides its identifier. -/
structure Names where
  callsign : Option String := none
  aliasCallsigns : List String := []
  hex : Option String := none
  hexSource : Option HexSource := none

/-- How the aircraft of a flight was last sighted. `lastVisibleAt` is the last poll in which the assigned aircraft was visible;
it drives the tracking-lost removal. `lastSeen` is the last target-confirmed sighting; it drives the confirmation decay. -/
structure Sighting where
  observedCallsign : Option String := none
  targetConfirmation : TargetConfirmation := .pending
  lastSeen : Option Instant := none
  lastVisibleAt : Option Instant := none

/-- Where in its course a flight is. -/
structure Course where
  phase : FlightPhase := .unknown
  lastPhaseChange : Option Instant := none
  pollsSinceChange : UInt32 := 0
  takeoffAt : Option Instant := none

/-- What the aircraft of a flight last transmitted. -/
structure Telemetry where
  altitudeFt : Option Int64 := none
  verticalRateFpm : Option Int64 := none
  groundSpeedKts : Option F64 := none
  lat : Option F64 := none
  lon : Option F64 := none
  squawk : Option String := none

/-- Where a flight goes. -/
structure Routing where
  route : Option (String × String) := none
  destLat : Option F64 := none
  destLon : Option F64 := none

/-- When a flight is looked up. -/
structure Planning where
  aviationstackChecked : Bool := false
  scheduledDepartureAt : Option Instant := none
  lastAdsbPollAt : Option Instant := none

/-- State of a single tracked flight. The fields of the source are grouped by what changes them. -/
structure TrackedFlight extends Ticket, Names, Sighting, Course, Telemetry, Routing, Planning where
  aircraftType : Option String := none
  divertConsecutivePolls : UInt32 := 0

/-- A stored AviationStack answer, shared by `!track` and `!info`. -/
structure CachedFlightInfo where
  aliases : List String
  flightDate : Option String
  metadata : Option AviationstackFlightMetadata
  cachedAt : Instant
  expiresAt : Instant

def CachedFlightInfo.isExpired (entry : CachedFlightInfo) (now : Instant) : Bool := decide (entry.expiresAt ≤ now)

def CachedFlightInfo.matchesAnyAlias (entry : CachedFlightInfo) (aliases : List String) : Bool :=
  aliases.any fun a => entry.aliases.any fun cached => eqIgnoreAsciiCase cached a

/-- Persisted state of all tracked flights. -/
structure FlightTrackerState where
  flights : List TrackedFlight := []
  flightInfoCache : List CachedFlightInfo := []

/-- Read projection of a tracked flight for the web dashboard. -/
structure TrackedFlightView where
  identifier : String
  callsign : Option String
  ownerLogin : String
  phase : String
  altitudeFt : Option Int64
  groundSpeedKts : Option F64
  lastSeenSecsAgo : Option Nat

/-! ## What the tracker reads from outside -/

/-- The tables and functions that are data of the build or of another crate: Unicode upper case, the coordinates of an
airport, the ICAO code of an airline, and whether the track between two positions points away from a destination by more than
the divert threshold. -/
structure Ctx where
  upper : UpperTable
  iataToCoords : String → Option (F64 × F64)
  airlineTable : String → Option String
  offHeading : F64 × F64 → F64 × F64 → F64 × F64 → Bool

/-- The clock and the answers of the services while one command is processed. -/
structure Env where
  now : Instant
  lookupAirlineIcao : String → Option String
  aviationstackEnabled : Bool
  getAviationstackFlightMetadata : FlightIdentifier → Option String → Except Unit (Option AviationstackFlightMetadata)
  getAircraftByHex : String → PollResult
  getAircraftByCallsign : String → PollResult
  getFlightRoute : String → Option FlightRoute

/-- Parse user input into an identifier. An IATA flight number takes precedence over a hex code. -/
def FlightIdentifier.parse (Γ : Ctx) (input : String) : Except String FlightIdentifier :=
  let input := Γ.upper.toUppercase (trim input)
  if input.isEmpty then
    .error "Identifier darf nicht leer sein"
  else if isIataFlightNumber input then
    .ok (.callsign input)
  else if isValidIcao24Hex input then
    .ok (.hex input)
  else if 8 < input.utf8ByteSize || !input.toList.all Char.isAlphanum then
    .error "Ungültiges callsign/hex"
  else
    .ok (.callsign input)

end Twitch1337.Tracker
