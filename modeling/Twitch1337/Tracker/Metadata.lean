import Twitch1337.Tracker.Types

/-!
# Names, routes and AviationStack metadata

`aviation/tracker/metadata.rs`. A function of the source that changes a flight in place is here a function to the changed
flight.
-/

namespace Twitch1337.Tracker

open RustStr Chrono

/-- The callsign an aircraft transmits: trimmed, and not blank. -/
def aircraftCallsign (ac : NearbyAircraft) : Option String :=
  (ac.flight.map trim).filter fun callsign => !callsign.isEmpty

def setRouteFromIata (Γ : Ctx) (flight : TrackedFlight) (origin dest : String) : TrackedFlight :=
  let origin := Γ.upper.toUppercase (trim origin)
  let dest := Γ.upper.toUppercase (trim dest)
  if origin.isEmpty || dest.isEmpty then
    flight
  else
    match Γ.iataToCoords dest with
    | some (lat, lon) => { flight with destLat := some lat, destLon := some lon, route := some (origin, dest) }
    | none => { flight with route := some (origin, dest) }

/-- A flight code in upper case without surrounding whitespace, unless it is blank. -/
def normalizeFlightCode (Γ : Ctx) (value : String) : Option String :=
  let value := trim value
  if value.isEmpty then none else some (Γ.upper.toUppercase value)

/-- Adds a code to the aliases of a flight, unless it is blank or known. -/
def addAliasCallsign (Γ : Ctx) (flight : TrackedFlight) (value : String) : TrackedFlight :=
  match normalizeFlightCode Γ value with
  | none => flight
  | some code =>
    if flight.aliasCallsigns.any (eqIgnoreAsciiCase · code) then
      flight
    else
      { flight with aliasCallsigns := flight.aliasCallsigns ++ [code] }

/-- `addAliasCallsign` where there is a code. -/
def addAliasFrom (Γ : Ctx) (flight : TrackedFlight) : Option String → TrackedFlight
  | none => flight
  | some value => addAliasCallsign Γ flight value

/-- The callsign an identifier holds, if it is one. -/
def identifierCallsign : FlightIdentifier → Option String
  | .callsign callsign => some callsign
  | .hex _ => none

def seedFlightAliases (Γ : Ctx) (flight : TrackedFlight) : TrackedFlight :=
  let flight := addAliasFrom Γ flight (identifierCallsign flight.identifier)
  addAliasFrom Γ flight flight.callsign

def normalizeIcao24 (Γ : Ctx) (value : String) : Option String :=
  let value := trim value
  if value.utf8ByteSize == 6 && value.toList.all isAsciiHexdigit then some (Γ.upper.toUppercase value) else none

/-- The source of the hex of a flight after a consistent hex from a source: the first source stays, but that a direct
confirmation promotes AviationStack to ADS-B. -/
def hexSourceAfter (current : Option HexSource) (source : HexSource) (promoteAviationstackToAdsb : Bool) :
    Option HexSource :=
  match source with
  | .userInput => if current.isNone then some .userInput else current
  | .aviationStack => if current.isNone then some .aviationStack else current
  | .adsb =>
    if current.isNone || (promoteAviationstackToAdsb && current == some .aviationStack) then some .adsb else current

/-- Sets the hex of a flight that has none, or the same, and says whether it did. -/
def setHexIfConsistent (Γ : Ctx) (flight : TrackedFlight) (candidate : String) (source : HexSource)
    (promoteAviationstackToAdsb : Bool) : TrackedFlight × Bool :=
  match normalizeIcao24 Γ candidate with
  | none => (flight, false)
  | some hex =>
    if flight.hex.any fun current => !eqIgnoreAsciiCase current hex then
      (flight, false)
    else
      ({ flight with
          hex := some hex, hexSource := hexSourceAfter flight.hexSource source promoteAviationstackToAdsb }, true)

/-- `setHexIfConsistent` where there is a candidate. -/
def setHexFrom (Γ : Ctx) (flight : TrackedFlight) (candidate : Option String) (source : HexSource)
    (promoteAviationstackToAdsb : Bool) : TrackedFlight :=
  match candidate with
  | none => flight
  | some hex => (setHexIfConsistent Γ flight hex source promoteAviationstackToAdsb).1

/-- The callsign metadata names: its ICAO flight code, or its airline's ICAO code and its number. -/
def metadataCallsign (Γ : Ctx) (metadata : AviationstackFlightMetadata) : Option String :=
  (metadata.flightIcao.bind (normalizeFlightCode Γ)).or
    (match metadata.airlineIcao, metadata.flightNumber with
    | some airline, some number =>
      let airline := trim airline
      let number := trim number
      if airline.isEmpty || number.isEmpty then none else some (Γ.upper.toUppercase airline ++ number)
    | _, _ => none)

/-- The callsign metadata names becomes the callsign of the flight, and one of its aliases. -/
def applyMetadataCallsign (Γ : Ctx) (flight : TrackedFlight) (metadata : AviationstackFlightMetadata) : TrackedFlight :=
  match metadataCallsign Γ metadata with
  | none => flight
  | some callsign => { addAliasCallsign Γ flight callsign with callsign := some callsign }

/-- The airports metadata names become the route of the flight. -/
def applyMetadataRoute (Γ : Ctx) (flight : TrackedFlight) (metadata : AviationstackFlightMetadata) : TrackedFlight :=
  match metadata.departureIata, metadata.arrivalIata with
  | some origin, some dest => setRouteFromIata Γ flight origin dest
  | _, _ => flight

/-- The scheduled departure metadata names becomes that of a flight without one. -/
def applyMetadataDeparture (flight : TrackedFlight) (metadata : AviationstackFlightMetadata) : TrackedFlight :=
  if flight.scheduledDepartureAt.isNone then
    { flight with scheduledDepartureAt := metadata.departureScheduled }
  else
    flight

def applyAviationstackMetadata (Γ : Ctx) (flight : TrackedFlight) (metadata : AviationstackFlightMetadata) :
    TrackedFlight :=
  let flight := applyMetadataDeparture flight metadata
  let flight := addAliasFrom Γ flight metadata.flightIata
  let flight := addAliasFrom Γ flight metadata.flightIcao
  let flight := applyMetadataCallsign Γ flight metadata
  let flight := applyMetadataRoute Γ flight metadata
  let flight := setHexFrom Γ flight metadata.aircraftIcao24 .aviationStack false
  { flight with
    aircraftType := flight.aircraftType.or (metadata.aircraftIcao.map Γ.upper.toUppercase)
    takeoffAt := metadata.takeoffTime.or flight.takeoffAt }

end Twitch1337.Tracker
