import Twitch1337.Lib.Civil
import Twitch1337.Tracker.Advance

/-!
# Tracker commands

`aviation/tracker/commands.rs`, but for the poll round. A command is a function from the state and the environment to the new
state and what is sent back. Texts that `format.rs` renders stand as the data they are rendered from.
-/

namespace Twitch1337.Tracker

open RustStr Chrono

/-! ## Finding flights -/

/-- The first flight that is tracked under an identifier. -/
def findIndexByIdentifier (flights : List TrackedFlight) (identifier : FlightIdentifier) : Option Nat :=
  flights.findIdx? fun flight => flight.identifier == identifier

/-- Whether a flight goes by a name: its identifier, its callsign, an alias or its hex, up to ASCII case. -/
def answersTo (flight : TrackedFlight) (upper : String) : Bool :=
  eqIgnoreAsciiCase flight.identifier.asStr upper || flight.callsign.any (eqIgnoreAsciiCase · upper) ||
    flight.aliasCallsigns.any (eqIgnoreAsciiCase · upper) || flight.hex.any (eqIgnoreAsciiCase · upper)

/-- The first flight that goes by the upper case of a name. -/
def findFlightIndex (Γ : Ctx) (flights : List TrackedFlight) (query : String) : Option Nat :=
  flights.findIdx? fun f => answersTo f (Γ.upper.toUppercase query)

/-- A flight is polled by its hex when the user has named it, or it was found or seen. -/
def shouldPollByHex (flight : TrackedFlight) : Bool :=
  flight.identifier.isHex || (flight.hex.isSome && (flight.hexSource.isSome || flight.lastSeen.isSome))

/-- The departure is more than three hours away. -/
def shouldSkipAdsbForStrictChill (flight : TrackedFlight) (now : Instant) : Bool :=
  flight.scheduledDepartureAt.any fun departure => decide (seconds (3 * 60 * 60) < departure - now)

/-- Whether a flight is a duplicate of one to be tracked. -/
def isDuplicate (identifier : FlightIdentifier) (callsign hex : Option String) (f : TrackedFlight) : Bool :=
  f.identifier == identifier || identifier.isMatch f.callsign f.hex ||
    (identifierCallsign identifier).any (candidateCallsignMatchesFlight f) ||
    callsign.any (candidateCallsignMatchesFlight f) ||
    hex.any fun hex => f.hex.any (eqIgnoreAsciiCase · hex)

/-- One of the flights is the one that is asked for. -/
def duplicateTrackingExists (state : FlightTrackerState) (identifier : FlightIdentifier) (callsign hex : Option String) :
    Bool :=
  state.flights.any (isDuplicate identifier callsign hex)

/-! ## Callsigns to poll -/

/-- One candidate more, in upper case, unless it is blank or known. -/
def pushCandidate (Γ : Ctx) (candidates : List String) (value : String) : List String :=
  let value := trim value
  if value.isEmpty then
    candidates
  else
    let value := Γ.upper.toUppercase value
    if candidates.any (eqIgnoreAsciiCase · value) then candidates else candidates ++ [value]

/-- The callsigns to try, each one once. -/
def callsignPollCandidates (Γ : Ctx) (flight : TrackedFlight) : List String :=
  (flight.callsign.toList ++ (identifierCallsign flight.identifier).toList ++ flight.aliasCallsigns).foldl
    (pushCandidate Γ) []

/-- The first candidate that finds an aircraft decides; otherwise the last answer does. -/
def pollAircraftByCallsignAliases (env : Env) (candidates : List String) : PollResult :=
  go candidates (.answer none)
where
  go : List String → PollResult → PollResult
    | [], last => last
    | callsign :: rest, _ =>
      match env.getAircraftByCallsign callsign with
      | .answer (some ac) => .answer (some ac)
      | result => go rest result

/-- Resolve a potential IATA flight number to an ICAO callsign: by the airline table, then by the airline API. -/
def resolveCallsign (Γ : Ctx) (env : Env) (input : String) : String :=
  if !isIataFlightNumber input then
    input
  else
    let airlineIata := String.ofList (input.toList.take 2)
    let flightNum := String.ofList (input.toList.drop 2)
    match (Γ.airlineTable airlineIata).or (env.lookupAirlineIcao airlineIata) with
    | some icao => icao ++ flightNum
    | none => input

/-! ## The flight-info cache -/

/-- What a lookup has found, and whether it has asked at all. -/
structure AviationstackLookup where
  checked : Bool
  metadata : Option AviationstackFlightMetadata
  cacheChanged : Bool
  failed : Bool

/-- A code under which an entry can be found again, unless it is there in some case of its letters. -/
def pushCacheAlias (Γ : Ctx) (aliases : List String) (value : Option String) : List String :=
  match value.bind (normalizeFlightCode Γ) with
  | none => aliases
  | some code => if aliases.any (eqIgnoreAsciiCase · code) then aliases else aliases ++ [code]

/-- The codes of a query. -/
def queryCacheAliases (Γ : Ctx) (identifier : FlightIdentifier) (callsign : Option String) : List String :=
  pushCacheAlias Γ (pushCacheAlias Γ [] (identifierCallsign identifier)) callsign

/-- The codes of what was found. -/
def metadataCacheAliases (Γ : Ctx) (metadata : AviationstackFlightMetadata) : List String :=
  pushCacheAlias Γ (pushCacheAlias Γ (pushCacheAlias Γ [] metadata.flightIata) metadata.flightIcao)
    (metadataCallsign Γ metadata)

/-- The date of an instant, as text. -/
def dateNaive (t : Instant) : String := Civil.isoDate (t / seconds 86400)

/-- The day of a flight, or of the first of its times that is known. -/
def metadataFlightDate (metadata : AviationstackFlightMetadata) : Option String :=
  ((metadata.flightDate.map trim).filter fun date => !date.isEmpty).or
    (((metadata.departureScheduled.or metadata.arrivalScheduled).or metadata.arrivalEstimated).map dateNaive)

/-- How long an entry is kept, by what is known of the flight. -/
def flightInfoCacheExpiry (metadata : Option AviationstackFlightMetadata) (now : Instant) : Instant :=
  match metadata with
  | none => now + seconds (10 * 60)
  | some metadata =>
    if metadata.flightStatus.any (eqIgnoreAsciiCase · "landed") then
      now + seconds (24 * 60 * 60)
    else
      let arrival := (metadata.arrivalActual.or metadata.arrivalEstimated).or metadata.arrivalScheduled
      let expiresAt := arrival.getD now + seconds (4 * 60 * 60)
      if now < expiresAt then expiresAt else now + seconds (4 * 60 * 60)

/-- Drops what has expired, and says whether anything had. -/
def pruneFlightInfoCache (state : FlightTrackerState) (now : Instant) : FlightTrackerState × Bool :=
  let cache := state.flightInfoCache.filter fun entry => !entry.isExpired now
  ({ state with flightInfoCache := cache }, state.flightInfoCache.length != cache.length)

/-- The entry cached last among those of a list; of several, the last in the list. -/
def latestCached (entries : List CachedFlightInfo) : Option CachedFlightInfo :=
  entries.foldl (fun best entry =>
    match best with
    | none => some entry
    | some b => if b.cachedAt ≤ entry.cachedAt then some entry else some b) none

/-- The latest entry that is not too old and has one of the codes. -/
def cachedFlightInfo (state : FlightTrackerState) (aliases : List String) (now : Instant) :
    Option (Option AviationstackFlightMetadata) :=
  (latestCached (state.flightInfoCache.filter fun entry => !entry.isExpired now && entry.matchesAnyAlias aliases)).map
    (·.metadata)

/-- An entry under its codes, in the place of one of the same flight. -/
def upsertFlightInfoCache (Γ : Ctx) (state : FlightTrackerState) (queryAliases : List String)
    (metadata : Option AviationstackFlightMetadata) (now : Instant) : FlightTrackerState :=
  let flightDate := metadata.bind metadataFlightDate
  let aliases :=
    ((metadata.map (metadataCacheAliases Γ)).getD []).foldl (fun as code => pushCacheAlias Γ as (some code)) queryAliases
  if aliases.isEmpty then
    state
  else
    let expiresAt := flightInfoCacheExpiry metadata now
    let isEntry := fun entry : CachedFlightInfo =>
      entry.matchesAnyAlias aliases &&
        (entry.flightDate == flightDate || entry.flightDate.isNone || flightDate.isNone)
    match state.flightInfoCache.findIdx? isEntry with
    | some i =>
      { state with
        flightInfoCache := state.flightInfoCache.modify i fun entry =>
          { aliases := aliases.foldl (fun as code => pushCacheAlias Γ as (some code)) entry.aliases
            flightDate, metadata, cachedAt := now, expiresAt } }
    | none =>
      { state with
        flightInfoCache := state.flightInfoCache ++ [{ aliases, flightDate, metadata, cachedAt := now, expiresAt }] }

/-- A lookup asks only when the cache has nothing. -/
def lookupAviationstackMetadata (Γ : Ctx) (env : Env) (state : FlightTrackerState) (identifier : FlightIdentifier)
    (callsign : Option String) : FlightTrackerState × AviationstackLookup :=
  let (state, cacheChanged) := pruneFlightInfoCache state env.now
  let queryAliases := queryCacheAliases Γ identifier callsign
  if queryAliases.isEmpty then
    (state, { checked := false, metadata := none, cacheChanged, failed := false })
  else
    match cachedFlightInfo state queryAliases env.now with
    | some metadata => (state, { checked := true, metadata, cacheChanged, failed := false })
    | none =>
      if !env.aviationstackEnabled then
        (state, { checked := false, metadata := none, cacheChanged, failed := false })
      else
        match env.getAviationstackFlightMetadata identifier callsign with
        | .ok metadata =>
          (upsertFlightInfoCache Γ state queryAliases metadata env.now,
            { checked := true, metadata, cacheChanged := true, failed := false })
        | .error _ => (state, { checked := true, metadata := none, cacheChanged, failed := true })

/-! ## What is sent back -/

/-- A chat reply. -/
inductive Response where
  | text (s : String)
  | trackStarted (flight : TrackedFlight) (aviationstackInfo : Option AviationstackFlightMetadata)
      (aviationstackFallback : Bool)
  | flightsList (flights : List TrackedFlight)
  | flightStatus (flight : TrackedFlight) (now : Instant)
  | aviationstackInfo (metadata : AviationstackFlightMetadata)

/-- The reply to a flight that is tracked already. -/
def alreadyTracked (identifier : FlightIdentifier) : Response := .text s!"{identifier.asStr} wird schon getrackt FDM"

/-! ## Track -/

/-- A flight that has just been asked for, before anything is known of it: a field that is not named here is unset. -/
def newFlight (Γ : Ctx) (identifier : FlightIdentifier) (requestedBy : String) (resolvedCallsign : Option String)
    (aviationstackChecked : Bool) (now : Instant) : TrackedFlight :=
  seedFlightAliases Γ
    { identifier := identifier
      callsign := resolvedCallsign
      hex := match identifier with | .hex hex => some hex | .callsign _ => none
      hexSource := if identifier.isHex then some .userInput else none
      trackedBy := requestedBy
      trackedAt := now
      aviationstackChecked := aviationstackChecked }

/-- A flight with the metadata of a lookup, if there is any. -/
def applyMetadataFrom (Γ : Ctx) (flight : TrackedFlight) : Option AviationstackFlightMetadata → TrackedFlight
  | none => flight
  | some metadata => applyAviationstackMetadata Γ flight metadata

/-- The first ADS-B lookup, and whether it was made by hex: a callsign that finds nothing and reads as a hex is tried as one. -/
def initialLookup (Γ : Ctx) (env : Env) (flight : TrackedFlight) : Bool × Option PollResult :=
  if shouldPollByHex flight then
    match flight.hex with
    | some hex => (true, some (env.getAircraftByHex hex))
    | none => (false, none)
  else
    match callsignPollCandidates Γ flight with
    | [] => (false, none)
    | candidates =>
      let result := pollAircraftByCallsignAliases env candidates
      match result, flight.identifier with
      | .answer none, .callsign input =>
        if FlightIdentifier.isValidIcao24Hex input then (true, some (env.getAircraftByHex input))
        else (false, some result)
      | _, _ => (false, some result)

/-- What the first ADS-B lookup comes to: the flight is turned down, is tracked although its aircraft is not confirmed, or
goes on to the metadata lookup. -/
inductive InitialPoll where
  | reject (response : String)
  | keepPending (flight : TrackedFlight)
  | tracked (flight : TrackedFlight)

/-- The first sighting of a flight whose target is confirmed. -/
def seeTarget (flight : TrackedFlight) (ac : NearbyAircraft) (now : Instant) : TrackedFlight :=
  let flight := { flight with lastSeen := some now, lastVisibleAt := some now }
  { flight with phase := detectPhase flight ac }

/-- What the first poll says of a flight. -/
def applyInitialResult (Γ : Ctx) (flight : TrackedFlight) (usedHex : Bool) (result : PollResult)
    (keepPendingOnAdsbAbsence : Bool) (now : Instant) : InitialPoll :=
  let flight := { flight with lastAdsbPollAt := some now }
  match result with
  | .answer (some ac) =>
    match targetConfirmationForAircraft flight ac (usedHex && flight.hex.isSome) now with
    | none =>
      if keepPendingOnAdsbAbsence then
        .keepPending { flight with pollsSinceChange := saturatingSucc flight.pollsSinceChange }
      else
        .reject s!"{flight.identifier.asStr} nicht gefunden im ADS-B FDM"
    | some confirmation =>
      let (flight, _) := applyObservedAircraft Γ flight ac confirmation confirmation.isTargetConfirmed
      .tracked (if confirmation.isTargetConfirmed then seeTarget flight ac now else flight)
  | .answer none =>
    if keepPendingOnAdsbAbsence then .tracked flight
    else .reject s!"{flight.identifier.asStr} nicht gefunden im ADS-B FDM"
  | .report => if keepPendingOnAdsbAbsence then .tracked flight else .reject "ADS-B Anfrage fehlgeschlagen FDM"
  | .elapsed => if keepPendingOnAdsbAbsence then .tracked flight else .reject "ADS-B Anfrage Timeout FDM"

/-- The first ADS-B lookup of a flight. More than three hours before the departure it is not made. -/
def initialPoll (Γ : Ctx) (env : Env) (flight : TrackedFlight) : InitialPoll :=
  if shouldSkipAdsbForStrictChill flight env.now then
    .tracked flight
  else
    match initialLookup Γ env flight with
    | (_, none) => .tracked flight
    | (usedHex, some result) =>
      applyInitialResult Γ flight usedHex result (flight.identifier.isCallsign && env.aviationstackEnabled) env.now

/-- A flight with the route of its callsign, if it has none yet and one is found. -/
def fetchInitialRoute (Γ : Ctx) (env : Env) (flight : TrackedFlight) : TrackedFlight :=
  if flight.route.isNone then
    match flight.callsign.bind env.getFlightRoute with
    | some route => setRouteFromIata Γ flight route.origin route.destination
    | none => flight
  else
    flight

/-- The metadata lookup for a flight whose callsign only its aircraft told. -/
def lateMetadata (Γ : Ctx) (env : Env) (state : FlightTrackerState) (flight : TrackedFlight) :
    FlightTrackerState × TrackedFlight :=
  if env.aviationstackEnabled && !flight.aviationstackChecked && flight.callsign.isSome then
    let flight := { flight with aviationstackChecked := true }
    let (state, lookup) := lookupAviationstackMetadata Γ env state flight.identifier flight.callsign
    (state, applyMetadataFrom Γ flight lookup.metadata)
  else
    (state, flight)

/-- The metadata lookup a track of a callsign starts with. -/
def earlyMetadata (Γ : Ctx) (env : Env) (state : FlightTrackerState) (identifier : FlightIdentifier)
    (resolvedCallsign : Option String) : FlightTrackerState × AviationstackLookup :=
  if identifier.isCallsign then
    lookupAviationstackMetadata Γ env state identifier resolvedCallsign
  else
    (state, { checked := false, metadata := none, cacheChanged := false, failed := false })

/-- Why a track is turned down before any lookup but that of the callsign. -/
def trackRefusal (state : FlightTrackerState) (identifier : FlightIdentifier) (requestedBy : String)
    (resolvedCallsign : Option String) : Option Response :=
  if maxTrackedFlights ≤ state.flights.length then
    some (.text s!"Maximal {maxTrackedFlights} Flüge gleichzeitig FDM")
  else if maxFlightsPerUser ≤ (state.flights.filter (·.trackedBy == requestedBy)).length then
    some (.text s!"Du trackst schon {maxFlightsPerUser} Flüge FDM")
  else if duplicateTrackingExists state identifier none none then
    some (alreadyTracked identifier)
  else if resolvedCallsign.any fun resolved =>
      !eqIgnoreAsciiCase resolved identifier.asStr && duplicateTrackingExists state identifier (some resolved) none then
    some (alreadyTracked identifier)
  else
    none

/-- The end of a track: the flight joins the state with its route. -/
def startTracking (Γ : Ctx) (env : Env) (state : FlightTrackerState) (flight : TrackedFlight)
    (lookup : AviationstackLookup) : FlightTrackerState × Response :=
  let aviationstackFallback := lookup.checked && lookup.metadata.isNone && flight.identifier.isCallsign
  let flight := fetchInitialRoute Γ env flight
  ({ state with flights := state.flights ++ [flight] }, .trackStarted flight lookup.metadata aviationstackFallback)

/-- Tracking: the refusals first, then a lookup, then a poll. -/
def handleTrack (Γ : Ctx) (env : Env) (state : FlightTrackerState) (identifier : FlightIdentifier)
    (requestedBy : String) : FlightTrackerState × Response :=
  let resolvedCallsign := (identifierCallsign identifier).map (resolveCallsign Γ env)
  match trackRefusal state identifier requestedBy resolvedCallsign with
  | some response => (state, response)
  | none =>
    let (state, lookup) := earlyMetadata Γ env state identifier resolvedCallsign
    let flight := newFlight Γ identifier requestedBy resolvedCallsign lookup.checked env.now
    let flight := applyMetadataFrom Γ flight lookup.metadata
    if duplicateTrackingExists state identifier flight.callsign flight.hex then
      (state, alreadyTracked identifier)
    else
      match initialPoll Γ env flight with
      | .reject response => (state, .text response)
      | .keepPending flight => startTracking Γ env state flight lookup
      | .tracked flight =>
        let (state, flight) := lateMetadata Γ env state flight
        if duplicateTrackingExists state identifier flight.callsign flight.hex then
          (state, alreadyTracked identifier)
        else
          startTracking Γ env state flight lookup

/-! ## Untrack, status, info and the dashboard -/

/-- Removes the flight a name finds, and returns its label. -/
def removeFlightAt (Γ : Ctx) (state : FlightTrackerState) (query : String) : FlightTrackerState × Option String :=
  match findFlightIndex Γ state.flights query with
  | none => (state, none)
  | some idx =>
    ({ state with flights := state.flights.eraseIdx idx },
      (state.flights[idx]?).map fun flight => flight.callsign.getD flight.identifier.asStr)

/-- Only the one who tracks a flight, or a moderator, may end that. -/
def handleUntrack (Γ : Ctx) (state : FlightTrackerState) (identifier requestedBy : String) (isMod : Bool) :
    FlightTrackerState × Response :=
  match (findFlightIndex Γ state.flights identifier).bind (state.flights[·]?) with
  | none => (state, .text s!"{identifier} nicht gefunden FDM")
  | some flight =>
    if flight.trackedBy != requestedBy && !isMod then
      (state, .text "Nur der Tracker oder Mods können das untracking machen FDM")
    else
      let (state, removed) := removeFlightAt Γ state identifier
      (state, .text s!"{removed.getD identifier} wird nicht mehr getrackt Okayge")

/-- One flight, or all of them. -/
def handleStatus (Γ : Ctx) (state : FlightTrackerState) (identifier : Option String) (now : Instant) : Response :=
  match identifier with
  | none => .flightsList state.flights
  | some id =>
    match (findFlightIndex Γ state.flights id).bind (state.flights[·]?) with
    | some flight => .flightStatus flight now
    | none => .text s!"{id} nicht gefunden FDM"

/-- What is known of a flight, which need not be tracked. -/
def handleInfo (Γ : Ctx) (env : Env) (state : FlightTrackerState) (identifier : FlightIdentifier) :
    FlightTrackerState × Response :=
  let trackedCallsign :=
    ((findFlightIndex Γ state.flights identifier.asStr).bind (state.flights[·]?)).bind (·.callsign)
  let resolvedCallsign := trackedCallsign.or ((identifierCallsign identifier).map (resolveCallsign Γ env))
  let (state, lookup) := lookupAviationstackMetadata Γ env state identifier resolvedCallsign
  (state,
    match lookup.metadata with
    | some metadata => .aviationstackInfo metadata
    | none =>
      if lookup.failed then .text "AviationStack Anfrage fehlgeschlagen FDM"
      else if lookup.checked || env.aviationstackEnabled then
        .text s!"{identifier.asStr} nicht bei AviationStack gefunden FDM"
      else .text "AviationStack nicht konfiguriert FDM")

/-- The name of a phase on the dashboard. -/
def FlightPhase.display : FlightPhase → String
  | unknown => "Unknown"
  | ground => "Ground"
  | takeoff => "Takeoff"
  | climb => "Climb"
  | cruise => "Cruise"
  | descent => "Descent"
  | approach => "Approach"
  | landing => "Landing"

/-- The name the dashboard shows for a flight. -/
def dashboardIdentifier (f : TrackedFlight) : String := (f.callsign.or f.hex).getD f.identifier.asStr

/-- The flights as the dashboard shows them. -/
def buildFlightView (state : FlightTrackerState) (now : Instant) : List TrackedFlightView :=
  state.flights.map fun f =>
    { identifier := dashboardIdentifier f
      callsign := f.callsign
      ownerLogin := f.trackedBy
      phase := if f.targetConfirmation == .aircraftVisible then "AircraftVisible" else f.phase.display
      altitudeFt := f.altitudeFt
      groundSpeedKts := f.groundSpeedKts
      lastSeenSecsAgo := f.lastSeen.map fun seen => (numSeconds (now - seen)).toNat }

/-! ## Commands -/

/-- The chat message a command answers. -/
structure PrivmsgMessage where
  messageId : String
  deriving DecidableEq

/-- What is sent to the tracker. A `reply` names the sender that a dashboard request waits on. -/
inductive TrackerCommand where
  | track (identifier : FlightIdentifier) (requestedBy : String) (replyTo : PrivmsgMessage)
  | untrack (identifier requestedBy : String) (isMod : Bool) (replyTo : PrivmsgMessage)
  | status (identifier : Option String) (replyTo : PrivmsgMessage)
  | info (identifier : FlightIdentifier) (replyTo : PrivmsgMessage)
  | snapshot (reply : Nat)
  | deleteFromWeb (identifier : String) (reply : Nat)
  deriving DecidableEq

/-- What the tracker sends for a command. -/
inductive Output where
  | chat (replyTo : PrivmsgMessage) (response : Response)
  | views (reply : Nat) (views : List TrackedFlightView)
  | removed (reply : Nat) (label : Option String)

/-- The commands of the dashboard are answered at once, also during a poll round; every other command is handed back. -/
def processLatencySensitiveCommand (Γ : Ctx) (state : FlightTrackerState) (now : Instant) (cmd : TrackerCommand) :
    FlightTrackerState × Option Output × Option TrackerCommand :=
  match cmd with
  | .snapshot reply => (state, some (.views reply (buildFlightView state now)), none)
  | .deleteFromWeb identifier reply =>
    let (state, removed) := removeFlightAt Γ state identifier
    (state, some (.removed reply removed), none)
  | cmd => (state, none, some cmd)

/-- A command, and what it puts out. -/
def processCommand (Γ : Ctx) (env : Env) (state : FlightTrackerState) (cmd : TrackerCommand) :
    FlightTrackerState × Option Output :=
  match cmd with
  | .track identifier requestedBy replyTo =>
    let (state, response) := handleTrack Γ env state identifier requestedBy
    (state, some (.chat replyTo response))
  | .untrack identifier requestedBy isMod replyTo =>
    let (state, response) := handleUntrack Γ state identifier requestedBy isMod
    (state, some (.chat replyTo response))
  | .status identifier replyTo => (state, some (.chat replyTo (handleStatus Γ state identifier env.now)))
  | .info identifier replyTo =>
    let (state, response) := handleInfo Γ env state identifier
    (state, some (.chat replyTo response))
  | .snapshot reply =>
    let (state, out, _) := processLatencySensitiveCommand Γ state env.now (.snapshot reply)
    (state, out)
  | .deleteFromWeb identifier reply =>
    let (state, out, _) := processLatencySensitiveCommand Γ state env.now (.deleteFromWeb identifier reply)
    (state, out)

end Twitch1337.Tracker
