import Twitch1337.Aviation.Adsb
import Twitch1337.Tracker.Commands

/-!
# AviationStack

`aviation/client/aviationstack.rs`: the queries for a flight, and what is made of the replies to them.
-/

namespace Twitch1337.Aviationstack

open RustStr Tracker
open Backends (isClientError isSuccess)

/-- The parameter of a query and its value. -/
abbrev Query := String × String

/-- What becomes of a request: it is not answered, or it is with a status and a body. A body that cannot be read is none. -/
inductive Reply where
  | unsent
  | answered (status : Nat) (body : Option (List AviationstackFlightMetadata))

/-- `aviationstack_4xx_is_actionable`. -/
def isActionable (status : Nat) : Bool := status == 401 || status == 403 || status == 429

/-- `aviationstack_query_one`. What a refusal is called in the log makes no difference to it. -/
def queryOne : Reply → Except Unit (Option AviationstackFlightMetadata)
  | .unsent => .error ()
  | .answered status body =>
    if isClientError status then .ok none
    else if !isSuccess status then .error ()
    else match body with
      | none => .error ()
      | some data => .ok data.head?

/-- Three upper-case letters and one to four digits. -/
def isIcaoFlightNumber (s : String) : Bool :=
  decide (4 ≤ s.utf8ByteSize ∧ s.utf8ByteSize ≤ 7) &&
    match s.toList with
    | a :: b :: c :: rest => a.isUpper && b.isUpper && c.isUpper && rest.all Char.isDigit
    | _ => false

/-- The query for the ICAO flight number that a callsign is, unless it is the one that is asked for already. -/
def icaoFallback (Γ : Ctx) (candidate : String) (callsign : Option String) : List Query :=
  match (callsign.map trim).filter fun c => !c.isEmpty with
  | none => []
  | some icao =>
    let icao := Γ.upper.toUppercase icao
    if isIcaoFlightNumber icao && icao != candidate then [("flight_icao", icao)] else []

def aviationstackQueries (Γ : Ctx) (identifier : FlightIdentifier) (callsign : Option String) : List Query :=
  let candidate := match identifier with
    | .callsign value => some value
    | .hex _ => callsign
  match candidate with
  | none => []
  | some candidate =>
    let candidate := trim candidate
    if candidate.isEmpty then []
    else
      let candidate := Γ.upper.toUppercase candidate
      if isIataFlightNumber candidate then ("flight_iata", candidate) :: icaoFallback Γ candidate callsign
      else if isIcaoFlightNumber candidate || !identifier.isHex || callsign.isSome then [("flight_icao", candidate)]
      else []

/-- The loop over the queries. An error counts if it is the last query's. -/
def tryQueries (reply : Query → Reply) : List Query → Except Unit (Option AviationstackFlightMetadata)
  | [] => .ok none
  | query :: rest =>
    match queryOne (reply query) with
    | .ok (some metadata) => .ok (some metadata)
    | .ok none => tryQueries reply rest
    | .error e => if rest.isEmpty then .error e else tryQueries reply rest

/-- `get_aviationstack_flight_metadata`. A client without a configuration is not enabled. -/
def getAviationstackFlightMetadata (Γ : Ctx) (enabled : Bool) (reply : Query → Reply) (identifier : FlightIdentifier)
    (callsign : Option String) : Except Unit (Option AviationstackFlightMetadata) :=
  if !enabled then .ok none
  else
    let queries := aviationstackQueries Γ identifier callsign
    if queries.isEmpty then .ok none else tryQueries reply queries

/-! ## Lookups -/

/-- A call of `lookup_aviationstack_metadata`, with what the provider replies to each query while it lasts. -/
structure LookupCall where
  env : Env
  identifier : FlightIdentifier
  callsign : Option String
  reply : Query → Reply

/-- The environment of a call: the answer of the client comes from the provider. -/
def LookupCall.environment (Γ : Ctx) (c : LookupCall) : Env :=
  { c.env with getAviationstackFlightMetadata := getAviationstackFlightMetadata Γ c.env.aviationstackEnabled c.reply }

def LookupCall.step (Γ : Ctx) (state : FlightTrackerState) (c : LookupCall) : FlightTrackerState :=
  (lookupAviationstackMetadata Γ (c.environment Γ) state c.identifier c.callsign).1

/-- The state after some calls, of which the first finds an empty cache. -/
def after (Γ : Ctx) (calls : List LookupCall) : FlightTrackerState := calls.foldl (LookupCall.step Γ) {}

end Twitch1337.Aviationstack
