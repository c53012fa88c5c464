import Twitch1337.Lib.Pool

/-!
# ADS-B aggregators

`aviation/client/adsb.rs`: the backends, their health, and the query that asks all of them. The queries of one client are the
processes of a pool. Each step is one stretch under the lock of the health, or the wait for all replies, which holds no lock.
The log is not in the code: it keeps which backends a query asked, and what it reported of each.
-/

namespace Twitch1337.Backends

/-! ## One request -/

variable {α : Type*}

/-- The body of a reply, once it is read and parsed. -/
inductive Body (α : Type*) where
  | aircraft (list : List α)
  | failed (timeout : Bool)

/-- What becomes of a request: it is not answered, or it is with a status. -/
inductive Reply (α : Type*) where
  | unsent (timeout connect : Bool)
  | answered (status : Nat) (body : Body α)

inductive AdsbFetchError where
  | rateLimited
  | providerRefused (status : Nat)
  | timeout
  | retryable
  | fatal
  deriving DecidableEq

def isClientError (status : Nat) : Bool := 400 ≤ status && status < 500

def isSuccess (status : Nat) : Bool := 200 ≤ status && status < 300

/-- `fetch_adsb_response_once`. -/
def fetchAdsbResponseOnce : Reply α → Except AdsbFetchError (List α)
  | .unsent timeout connect => .error (if timeout then .timeout else if connect then .retryable else .fatal)
  | .answered status body =>
    if status = 429 then .error .rateLimited
    else if isClientError status then .error (.providerRefused status)
    else if !isSuccess status then .error .retryable
    else
      match body with
      | .aircraft list => .ok list
      -- a body that cannot be read in time is an error like any other
      | .failed _ => .error .retryable

/-! ## Health -/

/-- `ERROR_STREAK_PARK`. -/
def errorStreakPark : Nat := 3

/-- The times are those of the monotonic clock, and the streak is a `u8`. -/
structure BackendHealth where
  parkedUntil : Nat
  errorStreak : Nat
  deriving DecidableEq

/-- The health after a backend is parked, and that it is. -/
def BackendHealth.park (_ : BackendHealth) (until_ : Nat) : BackendHealth × Bool := (⟨until_, 0⟩, true)

def BackendHealth.success (h : BackendHealth) : BackendHealth × Bool := ({ h with errorStreak := 0 }, false)

/-- The health after one more error, and whether that parks the backend. -/
def BackendHealth.retryableError (h : BackendHealth) (until_ : Nat) : BackendHealth × Bool :=
  let streak := min (h.errorStreak + 1) 255
  if errorStreakPark ≤ streak then (⟨until_, 0⟩, true) else ({ h with errorStreak := streak }, false)

/-- `get_mut`: an index without a backend changes nothing. -/
def touch (health : List BackendHealth) (index : Nat) (f : BackendHealth → BackendHealth × Bool) : List BackendHealth × Bool :=
  match health[index]? with
  | none => (health, false)
  | some h => (health.set index (f h).1, (f h).2)

/-- What a client is built with. Its merge prefers the freshest copy of an aircraft, by the floating-point age of its position. -/
structure AviationClient (α : Type*) where
  /-- The names of the aggregators. -/
  adsbAggregators : List String
  adsbCooldown : Nat
  mergeAircraft : List (List α) → List α

def AviationClient.parkBackend (C : AviationClient α) (health : List BackendHealth) (index now : Nat) :
    List BackendHealth × Bool :=
  touch health index fun h => h.park (now + C.adsbCooldown)

def recordSuccess (health : List BackendHealth) (index : Nat) : List BackendHealth × Bool :=
  touch health index BackendHealth.success

def AviationClient.recordRetryableError (C : AviationClient α) (health : List BackendHealth) (index now : Nat) :
    List BackendHealth × Bool :=
  touch health index fun h => h.retryableError (now + C.adsbCooldown)

/-- `live_backend_indices`. -/
def liveBackendIndices (health : List BackendHealth) (now : Nat) : List Nat :=
  (List.range health.length).filter fun i => health[i]?.any (·.parkedUntil ≤ now)

/-- `parked_backend_count`. -/
def parkedBackendCount (health : List BackendHealth) (now : Nat) : Nat := health.countP (now < ·.parkedUntil)

/-! ## A query -/

inductive AdsbEndpoint where
  | point
  | hex
  | callsign

def AdsbEndpoint.kind : AdsbEndpoint → String
  | point => "point"
  | hex => "hex"
  | callsign => "callsign"

/-- What a query does with the health of a backend when it has its result. -/
def AviationClient.report (C : AviationClient α) (health : List BackendHealth) (index now : Nat) :
    Except AdsbFetchError (List α) → List BackendHealth × Bool
  | .ok _ => recordSuccess health index
  | .error .rateLimited => C.parkBackend health index now
  | .error (.providerRefused status) =>
    if status = 403 then C.parkBackend health index now else C.recordRetryableError health index now
  | .error .timeout => (health, false)
  | .error .retryable => C.recordRetryableError health index now
  | .error .fatal => (health, false)

/-- What an error leaves in `last_provider_outcome`. -/
def providerOutcome (name : String) : AdsbFetchError → String
  | .rateLimited => s!"{name}:rate_limited:429"
  | .providerRefused status =>
    if status = 403 then s!"{name}:forbidden_parked:403" else s!"{name}:client_response:{status}"
  | .timeout => s!"{name}:timeout"
  | .retryable => s!"{name}:retryable_error"
  | .fatal => s!"{name}:fatal_error"

/-- What is seen of the queries. -/
inductive Obs (α : Type*) where
  /-- Query `p` reads the clock, and asks these backends. -/
  | queried (p : Nat) (now : Nat) (live : List Nat)
  /-- Query `p` reports the reply of a backend, which it then parks or does not. -/
  | reported (p : Nat) (index : Nat) (reply : Reply α) (now : Nat) (parked : Bool)

/-- The health of the backends, and what was seen so far. -/
structure Fleet (α : Type*) where
  health : List BackendHealth
  log : List (Obs α)

/-- Where a query is: before its first step, waiting for its replies, with replies to report, about to count the parked
backends, or at its end. -/
inductive QueryPoint (α : Type*) where
  | calling (endpoint : AdsbEndpoint)
  | fetching (endpoint : AdsbEndpoint) (live : List Nat)
  | merging (endpoint : AdsbEndpoint) (results : List (Nat × Reply α)) (perBackend : List (List α))
      (lastProviderOutcome : Option String)
  | outage (endpoint : AdsbEndpoint) (lastProviderOutcome : String)
  | returned (result : Except String (List α))

/-- What a step reads from outside: the clock, and the reply of each backend. -/
structure QueryIo (α : Type*) where
  now : Nat
  replies : Nat → Reply α

/-- The error of a query that no backend answered. The reports it wraps are left out. -/
def AviationClient.unavailable (C : AviationClient α) (endpoint : AdsbEndpoint) (parkedBackends : Nat) (outcome : String) :
    String :=
  let kind := endpoint.kind
  let configured := C.adsbAggregators.length
  s!"all_backends_unavailable endpoint_kind={kind} configured_backends={configured} parked_backends={parkedBackends} last_provider_outcome={outcome}"

/-- The step of a query: `fetch_adsb_merged`. -/
def AviationClient.next (C : AviationClient α) (w : Fleet α) (p : Nat) (s : QueryPoint α) (io : QueryIo α) :
    Fleet α × QueryPoint α :=
  match s with
  | .calling endpoint =>
    if C.adsbAggregators.isEmpty then (w, .returned (.error "No ADS-B aggregators configured"))
    else
      let live := liveBackendIndices w.health io.now
      ({ w with log := w.log ++ [.queried p io.now live] },
        if live.isEmpty then .outage endpoint "all_parked" else .fetching endpoint live)
  | .fetching endpoint live => (w, .merging endpoint (live.map fun i => (i, io.replies i)) [] none)
  | .merging endpoint ((index, reply) :: results) perBackend last =>
    let result := fetchAdsbResponseOnce reply
    let (health, parked) := C.report w.health index io.now result
    (⟨health, w.log ++ [.reported p index reply io.now parked]⟩,
      match result with
      | .ok aircraft => .merging endpoint results (perBackend ++ [aircraft]) last
      | .error e =>
        .merging endpoint results perBackend (some (providerOutcome (C.adsbAggregators.getD index "") e)))
  | .merging endpoint [] perBackend last =>
    if perBackend.isEmpty then (w, .outage endpoint (last.getD "unknown"))
    else (w, .returned (.ok (C.mergeAircraft perBackend)))
  | .outage endpoint outcome =>
    (w, .returned (.error (C.unavailable endpoint (parkedBackendCount w.health io.now) outcome)))
  | .returned result => (w, .returned result)

def QueryPoint.isReturned : QueryPoint α → Bool
  | returned _ => true
  | _ => false

/-- The queries of a client. None holds a lock from one step to the next. -/
def AviationClient.queries (C : AviationClient α) : Pool.Program (Fleet α) (QueryPoint α) (QueryIo α) AdsbEndpoint Empty where
  start := .calling
  holds _ := []
  needs _ := none
  done := QueryPoint.isReturned
  next := C.next

/-- `new_with_adsb_aggregators`, at a time: no backend is parked. -/
def AviationClient.new (C : AviationClient α) (now : Nat) : Fleet α := ⟨C.adsbAggregators.map fun _ => ⟨now, 0⟩, []⟩

end Twitch1337.Backends
