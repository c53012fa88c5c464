import Twitch1337.Lib.Machine
import Twitch1337.Tracker.Commands

/-!
# The poll round and the tracker loop

`poll_all_flights_with_commands` of `aviation/tracker/commands.rs` and `aviation/tracker/loop_run.rs`, as machines. A round
fetches every flight that is due at once; the answers arrive in any order, and between any two of its steps the commands that
have come in meanwhile are taken from the channel. The tracker serves commands one at a time, and polls when it tracks flights.
-/

namespace Twitch1337.Tracker

open Chrono

/-! ## Fetches -/

/-- What is looked up for a flight: its hex, or its callsigns in turn. -/
inductive FetchQuery where
  | hex (hex : String)
  | callsigns (candidates : List String)
  deriving DecidableEq

/-- A lookup under way, for the flight with an identifier. -/
structure Fetch where
  identifier : FlightIdentifier
  usedHex : Bool
  query : FetchQuery
  deriving DecidableEq

/-- A lookup that has been answered. -/
structure PollAttempt where
  identifier : FlightIdentifier
  usedHex : Bool
  result : PollResult

def planFetch (Γ : Ctx) (flight : TrackedFlight) : Fetch :=
  if shouldPollByHex flight then
    { identifier := flight.identifier, usedHex := true, query := .hex (flight.hex.getD flight.identifier.asStr) }
  else
    { identifier := flight.identifier, usedHex := false, query := .callsigns (callsignPollCandidates Γ flight) }

/-- Whether a lookup can have an answer: without callsigns to ask for, there is no aircraft. -/
def Fetch.admits (fetch : Fetch) (result : PollResult) : Bool :=
  match fetch.query, result with
  | .callsigns [], .answer none => true
  | .callsigns [], _ => false
  | _, _ => true

/-- The outcome of an answered lookup. -/
def PollResult.outcome : PollResult → PollOutcome
  | answer (some ac) => .hit ac
  | answer none => .miss
  | report => .error
  | elapsed => .timeout

/-! ## The round -/

/-- A poll round under way. A message is an announcement and the flight it is rendered for. -/
structure Round where
  state : FlightTrackerState
  now : Instant
  inflight : List Fetch
  fetchResults : List PollAttempt
  changed : Bool
  removals : List FlightIdentifier
  messages : List (TrackedFlight × Emit)
  deferred : List TrackerCommand
  answered : List Output
  swept : Bool

/-- The start of a round: the flights that are due are fetched, the expired ones are to be removed. -/
def beginRound (Γ : Ctx) (state : FlightTrackerState) (now : Instant) : Round :=
  let due := state.flights.filter fun flight => pollReadiness flight now == .due
  let expired := state.flights.filter fun flight => pollReadiness flight now == .expired
  { state := state
    now := now
    inflight := due.map (planFetch Γ)
    fetchResults := []
    changed := !expired.isEmpty
    removals := expired.map (·.identifier)
    messages := expired.map fun flight => (flight, .pendingExpired)
    deferred := []
    answered := []
    swept := false }

inductive RoundEvent where
  /-- A lookup has been answered. -/
  | joined (fetch : Fetch) (result : PollResult)
  /-- The task of a lookup has ended without an answer. -/
  | lost (fetch : Fetch)
  /-- A command is taken from the channel. -/
  | command (now : Instant) (cmd : TrackerCommand)
  /-- The next answer is applied. `getFlightRoute` answers the route lookups this asks for. -/
  | apply (getFlightRoute : String → Option FlightRoute)
  /-- All answers are applied, and the removals are made. -/
  | sweep

/-- Whether the round takes commands from its channel: while lookups are under way, before each answer is applied, and after
the removals. -/
def Round.listens (r : Round) : Bool := !r.inflight.isEmpty || !r.fetchResults.isEmpty || r.swept

def Round.receive (Γ : Ctx) (r : Round) (now : Instant) (cmd : TrackerCommand) : Round :=
  let (state, out, handedBack) := processLatencySensitiveCommand Γ r.state now cmd
  { r with
    state := state
    answered := r.answered ++ out.toList
    deferred := r.deferred ++ handedBack.toList }

/-- A flight after the follow-ups of its transition. -/
def performFollowups (Γ : Ctx) (getFlightRoute : String → Option FlightRoute) (flight : TrackedFlight)
    (followups : List Followup) : TrackedFlight :=
  followups.foldl (fun flight followup =>
    match followup with
    | .fetchRoute callsign =>
      match getFlightRoute callsign with
      | some route => applyRoute Γ flight route.origin route.destination
      | none => flight) flight

/-- An answer is applied to the flight it was fetched for. When that flight is gone, it is dropped. -/
def Round.applyAttempt (Γ : Ctx) (getFlightRoute : String → Option FlightRoute) (r : Round) (attempt : PollAttempt) :
    Round :=
  match findIndexByIdentifier r.state.flights attempt.identifier with
  | none => r
  | some idx =>
    match r.state.flights[idx]? with
    | none => r
    | some flight =>
      let (flight, update) := advanceFlight Γ flight ⟨attempt.usedHex, attempt.result.outcome⟩ r.now
      let flight := performFollowups Γ getFlightRoute flight update.followups
      { r with
        state := { r.state with flights := r.state.flights.set idx flight }
        changed := true
        messages := r.messages ++ update.emits.map fun emit => (flight, emit)
        removals := r.removals ++ update.removal.toList.map fun _ => attempt.identifier }

/-- The flights after the removals, made one at a time. -/
def removeAll (flights : List TrackedFlight) (removals : List FlightIdentifier) : List TrackedFlight :=
  removals.foldl (fun flights identifier =>
    match findIndexByIdentifier flights identifier with
    | some idx => flights.eraseIdx idx
    | none => flights) flights

def Round.sweep (r : Round) : Round :=
  let flights := removeAll r.state.flights r.removals
  { r with
    state := { r.state with flights := flights }
    changed := r.changed || flights.length != r.state.flights.length
    swept := true }

def Round.step (Γ : Ctx) (r : Round) : RoundEvent → Option Round
  | .joined fetch result =>
    if fetch ∈ r.inflight ∧ fetch.admits result then
      some { r with
        inflight := r.inflight.erase fetch
        fetchResults := r.fetchResults ++ [⟨fetch.identifier, fetch.usedHex, result⟩] }
    else
      none
  | .lost fetch => if fetch ∈ r.inflight then some { r with inflight := r.inflight.erase fetch } else none
  | .command now cmd => if r.listens then some (r.receive Γ now cmd) else none
  | .apply getFlightRoute =>
    if r.inflight.isEmpty then
      match r.fetchResults with
      | [] => none
      | attempt :: rest => some ({ r with fetchResults := rest }.applyAttempt Γ getFlightRoute attempt)
    else
      none
  | .sweep => if r.inflight.isEmpty && r.fetchResults.isEmpty && !r.swept then some r.sweep else none

/-! ## The tracker -/

/-- The instant that the tracker sleeps until after a round, unless a command comes in. -/
def FlightTrackerState.sleepUntil (state : FlightTrackerState) (now : Instant) : Instant :=
  (nextPollAt state.flights now).getD now

/-- The tracker between two steps: serving, with the commands the last round handed back still to be processed, or in a
round. -/
inductive TrackerLoop where
  | serving (state : FlightTrackerState) (deferred : List TrackerCommand)
  | polling (round : Round)

inductive Event where
  /-- A command is taken from the channel and processed. -/
  | command (env : Env) (cmd : TrackerCommand)
  /-- The next of the commands handed back by a round is processed. -/
  | resume (env : Env)
  /-- A round starts. -/
  | poll (now : Instant)
  /-- The round takes a step. -/
  | round (e : RoundEvent)
  /-- The round ends. -/
  | finish

def TrackerLoop.step (Γ : Ctx) : TrackerLoop → Event → Option TrackerLoop
  | .serving state [], .command env cmd => some (.serving (processCommand Γ env state cmd).1 [])
  | .serving state (cmd :: rest), .resume env => some (.serving (processCommand Γ env state cmd).1 rest)
  | .serving state [], .poll now => if state.flights.isEmpty then none else some (.polling (beginRound Γ state now))
  | .polling r, .round e => (r.step Γ e).map .polling
  | .polling r, .finish => if r.swept then some (.serving r.state r.deferred) else none
  | _, _ => none

/-- The state the tracker works on. -/
def TrackerLoop.state : TrackerLoop → FlightTrackerState
  | serving state _ => state
  | polling r => r.state

/-- The tracker before its first command. -/
def TrackerLoop.empty : TrackerLoop := .serving {} []

/-- The tracker reaches a state from the empty one. -/
def TrackerLoop.Reaches (Γ : Ctx) (events : List Event) (t : TrackerLoop) : Prop :=
  Machine.run (TrackerLoop.step Γ) TrackerLoop.empty events = some t

/-- The clock reading of an event. -/
def Event.reading : Event → Option Instant
  | .command env _ => some env.now
  | .resume env => some env.now
  | .poll now => some now
  | .round (.command now _) => some now
  | .round _ => none
  | .finish => none

end Twitch1337.Tracker
