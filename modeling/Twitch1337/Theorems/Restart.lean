import Twitch1337.Lemmas.Loop
import Twitch1337.Tracker.State

/-!
# Restart and capacity

A restart reads the state back and migrates it. On every state the tracker reaches, in a round or between rounds, the
migrations change nothing. The tracker never holds more flights than it may, overall and for one requester, and never two with
one identifier; and an untrack by one who is no moderator removes only a flight of the requester.
-/

namespace Twitch1337.Tracker

open RustStr Chrono

variable {Γ : Ctx}

/-! ## The migrations -/

/-- A migration that no flight calls for changes nothing. -/
theorem migrateFlights_eq_self {p : TrackedFlight → Bool} {f : TrackedFlight → TrackedFlight} {state : FlightTrackerState}
    (h : ∀ flight ∈ state.flights, p flight = false) : migrateFlights p f state = (state, 0) := by
  have hmap : state.flights.map (fun flight => if p flight then f flight else flight) = state.flights := by
    rw [List.map_congr_left (g := id) fun flight hf => by simp [h flight hf], List.map_id]
  have hcount : state.flights.countP p = 0 := by
    rw [List.countP_eq_zero]
    intro flight hf
    simp [h flight hf]
  rw [migrateFlights, hmap, hcount]

/-- Seeding the aliases of a flight whose names are in order changes nothing. -/
theorem NamesInOrder.seed_eq_self {f : TrackedFlight} (h : NamesInOrder Γ f) : seedFlightAliases Γ f = f := by
  unfold seedFlightAliases
  simp only
  rw [addAliasFrom_of_knows h.identifierKnown, addAliasFrom_of_knows h.callsignKnown]

/-- Restart is the identity: on every state the tracker reaches, each of the four migrations changes no flight, and so does
the whole load. -/
theorem restart_identity {events : List Event} {t : TrackerLoop} (h : TrackerLoop.Reaches Γ events t) :
    clearPendingCallsignHexes t.state = (t.state, 0) ∧
    migrateTargetConfirmations t.state = (t.state, 0) ∧
    seedMissingAliases Γ t.state = t.state ∧
    backfillVisibleAnchor t.state = (t.state, 0) ∧
    loadTrackerState Γ t.state = t.state := by
  have hin : ∀ f ∈ t.state.flights, InOrder Γ f := h.inOrder.roster.inOrder
  have hclear : clearPendingCallsignHexes t.state = (t.state, 0) := by
    refine migrateFlights_eq_self fun f hf => ?_
    have hx := (hin f hf).unseenHex
    by_contra hp
    simp only [Bool.not_eq_false, Bool.and_eq_true, Option.isNone_iff_eq_none, bne_iff_ne] at hp
    obtain ⟨⟨⟨hc, hs⟩, hh⟩, ha⟩ := hp
    exact ha (hx hc hs hh)
  have hmigrate : migrateTargetConfirmations t.state = (t.state, 0) := by
    refine migrateFlights_eq_self fun f hf => ?_
    have hs := (hin f hf).sighting.seenConfirms
    by_contra hp
    simp only [Bool.not_eq_false, Bool.and_eq_true, beq_iff_eq] at hp
    exact hs hp.2 hp.1
  have hseed : seedMissingAliases Γ t.state = t.state := by
    rw [seedMissingAliases, List.map_congr_left (g := id) fun f hf => (hin f hf).names.seed_eq_self, List.map_id]
  have hback : backfillVisibleAnchor t.state = (t.state, 0) := by
    refine migrateFlights_eq_self fun f hf => ?_
    have hv := (hin f hf).sighting.seenVisible
    by_contra hp
    simp only [Bool.not_eq_false, Bool.and_eq_true, Option.isNone_iff_eq_none] at hp
    have hsome := hv hp.2
    rw [hp.1] at hsome
    cases hsome
  refine ⟨hclear, hmigrate, hseed, hback, ?_⟩
  unfold loadTrackerState
  simp only [hclear, hmigrate, hseed, hback]

/-! ## Runs on an airfield of one aircraft -/

/-- Tables that know the ASCII letters, one airline and no airport. -/
def fieldCtx : Ctx where
  upper := UpperTable.ascii
  iataToCoords := fun _ => none
  airlineTable := fun iata => if iata = "LH" then some "DLH" else none
  offHeading := fun _ _ _ => false

/-- An environment in which AviationStack is configured and no service finds anything. -/
def quietEnv (now : Instant) : Env where
  now := now
  lookupAirlineIcao := fun _ => none
  aviationstackEnabled := true
  getAviationstackFlightMetadata := fun _ _ => .ok none
  getAircraftByHex := fun _ => .answer none
  getAircraftByCallsign := fun _ => .answer none
  getFlightRoute := fun _ => none

/-- A track by callsign, and a round two minutes later that sees its aircraft. -/
def sightedRun : List Event :=
  [.command (quietEnv 0) (.track (.callsign "LH123") "ann" ⟨"m1"⟩),
    .poll (seconds 120),
    .round (.joined ⟨.callsign "LH123", false, .callsigns ["DLH123", "LH123"]⟩
      (.answer (some { hex := some "3c6589", flight := some "DLH123  " }))),
    .round (.apply fun _ => none),
    .round .sweep,
    .finish]

theorem sightedRun_isSome : (Machine.run (TrackerLoop.step fieldCtx) TrackerLoop.empty sightedRun).isSome = true := by
  decide +kernel

/-- The run of one sighted flight: its aircraft's hex is taken over, and a restart changes nothing. -/
theorem restart_identity_sighted :
    ∃ t, TrackerLoop.Reaches fieldCtx sightedRun t ∧ t.state.flights.map (·.hex) = [some "3C6589"] ∧
      loadTrackerState fieldCtx t.state = t.state := by
  have h : TrackerLoop.Reaches fieldCtx sightedRun (Option.get _ sightedRun_isSome) := (Option.some_get _).symm
  exact ⟨_, h, by decide +kernel, (restart_identity h).2.2.2.2⟩

/-! ## Capacity and ownership -/

/-- An untrack by one who is no moderator changes nothing, or removes one flight, which is the requester's. -/
theorem handleUntrack_owner (state : FlightTrackerState) (query user : String) :
    (handleUntrack Γ state query user false).1 = state ∨
      ∃ i f, state.flights[i]? = some f ∧ f.trackedBy = user ∧
        (handleUntrack Γ state query user false).1 = { state with flights := state.flights.eraseIdx i } := by
  unfold handleUntrack
  rcases removeFlightAt_cases (Γ := Γ) state query with ⟨hf, -⟩ | ⟨i, f, hf, hi, hr⟩
  · rw [hf]
    exact .inl rfl
  · rw [hf, Option.bind_some, hi]
    simp only
    split
    · exact .inl rfl
    · rename_i hown
      refine .inr ⟨i, f, hi, ?_, by rw [hr]⟩
      simpa using hown

/-- The tracker stays within its capacity: in every state it reaches there are at most twelve flights, at most three of one
requester, and no two with one identifier; and an untrack by one who is no moderator changes nothing, or takes out one flight
of the requester and leaves the others as they are, in their order. -/
theorem tracker_within_capacity {events : List Event} {t : TrackerLoop} (h : TrackerLoop.Reaches Γ events t) :
    t.state.flights.length ≤ maxTrackedFlights ∧
    (∀ user, (flightsOf t.state.flights user).length ≤ maxFlightsPerUser) ∧
    (t.state.flights.map (·.identifier)).Nodup ∧
    ∀ env query user replyTo,
      (processCommand Γ env t.state (.untrack query user false replyTo)).1 = t.state ∨
        ∃ i f, t.state.flights[i]? = some f ∧ f.trackedBy = user ∧
          (processCommand Γ env t.state (.untrack query user false replyTo)).1 =
            { t.state with flights := t.state.flights.eraseIdx i } := by
  have hcap := h.inOrder.roster.withinCapacity
  exact ⟨hcap.total, hcap.perUser, hcap.distinct, fun _ query user _ => handleUntrack_owner t.state query user⟩

/-- In the run of one sighted flight, `ann` has one flight of her three, and `bob` cannot untrack it. -/
theorem tracker_within_capacity_sighted :
    ∃ t, TrackerLoop.Reaches fieldCtx sightedRun t ∧ (flightsOf t.state.flights "ann").length = 1 ∧
      (flightsOf t.state.flights "ann").length ≤ maxFlightsPerUser ∧
      (processCommand fieldCtx (quietEnv 0) t.state (.untrack "dlh123" "bob" false ⟨"m2"⟩)).1.flights.length = 1 := by
  have h : TrackerLoop.Reaches fieldCtx sightedRun (Option.get _ sightedRun_isSome) := (Option.some_get _).symm
  exact ⟨_, h, by decide +kernel, (tracker_within_capacity h).2.1 "ann", by decide +kernel⟩

end Twitch1337.Tracker
