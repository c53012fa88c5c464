import Twitch1337.Lemmas.Flight
import Twitch1337.Tracker.Roster

/-!
# What a track does

`handleTrack` either leaves the flights alone or appends one flight. The flight was built in stages: the request, the
metadata, the first ADS-B lookup, late metadata, the route. `TrackStages` holds them, with the checks that were passed.
-/

namespace Twitch1337.Tracker

open RustStr Chrono

variable {Γ : Ctx} {env : Env}

/-! ## The cache does not touch the flights -/

@[simp] theorem pruneFlightInfoCache_flights (state : FlightTrackerState) (now : Instant) :
    (pruneFlightInfoCache state now).1.flights = state.flights := rfl

@[simp] theorem upsertFlightInfoCache_flights (state : FlightTrackerState) (aliases : List String)
    (metadata : Option AviationstackFlightMetadata) (now : Instant) :
    (upsertFlightInfoCache Γ state aliases metadata now).flights = state.flights := by
  unfold upsertFlightInfoCache
  simp only
  split
  · rfl
  · split <;> rfl

@[simp] theorem lookupAviationstackMetadata_flights (state : FlightTrackerState) (identifier : FlightIdentifier)
    (callsign : Option String) :
    (lookupAviationstackMetadata Γ env state identifier callsign).1.flights = state.flights := by
  unfold lookupAviationstackMetadata
  simp only
  split
  · simp
  · split
    · simp
    · split
      · simp
      · split <;> simp

@[simp] theorem earlyMetadata_flights (state : FlightTrackerState) (identifier : FlightIdentifier)
    (callsign : Option String) : (earlyMetadata Γ env state identifier callsign).1.flights = state.flights := by
  unfold earlyMetadata
  split <;> simp

@[simp] theorem lateMetadata_flights (state : FlightTrackerState) (flight : TrackedFlight) :
    (lateMetadata Γ env state flight).1.flights = state.flights := by
  unfold lateMetadata
  split <;> simp

/-! ## The first ADS-B lookup -/

/-- What the first ADS-B lookup makes of a flight that it does not turn down: nothing, the time of the poll, or an aircraft
that the flight accepts. -/
inductive InitialStage (Γ : Ctx) (now : Instant) (f : TrackedFlight) : TrackedFlight → Prop
  | skipped : InitialStage Γ now f f
  | unseen : InitialStage Γ now f { f with lastAdsbPollAt := some now }
  | unconfirmed : InitialStage Γ now f
      { f with lastAdsbPollAt := some now, pollsSinceChange := saturatingSucc f.pollsSinceChange }
  | visible (ac : NearbyAircraft) (usedHex : Bool) (confirmation : TargetConfirmation)
      (byHex : usedHex = true → f.hex.isSome = true)
      (accepted : targetConfirmationForAircraft f ac usedHex now = some confirmation)
      (direct : confirmation.isTargetConfirmed = false) :
      InitialStage Γ now f (applyObservedAircraft Γ { f with lastAdsbPollAt := some now } ac confirmation false).1
  | seen (ac : NearbyAircraft) (usedHex : Bool) (confirmation : TargetConfirmation)
      (byHex : usedHex = true → f.hex.isSome = true)
      (accepted : targetConfirmationForAircraft f ac usedHex now = some confirmation)
      (direct : confirmation.isTargetConfirmed = true) :
      InitialStage Γ now f
        (seeTarget (applyObservedAircraft Γ { f with lastAdsbPollAt := some now } ac confirmation true).1 ac now)

/-- A lookup that finds no aircraft keeps the flight as it is, or turns it down. -/
theorem keep_or_reject {keep : Bool} {f g : TrackedFlight} {response : String}
    (h : (if keep then InitialPoll.tracked f else .reject response) = .keepPending g ∨
      (if keep then InitialPoll.tracked f else .reject response) = .tracked g) : g = f := by
  cases keep with
  | true =>
    simp only [if_true, reduceCtorEq, InitialPoll.tracked.injEq, false_or] at h
    exact h.symm
  | false => simp at h

theorem applyInitialResult_stage {f g : TrackedFlight} {usedHex keep : Bool} {result : PollResult} {now : Instant}
    (h : applyInitialResult Γ f usedHex result keep now = .keepPending g ∨
      applyInitialResult Γ f usedHex result keep now = .tracked g) : InitialStage Γ now f g := by
  unfold applyInitialResult at h
  cases result with
  | elapsed => exact keep_or_reject h ▸ .unseen
  | report => exact keep_or_reject h ▸ .unseen
  | answer ac =>
    cases ac with
    | none => exact keep_or_reject h ▸ .unseen
    | some ac =>
      simp only at h
      split at h
      · cases keep with
        | true =>
          simp only [if_true, InitialPoll.keepPending.injEq, reduceCtorEq, or_false] at h
          exact h ▸ .unconfirmed
        | false => simp at h
      · rename_i confirmation hc
        have hb : (usedHex && f.hex.isSome) = true → f.hex.isSome = true := by
          intro hb
          exact (Bool.and_eq_true_iff.mp hb).2
        simp only [reduceCtorEq, InitialPoll.tracked.injEq, false_or] at h
        cases hd : confirmation.isTargetConfirmed with
        | false =>
          rw [hd, if_neg (by decide)] at h
          exact h ▸ .visible ac _ confirmation hb hc hd
        | true =>
          rw [hd, if_pos rfl] at h
          exact h ▸ .seen ac _ confirmation hb hc hd

theorem initialPoll_stage {f g : TrackedFlight}
    (h : initialPoll Γ env f = .keepPending g ∨ initialPoll Γ env f = .tracked g) : InitialStage Γ env.now f g := by
  unfold initialPoll at h
  split at h
  · simp only [reduceCtorEq, InitialPoll.tracked.injEq, false_or] at h
    exact h ▸ .skipped
  · split at h
    · simp only [reduceCtorEq, InitialPoll.tracked.injEq, false_or] at h
      exact h ▸ .skipped
    · exact applyInitialResult_stage h

/-! ## The stages of a track -/

/-- What late metadata makes of a flight. -/
inductive LateStage (Γ : Ctx) (f : TrackedFlight) : TrackedFlight → Prop
  | skipped : LateStage Γ f f
  | missing : LateStage Γ f { f with aviationstackChecked := true }
  | found (metadata : AviationstackFlightMetadata) :
      LateStage Γ f (applyAviationstackMetadata Γ { f with aviationstackChecked := true } metadata)

theorem lateMetadata_stage (state : FlightTrackerState) (f : TrackedFlight) :
    LateStage Γ f (lateMetadata Γ env state f).2 := by
  unfold lateMetadata
  split
  · simp only
    cases (lookupAviationstackMetadata Γ env state f.identifier f.callsign).2.metadata with
    | none => exact .missing
    | some metadata => exact .found metadata
  · exact .skipped

/-- What the route lookup makes of a flight. -/
theorem fetchInitialRoute_stage (Γ : Ctx) (env : Env) (f : TrackedFlight) :
    fetchInitialRoute Γ env f = f ∨ ∃ origin dest, fetchInitialRoute Γ env f = setRouteFromIata Γ f origin dest := by
  unfold fetchInitialRoute
  split
  · split
    · exact .inr ⟨_, _, rfl⟩
    · exact .inl rfl
  · exact .inl rfl

/-- The stages of a track that appends a flight, and the checks it passed. -/
structure TrackStages (Γ : Ctx) (env : Env) (state : FlightTrackerState) (identifier : FlightIdentifier)
    (requestedBy : String) (flight : TrackedFlight) : Prop where
  room : state.flights.length < maxTrackedFlights
  userRoom : (state.flights.filter (·.trackedBy == requestedBy)).length < maxFlightsPerUser
  unique : ∀ f ∈ state.flights, isDuplicate identifier flight.callsign flight.hex f = false
  stages : ∃ f₁ f₂ : TrackedFlight,
    (initialPoll Γ env (preparedFlight Γ env state identifier requestedBy) = .keepPending f₁ ∨
      initialPoll Γ env (preparedFlight Γ env state identifier requestedBy) = .tracked f₁) ∧
    LateStage Γ f₁ f₂ ∧ (flight = f₂ ∨ ∃ origin dest, flight = setRouteFromIata Γ f₂ origin dest)

/-- The names that the late duplicate check reads are those of the flight that joins. -/
theorem startTracking_flights (state : FlightTrackerState) (f : TrackedFlight) (lookup : AviationstackLookup) :
    (startTracking Γ env state f lookup).1.flights = state.flights ++ [fetchInitialRoute Γ env f] := rfl

@[simp] theorem fetchInitialRoute_frame (f : TrackedFlight) :
    (fetchInitialRoute Γ env f).toTicket = f.toTicket ∧
    (fetchInitialRoute Γ env f).toNames = f.toNames ∧
    (fetchInitialRoute Γ env f).toSighting = f.toSighting ∧
    (fetchInitialRoute Γ env f).toCourse = f.toCourse ∧
    (fetchInitialRoute Γ env f).toTelemetry = f.toTelemetry ∧
    (fetchInitialRoute Γ env f).toPlanning = f.toPlanning := by
  rcases fetchInitialRoute_stage Γ env f with h | ⟨origin, dest, h⟩ <;> rw [h] <;> simp

/-- Before any lookup but that of the callsign, a track that goes on has passed the checks. -/
theorem trackRefusal_eq_none {state : FlightTrackerState} {identifier : FlightIdentifier} {requestedBy : String}
    {resolved : Option String} (h : trackRefusal state identifier requestedBy resolved = none) :
    state.flights.length < maxTrackedFlights ∧
      (state.flights.filter (·.trackedBy == requestedBy)).length < maxFlightsPerUser := by
  unfold trackRefusal at h
  split at h
  · cases h
  · split at h
    · cases h
    · rename_i h₁ h₂
      exact ⟨Nat.lt_of_not_le h₁, Nat.lt_of_not_le h₂⟩

theorem not_duplicate {state : FlightTrackerState} {identifier : FlightIdentifier} {cs hx : Option String}
    (h : ¬ duplicateTrackingExists state identifier cs hx = true) :
    ∀ f ∈ state.flights, isDuplicate identifier cs hx f = false := by
  intro f hf
  simp only [duplicateTrackingExists, List.any_eq_true, not_exists, not_and] at h
  simpa using h f hf

/-- A pending flight whose aircraft is not confirmed joins under the names it had before the lookup. -/
theorem initialPoll_keepPending {f g : TrackedFlight} (h : initialPoll Γ env f = .keepPending g) :
    g.toNames = f.toNames := by
  unfold initialPoll at h
  split at h
  · cases h
  · split at h
    · cases h
    · unfold applyInitialResult at h
      split at h
      · simp only at h
        split at h
        · split at h
          · rw [InitialPoll.keepPending.injEq] at h
            rw [← h]
          · cases h
        · cases h
      all_goals split at h <;> cases h

/-- A track leaves the flights as they are, or appends one that went through the stages. -/
theorem handleTrack_cases (Γ : Ctx) (env : Env) (state : FlightTrackerState) (identifier : FlightIdentifier)
    (requestedBy : String) :
    (handleTrack Γ env state identifier requestedBy).1.flights = state.flights ∨
      ∃ flight, (handleTrack Γ env state identifier requestedBy).1.flights = state.flights ++ [flight] ∧
        TrackStages Γ env state identifier requestedBy flight := by
  unfold handleTrack
  simp only
  split
  · exact .inl rfl
  · rename_i hr
    obtain ⟨hroom, huser⟩ := trackRefusal_eq_none hr
    have hpre : ∀ look, earlyMetadata Γ env state identifier ((identifierCallsign identifier).map (resolveCallsign Γ env)) =
        look → applyMetadataFrom Γ (newFlight Γ identifier requestedBy
          ((identifierCallsign identifier).map (resolveCallsign Γ env)) look.2.checked env.now) look.2.metadata =
        preparedFlight Γ env state identifier requestedBy := by
      rintro look rfl
      rfl
    generalize hlook : earlyMetadata Γ env state identifier
      ((identifierCallsign identifier).map (resolveCallsign Γ env)) = early
    have hfl : early.1.flights = state.flights := by
      rw [← hlook]
      exact earlyMetadata_flights state identifier _
    have hf₀ := hpre early hlook
    obtain ⟨s₁, lookup⟩ := early
    simp only at hfl hf₀ ⊢
    rw [hf₀]
    split
    · exact .inl hfl
    · rename_i hd₁
      split
      · exact .inl hfl
      · rename_i f₁ hp
        refine .inr ⟨_, by rw [startTracking_flights, hfl], hroom, huser, ?_, f₁, f₁, .inl hp, .skipped,
          fetchInitialRoute_stage Γ env f₁⟩
        have hn : (fetchInitialRoute Γ env f₁).toNames = (preparedFlight Γ env state identifier requestedBy).toNames := by
          simp [initialPoll_keepPending hp]
        rw [hn, ← hfl]
        exact not_duplicate hd₁
      · rename_i f₁ hp
        split
        · exact .inl (by simp [hfl])
        · rename_i hd₂
          refine .inr ⟨_, by rw [startTracking_flights, lateMetadata_flights, hfl], hroom, huser, ?_, f₁, _, .inr hp,
            lateMetadata_stage s₁ f₁, fetchInitialRoute_stage Γ env _⟩
          have hn := not_duplicate hd₂
          rw [lateMetadata_flights, hfl] at hn
          simpa using hn

/-- The flight a track produces went through its stages. -/
theorem ProducedBy.stages {state : FlightTrackerState} {identifier : FlightIdentifier} {requestedBy : String}
    {flight : TrackedFlight} (h : ProducedBy Γ env state identifier requestedBy flight) :
    TrackStages Γ env state identifier requestedBy flight := by
  unfold ProducedBy at h
  rcases handleTrack_cases Γ env state identifier requestedBy with h' | ⟨f, h', hs⟩
  · rw [h'] at h
    simp at h
  · rw [h', List.append_cancel_left_eq, List.cons.injEq] at h
    exact h.1 ▸ hs

/-- What holds of a new flight and is kept by metadata holds of a prepared flight. -/
theorem preparedFlight_induct {state : FlightTrackerState} {identifier : FlightIdentifier} {requestedBy : String}
    {P : TrackedFlight → Prop}
    (new : ∀ resolved checked, resolved = (identifierCallsign identifier).map (resolveCallsign Γ env) →
      P (newFlight Γ identifier requestedBy resolved checked env.now))
    (metadata : ∀ f m, P f → P (applyAviationstackMetadata Γ f m)) :
    P (preparedFlight Γ env state identifier requestedBy) := by
  unfold preparedFlight
  simp only
  cases (earlyMetadata Γ env state identifier ((identifierCallsign identifier).map (resolveCallsign Γ env))).2.metadata with
  | none =>
    rw [applyMetadataFrom]
    exact new _ _ rfl
  | some m =>
    rw [applyMetadataFrom]
    exact metadata _ m (new _ _ rfl)

/-- What holds of a new flight and is kept by every stage holds of every flight a track produces. -/
theorem TrackStages.induct {state : FlightTrackerState} {identifier : FlightIdentifier} {requestedBy : String}
    {flight : TrackedFlight} {P : TrackedFlight → Prop} (h : TrackStages Γ env state identifier requestedBy flight)
    (new : ∀ resolved checked, resolved = (identifierCallsign identifier).map (resolveCallsign Γ env) →
      P (newFlight Γ identifier requestedBy resolved checked env.now))
    (metadata : ∀ f m, P f → P (applyAviationstackMetadata Γ f m))
    (checked : ∀ f, P f → P { f with aviationstackChecked := true })
    (initial : ∀ f g, P f → InitialStage Γ env.now f g → P g)
    (route : ∀ f origin dest, P f → P (setRouteFromIata Γ f origin dest)) : P flight := by
  obtain ⟨-, -, -, f₁, f₂, hi, hl, hr⟩ := h
  have h₀ : P (preparedFlight Γ env state identifier requestedBy) := preparedFlight_induct new metadata
  have h₁ := initial _ _ h₀ (initialPoll_stage hi)
  have h₂ : P f₂ := by
    cases hl with
    | skipped => exact h₁
    | missing => exact checked _ h₁
    | found m => exact metadata _ m (checked _ h₁)
  rcases hr with rfl | ⟨origin, dest, rfl⟩
  · exact h₂
  · exact route _ origin dest h₂

end Twitch1337.Tracker
