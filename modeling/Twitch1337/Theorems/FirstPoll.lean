import Twitch1337.Lemmas.Course
import Twitch1337.Theorems.Squawk

/-!
# The first poll of a track

A track polls the aircraft of its flight once, on a path of its own. Where the flight accepts the aircraft, the flight it hands on
is the one that the transition of a poll cycle makes, but for the visibility anchor of an unconfirmed target. What a track stores
may differ from it by the metadata of a late lookup.
-/

namespace Twitch1337.Tracker

open RustStr Chrono

variable {Γ : Ctx} {env : Env}

/-- What a poll determines of a flight, but for the time its aircraft was last visible. -/
structure SameObserved (f g : TrackedFlight) : Prop where
  names : f.toNames = g.toNames
  confirmation : f.targetConfirmation = g.targetConfirmation
  observedCallsign : f.observedCallsign = g.observedCallsign
  aircraftType : f.aircraftType = g.aircraftType
  telemetry : f.toTelemetry = g.toTelemetry
  lastSeen : f.lastSeen = g.lastSeen
  phase : f.phase = g.phase

/-! ## A flight before its first poll -/

/-- A flight that has not been sighted. -/
structure Unsighted (f : TrackedFlight) : Prop where
  sighting : f.toSighting = {}
  phase : f.phase = .unknown
  polls : f.pollsSinceChange = 0
  change : f.lastPhaseChange = none

/-- Metadata moves nothing of the course of a flight but its takeoff. -/
theorem applyAviationstackMetadata_course (f : TrackedFlight) (m : AviationstackFlightMetadata) :
    (applyAviationstackMetadata Γ f m).toCourse = { f.toCourse with takeoffAt := m.takeoffTime.or f.takeoffAt } := by
  simp [applyAviationstackMetadata]

theorem preparedFlight_unsighted (state : FlightTrackerState) (identifier : FlightIdentifier) (requestedBy : String) :
    Unsighted (preparedFlight Γ env state identifier requestedBy) := by
  refine preparedFlight_induct (P := Unsighted) (fun resolved checked _ => ?_) fun f m h => ?_
  · refine ⟨?_, ?_, ?_, ?_⟩ <;> simp [newFlight, seedFlightAliases]
  · have hc := applyAviationstackMetadata_course (Γ := Γ) f m
    exact ⟨(applyAviationstackMetadata_frame f m).2.1.trans h.sighting, by rw [hc]; exact h.phase,
      by rw [hc]; exact h.polls, by rw [hc]; exact h.change⟩

/-! ## The two paths -/

/-- Seeing an aircraft reads nothing of when the flight was last seen. -/
theorem applyObservedAircraft_sighting (f : TrackedFlight) (ac : NearbyAircraft) (confirmation : TargetConfirmation)
    (direct : Bool) (visible seen : Option Instant) :
    (applyObservedAircraft Γ { f with lastVisibleAt := visible, lastSeen := seen } ac confirmation direct).1 =
      { (applyObservedAircraft Γ f ac confirmation direct).1 with lastVisibleAt := visible, lastSeen := seen } := by
  have hoffer : ∀ (g : TrackedFlight) (cs : Option String),
      resolveCallsignTo Γ { g with lastVisibleAt := visible, lastSeen := seen } cs =
        { resolveCallsignTo Γ g cs with lastVisibleAt := visible, lastSeen := seen } := by
    intro g cs
    unfold resolveCallsignTo
    split
    · rfl
    · unfold addAliasCallsign
      split
      · rfl
      · split <;> rfl
  have hhex : ∀ (g : TrackedFlight) (hx : Option String),
      setHexFrom Γ { g with lastVisibleAt := visible, lastSeen := seen } hx .adsb direct =
        { setHexFrom Γ g hx .adsb direct with lastVisibleAt := visible, lastSeen := seen } := by
    intro g hx
    unfold setHexFrom setHexIfConsistent
    split
    · rfl
    · split
      · rfl
      · split <;> rfl
  have key := hhex (resolveCallsignTo Γ { f with targetConfirmation := confirmation, observedCallsign := aircraftCallsign ac }
    (newlyResolvedCallsign f ac confirmation)) ac.hex
  rw [← hoffer] at key
  exact congrArg (fun g : TrackedFlight =>
    { g with
      aircraftType := g.aircraftType.or ac.t
      altitudeFt := altitudeFt ac
      verticalRateFpm := verticalRate ac
      groundSpeedKts := ac.gs
      lat := ac.lat
      lon := ac.lon
      squawk := ac.squawk }) key

/-- What a confirmed target and a flight not sighted before make of the phase. -/
theorem phaseStep_of_unknown {f : TrackedFlight} (h : f.phase = .unknown) (ac : NearbyAircraft) (now : Instant) :
    (phaseStep f ac now).1.phase = detectPhase f ac := by
  have hland : detectPhase f ac ≠ .landing := by
    intro hl
    rcases detectPhase_cases f ac with hc | ⟨-, hp⟩ | ⟨hc, -⟩ | hc
    · rw [hl, h] at hc
      cases hc
    · rw [h] at hp
      cases hp
    · rw [hl] at hc
      cases hc
    · rw [hl] at hc
      cases hc
  unfold phaseStep
  dsimp only
  rw [if_neg hland]
  split_ifs with hs
  · exact hs.symm
  all_goals rfl

/-- The flight a first poll hands on when it accepts an aircraft. -/
def firstSighted (Γ : Ctx) (f : TrackedFlight) (ac : NearbyAircraft) (raw : TargetConfirmation) (now : Instant) :
    TrackedFlight :=
  let g := (applyObservedAircraft Γ (polledAt f now) ac raw raw.isTargetConfirmed).1
  if raw.isTargetConfirmed then seeTarget g ac now else g

theorem applyInitialResult_of_accepted {f : TrackedFlight} {ac : NearbyAircraft} {usedHex : Bool}
    {raw : TargetConfirmation} {now : Instant}
    (h : targetConfirmationForAircraft f ac (usedHex && f.hex.isSome) now = some raw) (keep : Bool) :
    applyInitialResult Γ f usedHex (.answer (some ac)) keep now = .tracked (firstSighted Γ f ac raw now) := by
  have hpolled : targetConfirmationForAircraft { f with lastAdsbPollAt := some now } ac (usedHex && f.hex.isSome) now =
      some raw := h
  simp only [applyInitialResult, hpolled]
  rfl

/-- The transition of a poll cycle, from the flight that has seen the aircraft. -/
theorem advanceFlight_of_unsighted {f : TrackedFlight} (hf : Unsighted f) {ac : NearbyAircraft} {usedHex : Bool}
    {raw : TargetConfirmation} {now : Instant} (h : targetConfirmationForAircraft f ac usedHex now = some raw) :
    ∃ restart eligible, (advanceFlight Γ f ⟨usedHex, .hit ac⟩ now).1 =
      (observePhase Γ { (applyObservedAircraft Γ (polledAt f now) ac raw raw.isTargetConfirmed).1 with
        lastVisibleAt := some now, lastSeen := if raw.isTargetConfirmed then some now else none }
        ac restart eligible f.lat f.lon now).1 := by
  have ha : acceptedHit f ⟨⟨usedHex, .hit ac⟩, now, fun _ => none⟩ = some (ac, raw) := by
    simp only [acceptedHit, h, Option.map_some]
  have hkeep : shouldKeepPriorConfirmation (polledAt f now) raw usedHex now = false := by
    simp [shouldKeepPriorConfirmation, polledAt, hf.sighting, TargetConfirmation.isTargetConfirmed]
  have hseen : (polledAt f now).lastSeen = none := by simp [hf.sighting]
  rw [(advanceFlight_of_accepted (Γ := Γ) ha).2, ← applyObservedAircraft_sighting]
  refine ⟨restartsPhase f raw, phaseSampleConfirmed f ac raw usedHex now, ?_⟩
  simp only [advanceHit, hkeep, hseen]
  rfl

/-- The phase that a poll cycle makes of a flight not sighted before. -/
theorem phase_of_unsighted {f : TrackedFlight} (hf : Unsighted f) {ac : NearbyAircraft} {usedHex : Bool}
    {raw : TargetConfirmation} {now : Instant} (h : targetConfirmationForAircraft f ac usedHex now = some raw) :
    (advanceFlight Γ f ⟨usedHex, .hit ac⟩ now).1.phase =
      if raw.isTargetConfirmed then detectPhase f ac else .unknown := by
  have ha : acceptedHit f ⟨⟨usedHex, .hit ac⟩, now, fun _ => none⟩ = some (ac, raw) := by
    simp only [acceptedHit, h, Option.map_some]
  have hpoll : (advanceFlight Γ f ⟨usedHex, .hit ac⟩ now).1.phase =
      (pollStep Γ f ⟨⟨usedHex, .hit ac⟩, now, fun _ => none⟩).phase := by
    rw [pollStep, (performFollowups_frame _ _ _).2.2.2.1]
  have hpending : f.targetConfirmation = .pending := by rw [hf.sighting]
  have hconf : TargetConfirmation.pending.isTargetConfirmed = false := rfl
  rw [hpoll, (course_of_accepted (Γ := Γ) ha).1]
  cases hraw : raw.isTargetConfirmed with
  | true =>
    have hbasis : phaseBasis f raw = resetPhase f := by
      simp [phaseBasis, restartsPhase, isPendingAdsb, hpending, hraw, hconf]
    have hcourse : (resetPhase f).toCourse = f.toCourse := by
      simp only [resetPhase, ← hf.phase, ← hf.polls, ← hf.change]
    rw [if_pos (by simp [phaseSampleConfirmed, hraw]), hbasis, phaseStep_of_unknown rfl, if_pos rfl]
    simp only [detectPhase, hcourse]
  | false =>
    have hel : phaseSampleConfirmed f ac raw usedHex now = false := by
      simp [phaseSampleConfirmed, hraw, shouldKeepPriorConfirmation, hpending, hconf]
    simp only [hel, Bool.false_eq_true, if_false]
    exact hf.phase

/-- The first poll and the transition of a poll cycle agree on a flight that has not been sighted, and where the target is
confirmed, on when its aircraft was last visible. -/
theorem firstSighted_agrees {f : TrackedFlight} (hf : Unsighted f) {ac : NearbyAircraft} {usedHex : Bool}
    {raw : TargetConfirmation} {now : Instant} (h : targetConfirmationForAircraft f ac usedHex now = some raw) :
    SameObserved (firstSighted Γ f ac raw now) (advanceFlight Γ f ⟨usedHex, .hit ac⟩ now).1 ∧
    (raw.isTargetConfirmed = true →
      (firstSighted Γ f ac raw now).lastVisibleAt = (advanceFlight Γ f ⟨usedHex, .hit ac⟩ now).1.lastVisibleAt) := by
  have hphase := phase_of_unsighted (Γ := Γ) hf h
  obtain ⟨restart, eligible, hadv⟩ := advanceFlight_of_unsighted (Γ := Γ) hf h
  rw [hadv] at hphase ⊢
  have hseen : f.lastSeen = none := by rw [hf.sighting]
  have hdetect : ∀ g : TrackedFlight, g.toCourse = f.toCourse → detectPhase g ac = detectPhase f ac := by
    intro g hg
    simp only [detectPhase, hg]
  unfold firstSighted
  cases hraw : raw.isTargetConfirmed with
  | true =>
    rw [hraw] at hphase
    refine ⟨⟨?_, ?_, ?_, ?_, ?_, ?_, ?phase⟩, fun _ => ?_⟩
    case phase =>
      rw [hphase]
      exact hdetect _ (by simp)
    all_goals simp [seeTarget]
  | false =>
    rw [hraw] at hphase
    refine ⟨⟨?_, ?_, ?_, ?_, ?_, ?_, ?phase⟩, fun hc => by cases hc⟩
    case phase =>
      rw [hphase]
      simp [hf.phase]
    all_goals simp [hseen]

/-! ## What a track stores -/

/-- The flight that a track stores has gone through its first poll, the late lookup and the route lookup. -/
theorem ProducedBy.of_tracked {state : FlightTrackerState} {identifier : FlightIdentifier} {requestedBy : String}
    {stored polled : TrackedFlight} (h : ProducedBy Γ env state identifier requestedBy stored)
    (hp : initialPoll Γ env (preparedFlight Γ env state identifier requestedBy) = .tracked polled) :
    stored = fetchInitialRoute Γ env (lateMetadata Γ env
      (earlyMetadata Γ env state identifier ((identifierCallsign identifier).map (resolveCallsign Γ env))).1 polled).2 := by
  have hne : ∀ s : FlightTrackerState, s.flights = state.flights → s.flights ≠ state.flights ++ [stored] := by
    intro s hs he
    rw [hs] at he
    simpa using congrArg List.length he
  have hearly : (earlyMetadata Γ env state identifier ((identifierCallsign identifier).map (resolveCallsign Γ env))).1.flights =
      state.flights :=
    earlyMetadata_flights state identifier _
  unfold ProducedBy handleTrack at h
  unfold preparedFlight at hp
  dsimp only at h hp
  split at h
  · exact absurd h (hne _ rfl)
  split at h
  · exact absurd h (hne _ hearly)
  rw [hp] at h
  dsimp only at h
  have hlate : (lateMetadata Γ env (earlyMetadata Γ env state identifier
      ((identifierCallsign identifier).map (resolveCallsign Γ env))).1 polled).1.flights = state.flights :=
    (lateMetadata_flights _ polled).trans hearly
  split at h
  · exact absurd h (hne _ hlate)
  rw [startTracking_flights, hlate, List.append_cancel_left_eq, List.cons.injEq] at h
  exact h.1.symm

@[simp] theorem fetchInitialRoute_rest (f : TrackedFlight) :
    (fetchInitialRoute Γ env f).aircraftType = f.aircraftType := by
  rcases fetchInitialRoute_stage Γ env f with h | ⟨origin, dest, h⟩ <;> rw [h]
  simp

/-- The route lookup changes nothing that a poll determines. -/
theorem fetchInitialRoute_observed (Γ : Ctx) (env : Env) (f : TrackedFlight) :
    SameObserved (fetchInitialRoute Γ env f) f ∧ (fetchInitialRoute Γ env f).lastVisibleAt = f.lastVisibleAt := by
  refine ⟨⟨?_, ?_, ?_, ?_, ?_, ?_, ?_⟩, ?_⟩ <;> simp

/-- Whether a track asks AviationStack after its first poll. -/
def asksLate (env : Env) (flight : TrackedFlight) : Bool :=
  env.aviationstackEnabled && !flight.aviationstackChecked && flight.callsign.isSome

theorem lateMetadata_of_not_asked {f : TrackedFlight} (h : asksLate env f = false) (state : FlightTrackerState) :
    (lateMetadata Γ env state f).2 = f := by
  rw [lateMetadata, if_neg (by rw [← asksLate, h]; simp)]

/-- The first poll of a track that finds an aircraft of its flight hands on what the transition of a poll cycle makes of the flight,
the aircraft and the time; where the aircraft confirms the target, its visibility too. The stored flight is that one with the
metadata of the late lookup; where that is not made, it is that one. -/
theorem first_poll_agrees {f : TrackedFlight} {state : FlightTrackerState} {identifier : FlightIdentifier}
    {requestedBy : String} (hf : f = preparedFlight Γ env state identifier requestedBy) :
    (∀ ac usedHex keep raw, targetConfirmationForAircraft f ac (usedHex && f.hex.isSome) env.now = some raw →
      ∃ polled, applyInitialResult Γ f usedHex (.answer (some ac)) keep env.now = .tracked polled ∧
        SameObserved polled (advanceFlight Γ f ⟨usedHex && f.hex.isSome, .hit ac⟩ env.now).1 ∧
        (raw.isTargetConfirmed = true → polled.lastVisibleAt =
          (advanceFlight Γ f ⟨usedHex && f.hex.isSome, .hit ac⟩ env.now).1.lastVisibleAt)) ∧
    (∀ stored polled late, ProducedBy Γ env state identifier requestedBy stored → initialPoll Γ env f = .tracked polled →
      late = (lateMetadata Γ env (earlyMetadata Γ env state identifier
        ((identifierCallsign identifier).map (resolveCallsign Γ env))).1 polled).2 →
      SameObserved stored late ∧ stored.lastVisibleAt = late.lastVisibleAt ∧ (asksLate env polled = false → late = polled)) := by
  refine ⟨fun ac usedHex keep raw h => ?_, fun stored polled late h hp hl => ?_⟩
  · have hu : Unsighted f := hf ▸ preparedFlight_unsighted state identifier requestedBy
    obtain ⟨hsame, hvisible⟩ := firstSighted_agrees (Γ := Γ) hu h
    exact ⟨_, applyInitialResult_of_accepted h keep, hsame, hvisible⟩
  · rw [h.of_tracked (hf ▸ hp), ← hl]
    obtain ⟨hsame, hvisible⟩ := fetchInitialRoute_observed Γ env late
    exact ⟨hsame, hvisible, fun hasks => by rw [hl, lateMetadata_of_not_asked hasks]⟩

/-! ## Where the paths part -/

/-- What is stored agrees with the transition of a poll cycle on a field, for every track whose first poll finds an aircraft of
its flight. -/
def StoredAgrees {α : Type} (field : TrackedFlight → α) : Prop :=
  ∀ (Γ : Ctx) (env : Env) (state : FlightTrackerState) (identifier : FlightIdentifier) (requestedBy : String)
    (stored : TrackedFlight) (ac : NearbyAircraft) (usedHex : Bool) (raw : TargetConfirmation),
    ProducedBy Γ env state identifier requestedBy stored →
    shouldSkipAdsbForStrictChill (preparedFlight Γ env state identifier requestedBy) env.now = false →
    initialLookup Γ env (preparedFlight Γ env state identifier requestedBy) = (usedHex, some (.answer (some ac))) →
    targetConfirmationForAircraft (preparedFlight Γ env state identifier requestedBy) ac
      (usedHex && (preparedFlight Γ env state identifier requestedBy).hex.isSome) env.now = some raw →
    field stored = field (advanceFlight Γ (preparedFlight Γ env state identifier requestedBy)
      ⟨usedHex && (preparedFlight Γ env state identifier requestedBy).hex.isSome, .hit ac⟩ env.now).1

/-- Its aircraft is found by the hex of a flight, and AviationStack knows it under another callsign. -/
def renamingEnv : Env :=
  { quietEnv 0 with
    getAviationstackFlightMetadata := fun _ _ => .ok (some { flightIcao := some "DLH9" })
    getAircraftByHex := fun _ => .answer (some { hex := some "3c6589", flight := some "DLH123" }) }

/-- The aircraft of a hex is taken for its flight on both paths. -/
theorem first_poll_agrees_hex :
    ∃ polled, applyInitialResult fieldCtx (preparedFlight fieldCtx renamingEnv {} (.hex "3C6589") "ann") true
        (.answer (some { hex := some "3c6589", flight := some "DLH123" })) false 0 = .tracked polled ∧
      SameObserved polled (advanceFlight fieldCtx (preparedFlight fieldCtx renamingEnv {} (.hex "3C6589") "ann")
        ⟨true, .hit { hex := some "3c6589", flight := some "DLH123" }⟩ 0).1 := by
  obtain ⟨polled, h, hsame, -⟩ := (@first_poll_agrees fieldCtx renamingEnv _ {} (.hex "3C6589") "ann" rfl).1
    { hex := some "3c6589", flight := some "DLH123" } true false .inferredByAssignedHex (by decide +kernel)
  exact ⟨polled, h, hsame⟩

/-- AviationStack knows the hex of a flight, and its aircraft transmits no callsign. -/
def muteEnv : Env :=
  { assignedEnv with getAircraftByHex := fun _ => .answer (some { hex := some "3c6589" }) }

theorem produced_field {α : Type} (Γ : Ctx) (env : Env) (identifier : FlightIdentifier) (field : TrackedFlight → α) (a : α)
    (h : (handleTrack Γ env {} identifier "ann").1.flights.map field = [a]) :
    ∃ stored, ProducedBy Γ env {} identifier "ann" stored ∧ field stored = a := by
  obtain ⟨stored, hs, ha⟩ := List.map_eq_singleton_iff.mp h
  exact ⟨stored, hs, ha⟩

/-- A late lookup gives the stored flight another callsign, and an aircraft that does not confirm the target leaves it without
a time of visibility. -/
theorem first_poll_parts : ¬ StoredAgrees (·.callsign) ∧ ¬ StoredAgrees (·.lastVisibleAt) := by
  constructor
  · intro h
    obtain ⟨stored, hp, hcs⟩ := produced_field fieldCtx renamingEnv (.hex "3C6589")
      (·.callsign) (some "DLH9") (by decide +kernel)
    have hfield : stored.callsign = _ := h fieldCtx renamingEnv {} (.hex "3C6589") "ann" stored _ true .inferredByAssignedHex hp
      (by rfl) rfl (by decide +kernel)
    rw [hcs] at hfield
    revert hfield
    decide +kernel
  · intro h
    obtain ⟨stored, hp, hv⟩ := produced_field fieldCtx muteEnv (.callsign "DLH123")
      (·.lastVisibleAt) none (by decide +kernel)
    have hhex : (preparedFlight fieldCtx muteEnv {} (.callsign "DLH123") "ann").hex = some "3C6589" := by decide +kernel
    have hpoll : shouldPollByHex (preparedFlight fieldCtx muteEnv {} (.callsign "DLH123") "ann") = true := by
      decide +kernel
    have hlook : initialLookup fieldCtx muteEnv (preparedFlight fieldCtx muteEnv {} (.callsign "DLH123") "ann") =
        (true, some (.answer (some { hex := some "3c6589" }))) := by
      rw [initialLookup, if_pos hpoll, hhex]
      rfl
    have hfield : stored.lastVisibleAt = _ := h fieldCtx muteEnv {} (.callsign "DLH123") "ann" stored _ true .aircraftVisible hp
      (by decide +kernel) hlook (by decide +kernel)
    rw [hv] at hfield
    revert hfield
    decide +kernel

end Twitch1337.Tracker
