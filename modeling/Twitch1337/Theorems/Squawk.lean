import Twitch1337.Lemmas.Course
import Twitch1337.Theorems.Restart

/-!
# Emergency squawks

An emergency squawk is announced when it changes: an eligible sample is compared with the aircraft the flight accepted last,
whether that one was eligible or not, and whether a poll found it or the first lookup of the track. So an emergency that an
ineligible aircraft reports first is never announced.
-/

namespace Twitch1337.Tracker

open RustStr Chrono

variable {Γ : Ctx} {env : Env}

/-! ## The last accepted aircraft -/

/-- The aircraft of a sample that a flight accepts. -/
def acceptedAircraft (f : TrackedFlight) (s : Sample) : Option NearbyAircraft := (acceptedHit f s).map (·.1)

/-- The aircraft a flight accepted last: in a sample of its history, or else in the first lookup of its track. -/
def lastAccepted (Γ : Ctx) (first : Option NearbyAircraft) (f₀ : TrackedFlight) (samples : List Sample) :
    Option NearbyAircraft :=
  (recordOf Γ acceptedAircraft f₀ samples).getLast?.or first

/-- The first lookup sets the squawk of the aircraft it accepts. -/
theorem initialPoll_squawk {f g : TrackedFlight}
    (h : initialPoll Γ env f = .keepPending g ∨ initialPoll Γ env f = .tracked g) :
    g.squawk = ((initialHit Γ env f).map (·.squawk)).getD f.squawk := by
  unfold initialPoll at h
  unfold initialHit
  by_cases hskip : shouldSkipAdsbForStrictChill f env.now = true
  · rw [if_pos hskip] at h ⊢
    simp only [reduceCtorEq, InitialPoll.tracked.injEq, false_or] at h
    rw [← h]
    rfl
  · rw [if_neg hskip] at h ⊢
    rcases hlook : initialLookup Γ env f with ⟨usedHex, looked⟩
    rw [hlook] at h
    cases looked with
    | none =>
      simp only [reduceCtorEq, InitialPoll.tracked.injEq, false_or] at h
      rw [← h]
      rfl
    | some result =>
      simp only [applyInitialResult] at h
      cases result with
      | elapsed => rw [keep_or_reject h]; rfl
      | report => rw [keep_or_reject h]; rfl
      | answer found =>
        cases found with
        | none => rw [keep_or_reject h]; rfl
        | some ac =>
          simp only at h ⊢
          have hsame : targetConfirmationForAircraft { f with lastAdsbPollAt := some env.now } ac
              (usedHex && f.hex.isSome) env.now =
              targetConfirmationForAircraft f ac (usedHex && f.hex.isSome) env.now := rfl
          rw [hsame] at h
          cases hc : targetConfirmationForAircraft f ac (usedHex && f.hex.isSome) env.now with
          | none =>
            rw [hc] at h
            simp only at h
            split at h
            · simp only [InitialPoll.keepPending.injEq, reduceCtorEq, or_false] at h
              rw [← h]
              rfl
            · simp at h
          | some confirmation =>
            rw [hc] at h
            simp only [reduceCtorEq, InitialPoll.tracked.injEq, false_or] at h
            rw [← h]
            split <;> simp [seeTarget]

/-- A prepared flight has no squawk yet. -/
theorem preparedFlight_squawk (state : FlightTrackerState) (identifier : FlightIdentifier) (requestedBy : String) :
    (preparedFlight Γ env state identifier requestedBy).squawk = none := by
  refine preparedFlight_induct (P := fun f => f.squawk = none) ?_ ?_
  · intro resolved checked _
    simp [newFlight, seedFlightAliases]
  · intro f m hf
    simpa using hf

/-- The squawk of a new flight is the one its first lookup found. -/
theorem ProducedBy.squawk {state : FlightTrackerState} {identifier : FlightIdentifier} {requestedBy : String}
    {f₀ : TrackedFlight} (h : ProducedBy Γ env state identifier requestedBy f₀) :
    f₀.squawk = (initialHit Γ env (preparedFlight Γ env state identifier requestedBy)).bind (·.squawk) := by
  obtain ⟨-, -, -, f₁, f₂, hi, hl, hr⟩ := h.stages
  have h₁ := initialPoll_squawk hi
  rw [preparedFlight_squawk] at h₁
  have h₂ : f₂.squawk = f₁.squawk := by
    cases hl with
    | skipped => rfl
    | missing => rfl
    | found m => simp
  have h₃ : f₀.squawk = f₂.squawk := by
    rcases hr with rfl | ⟨origin, dest, rfl⟩
    · rfl
    · simp
  rw [h₃, h₂, h₁]
  cases initialHit Γ env (preparedFlight Γ env state identifier requestedBy) <;> rfl

/-- The squawk of a flight is the one of the aircraft it accepted last. -/
theorem squawk_flyThrough {first : Option NearbyAircraft} {f₀ : TrackedFlight} (hfirst : f₀.squawk = first.bind (·.squawk))
    (samples : List Sample) :
    (flyThrough Γ f₀ samples).squawk = (lastAccepted Γ first f₀ samples).bind (·.squawk) := by
  have hset : ∀ (f : TrackedFlight) (s : Sample) (ac : NearbyAircraft), acceptedAircraft f s = some ac →
      (pollStep Γ f s).squawk = ac.squawk := by
    intro f s ac h
    obtain ⟨⟨ac', raw⟩, ha, rfl⟩ := Option.map_eq_some_iff.mp h
    exact (pollStep_of_accepted ha).2.2.2.2.2
  have hkeep : ∀ (f : TrackedFlight) (s : Sample), acceptedAircraft f s = none →
      (pollStep Γ f s).squawk = f.squawk := by
    intro f s h
    rw [(pollStep_of_ignored (Option.map_eq_none_iff.mp h)).2.2.2.1]
  rw [flyThrough_field (·.squawk) (·.squawk) hset hkeep, lastAccepted]
  cases (recordOf Γ acceptedAircraft f₀ samples).getLast? with
  | none => exact hfirst
  | some ac => rfl

/-! ## The announcement -/

/-- A sample with an eligible aircraft announces a squawk exactly when it is an emergency and the flight had not that squawk. -/
theorem squawk_of_eligible {f : TrackedFlight} {s : Sample} {ac : NearbyAircraft} (h : eligibleHit f s = some ac)
    (code meaning : String) :
    Emit.squawkEmergency code meaning ∈ sampleEmits Γ f s ↔
      ac.squawk = some code ∧ emergencySquawkMeaning code = some meaning ∧ f.squawk ≠ some code := by
  obtain ⟨raw, ha, hp⟩ := eligibleHit_eq_some.mp h
  obtain ⟨-, diverted, hd, he⟩ := course_of_accepted (Γ := Γ) ha
  rw [hp] at he
  have hdiv : Emit.squawkEmergency code meaning ∉ diverted := by
    intro hm
    cases hd _ hm
  have hvis : Emit.squawkEmergency code meaning ∉
      (if !f.targetConfirmation.isTargetConfirmed && raw.isTargetConfirmed then [Emit.adsbVisible] else []) := by
    split <;> simp
  have hphase : Emit.squawkEmergency code meaning ∉ (phaseStep (phaseBasis f raw) ac s.now).2 := by
    intro hm
    cases phaseStep_emits _ _ _ _ hm
  rw [he]
  simp only [List.mem_append, hvis, hdiv, hphase, if_true, or_false]
  unfold squawkEmits
  cases hac : ac.squawk with
  | none => simp
  | some c =>
    simp only [Bool.true_and, bne_iff_ne, ne_eq, ite_not, Option.some.injEq]
    by_cases hsame : f.squawk = some c
    · rw [if_pos hsame]
      constructor
      · intro hm
        cases hm
      · rintro ⟨rfl, -, hne⟩
        exact absurd hsame hne
    · rw [if_neg hsame]
      cases hm : emergencySquawkMeaning c with
      | none =>
        constructor
        · intro hm
          cases hm
        · rintro ⟨rfl, hm', -⟩
          rw [hm] at hm'
          cases hm'
      | some meaning' =>
        simp only [List.mem_singleton, Emit.squawkEmergency.injEq]
        constructor
        · rintro ⟨rfl, rfl⟩
          exact ⟨rfl, hm, hsame⟩
        · rintro ⟨rfl, hm', -⟩
          rw [hm, Option.some.injEq] at hm'
          exact ⟨rfl, hm'.symm⟩

/-- Emergency squawks are announced when they change. Over every history of a flight that a track produced, a sample whose
aircraft is eligible and reports an emergency announces it exactly when the aircraft that the flight accepted last, in its
history or in the first lookup of its track, did not report it. -/
theorem squawk_announced_iff_changed {state : FlightTrackerState} {identifier : FlightIdentifier} {requestedBy : String}
    {f₀ : TrackedFlight} (h : ProducedBy Γ env state identifier requestedBy f₀) (samples : List Sample) (s : Sample)
    {ac : NearbyAircraft} (he : eligibleHit (flyThrough Γ f₀ samples) s = some ac) {code meaning : String}
    (hc : ac.squawk = some code) (hm : emergencySquawkMeaning code = some meaning) :
    Emit.squawkEmergency code meaning ∈ sampleEmits Γ (flyThrough Γ f₀ samples) s ↔
      (lastAccepted Γ (initialHit Γ env (preparedFlight Γ env state identifier requestedBy)) f₀ samples).bind (·.squawk) ≠
        some code := by
  rw [squawk_of_eligible he, squawk_flyThrough h.squawk]
  constructor
  · rintro ⟨-, -, hne⟩
    exact hne
  · intro hne
    exact ⟨hc, hm, hne⟩

/-! ## A lost emergency -/

/-- AviationStack knows the hex of every flight. -/
def assignedEnv : Env :=
  { quietEnv 0 with getAviationstackFlightMetadata := fun _ _ => .ok (some { aircraftIcao24 := some "3c6589" }) }

/-- The state after a track of a callsign whose aircraft is not yet in the air. -/
def assignedState : FlightTrackerState := (handleTrack fieldCtx assignedEnv {} (.callsign "DLH123") "ann").1

theorem assignedState_length : assignedState.flights.length = 1 := by
  decide +kernel

/-- The flight of that track. -/
def assignedFlight : TrackedFlight := assignedState.flights.get ⟨0, by rw [assignedState_length]; decide⟩

theorem assignedFlight_produced : ProducedBy fieldCtx assignedEnv {} (.callsign "DLH123") "ann" assignedFlight := by
  obtain ⟨f, hf⟩ := List.length_eq_one_iff.mp assignedState_length
  have hget : assignedFlight = f := by simp [assignedFlight, hf]
  exact hget ▸ hf

/-- The assigned aircraft, found by its hex, reports a squawk under a callsign. -/
def squawking (squawk callsign : String) (now : Instant) : Sample :=
  { obs := ⟨true, .hit { hex := some "3c6589", flight := some callsign, squawk := some squawk }⟩
    now := now
    getFlightRoute := fun _ => none }

/-- It reports an emergency. -/
def emergencyUnder (callsign : String) (now : Instant) : Sample := squawking "7700" callsign now

/-- The aircraft is accepted with another squawk, and then reports an emergency. -/
def emergencyAfter : List Sample :=
  [squawking "1000" "DLH123" (seconds 60), emergencyUnder "DLH123" (seconds 120)]

/-- The emergency is announced when the squawk changes to it, and not again in the sample after that. -/
theorem squawk_announced_changed :
    Emit.squawkEmergency "7700" "Emergency" ∈ sampleEmits fieldCtx (flyThrough fieldCtx assignedFlight (emergencyAfter.take 1))
        (emergencyUnder "DLH123" (seconds 120)) ∧
      Emit.squawkEmergency "7700" "Emergency" ∉ sampleEmits fieldCtx (flyThrough fieldCtx assignedFlight emergencyAfter)
        (emergencyUnder "DLH123" (seconds 180)) := by
  have hiff : ∀ (samples : List Sample) (now : Instant),
      (eligibleHit (flyThrough fieldCtx assignedFlight samples) (emergencyUnder "DLH123" now)).bind (·.squawk) = some "7700" →
        (Emit.squawkEmergency "7700" "Emergency" ∈
            sampleEmits fieldCtx (flyThrough fieldCtx assignedFlight samples) (emergencyUnder "DLH123" now) ↔
          (lastAccepted fieldCtx (initialHit fieldCtx assignedEnv
            (preparedFlight fieldCtx assignedEnv {} (.callsign "DLH123") "ann")) assignedFlight samples).bind (·.squawk) ≠
              some "7700") := by
    intro samples now h
    obtain ⟨ac, hac, hc⟩ := Option.bind_eq_some_iff.mp h
    exact squawk_announced_iff_changed assignedFlight_produced samples _ hac hc (by decide)
  exact ⟨(hiff _ _ (by decide +kernel)).mpr (by decide +kernel), fun h => (hiff _ _ (by decide +kernel)).mp h (by decide +kernel)⟩

/-- Compared with the eligible samples alone, announcements go missing: an ineligible sample that reports the emergency
first, here because the aircraft still flies under another callsign, hides it from the eligible one after it. -/
theorem squawk_lost_after_ineligible :
    ¬ ∀ (Γ : Ctx) (f₀ : TrackedFlight), Produced Γ f₀ → ∀ (samples : List Sample) (s : Sample) (ac : NearbyAircraft)
      (code meaning : String), eligibleHit (flyThrough Γ f₀ samples) s = some ac → ac.squawk = some code →
      emergencySquawkMeaning code = some meaning →
      (Emit.squawkEmergency code meaning ∈ sampleEmits Γ (flyThrough Γ f₀ samples) s ↔
        (recordOf Γ eligibleHit f₀ samples).getLast?.bind (·.squawk) ≠ some code) := by
  intro h
  let stray := [emergencyUnder "DLH999" (seconds 60)]
  let own := emergencyUnder "DLH123" (seconds 120)
  have he : (eligibleHit (flyThrough fieldCtx assignedFlight stray) own).isSome = true := by
    decide +kernel
  obtain ⟨ac, hac⟩ := Option.isSome_iff_exists.mp he
  have hc : (eligibleHit (flyThrough fieldCtx assignedFlight stray) own).bind (·.squawk) = some "7700" := by
    decide +kernel
  rw [hac] at hc
  have hann := (h fieldCtx assignedFlight ⟨_, _, _, _, assignedFlight_produced⟩ stray own ac "7700" "Emergency" hac hc
    (by decide)).mpr (by decide +kernel)
  revert hann
  decide +kernel

end Twitch1337.Tracker
