import Mathlib.Tactic.Linarith
import Twitch1337.Theorems.Squawk

/-!
# The confirmation of a target

A flight that has left the pending state does not return to it. A confirmed flight falls back to a visible aircraft by one rule:
a lookup by hex finds an aircraft that does not confirm the target, and the last sighting is too old.
-/

namespace Twitch1337.Tracker

open Chrono

variable {Γ : Ctx}

/-- What an accepted hit confirms, and the confirmation after it. -/
theorem confirmation_pollStep (f : TrackedFlight) (s : Sample) :
    (acceptedHit f s = none ∧ (pollStep Γ f s).targetConfirmation = f.targetConfirmation) ∨
      ∃ ac raw, acceptedHit f s = some (ac, raw) ∧
        (pollStep Γ f s).targetConfirmation = confirmationAfter f raw s.obs.usedHex s.now := by
  cases h : acceptedHit f s with
  | none => exact .inl ⟨rfl, by rw [(pollStep_of_ignored (Γ := Γ) h).2.2.1]⟩
  | some hit => exact .inr ⟨hit.1, hit.2, rfl, (pollStep_of_accepted (Γ := Γ) h).2.2.1⟩

theorem confirmationAfter_ne_pending {f : TrackedFlight} {ac : NearbyAircraft} {raw : TargetConfirmation} {usedHex : Bool}
    {now : Instant} (h : targetConfirmationForAircraft f ac usedHex now = some raw) :
    confirmationAfter f raw usedHex now ≠ .pending := by
  unfold confirmationAfter
  split_ifs with hk
  · exact isTargetConfirmed_ne_pending (keepPrior_spec hk).1
  · exact targetConfirmation_ne_pending h

theorem pollStep_ne_pending {f : TrackedFlight} {s : Sample} (h : f.targetConfirmation ≠ .pending) :
    (pollStep Γ f s).targetConfirmation ≠ .pending := by
  rcases confirmation_pollStep (Γ := Γ) f s with ⟨-, e⟩ | ⟨ac, raw, ha, e⟩
  · rwa [e]
  · rw [e]
    exact confirmationAfter_ne_pending (accepted_confirmation ha)

theorem flyThrough_ne_pending {f : TrackedFlight} (h : f.targetConfirmation ≠ .pending) (samples : List Sample) :
    (flyThrough Γ f samples).targetConfirmation ≠ .pending := by
  induction samples generalizing f with
  | nil => exact h
  | cons s rest ih => exact ih (pollStep_ne_pending h)

/-- The rule by which a confirmation decays: an aircraft under the hex of the flight, which does not confirm it, more than the
threshold after the last sighting. -/
def Decays (f : TrackedFlight) (s : Sample) : Prop :=
  s.obs.usedHex = true ∧
    (∃ ac, s.obs.outcome = .hit ac ∧ targetConfirmationForAircraft f ac true s.now = some .aircraftVisible) ∧
    ∃ lastSeen, f.lastSeen = some lastSeen ∧ lastSeen + trackingLostThreshold < s.now

theorem shouldKeepPrior_visible {f : TrackedFlight} {lastSeen now : Instant}
    (hc : f.targetConfirmation.isTargetConfirmed = true) (hl : f.lastSeen = some lastSeen) :
    shouldKeepPriorConfirmation f .aircraftVisible true now = true ↔ now ≤ lastSeen + trackingLostThreshold := by
  simp only [shouldKeepPriorConfirmation, hc, hl, Bool.true_and, beq_self_eq_true, Option.any_some, decide_eq_true_eq]
  exact sub_le_iff_le_add'

/-- A confirmation decays by its rule. -/
theorem visible_iff_decays {f : TrackedFlight} {s : Sample} (hi : SightingInOrder f)
    (hc : f.targetConfirmation.isTargetConfirmed = true) :
    (pollStep Γ f s).targetConfirmation = .aircraftVisible ↔ Decays f s := by
  have hne : f.targetConfirmation ≠ .aircraftVisible := by
    intro h
    rw [h] at hc
    cases hc
  constructor
  · intro hv
    rcases confirmation_pollStep (Γ := Γ) f s with ⟨-, e⟩ | ⟨ac, raw, ha, e⟩
    · exact absurd (e ▸ hv) hne
    rw [e, confirmationAfter] at hv
    split_ifs at hv with hk
    · exact absurd hv hne
    subst hv
    have hacc := accepted_confirmation ha
    have hhex := usedHex_of_visible hacc rfl
    obtain ⟨lastSeen, hl⟩ := Option.isSome_iff_exists.mp (hi.confirmedSeen hc)
    rw [hhex] at hacc hk
    exact ⟨hhex, ⟨ac, (advanceFlight_of_accepted (Γ := Γ) ha).1, hacc⟩, lastSeen, hl,
      not_le.mp fun hle => hk ((shouldKeepPrior_visible hc hl).mpr hle)⟩
  · rintro ⟨hhex, ⟨ac, ho, hacc⟩, lastSeen, hl, hlate⟩
    have ha : acceptedHit f s = some (ac, .aircraftVisible) := by
      simp only [acceptedHit, ho, hhex, hacc, Option.map_some]
    rw [(pollStep_of_accepted (Γ := Γ) ha).2.2.1, confirmationAfter, hhex, if_neg]
    exact fun hk => absurd ((shouldKeepPrior_visible hc hl).mp hk) (not_le.mpr hlate)

/-! ## The announcement -/

/-- The visibility of a flight is announced by the step that confirms its target. -/
theorem adsbVisible_iff (f : TrackedFlight) (s : Sample) :
    .adsbVisible ∈ sampleEmits Γ f s ↔ f.targetConfirmation.isTargetConfirmed = false ∧
      (pollStep Γ f s).targetConfirmation.isTargetConfirmed = true := by
  rcases confirmation_pollStep (Γ := Γ) f s with ⟨ha, e⟩ | ⟨ac, raw, ha, e⟩
  · rw [e]
    constructor
    · intro hm
      cases emits_of_ignored (Γ := Γ) ha _ hm
    · rintro ⟨h, h'⟩
      rw [h] at h'
      cases h'
  · obtain ⟨-, diverted, hd, hem⟩ := course_of_accepted (Γ := Γ) ha
    have hdiv : .adsbVisible ∉ diverted := fun hm => by cases hd _ hm
    have hphase : .adsbVisible ∉ if phaseSampleConfirmed f ac raw s.obs.usedHex s.now then
        (phaseStep (phaseBasis f raw) ac s.now).2 else [] := by
      intro hm
      split_ifs at hm
      · cases phaseStep_emits _ _ _ _ hm
      · cases hm
    have hsquawk : .adsbVisible ∉ squawkEmits f.squawk ac.squawk (phaseSampleConfirmed f ac raw s.obs.usedHex s.now) := by
      intro hm
      obtain ⟨code, meaning, hsq⟩ := squawkEmits_emits _ _ _ _ hm
      cases hsq
    rw [hem, e]
    simp only [List.mem_append, hsquawk, hphase, hdiv, or_false, false_or]
    cases hc : f.targetConfirmation.isTargetConfirmed with
    | true => simp
    | false =>
      have hk : shouldKeepPriorConfirmation f raw s.obs.usedHex s.now = false := by
        simp [shouldKeepPriorConfirmation, hc]
      cases hraw : raw.isTargetConfirmed <;> simp [confirmationAfter, hk, hraw]

/-! ## Over a run -/

theorem sightingInOrder_flyThrough {f : TrackedFlight} (h : SightingInOrder f) (samples : List Sample) :
    SightingInOrder (flyThrough Γ f samples) := by
  induction samples generalizing f with
  | nil => exact h
  | cons s rest ih => exact ih (h.sample s)

/-- In every run of a tracked flight the confirmation does not return to pending, a confirmed target becomes a visible aircraft
by the rule of decay, and the visibility is announced by the steps that confirm the target. -/
theorem confirmation_sticky {f₀ : TrackedFlight} (h : Produced Γ f₀) (samples : List Sample) :
    ((flyThrough Γ f₀ samples).targetConfirmation ≠ .pending →
      ∀ more, (flyThrough Γ f₀ (samples ++ more)).targetConfirmation ≠ .pending) ∧
    ∀ s,
      ((flyThrough Γ f₀ samples).targetConfirmation.isTargetConfirmed = true →
        ((pollStep Γ (flyThrough Γ f₀ samples) s).targetConfirmation = .aircraftVisible ↔
          Decays (flyThrough Γ f₀ samples) s)) ∧
      (.adsbVisible ∈ sampleEmits Γ (flyThrough Γ f₀ samples) s ↔
        (flyThrough Γ f₀ samples).targetConfirmation.isTargetConfirmed = false ∧
          (pollStep Γ (flyThrough Γ f₀ samples) s).targetConfirmation.isTargetConfirmed = true) := by
  obtain ⟨env, state, identifier, requestedBy, hp⟩ := h
  have hi : SightingInOrder (flyThrough Γ f₀ samples) := sightingInOrder_flyThrough hp.inOrder.sighting samples
  refine ⟨fun hne more => ?_, fun s => ⟨fun hc => visible_iff_decays hi hc, adsbVisible_iff _ s⟩⟩
  rw [flyThrough_append]
  exact flyThrough_ne_pending hne more

/-- The aircraft under the hex of a flight transmits a callsign. -/
def transmitting (callsign : String) (now : Instant) : Sample :=
  { obs := ⟨true, .hit { hex := some "3c6589", flight := some callsign }⟩
    now := now
    getFlightRoute := fun _ => none }

/-- A flight is sighted, and its aircraft flies under another callsign five minutes and a second later. -/
theorem confirmation_sticky_reused :
    .adsbVisible ∈ sampleEmits fieldCtx assignedFlight (transmitting "DLH123" (seconds 60)) ∧
    Decays (flyThrough fieldCtx assignedFlight [transmitting "DLH123" (seconds 60)])
      (transmitting "DLH456" (seconds 361)) := by
  have h : Produced fieldCtx assignedFlight := ⟨_, _, _, _, assignedFlight_produced⟩
  exact ⟨((confirmation_sticky h []).2 _).2.mpr (by decide +kernel),
    (((confirmation_sticky h [transmitting "DLH123" (seconds 60)]).2 _).1 (by decide +kernel)).mp (by decide +kernel)⟩

end Twitch1337.Tracker
