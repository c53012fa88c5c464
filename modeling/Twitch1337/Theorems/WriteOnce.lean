import Twitch1337.Lemmas.Identity
import Twitch1337.Theorems.Squawk

/-!
# The identity of a flight is written once

A tracked flight is observed, and AviationStack metadata is applied to it. Whatever aircraft is found and whatever the metadata
says, a hex stays the one of its airframe, a type stays, aliases are only added, and the source of a hex changes by two moves.
-/

namespace Twitch1337.Tracker

open RustStr Chrono

variable {Γ : Ctx}

/-- What happens to a tracked flight. -/
inductive Influence where
  | observation (obs : Observation) (now : Instant)
  | metadata (metadata : AviationstackFlightMetadata)

def Influence.apply (Γ : Ctx) (flight : TrackedFlight) : Influence → TrackedFlight
  | observation obs now => (advanceFlight Γ flight obs now).1
  | metadata m => applyAviationstackMetadata Γ flight m

/-- A flight after what has happened to it. -/
def undergo (Γ : Ctx) (flight : TrackedFlight) (influences : List Influence) : TrackedFlight :=
  influences.foldl (Influence.apply Γ) flight

theorem undergo_append (f : TrackedFlight) (a b : List Influence) :
    undergo Γ f (a ++ b) = undergo Γ (undergo Γ f a) b :=
  List.foldl_append

/-! ## What stays -/

/-- One flight has the identity of another, or more of it. -/
structure SameIdentity (f g : TrackedFlight) : Prop where
  ticket : g.toTicket = f.toTicket
  hex : ∀ old, f.hex = some old → ∃ new, g.hex = some new ∧ eqIgnoreAsciiCase old new = true
  aircraftType : ∀ t, f.aircraftType = some t → g.aircraftType = some t
  aliases : f.aliasCallsigns <+: g.aliasCallsigns

theorem SameIdentity.refl (f : TrackedFlight) : SameIdentity f f :=
  ⟨rfl, fun old h => ⟨old, h, eqIgnoreAsciiCase_refl old⟩, fun _ h => h, List.prefix_rfl⟩

theorem SameIdentity.trans {f g k : TrackedFlight} (h : SameIdentity f g) (h' : SameIdentity g k) : SameIdentity f k := by
  refine ⟨h'.ticket.trans h.ticket, fun old hold => ?_, fun t ht => h'.aircraftType t (h.aircraftType t ht),
    h.aliases.trans h'.aliases⟩
  obtain ⟨mid, hmid, he⟩ := h.hex old hold
  obtain ⟨new, hnew, he'⟩ := h'.hex mid hmid
  exact ⟨new, hnew, (eqIgnoreAsciiCase_congr he' old).symm.trans he⟩

theorem SameIdentity.of_change {f g : TrackedFlight} {cs hx type : Option String} {src : HexSource} {promote : Bool}
    (ht : g.toTicket = f.toTicket) (hc : NamesChange Γ cs hx src promote f.toNames g.toNames)
    (htype : g.aircraftType = f.aircraftType.or type) : SameIdentity f g := by
  refine ⟨ht, fun old hold => ?_, fun t h => by rw [htype, h, Option.some_or], ?_⟩
  · cases hc.hex with
    | kept same sameSource => exact ⟨old, same.trans hold, eqIgnoreAsciiCase_refl old⟩
    | set c new offer normal consistent now nowSource => exact ⟨new, now, consistent old hold⟩
  · obtain ⟨more, hmore⟩ := hc.aliases
    exact ⟨more, hmore.symm⟩

/-- What happens to a flight leaves its identity. -/
theorem Influence.sameIdentity (f : TrackedFlight) (i : Influence) : SameIdentity f (i.apply Γ f) := by
  cases i with
  | metadata m =>
    exact .of_change (by simp [apply]) (applyAviationstackMetadata_names f m) (applyAviationstackMetadata_rest f m).1
  | observation obs now =>
    have ht := (advanceFlight_planning (Γ := Γ) f obs now).2
    rcases advanceFlight_identity (Γ := Γ) f obs now with ⟨hn, htype⟩ | ⟨ac, raw, -, -, hc, htype, -⟩
    · exact ⟨ht, fun old h => ⟨old, by rw [apply, hn]; exact h, eqIgnoreAsciiCase_refl old⟩,
        fun t h => htype.trans h, ⟨[], by rw [apply, hn, List.append_nil]⟩⟩
    · exact .of_change ht hc htype

theorem undergo_sameIdentity (f : TrackedFlight) (influences : List Influence) : SameIdentity f (undergo Γ f influences) := by
  induction influences generalizing f with
  | nil => exact .refl f
  | cons i rest ih => exact (i.sameIdentity f).trans (ih _)

theorem Identified.apply {f : TrackedFlight} (h : Identified Γ f) (i : Influence) : Identified Γ (i.apply Γ f) := by
  cases i with
  | metadata m => exact h.metadata m
  | observation obs now =>
    have ht := (advanceFlight_planning (Γ := Γ) f obs now).2
    rcases advanceFlight_identity (Γ := Γ) f obs now with ⟨hn, -⟩ | ⟨ac, raw, -, -, hc, -, hd⟩
    · exact h.congr ht hn
    · exact h.change ht hc (hd h.distinct)

theorem undergo_identified {f : TrackedFlight} (h : Identified Γ f) (influences : List Influence) :
    Identified Γ (undergo Γ f influences) := by
  induction influences generalizing f with
  | nil => exact h
  | cons i rest ih => exact ih (h.apply i)

/-! ## What moves -/

/-- An observation confirms the target of a flight directly. -/
def DirectlyConfirms (f : TrackedFlight) (i : Influence) : Prop :=
  ∃ obs now ac raw, i = .observation obs now ∧ obs.outcome = .hit ac ∧
    targetConfirmationForAircraft f ac obs.usedHex now = some raw ∧ raw.isTargetConfirmed = true

/-- The moves of the source of a hex: it is set, or a direct confirmation replaces AviationStack by ADS-B. -/
inductive SourceMove (f : TrackedFlight) (i : Influence) (g : TrackedFlight) : Prop
  | kept (same : g.hexSource = f.hexSource)
  | set (source : HexSource) (before : f.hexSource = none) (after : g.hexSource = some source)
  | promoted (before : f.hexSource = some .aviationStack) (after : g.hexSource = some .adsb)
      (direct : DirectlyConfirms f i)

theorem SourceMove.of_change {f g : TrackedFlight} {i : Influence} {cs hx : Option String} {src : HexSource} {promote : Bool}
    (hc : NamesChange Γ cs hx src promote f.toNames g.toNames) (hp : promote = true → DirectlyConfirms f i) :
    SourceMove f i g := by
  cases hc.hex with
  | kept same sameSource => exact .kept sameSource
  | set c new offer normal consistent now nowSource =>
    rcases hexSourceAfter_cases f.hexSource src promote with ⟨s, hs, e⟩ | ⟨hs, e⟩ | ⟨hpr, hs, e⟩
    · exact .kept (nowSource.trans (e.trans hs.symm))
    · exact .set src hs (nowSource.trans e)
    · exact .promoted hs (nowSource.trans e) (hp hpr)

theorem Influence.sourceMove (f : TrackedFlight) (i : Influence) : SourceMove f i (i.apply Γ f) := by
  cases i with
  | metadata m =>
    refine .of_change (applyAviationstackMetadata_names f m) fun h => ?_
    cases h
  | observation obs now =>
    rcases advanceFlight_identity (Γ := Γ) f obs now with ⟨hn, -⟩ | ⟨ac, raw, hacc, ho, hc, -, -⟩
    · exact .kept (by rw [apply, hn])
    · exact .of_change hc fun hraw => ⟨obs, now, ac, raw, rfl, ho, hacc, hraw⟩

/-- An observation keeps the callsign of a flight that has one. -/
theorem callsign_observation {f : TrackedFlight} {cs : String} (h : f.callsign = some cs) (obs : Observation)
    (now : Instant) : (advanceFlight Γ f obs now).1.callsign = some cs := by
  rcases advanceFlight_identity (Γ := Γ) f obs now with ⟨hn, -⟩ | ⟨ac, raw, -, -, hc, -, -⟩
  · rw [hn]
    exact h
  · cases hc.callsign with
    | kept same => exact same.trans h
    | set c offer now' known =>
      rw [newlyResolvedCallsign, h] at offer
      simp at offer

/-! ## Over a run -/

/-- Over everything that happens to a flight tracked by a message its identity is written once: a hex stays that of its
airframe, and for a flight named by a hex it is that hex; a type stays; aliases stay and are told apart; an observation sets a
callsign only where there was none; and the source of a hex moves from none, or by a direct confirmation from AviationStack to
ADS-B. -/
theorem identity_write_once {env : Env} {state : FlightTrackerState} {input : String} {identifier : FlightIdentifier}
    {requestedBy : String} {f₀ : TrackedFlight} (hparse : FlightIdentifier.parse Γ input = .ok identifier)
    (hp : ProducedBy Γ env state identifier requestedBy f₀) (influences : List Influence) :
    (∀ more, SameIdentity (undergo Γ f₀ influences) (undergo Γ f₀ (influences ++ more))) ∧
    (∀ hx, (undergo Γ f₀ influences).identifier = .hex hx → (undergo Γ f₀ influences).hex = some hx) ∧
    AliasesDistinct (undergo Γ f₀ influences).aliasCallsigns ∧
    (∀ cs obs now, (undergo Γ f₀ influences).callsign = some cs →
      (undergo Γ f₀ (influences ++ [.observation obs now])).callsign = some cs) ∧
    ∀ i, SourceMove (undergo Γ f₀ influences) i (undergo Γ f₀ (influences ++ [i])) := by
  have hid := undergo_identified (hp.identified hparse) influences
  refine ⟨fun more => ?_, fun hx h => (hid.hexNamed hx h).1, hid.distinct, fun cs obs now h => ?_, fun i => ?_⟩
  · rw [undergo_append]
    exact undergo_sameIdentity _ more
  · rw [undergo_append]
    exact callsign_observation h obs now
  · rw [undergo_append]
    exact i.sourceMove _

/-- An aircraft with another hex confirms the callsign of a flight. -/
def otherAirframe : Influence := .observation ⟨false, .hit { hex := some "abc123", flight := some "DLH123" }⟩ (seconds 60)

/-- The flight keeps the hex it has. -/
theorem identity_write_once_assigned :
    ∃ new, (undergo fieldCtx assignedFlight [otherAirframe]).hex = some new ∧ eqIgnoreAsciiCase "3C6589" new = true := by
  have hparse : FlightIdentifier.parse fieldCtx "dlh123" = .ok (.callsign "DLH123") := by decide +kernel
  have hhex : (undergo fieldCtx assignedFlight []).hex = some "3C6589" := by decide +kernel
  exact ((identity_write_once hparse assignedFlight_produced []).1 [otherAirframe]).hex _ hhex

end Twitch1337.Tracker
