import Twitch1337.Lemmas.Names

/-!
# The identity of a flight

Beside its names a flight has an aircraft type, and its aliases are told apart up to ASCII case. This is what the steps of a flight
do to both, and to the divert counter, which only accepted hits touch.
-/

namespace Twitch1337.Tracker

open RustStr Chrono

variable {Γ : Ctx}

/-! ## The type and the counter -/

/-- An alias leaves the type and the counter of the divert test. -/
@[simp] theorem addAliasCallsign_rest (flight : TrackedFlight) (value : String) :
    (addAliasCallsign Γ flight value).aircraftType = flight.aircraftType ∧
    (addAliasCallsign Γ flight value).divertConsecutivePolls = flight.divertConsecutivePolls := by
  unfold addAliasCallsign
  split
  · simp
  · split <;> simp

@[simp] theorem addAliasFrom_rest (flight : TrackedFlight) (value : Option String) :
    (addAliasFrom Γ flight value).aircraftType = flight.aircraftType ∧
    (addAliasFrom Γ flight value).divertConsecutivePolls = flight.divertConsecutivePolls := by
  cases value <;> simp [addAliasFrom]

@[simp] theorem setRouteFromIata_rest (flight : TrackedFlight) (origin dest : String) :
    (setRouteFromIata Γ flight origin dest).aircraftType = flight.aircraftType ∧
    (setRouteFromIata Γ flight origin dest).divertConsecutivePolls = flight.divertConsecutivePolls := by
  unfold setRouteFromIata
  dsimp only
  split
  · simp
  · split <;> simp

@[simp] theorem setHexFrom_rest (flight : TrackedFlight) (candidate : Option String) (source : HexSource)
    (promote : Bool) :
    (setHexFrom Γ flight candidate source promote).aircraftType = flight.aircraftType ∧
    (setHexFrom Γ flight candidate source promote).divertConsecutivePolls = flight.divertConsecutivePolls := by
  unfold setHexFrom setHexIfConsistent
  split
  · simp
  · split
    · simp
    · split <;> simp

@[simp] theorem applyMetadataDeparture_rest (flight : TrackedFlight) (metadata : AviationstackFlightMetadata) :
    (applyMetadataDeparture flight metadata).aircraftType = flight.aircraftType ∧
    (applyMetadataDeparture flight metadata).divertConsecutivePolls = flight.divertConsecutivePolls := by
  unfold applyMetadataDeparture
  split <;> simp

@[simp] theorem applyMetadataCallsign_rest (flight : TrackedFlight) (metadata : AviationstackFlightMetadata) :
    (applyMetadataCallsign Γ flight metadata).aircraftType = flight.aircraftType ∧
    (applyMetadataCallsign Γ flight metadata).divertConsecutivePolls = flight.divertConsecutivePolls := by
  unfold applyMetadataCallsign
  split <;> simp

@[simp] theorem applyMetadataRoute_rest (flight : TrackedFlight) (metadata : AviationstackFlightMetadata) :
    (applyMetadataRoute Γ flight metadata).aircraftType = flight.aircraftType ∧
    (applyMetadataRoute Γ flight metadata).divertConsecutivePolls = flight.divertConsecutivePolls := by
  unfold applyMetadataRoute
  split <;> simp

/-- Metadata gives a type to a flight without one. -/
@[simp] theorem applyAviationstackMetadata_rest (flight : TrackedFlight) (metadata : AviationstackFlightMetadata) :
    (applyAviationstackMetadata Γ flight metadata).aircraftType =
      flight.aircraftType.or (metadata.aircraftIcao.map Γ.upper.toUppercase) ∧
    (applyAviationstackMetadata Γ flight metadata).divertConsecutivePolls = flight.divertConsecutivePolls := by
  simp [applyAviationstackMetadata]

/-- A callsign that is resolved leaves the type and the counter. -/
@[simp] theorem resolveCallsignTo_rest (flight : TrackedFlight) (cs : Option String) :
    (resolveCallsignTo Γ flight cs).aircraftType = flight.aircraftType ∧
    (resolveCallsignTo Γ flight cs).divertConsecutivePolls = flight.divertConsecutivePolls := by
  cases cs <;> simp [resolveCallsignTo]

/-- An aircraft gives its type to a flight without one, and its position to every flight. -/
@[simp] theorem applyObservedAircraft_rest (flight : TrackedFlight) (ac : NearbyAircraft)
    (confirmation : TargetConfirmation) (direct : Bool) :
    (applyObservedAircraft Γ flight ac confirmation direct).1.aircraftType = flight.aircraftType.or ac.t ∧
    (applyObservedAircraft Γ flight ac confirmation direct).1.divertConsecutivePolls = flight.divertConsecutivePolls ∧
    (applyObservedAircraft Γ flight ac confirmation direct).1.toTelemetry =
      ⟨altitudeFt ac, verticalRate ac, ac.gs, ac.lat, ac.lon, ac.squawk⟩ ∧
    (applyObservedAircraft Γ flight ac confirmation direct).1.observedCallsign = aircraftCallsign ac := by
  simp [applyObservedAircraft]

/-- The step of the phase leaves the type and the counter. -/
@[simp] theorem phaseStep_rest (flight : TrackedFlight) (ac : NearbyAircraft) (now : Instant) :
    (phaseStep flight ac now).1.aircraftType = flight.aircraftType ∧
    (phaseStep flight ac now).1.divertConsecutivePolls = flight.divertConsecutivePolls := by
  unfold phaseStep
  dsimp only
  split
  · simp
  · split <;> simp

/-- The divert test leaves the type. -/
@[simp] theorem divertStep_aircraftType (flight : TrackedFlight) (prevLat prevLon : Option F64) (eligible : Bool) :
    (divertStep Γ flight prevLat prevLon eligible).1.aircraftType = flight.aircraftType := by
  unfold divertStep
  split
  · split <;> rfl
  · rfl

/-- A sample of the phase leaves the type. -/
@[simp] theorem observePhase_aircraftType (flight : TrackedFlight) (ac : NearbyAircraft) (restart eligible : Bool)
    (prevLat prevLon : Option F64) (now : Instant) :
    (observePhase Γ flight ac restart eligible prevLat prevLon now).1.aircraftType = flight.aircraftType := by
  cases restart <;> cases eligible <;> simp [observePhase, resetPhase]

/-- Route lookups leave the type and the counter. -/
@[simp] theorem performFollowups_rest (getFlightRoute : String → Option FlightRoute) (flight : TrackedFlight)
    (followups : List Followup) :
    (performFollowups Γ getFlightRoute flight followups).aircraftType = flight.aircraftType ∧
    (performFollowups Γ getFlightRoute flight followups).divertConsecutivePolls = flight.divertConsecutivePolls := by
  induction followups generalizing flight with
  | nil => simp [performFollowups]
  | cons followup rest ih =>
    obtain ⟨callsign⟩ := followup
    rw [performFollowups, List.foldl_cons]
    cases hr : getFlightRoute callsign with
    | none => simpa [hr, performFollowups] using ih flight
    | some route => simpa [hr, performFollowups, applyRoute] using ih (applyRoute Γ flight route.origin route.destination)

/-! ## The aliases -/

/-- No two aliases are equal up to ASCII case. -/
def AliasesDistinct (aliases : List String) : Prop := aliases.Pairwise fun a b => eqIgnoreAsciiCase a b = false

/-- An alias that is there in any case of its letters is not added again. -/
theorem addAliasCallsign_distinct {flight : TrackedFlight} (h : AliasesDistinct flight.aliasCallsigns) (value : String) :
    AliasesDistinct (addAliasCallsign Γ flight value).aliasCallsigns := by
  unfold addAliasCallsign
  split
  · exact h
  · rename_i code _
    split
    · exact h
    · rename_i hany
      refine List.pairwise_append.mpr ⟨h, List.pairwise_singleton _ _, fun a ha b hb => ?_⟩
      rw [List.mem_singleton.mp hb]
      by_contra hne
      exact hany (List.any_eq_true.mpr ⟨a, ha, by simpa using hne⟩)

/-- The same of an alias that may be missing. -/
theorem addAliasFrom_distinct {flight : TrackedFlight} (h : AliasesDistinct flight.aliasCallsigns) (value : Option String) :
    AliasesDistinct (addAliasFrom Γ flight value).aliasCallsigns := by
  cases value with
  | none => exact h
  | some v => exact addAliasCallsign_distinct h v

/-- The callsigns of the metadata are not added twice. -/
theorem applyMetadataCallsign_distinct {flight : TrackedFlight} (h : AliasesDistinct flight.aliasCallsigns)
    (metadata : AviationstackFlightMetadata) :
    AliasesDistinct (applyMetadataCallsign Γ flight metadata).aliasCallsigns := by
  unfold applyMetadataCallsign
  split
  · exact h
  · exact addAliasCallsign_distinct h _

/-- Metadata keep the aliases distinct. -/
theorem applyAviationstackMetadata_distinct {flight : TrackedFlight} (h : AliasesDistinct flight.aliasCallsigns)
    (metadata : AviationstackFlightMetadata) :
    AliasesDistinct (applyAviationstackMetadata Γ flight metadata).aliasCallsigns := by
  have h₁ : AliasesDistinct (applyMetadataDeparture flight metadata).aliasCallsigns := by simpa using h
  have h₂ := applyMetadataCallsign_distinct (Γ := Γ)
    (addAliasFrom_distinct (Γ := Γ) (addAliasFrom_distinct (Γ := Γ) h₁ metadata.flightIata) metadata.flightIcao) metadata
  simpa [applyAviationstackMetadata] using h₂

/-- An aircraft that is seen keeps the aliases distinct. -/
theorem applyObservedAircraft_distinct {flight : TrackedFlight} (h : AliasesDistinct flight.aliasCallsigns)
    (ac : NearbyAircraft) (confirmation : TargetConfirmation) (direct : Bool) :
    AliasesDistinct (applyObservedAircraft Γ flight ac confirmation direct).1.aliasCallsigns := by
  simp only [applyObservedAircraft, setHexFrom_frame]
  cases newlyResolvedCallsign _ ac confirmation with
  | none => exact h
  | some cs => exact addAliasCallsign_distinct (by exact h) cs

/-- The first alias of a flight keeps the aliases distinct. -/
theorem seedFlightAliases_distinct {flight : TrackedFlight} (h : AliasesDistinct flight.aliasCallsigns) :
    AliasesDistinct (seedFlightAliases Γ flight).aliasCallsigns :=
  addAliasFrom_distinct (addAliasFrom_distinct h _) _

/-! ## The hex of a hex-identified flight -/

/-- A normal hex is ASCII. -/
theorem ascii_of_normalIcao24 {c h : String} (hn : normalizeIcao24 Γ c = some h) : ∀ d ∈ h.toList, d.toNat < 128 := by
  unfold normalizeIcao24 at hn
  dsimp only at hn
  split at hn
  · rename_i hv
    rw [Bool.and_eq_true, List.all_eq_true] at hv
    rw [Option.some.injEq] at hn
    intro d hd
    rw [← hn, UpperTable.toUppercase, String.toList_ofList] at hd
    obtain ⟨a, ha, hda⟩ := List.mem_flatMap.mp hd
    have hascii := ascii_of_isAsciiHexdigit (hv.2 a ha)
    rw [Γ.upper.upper_ascii a hascii, List.mem_singleton] at hda
    rw [hda]
    exact (toUpper_stable hascii).1
  · cases hn

/-- A hex that is read from a message is in upper case. -/
theorem parse_upper {input hx : String} (h : FlightIdentifier.parse Γ input = .ok (.hex hx)) :
    Γ.upper.toUppercase hx = hx := by
  unfold FlightIdentifier.parse at h
  dsimp only at h
  split_ifs at h
  · cases h
  · rw [Except.ok.injEq, FlightIdentifier.hex.injEq] at h
    rw [← h, UpperTable.toUppercase_toUppercase]
  · cases h

/-- A flight that the user named by its hex has that hex, and the aliases of a flight are distinct. -/
structure Identified (Γ : Ctx) (f : TrackedFlight) : Prop where
  hexNamed : ∀ hx, f.identifier = .hex hx →
    f.hex = some hx ∧ Γ.upper.toUppercase hx = hx ∧ ∀ d ∈ hx.toList, d.toNat < 128
  distinct : AliasesDistinct f.aliasCallsigns

/-- A change of names that keeps the ticket keeps the identity when the aliases stay distinct. -/
theorem Identified.change {f g : TrackedFlight} {cs hx : Option String} {src : HexSource} {promote : Bool}
    (h : Identified Γ f) (ht : g.toTicket = f.toTicket) (hc : NamesChange Γ cs hx src promote f.toNames g.toNames)
    (hd : AliasesDistinct g.aliasCallsigns) : Identified Γ g := by
  refine ⟨fun named hn => ?_, hd⟩
  rw [ht] at hn
  obtain ⟨hhex, hup, hascii⟩ := h.hexNamed named hn
  refine ⟨?_, hup, hascii⟩
  cases hc.hex with
  | kept same sameSource => exact same.trans hhex
  | set c hex' offer normal consistent now nowSource =>
    rw [now, Γ.upper.eq_of_upper hascii (ascii_of_normalIcao24 normal) hup (toUppercase_of_normalIcao24 normal)
      (consistent named hhex)]

/-- The identity is one of the ticket and the names. -/
theorem Identified.congr {f g : TrackedFlight} (h : Identified Γ f) (ht : g.toTicket = f.toTicket)
    (hn : g.toNames = f.toNames) : Identified Γ g := by
  refine ⟨fun named hid => ?_, by rw [hn]; exact h.distinct⟩
  rw [ht] at hid
  rw [hn]
  exact h.hexNamed named hid

/-- Metadata keep the identity. -/
theorem Identified.metadata {f : TrackedFlight} (h : Identified Γ f) (m : AviationstackFlightMetadata) :
    Identified Γ (applyAviationstackMetadata Γ f m) :=
  h.change (by simp) (applyAviationstackMetadata_names f m) (applyAviationstackMetadata_distinct h.distinct m)

/-- An aircraft that is seen keeps the identity. -/
theorem Identified.aircraft {f : TrackedFlight} (h : Identified Γ f) (ac : NearbyAircraft)
    (confirmation : TargetConfirmation) (direct : Bool) :
    Identified Γ (applyObservedAircraft Γ f ac confirmation direct).1 :=
  h.change (by simp) (applyObservedAircraft_names f ac confirmation direct)
    (applyObservedAircraft_distinct h.distinct ac confirmation direct)

/-- A flight that is tracked from an identifier has the identity of that identifier. -/
theorem identified_newFlight {input : String} {identifier : FlightIdentifier}
    (h : FlightIdentifier.parse Γ input = .ok identifier) (requestedBy : String) (resolved : Option String)
    (checked : Bool) (now : Instant) : Identified Γ (newFlight Γ identifier requestedBy resolved checked now) := by
  have hid : (newFlight Γ identifier requestedBy resolved checked now).identifier = identifier := by
    simp [newFlight, seedFlightAliases]
  refine ⟨fun hx hnamed => ?_, seedFlightAliases_distinct List.Pairwise.nil⟩
  obtain rfl := hid.symm.trans hnamed
  exact ⟨by simp [newFlight, seedFlightAliases], parse_upper h, parse_ascii h⟩

/-- A flight that a track of a message produces is identified. -/
theorem ProducedBy.identified {env : Env} {state : FlightTrackerState} {input : String} {identifier : FlightIdentifier}
    {requestedBy : String} {f : TrackedFlight} (hparse : FlightIdentifier.parse Γ input = .ok identifier)
    (h : ProducedBy Γ env state identifier requestedBy f) : Identified Γ f := by
  refine h.stages.induct (fun resolved checked _ => identified_newFlight hparse requestedBy resolved checked env.now)
    (fun _ m hf => hf.metadata m) (fun _ hf => hf.congr rfl rfl) (fun f g hf hs => ?_)
    (fun _ origin dest hf => hf.congr (by simp) (by simp))
  have hpolled : Identified Γ (polledAt f env.now) := hf.congr rfl rfl
  cases hs with
  | skipped => exact hf
  | unseen => exact hpolled
  | unconfirmed => exact hf.congr rfl rfl
  | visible ac usedHex confirmation byHex accepted direct => exact hpolled.aircraft ac confirmation false
  | seen ac usedHex confirmation byHex accepted direct =>
    exact (hpolled.aircraft ac confirmation true).congr (seeTarget_frame _ ac env.now).1 (seeTarget_frame _ ac env.now).2.1

/-! ## The transition -/

/-- The observation of a sample does to the names, the type and the aliases of a flight what its accepted aircraft does. -/
theorem advanceFlight_identity (flight : TrackedFlight) (obs : Observation) (now : Instant) :
    ((advanceFlight Γ flight obs now).1.toNames = flight.toNames ∧
      (advanceFlight Γ flight obs now).1.aircraftType = flight.aircraftType) ∨
    ∃ ac raw, targetConfirmationForAircraft flight ac obs.usedHex now = some raw ∧ obs.outcome = .hit ac ∧
      NamesChange Γ (newlyResolvedCallsign flight ac (confirmationAfter flight raw obs.usedHex now)) ac.hex .adsb
        raw.isTargetConfirmed flight.toNames (advanceFlight Γ flight obs now).1.toNames ∧
      (advanceFlight Γ flight obs now).1.aircraftType = flight.aircraftType.or ac.t ∧
      (AliasesDistinct flight.aliasCallsigns → AliasesDistinct (advanceFlight Γ flight obs now).1.aliasCallsigns) := by
  cases h : acceptedHit flight ⟨obs, now, fun _ => none⟩ with
  | none =>
    left
    rcases advanceFlight_of_ignored (Γ := Γ) h with ⟨-, e⟩ | e
    · rw [e]
      refine ⟨by simp, ?_⟩
      unfold advanceMiss
      split
      · rfl
      · dsimp only
        split <;> rfl
    · rw [e]
      exact ⟨rfl, rfl⟩
  | some hit =>
    right
    obtain ⟨ac, raw⟩ := hit
    obtain ⟨ho, e⟩ := advanceFlight_of_accepted (Γ := Γ) h
    rw [e]
    refine ⟨ac, raw, accepted_confirmation h, ho, advanceHit_names (polledAt flight now) ac raw obs.usedHex now, ?_,
      fun hd => ?_⟩
    · simp [advanceHit, polledAt]
    · simp only [advanceHit, observePhase_frame]
      refine applyObservedAircraft_distinct ?_ ac _ _
      exact hd

end Twitch1337.Tracker
