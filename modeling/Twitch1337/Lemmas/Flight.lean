import Twitch1337.Tracker.Advance

/-!
# What a step of a flight changes

For each function that changes a flight: the groups of fields it leaves alone, and what it does to the names of the flight.
Every later statement about a flight uses these and no definition of `Metadata` or `Advance`.
-/

namespace Twitch1337.Tracker

open RustStr Chrono

variable {Γ : Ctx}

/-! ## Known codes -/

/-- A list of aliases knows a code: it is blank, or one of them is its normal form up to ASCII case. -/
def Knows (Γ : Ctx) (aliases : List String) (value : String) : Prop :=
  ∀ code, normalizeFlightCode Γ value = some code → aliases.any (eqIgnoreAsciiCase · code) = true

/-- A code that is known stays known. -/
theorem Knows.append {aliases : List String} {value : String} (h : Knows Γ aliases value) (more : List String) :
    Knows Γ (aliases ++ more) value := by
  intro code hc
  rw [List.any_append, h code hc, Bool.true_or]

/-- A known code is not added again. -/
theorem addAliasCallsign_of_knows {flight : TrackedFlight} {value : String} (h : Knows Γ flight.aliasCallsigns value) :
    addAliasCallsign Γ flight value = flight := by
  unfold addAliasCallsign
  split
  · rfl
  · rename_i code hn
    rw [if_pos (h code hn)]

/-- A code that is known adds nothing. -/
theorem addAliasFrom_of_knows {flight : TrackedFlight} {value : Option String}
    (h : ∀ v ∈ value, Knows Γ flight.aliasCallsigns v) : addAliasFrom Γ flight value = flight := by
  cases value with
  | none => rfl
  | some v =>
    rw [addAliasFrom]
    exact addAliasCallsign_of_knows (h v rfl)

/-- An added code is known. -/
theorem knows_addAliasCallsign (flight : TrackedFlight) (value : String) :
    Knows Γ (addAliasCallsign Γ flight value).aliasCallsigns value := by
  intro code hc
  unfold addAliasCallsign
  rw [hc]
  simp only
  split
  · assumption
  · simp

/-! ## What the names take over -/

/-- The callsign after an offer: kept, or the one offered, known to the aliases. -/
inductive CallsignChange (Γ : Ctx) (offered : Option String) (a b : Names) : Prop where
  | kept (same : b.callsign = a.callsign)
  | set (cs : String) (offer : offered = some cs) (now : b.callsign = some cs) (known : Knows Γ b.aliasCallsigns cs)

/-- The hex after a candidate: kept, or the normal form of the candidate, consistent with the one before. -/
inductive HexChange (Γ : Ctx) (candidate : Option String) (source : HexSource) (promote : Bool) (a b : Names) : Prop where
  | kept (same : b.hex = a.hex) (sameSource : b.hexSource = a.hexSource)
  | set (c h : String) (offer : candidate = some c) (normal : normalizeIcao24 Γ c = some h)
      (consistent : ∀ old, a.hex = some old → eqIgnoreAsciiCase old h = true) (now : b.hex = some h)
      (nowSource : b.hexSource = hexSourceAfter a.hexSource source promote)

/-- What a source of names, AviationStack or an aircraft, may do to the names of a flight. -/
structure NamesChange (Γ : Ctx) (callsign hex : Option String) (source : HexSource) (promote : Bool) (a b : Names) :
    Prop where
  aliases : ∃ more, b.aliasCallsigns = a.aliasCallsigns ++ more
  callsign : CallsignChange Γ callsign a b
  hex : HexChange Γ hex source promote a b

/-! ## Metadata -/

/-- Aliases are added at the end. -/
theorem addAliasCallsign_aliases (flight : TrackedFlight) (value : String) :
    ∃ more, (addAliasCallsign Γ flight value).aliasCallsigns = flight.aliasCallsigns ++ more := by
  unfold addAliasCallsign
  split
  · exact ⟨[], (List.append_nil _).symm⟩
  · split
    · exact ⟨[], (List.append_nil _).symm⟩
    · exact ⟨_, rfl⟩

/-- Nothing else is changed by an alias. -/
@[simp] theorem addAliasCallsign_frame (flight : TrackedFlight) (value : String) :
    (addAliasCallsign Γ flight value).callsign = flight.callsign ∧
    (addAliasCallsign Γ flight value).hex = flight.hex ∧
    (addAliasCallsign Γ flight value).hexSource = flight.hexSource ∧
    (addAliasCallsign Γ flight value).toTicket = flight.toTicket ∧
    (addAliasCallsign Γ flight value).toSighting = flight.toSighting ∧
    (addAliasCallsign Γ flight value).toCourse = flight.toCourse ∧
    (addAliasCallsign Γ flight value).toTelemetry = flight.toTelemetry ∧
    (addAliasCallsign Γ flight value).toRouting = flight.toRouting ∧
    (addAliasCallsign Γ flight value).toPlanning = flight.toPlanning := by
  unfold addAliasCallsign
  split
  · simp
  · split <;> simp

/-- An alias that may be missing is added behind those there are. -/
theorem addAliasFrom_aliases (flight : TrackedFlight) (value : Option String) :
    ∃ more, (addAliasFrom Γ flight value).aliasCallsigns = flight.aliasCallsigns ++ more := by
  cases value with
  | none => exact ⟨[], (List.append_nil _).symm⟩
  | some v =>
    rw [addAliasFrom]
    exact addAliasCallsign_aliases flight v

@[simp] theorem addAliasFrom_frame (flight : TrackedFlight) (value : Option String) :
    (addAliasFrom Γ flight value).callsign = flight.callsign ∧
    (addAliasFrom Γ flight value).hex = flight.hex ∧
    (addAliasFrom Γ flight value).hexSource = flight.hexSource ∧
    (addAliasFrom Γ flight value).toTicket = flight.toTicket ∧
    (addAliasFrom Γ flight value).toSighting = flight.toSighting ∧
    (addAliasFrom Γ flight value).toCourse = flight.toCourse ∧
    (addAliasFrom Γ flight value).toTelemetry = flight.toTelemetry ∧
    (addAliasFrom Γ flight value).toRouting = flight.toRouting ∧
    (addAliasFrom Γ flight value).toPlanning = flight.toPlanning := by
  cases value <;> simp [addAliasFrom]

/-- A route changes the routing only. -/
@[simp] theorem setRouteFromIata_frame (flight : TrackedFlight) (origin dest : String) :
    (setRouteFromIata Γ flight origin dest).toTicket = flight.toTicket ∧
    (setRouteFromIata Γ flight origin dest).toNames = flight.toNames ∧
    (setRouteFromIata Γ flight origin dest).toSighting = flight.toSighting ∧
    (setRouteFromIata Γ flight origin dest).toCourse = flight.toCourse ∧
    (setRouteFromIata Γ flight origin dest).toTelemetry = flight.toTelemetry ∧
    (setRouteFromIata Γ flight origin dest).toPlanning = flight.toPlanning := by
  unfold setRouteFromIata
  simp only
  split
  · simp
  · split <;> simp

/-- The source of a hex after a candidate: the old one, or the candidate's where there was none, or ADS-B where it replaces
AviationStack. -/
theorem hexSourceAfter_cases (current : Option HexSource) (source : HexSource) (promote : Bool) :
    (∃ s, current = some s ∧ hexSourceAfter current source promote = some s) ∨
      (current = none ∧ hexSourceAfter current source promote = some source) ∨
      (promote = true ∧ current = some .aviationStack ∧ hexSourceAfter current source promote = some .adsb) := by
  cases current with
  | none => cases source <;> simp [hexSourceAfter]
  | some c => cases source <;> cases c <;> cases promote <;> simp [hexSourceAfter]

/-- A hex changes itself and its source only. -/
@[simp] theorem setHexFrom_frame (flight : TrackedFlight) (candidate : Option String) (source : HexSource)
    (promote : Bool) :
    (setHexFrom Γ flight candidate source promote).callsign = flight.callsign ∧
    (setHexFrom Γ flight candidate source promote).aliasCallsigns = flight.aliasCallsigns ∧
    (setHexFrom Γ flight candidate source promote).toTicket = flight.toTicket ∧
    (setHexFrom Γ flight candidate source promote).toSighting = flight.toSighting ∧
    (setHexFrom Γ flight candidate source promote).toCourse = flight.toCourse ∧
    (setHexFrom Γ flight candidate source promote).toTelemetry = flight.toTelemetry ∧
    (setHexFrom Γ flight candidate source promote).toRouting = flight.toRouting ∧
    (setHexFrom Γ flight candidate source promote).toPlanning = flight.toPlanning := by
  unfold setHexFrom setHexIfConsistent
  split
  · simp
  · split
    · simp
    · split <;> simp

/-- It is taken over, or the one there was is kept. -/
theorem setHexFrom_change (flight : TrackedFlight) (candidate : Option String) (source : HexSource) (promote : Bool) :
    HexChange Γ candidate source promote flight.toNames (setHexFrom Γ flight candidate source promote).toNames := by
  unfold setHexFrom setHexIfConsistent
  split
  · exact .kept rfl rfl
  · rename_i c
    split
    · exact .kept rfl rfl
    · rename_i h hn
      split
      · exact .kept rfl rfl
      · rename_i hc
        refine .set c h rfl hn (fun old ho => ?_) rfl rfl
        simpa [ho] using hc

/-- A departure changes the routing and the plan only. -/
@[simp] theorem applyMetadataDeparture_frame (flight : TrackedFlight) (metadata : AviationstackFlightMetadata) :
    (applyMetadataDeparture flight metadata).toTicket = flight.toTicket ∧
    (applyMetadataDeparture flight metadata).toNames = flight.toNames ∧
    (applyMetadataDeparture flight metadata).toSighting = flight.toSighting ∧
    (applyMetadataDeparture flight metadata).toCourse = flight.toCourse ∧
    (applyMetadataDeparture flight metadata).toTelemetry = flight.toTelemetry := by
  unfold applyMetadataDeparture
  split <;> simp

/-- A callsign changes itself and the aliases only. -/
@[simp] theorem applyMetadataCallsign_frame (flight : TrackedFlight) (metadata : AviationstackFlightMetadata) :
    (applyMetadataCallsign Γ flight metadata).hex = flight.hex ∧
    (applyMetadataCallsign Γ flight metadata).hexSource = flight.hexSource ∧
    (applyMetadataCallsign Γ flight metadata).toTicket = flight.toTicket ∧
    (applyMetadataCallsign Γ flight metadata).toSighting = flight.toSighting ∧
    (applyMetadataCallsign Γ flight metadata).toCourse = flight.toCourse ∧
    (applyMetadataCallsign Γ flight metadata).toTelemetry = flight.toTelemetry := by
  unfold applyMetadataCallsign
  split <;> simp

/-- The codes of the metadata are added at the end. -/
theorem applyMetadataCallsign_aliases (flight : TrackedFlight) (metadata : AviationstackFlightMetadata) :
    ∃ more, (applyMetadataCallsign Γ flight metadata).aliasCallsigns = flight.aliasCallsigns ++ more := by
  unfold applyMetadataCallsign
  split
  · exact ⟨[], (List.append_nil _).symm⟩
  · rename_i cs _
    obtain ⟨more, h⟩ := addAliasCallsign_aliases (Γ := Γ) flight cs
    exact ⟨more, by simpa using h⟩

/-- The callsign of the metadata is taken over, or the one there was is kept. -/
theorem applyMetadataCallsign_change (flight : TrackedFlight) (metadata : AviationstackFlightMetadata) :
    CallsignChange Γ (metadataCallsign Γ metadata) flight.toNames (applyMetadataCallsign Γ flight metadata).toNames := by
  unfold applyMetadataCallsign
  split
  · exact .kept rfl
  · rename_i cs hcs
    have hk := knows_addAliasCallsign (Γ := Γ) flight cs
    exact .set cs hcs rfl (by simpa using hk)

/-- The route of the metadata changes the routing and the plan only. -/
@[simp] theorem applyMetadataRoute_frame (flight : TrackedFlight) (metadata : AviationstackFlightMetadata) :
    (applyMetadataRoute Γ flight metadata).toTicket = flight.toTicket ∧
    (applyMetadataRoute Γ flight metadata).toNames = flight.toNames ∧
    (applyMetadataRoute Γ flight metadata).toSighting = flight.toSighting ∧
    (applyMetadataRoute Γ flight metadata).toCourse = flight.toCourse ∧
    (applyMetadataRoute Γ flight metadata).toTelemetry = flight.toTelemetry := by
  unfold applyMetadataRoute
  split <;> simp

/-- Metadata changes neither the ticket nor the sighting of a flight, nor its telemetry, nor its phase. -/
@[simp] theorem applyAviationstackMetadata_frame (flight : TrackedFlight) (metadata : AviationstackFlightMetadata) :
    (applyAviationstackMetadata Γ flight metadata).toTicket = flight.toTicket ∧
    (applyAviationstackMetadata Γ flight metadata).toSighting = flight.toSighting ∧
    (applyAviationstackMetadata Γ flight metadata).toTelemetry = flight.toTelemetry ∧
    (applyAviationstackMetadata Γ flight metadata).phase = flight.phase := by
  simp [applyAviationstackMetadata]

/-- What metadata does to the names of a flight. -/
theorem applyAviationstackMetadata_names (flight : TrackedFlight) (metadata : AviationstackFlightMetadata) :
    NamesChange Γ (metadataCallsign Γ metadata) metadata.aircraftIcao24 .aviationStack false flight.toNames
      (applyAviationstackMetadata Γ flight metadata).toNames := by
  obtain ⟨f₁, h₁⟩ : ∃ f, f = addAliasFrom Γ (applyMetadataDeparture flight metadata) metadata.flightIata := ⟨_, rfl⟩
  obtain ⟨f₂, h₂⟩ : ∃ f, f = addAliasFrom Γ f₁ metadata.flightIcao := ⟨_, rfl⟩
  obtain ⟨f₃, h₃⟩ : ∃ f, f = applyMetadataCallsign Γ f₂ metadata := ⟨_, rfl⟩
  have hnames : (applyAviationstackMetadata Γ flight metadata).toNames =
      (setHexFrom Γ (applyMetadataRoute Γ f₃ metadata) metadata.aircraftIcao24 .aviationStack false).toNames := by
    rw [h₃, h₂, h₁]
    rfl
  have hsame : f₂.callsign = flight.callsign ∧ f₂.hex = flight.hex ∧ f₂.hexSource = flight.hexSource := by
    simp [h₂, h₁]
  have hhex := setHexFrom_change (Γ := Γ) (applyMetadataRoute Γ f₃ metadata) metadata.aircraftIcao24 .aviationStack false
  have hcs := applyMetadataCallsign_change (Γ := Γ) f₂ metadata
  rw [hnames]
  refine ⟨?_, ?_, ?_⟩
  · obtain ⟨m₁, e₁⟩ := addAliasFrom_aliases (Γ := Γ) (applyMetadataDeparture flight metadata) metadata.flightIata
    obtain ⟨m₂, e₂⟩ := addAliasFrom_aliases (Γ := Γ) f₁ metadata.flightIcao
    obtain ⟨m₃, e₃⟩ := applyMetadataCallsign_aliases (Γ := Γ) f₂ metadata
    rw [← h₁] at e₁
    rw [← h₂] at e₂
    rw [← h₃] at e₃
    refine ⟨m₁ ++ m₂ ++ m₃, ?_⟩
    simp [e₃, e₂, e₁]
  · rw [← h₃] at hcs
    cases hcs with
    | kept h => exact .kept (by simp [h, hsame.1])
    | set cs ho hn hk => exact .set cs ho (by simpa using hn) (by simpa using hk)
  · have hsame' : f₃.hex = flight.hex ∧ f₃.hexSource = flight.hexSource := by simp [h₃, hsame]
    cases hhex with
    | kept h hs => exact .kept (by simpa [hsame'] using h) (by simpa [hsame'] using hs)
    | set c h ho hn hc hx hs =>
      exact .set c h ho hn (by simpa [hsame'] using hc) hx (by simpa [hsame'] using hs)

/-! ## An accepted hit -/

/-- A callsign that is resolved leaves the rest of a flight alone. -/
@[simp] theorem resolveCallsignTo_frame (flight : TrackedFlight) (cs : Option String) :
    (resolveCallsignTo Γ flight cs).hex = flight.hex ∧
    (resolveCallsignTo Γ flight cs).hexSource = flight.hexSource ∧
    (resolveCallsignTo Γ flight cs).toTicket = flight.toTicket ∧
    (resolveCallsignTo Γ flight cs).toSighting = flight.toSighting ∧
    (resolveCallsignTo Γ flight cs).toCourse = flight.toCourse ∧
    (resolveCallsignTo Γ flight cs).toRouting = flight.toRouting ∧
    (resolveCallsignTo Γ flight cs).toPlanning = flight.toPlanning := by
  cases cs <;> simp [resolveCallsignTo]

/-- It is added at the end of the aliases. -/
theorem resolveCallsignTo_aliases (flight : TrackedFlight) (cs : Option String) :
    ∃ more, (resolveCallsignTo Γ flight cs).aliasCallsigns = flight.aliasCallsigns ++ more := by
  cases cs with
  | none => exact ⟨[], (List.append_nil _).symm⟩
  | some cs =>
    rw [resolveCallsignTo]
    exact addAliasCallsign_aliases { flight with callsign := some cs } cs

/-- It is taken over when there is one. -/
theorem resolveCallsignTo_change (flight : TrackedFlight) (cs : Option String) :
    CallsignChange Γ cs flight.toNames (resolveCallsignTo Γ flight cs).toNames := by
  cases cs with
  | none => exact .kept rfl
  | some cs =>
    rw [resolveCallsignTo]
    exact .set cs rfl (by simp) (knows_addAliasCallsign { flight with callsign := some cs } cs)

/-- An observed aircraft sets the telemetry and the confirmation of a flight, and leaves its ticket, its course, its route and
its planning alone. -/
@[simp] theorem applyObservedAircraft_frame (flight : TrackedFlight) (ac : NearbyAircraft)
    (confirmation : TargetConfirmation) (direct : Bool) :
    (applyObservedAircraft Γ flight ac confirmation direct).1.toTicket = flight.toTicket ∧
    (applyObservedAircraft Γ flight ac confirmation direct).1.toCourse = flight.toCourse ∧
    (applyObservedAircraft Γ flight ac confirmation direct).1.toRouting = flight.toRouting ∧
    (applyObservedAircraft Γ flight ac confirmation direct).1.toPlanning = flight.toPlanning ∧
    (applyObservedAircraft Γ flight ac confirmation direct).1.targetConfirmation = confirmation ∧
    (applyObservedAircraft Γ flight ac confirmation direct).1.lastSeen = flight.lastSeen ∧
    (applyObservedAircraft Γ flight ac confirmation direct).1.lastVisibleAt = flight.lastVisibleAt ∧
    (applyObservedAircraft Γ flight ac confirmation direct).1.squawk = ac.squawk := by
  simp [applyObservedAircraft]

/-- What an observed aircraft does to the names of a flight. -/
theorem applyObservedAircraft_names (flight : TrackedFlight) (ac : NearbyAircraft) (confirmation : TargetConfirmation)
    (direct : Bool) :
    NamesChange Γ (newlyResolvedCallsign flight ac confirmation) ac.hex .adsb direct flight.toNames
      (applyObservedAircraft Γ flight ac confirmation direct).1.toNames := by
  obtain ⟨f₁, h₁⟩ : ∃ f, f = resolveCallsignTo Γ
      { flight with targetConfirmation := confirmation, observedCallsign := aircraftCallsign ac }
      (newlyResolvedCallsign flight ac confirmation) := ⟨_, rfl⟩
  have hnames : (applyObservedAircraft Γ flight ac confirmation direct).1.toNames =
      (setHexFrom Γ f₁ ac.hex .adsb direct).toNames := by
    rw [h₁]
    rfl
  have hhex := setHexFrom_change (Γ := Γ) f₁ ac.hex .adsb direct
  have hcs := resolveCallsignTo_change (Γ := Γ)
    { flight with targetConfirmation := confirmation, observedCallsign := aircraftCallsign ac }
    (newlyResolvedCallsign flight ac confirmation)
  have hsame : f₁.hex = flight.hex ∧ f₁.hexSource = flight.hexSource := by simp [h₁]
  rw [hnames]
  refine ⟨?_, ?_, ?_⟩
  · obtain ⟨more, e⟩ := resolveCallsignTo_aliases (Γ := Γ)
      { flight with targetConfirmation := confirmation, observedCallsign := aircraftCallsign ac }
      (newlyResolvedCallsign flight ac confirmation)
    rw [← h₁] at e
    exact ⟨more, by simp [e]⟩
  · rw [← h₁] at hcs
    cases hcs with
    | kept h => exact .kept (by simp [h])
    | set cs ho hn hk => exact .set cs ho (by simpa using hn) (by simpa using hk)
  · cases hhex with
    | kept h hs => exact .kept (by simpa [hsame] using h) (by simpa [hsame] using hs)
    | set c h ho hn hc hx hs => exact .set c h ho hn (by simpa [hsame] using hc) hx (by simpa [hsame] using hs)

/-- A step of the phase changes the course only. -/
@[simp] theorem phaseStep_frame (flight : TrackedFlight) (ac : NearbyAircraft) (now : Instant) :
    (phaseStep flight ac now).1.toTicket = flight.toTicket ∧
    (phaseStep flight ac now).1.toNames = flight.toNames ∧
    (phaseStep flight ac now).1.toSighting = flight.toSighting ∧
    (phaseStep flight ac now).1.toTelemetry = flight.toTelemetry ∧
    (phaseStep flight ac now).1.toRouting = flight.toRouting ∧
    (phaseStep flight ac now).1.toPlanning = flight.toPlanning := by
  unfold phaseStep
  simp only
  split
  · simp
  · split <;> simp

/-- The divert test changes its counter only. -/
@[simp] theorem divertStep_frame (flight : TrackedFlight) (prevLat prevLon : Option F64) (eligible : Bool) :
    (divertStep Γ flight prevLat prevLon eligible).1.toTicket = flight.toTicket ∧
    (divertStep Γ flight prevLat prevLon eligible).1.toNames = flight.toNames ∧
    (divertStep Γ flight prevLat prevLon eligible).1.toSighting = flight.toSighting ∧
    (divertStep Γ flight prevLat prevLon eligible).1.toCourse = flight.toCourse ∧
    (divertStep Γ flight prevLat prevLon eligible).1.toTelemetry = flight.toTelemetry ∧
    (divertStep Γ flight prevLat prevLon eligible).1.toRouting = flight.toRouting ∧
    (divertStep Γ flight prevLat prevLon eligible).1.toPlanning = flight.toPlanning := by
  unfold divertStep
  split
  · split <;> simp
  · simp

/-- The phase branches of a hit leave all but the course and the divert counter of a flight alone. -/
@[simp] theorem observePhase_frame (flight : TrackedFlight) (ac : NearbyAircraft) (restart eligible : Bool)
    (prevLat prevLon : Option F64) (now : Instant) :
    (observePhase Γ flight ac restart eligible prevLat prevLon now).1.toTicket = flight.toTicket ∧
    (observePhase Γ flight ac restart eligible prevLat prevLon now).1.toNames = flight.toNames ∧
    (observePhase Γ flight ac restart eligible prevLat prevLon now).1.toSighting = flight.toSighting ∧
    (observePhase Γ flight ac restart eligible prevLat prevLon now).1.toTelemetry = flight.toTelemetry ∧
    (observePhase Γ flight ac restart eligible prevLat prevLon now).1.toRouting = flight.toRouting ∧
    (observePhase Γ flight ac restart eligible prevLat prevLon now).1.toPlanning = flight.toPlanning := by
  unfold observePhase resetPhase
  cases restart <;> cases eligible <;> simp

/-- The confirmation an accepted hit leaves: the prior one where it is kept, and what the hit confirms otherwise. -/
def confirmationAfter (flight : TrackedFlight) (raw : TargetConfirmation) (usedHex : Bool) (now : Instant) :
    TargetConfirmation :=
  if shouldKeepPriorConfirmation flight raw usedHex now then flight.targetConfirmation else raw

/-- An accepted hit leaves the ticket, the route and the planning of a flight alone, and sets its sighting. -/
@[simp] theorem advanceHit_frame (flight : TrackedFlight) (ac : NearbyAircraft) (raw : TargetConfirmation)
    (usedHex : Bool) (now : Instant) :
    (advanceHit Γ flight ac raw usedHex now).1.toTicket = flight.toTicket ∧
    (advanceHit Γ flight ac raw usedHex now).1.toRouting = flight.toRouting ∧
    (advanceHit Γ flight ac raw usedHex now).1.toPlanning = flight.toPlanning ∧
    (advanceHit Γ flight ac raw usedHex now).1.targetConfirmation = confirmationAfter flight raw usedHex now ∧
    (advanceHit Γ flight ac raw usedHex now).1.lastVisibleAt = some now ∧
    (advanceHit Γ flight ac raw usedHex now).1.lastSeen = (if raw.isTargetConfirmed then some now else flight.lastSeen) ∧
    (advanceHit Γ flight ac raw usedHex now).1.squawk = ac.squawk := by
  simp [advanceHit, confirmationAfter]

/-- What an accepted hit does to the names of a flight. -/
theorem advanceHit_names (flight : TrackedFlight) (ac : NearbyAircraft) (raw : TargetConfirmation) (usedHex : Bool)
    (now : Instant) :
    NamesChange Γ (newlyResolvedCallsign flight ac (confirmationAfter flight raw usedHex now)) ac.hex .adsb
      raw.isTargetConfirmed flight.toNames (advanceHit Γ flight ac raw usedHex now).1.toNames := by
  have h := applyObservedAircraft_names (Γ := Γ)
    { flight with
      lastVisibleAt := some now
      lastSeen := if raw.isTargetConfirmed then some now else flight.lastSeen }
    ac (confirmationAfter flight raw usedHex now) raw.isTargetConfirmed
  simpa [advanceHit, confirmationAfter, newlyResolvedCallsign] using h

/-! ## The transition -/

/-- A miss leaves a flight alone, but for its count of polls. -/
@[simp] theorem advanceMiss_frame (flight : TrackedFlight) (now : Instant) :
    (advanceMiss flight now).1.toTicket = flight.toTicket ∧
    (advanceMiss flight now).1.toNames = flight.toNames ∧
    (advanceMiss flight now).1.toSighting = flight.toSighting ∧
    (advanceMiss flight now).1.toTelemetry = flight.toTelemetry ∧
    (advanceMiss flight now).1.toRouting = flight.toRouting ∧
    (advanceMiss flight now).1.toPlanning = flight.toPlanning ∧
    (advanceMiss flight now).1.phase = flight.phase ∧
    (advanceMiss flight now).1.takeoffAt = flight.takeoffAt := by
  unfold advanceMiss
  split
  · simp
  · simp only
    split <;> simp

end Twitch1337.Tracker
