import Twitch1337.Lemmas.Track

/-!
# Invariants of a flight

What every flight of the tracker satisfies: the aliases know its names, a hex has a source, the sighting is consistent, and
only AviationStack gives a hex to a callsign that was never seen. A new flight satisfies it, and metadata, the first lookup and
every sample keep it.
-/

namespace Twitch1337.Tracker

open RustStr Chrono

variable {Γ : Ctx}

/-! ## A sample -/

/-- Follow-ups fetch routes, and change nothing else. -/
@[simp] theorem performFollowups_frame (getFlightRoute : String → Option FlightRoute) (flight : TrackedFlight)
    (followups : List Followup) :
    (performFollowups Γ getFlightRoute flight followups).toTicket = flight.toTicket ∧
    (performFollowups Γ getFlightRoute flight followups).toNames = flight.toNames ∧
    (performFollowups Γ getFlightRoute flight followups).toSighting = flight.toSighting ∧
    (performFollowups Γ getFlightRoute flight followups).toCourse = flight.toCourse ∧
    (performFollowups Γ getFlightRoute flight followups).toTelemetry = flight.toTelemetry ∧
    (performFollowups Γ getFlightRoute flight followups).toPlanning = flight.toPlanning := by
  induction followups generalizing flight with
  | nil => simp [performFollowups]
  | cons followup rest ih =>
    obtain ⟨callsign⟩ := followup
    rw [performFollowups, List.foldl_cons]
    cases hr : getFlightRoute callsign with
    | none => simpa [hr, performFollowups] using ih flight
    | some route => simpa [hr, performFollowups, applyRoute] using ih (applyRoute Γ flight route.origin route.destination)

/-- A flight at the time of a sample. -/
def polledAt (flight : TrackedFlight) (now : Instant) : TrackedFlight := { flight with lastAdsbPollAt := some now }

@[simp] theorem polledAt_frame (flight : TrackedFlight) (now : Instant) :
    (polledAt flight now).toTicket = flight.toTicket ∧
    (polledAt flight now).toNames = flight.toNames ∧
    (polledAt flight now).toSighting = flight.toSighting ∧
    (polledAt flight now).toCourse = flight.toCourse ∧
    (polledAt flight now).toTelemetry = flight.toTelemetry ∧
    (polledAt flight now).toRouting = flight.toRouting := by
  simp [polledAt]

/-- The transition of a sample whose aircraft the flight accepts is the one of a hit. -/
theorem advanceFlight_of_accepted {flight : TrackedFlight} {s : Sample} {ac : NearbyAircraft} {raw : TargetConfirmation}
    (h : acceptedHit flight s = some (ac, raw)) :
    s.obs.outcome = .hit ac ∧
      advanceFlight Γ flight s.obs s.now = advanceHit Γ (polledAt flight s.now) ac raw s.obs.usedHex s.now := by
  unfold acceptedHit at h
  split at h
  · rename_i ac' ho
    rw [Option.map_eq_some_iff] at h
    obtain ⟨c, hc, he⟩ := h
    rw [Prod.mk.injEq] at he
    obtain ⟨rfl, rfl⟩ := he
    refine ⟨ho, ?_⟩
    have hc' : targetConfirmationForAircraft { flight with lastAdsbPollAt := some s.now } ac' s.obs.usedHex s.now =
        some c := hc
    simp only [advanceFlight, ho, hc', polledAt]
  · cases h

/-- What an accepted aircraft confirms. -/
theorem accepted_confirmation {flight : TrackedFlight} {s : Sample} {ac : NearbyAircraft} {raw : TargetConfirmation}
    (h : acceptedHit flight s = some (ac, raw)) :
    targetConfirmationForAircraft flight ac s.obs.usedHex s.now = some raw := by
  unfold acceptedHit at h
  split at h
  · rw [Option.map_eq_some_iff] at h
    obtain ⟨c, hc, he⟩ := h
    rw [Prod.mk.injEq] at he
    obtain ⟨rfl, rfl⟩ := he
    exact hc
  · cases h

/-- Without an accepted aircraft, the transition is the one of a miss, or nothing happens. -/
theorem advanceFlight_of_ignored {flight : TrackedFlight} {s : Sample} (h : acceptedHit flight s = none) :
    (s.obs.outcome = .miss ∧ advanceFlight Γ flight s.obs s.now = advanceMiss (polledAt flight s.now) s.now) ∨
      advanceFlight Γ flight s.obs s.now = (polledAt flight s.now, {}) := by
  unfold acceptedHit at h
  unfold advanceFlight polledAt
  cases ho : s.obs.outcome with
  | miss => exact .inl ⟨rfl, rfl⟩
  | error => exact .inr rfl
  | timeout => exact .inr rfl
  | hit ac =>
    rw [ho] at h
    simp only [Option.map_eq_none_iff] at h
    have h' : targetConfirmationForAircraft { flight with lastAdsbPollAt := some s.now } ac s.obs.usedHex s.now = none := h
    right
    simp only [h']

/-- An observation notes the time of the lookup, and changes nothing else of the planning. -/
theorem advanceFlight_planning (flight : TrackedFlight) (obs : Observation) (now : Instant) :
    (advanceFlight Γ flight obs now).1.toPlanning = { flight.toPlanning with lastAdsbPollAt := some now } ∧
      (advanceFlight Γ flight obs now).1.toTicket = flight.toTicket := by
  cases h : acceptedHit flight ⟨obs, now, fun _ => none⟩ with
  | some hit =>
    rw [(advanceFlight_of_accepted (Γ := Γ) h).2]
    simp [polledAt]
  | none =>
    rcases advanceFlight_of_ignored (Γ := Γ) h with ⟨-, e⟩ | e <;> rw [e] <;> simp [polledAt]

/-- Without an accepted aircraft a sample changes no more of a flight than the counts and times of its polls. -/
theorem pollStep_of_ignored {flight : TrackedFlight} {s : Sample} (h : acceptedHit flight s = none) :
    (pollStep Γ flight s).toTicket = flight.toTicket ∧
    (pollStep Γ flight s).toNames = flight.toNames ∧
    (pollStep Γ flight s).toSighting = flight.toSighting ∧
    (pollStep Γ flight s).toTelemetry = flight.toTelemetry ∧
    (pollStep Γ flight s).phase = flight.phase ∧
    (pollStep Γ flight s).takeoffAt = flight.takeoffAt := by
  rcases advanceFlight_of_ignored (Γ := Γ) h with ⟨-, he⟩ | he <;> simp [pollStep, he]

/-- What a sample with an accepted aircraft does to a flight. -/
theorem pollStep_of_accepted {flight : TrackedFlight} {s : Sample} {ac : NearbyAircraft} {raw : TargetConfirmation}
    (h : acceptedHit flight s = some (ac, raw)) :
    (pollStep Γ flight s).toTicket = flight.toTicket ∧
    NamesChange Γ (newlyResolvedCallsign flight ac (confirmationAfter flight raw s.obs.usedHex s.now)) ac.hex .adsb
      raw.isTargetConfirmed flight.toNames (pollStep Γ flight s).toNames ∧
    (pollStep Γ flight s).targetConfirmation = confirmationAfter flight raw s.obs.usedHex s.now ∧
    (pollStep Γ flight s).lastVisibleAt = some s.now ∧
    (pollStep Γ flight s).lastSeen = (if raw.isTargetConfirmed then some s.now else flight.lastSeen) ∧
    (pollStep Γ flight s).squawk = ac.squawk := by
  obtain ⟨-, he⟩ := advanceFlight_of_accepted (Γ := Γ) h
  have hn := advanceHit_names (Γ := Γ) (polledAt flight s.now) ac raw s.obs.usedHex s.now
  refine ⟨by simp [pollStep, he], ?_, ?_, ?_, ?_, ?_⟩
  · simpa [pollStep, he, newlyResolvedCallsign, confirmationAfter, shouldKeepPriorConfirmation] using hn
  · simp only [pollStep, he, performFollowups_frame, advanceHit_frame]
    rfl
  · simp [pollStep, he]
  · simp only [pollStep, he, performFollowups_frame, advanceHit_frame]
    rfl
  · simp [pollStep, he]

/-! ## Histories -/

@[simp] theorem flyThrough_cons (f : TrackedFlight) (s : Sample) (rest : List Sample) :
    flyThrough Γ f (s :: rest) = flyThrough Γ (pollStep Γ f s) rest := rfl

@[simp] theorem flyThrough_append (f : TrackedFlight) (a b : List Sample) :
    flyThrough Γ f (a ++ b) = flyThrough Γ (flyThrough Γ f a) b := List.foldl_append

/-- A field that a sample sets where something is found in it, and that stays otherwise, is what was found last. -/
theorem flyThrough_field {α β : Type} {look : TrackedFlight → Sample → Option α} (field : TrackedFlight → β) (q : α → β)
    (hset : ∀ f s a, look f s = some a → field (pollStep Γ f s) = q a)
    (hkeep : ∀ f s, look f s = none → field (pollStep Γ f s) = field f) (f : TrackedFlight) (samples : List Sample) :
    field (flyThrough Γ f samples) = ((recordOf Γ look f samples).getLast?.map q).getD (field f) := by
  induction samples generalizing f with
  | nil => rfl
  | cons s rest ih =>
    rw [flyThrough_cons, ih, recordOf, List.getLast?_append]
    cases hl : look f s with
    | none =>
      rw [hkeep f s hl]
      simp
    | some a =>
      rw [hset f s a hl]
      cases (recordOf Γ look (pollStep Γ f s) rest).getLast? <;> simp

/-! ## The invariant -/

/-- The names of a flight are in order: the aliases know the callsign of its identifier and its own, and a hex has a source. -/
structure NamesInOrder (Γ : Ctx) (f : TrackedFlight) : Prop where
  identifierKnown : ∀ cs, identifierCallsign f.identifier = some cs → Knows Γ f.aliasCallsigns cs
  callsignKnown : ∀ cs, f.callsign = some cs → Knows Γ f.aliasCallsigns cs
  hexSourced : f.hexSource.isSome = f.hex.isSome

/-- The sighting of a flight is consistent. -/
structure SightingInOrder (f : TrackedFlight) : Prop where
  confirmedSeen : f.targetConfirmation.isTargetConfirmed = true → f.lastSeen.isSome = true
  seenConfirms : f.lastSeen.isSome = true → f.targetConfirmation ≠ .pending
  seenVisible : f.lastSeen.isSome = true → f.lastVisibleAt.isSome = true

/-- A callsign whose aircraft was never seen has no hex but from AviationStack. -/
def UnseenHexInOrder (f : TrackedFlight) : Prop :=
  f.identifier.isCallsign = true → f.lastSeen = none → f.hex.isSome = true → f.hexSource = some .aviationStack

/-- What every tracked flight satisfies. -/
structure InOrder (Γ : Ctx) (f : TrackedFlight) : Prop where
  names : NamesInOrder Γ f
  sighting : SightingInOrder f
  unseenHex : UnseenHexInOrder f

/-- The invariant reads the ticket, the names and the sighting of a flight. -/
theorem InOrder.congr {f g : TrackedFlight} (h : InOrder Γ f) (ht : g.toTicket = f.toTicket)
    (hn : g.toNames = f.toNames) (hs : g.toSighting = f.toSighting) : InOrder Γ g := by
  obtain ⟨⟨h₁, h₂, h₃⟩, ⟨h₄, h₅, h₆⟩, h₇⟩ := h
  refine ⟨⟨?_, ?_, ?_⟩, ⟨?_, ?_, ?_⟩, ?_⟩
  · rwa [ht, hn]
  · rwa [hn]
  · rwa [hn]
  · rwa [hs]
  · rwa [hs]
  · rwa [hs]
  · unfold UnseenHexInOrder
    rwa [ht, hn, hs]

theorem NamesInOrder.change {f g : TrackedFlight} {cs hx : Option String} {src : HexSource} {promote : Bool}
    (h : NamesInOrder Γ f) (ht : g.toTicket = f.toTicket) (hc : NamesChange Γ cs hx src promote f.toNames g.toNames) :
    NamesInOrder Γ g := by
  obtain ⟨more, hm⟩ := hc.aliases
  refine ⟨fun c hcs => ?_, fun c hcs => ?_, ?_⟩
  · rw [hm]
    exact (h.identifierKnown c (by rw [← ht]; exact hcs)).append more
  · cases hc.callsign with
    | kept same =>
      rw [hm]
      exact (h.callsignKnown c (by rw [← same]; exact hcs)).append more
    | set c' _ now known =>
      rw [now, Option.some.injEq] at hcs
      exact hcs ▸ known
  · cases hc.hex with
    | kept same sameSource => rw [same, sameSource]; exact h.hexSourced
    | set _ _ _ _ _ now nowSource =>
      rw [now, nowSource]
      rcases hexSourceAfter_cases f.hexSource src promote with ⟨s, -, e⟩ | ⟨-, e⟩ | ⟨-, -, e⟩ <;> rw [e] <;> rfl

/-- AviationStack never takes the source of a hex from AviationStack, and names itself for a new one. -/
theorem UnseenHexInOrder.metadata {f g : TrackedFlight} {cs hx : Option String} (h : UnseenHexInOrder f)
    (hn : NamesInOrder Γ f) (ht : g.toTicket = f.toTicket) (hs : g.toSighting = f.toSighting)
    (hc : NamesChange Γ cs hx .aviationStack false f.toNames g.toNames) : UnseenHexInOrder g := by
  intro hcall hseen hhex
  rw [ht] at hcall
  rw [hs] at hseen
  cases hc.hex with
  | kept same sameSource =>
    rw [same] at hhex
    rw [sameSource]
    exact h hcall hseen hhex
  | set _ _ _ _ _ _ nowSource =>
    rw [nowSource]
    rcases hexSourceAfter_cases f.hexSource .aviationStack false with ⟨s, hs', e⟩ | ⟨-, e⟩ | ⟨hp, -, -⟩
    · have hsome : f.hex.isSome = true := by rw [← hn.hexSourced, hs']; rfl
      rw [e, ← hs']
      exact h hcall hseen hsome
    · exact e
    · cases hp

theorem InOrder.metadata {f : TrackedFlight} (h : InOrder Γ f) (m : AviationstackFlightMetadata) :
    InOrder Γ (applyAviationstackMetadata Γ f m) := by
  have hc := applyAviationstackMetadata_names (Γ := Γ) f m
  have ht : (applyAviationstackMetadata Γ f m).toTicket = f.toTicket := by simp
  have hs : (applyAviationstackMetadata Γ f m).toSighting = f.toSighting := by simp
  refine ⟨h.names.change ht hc, ?_, h.unseenHex.metadata h.names ht hs hc⟩
  obtain ⟨h₁, h₂, h₃⟩ := h.sighting
  exact ⟨by rwa [hs], by rwa [hs], by rwa [hs]⟩

/-- Without a direct confirmation, an aircraft leaves the source of a hex that a flight already has. -/
theorem UnseenHexInOrder.aircraft {f g : TrackedFlight} {cs hx : Option String} (h : UnseenHexInOrder f)
    (ht : g.toTicket = f.toTicket) (hs : g.lastSeen = none → f.lastSeen = none)
    (hhas : f.identifier.isCallsign = true → g.lastSeen = none → f.hex.isSome = true)
    (hc : NamesChange Γ cs hx .adsb false f.toNames g.toNames) : UnseenHexInOrder g := by
  intro hcall hseen _
  rw [ht] at hcall
  have hav := h hcall (hs hseen) (hhas hcall hseen)
  cases hc.hex with
  | kept _ sameSource => rw [sameSource, hav]
  | set _ _ _ _ _ _ nowSource => rw [nowSource, hav]; rfl

/-! ## Confirmations -/

/-- An accepted aircraft confirms something. -/
theorem targetConfirmation_ne_pending {f : TrackedFlight} {ac : NearbyAircraft} {usedHex : Bool} {now : Instant}
    {c : TargetConfirmation} (h : targetConfirmationForAircraft f ac usedHex now = some c) : c ≠ .pending := by
  unfold targetConfirmationForAircraft at h
  intro hp
  subst hp
  split at h
  · simp at h
  · split at h
    · simp at h
    · split at h
      · split at h <;> simp at h
      · simp at h

/-- An aircraft that is only visible was looked up by hex. -/
theorem usedHex_of_visible {f : TrackedFlight} {ac : NearbyAircraft} {usedHex : Bool} {now : Instant}
    {c : TargetConfirmation} (h : targetConfirmationForAircraft f ac usedHex now = some c)
    (hd : c.isTargetConfirmed = false) : usedHex = true := by
  unfold targetConfirmationForAircraft at h
  split at h
  · rw [Option.some.injEq] at h
    subst h
    cases hd
  · split at h
    · cases h
    · rename_i hu
      simpa using hu

/-- A confirmation that is kept is one of a flight that was seen. -/
theorem keepPrior_spec {f : TrackedFlight} {c : TargetConfirmation} {usedHex : Bool} {now : Instant}
    (h : shouldKeepPriorConfirmation f c usedHex now = true) :
    f.targetConfirmation.isTargetConfirmed = true ∧ c = .aircraftVisible ∧ f.lastSeen.isSome = true := by
  simp only [shouldKeepPriorConfirmation, Bool.and_eq_true, beq_iff_eq] at h
  obtain ⟨⟨⟨-, h₁⟩, h₂⟩, h₃⟩ := h
  refine ⟨h₁, h₂, ?_⟩
  cases hl : f.lastSeen with
  | none => rw [hl] at h₃; cases h₃
  | some _ => rfl

theorem isTargetConfirmed_ne_pending {c : TargetConfirmation} (h : c.isTargetConfirmed = true) : c ≠ .pending := by
  rintro rfl
  cases h

/-! ## The stages keep the invariant -/

/-- A new flight is in order. -/
theorem inOrder_newFlight (identifier : FlightIdentifier) (requestedBy : String) (resolved : Option String)
    (checked : Bool) (now : Instant) : InOrder Γ (newFlight Γ identifier requestedBy resolved checked now) := by
  obtain ⟨f, hn, hid, hseen, hcallsign, hhexid⟩ : ∃ f : TrackedFlight,
      newFlight Γ identifier requestedBy resolved checked now = seedFlightAliases Γ f ∧ f.identifier = identifier ∧
        f.toSighting = {} ∧ (∀ cs, identifier = .callsign cs → f.hex = none ∧ f.hexSource = none) ∧
        ∀ hex, identifier = .hex hex → f.hex = some hex ∧ f.hexSource = some .userInput := by
    refine ⟨_, rfl, rfl, rfl, ?_, ?_⟩
    · rintro cs rfl
      exact ⟨rfl, rfl⟩
    · rintro hex rfl
      exact ⟨rfl, rfl⟩
  have hnew : (seedFlightAliases Γ f).toTicket = f.toTicket ∧ (seedFlightAliases Γ f).callsign = f.callsign ∧
      (seedFlightAliases Γ f).hex = f.hex ∧ (seedFlightAliases Γ f).hexSource = f.hexSource ∧
      (seedFlightAliases Γ f).toSighting = f.toSighting := by
    simp [seedFlightAliases]
  obtain ⟨h₁, h₂, h₃, h₄, h₅⟩ := hnew
  rw [hn]
  obtain ⟨g, hg⟩ : ∃ g, g = addAliasFrom Γ f (identifierCallsign f.identifier) := ⟨_, rfl⟩
  have hseed : seedFlightAliases Γ f = addAliasFrom Γ g g.callsign := by rw [hg]; rfl
  obtain ⟨more, hmore⟩ := addAliasFrom_aliases (Γ := Γ) g g.callsign
  refine ⟨⟨fun cs hcs => ?_, fun cs hcs => ?_, ?_⟩, ⟨?_, ?_, ?_⟩, ?_⟩
  · rw [h₁] at hcs
    rw [hseed, hmore]
    refine Knows.append ?_ more
    rw [hg, hcs, addAliasFrom]
    exact knows_addAliasCallsign f cs
  · rw [h₂] at hcs
    have hgc : g.callsign = some cs := by rw [hg]; simpa using hcs
    rw [hseed, hgc, addAliasFrom]
    exact knows_addAliasCallsign g cs
  · rw [h₃, h₄]
    cases identifier with
    | callsign cs => rw [(hcallsign cs rfl).1, (hcallsign cs rfl).2]; rfl
    | hex hex => rw [(hhexid hex rfl).1, (hhexid hex rfl).2]; rfl
  · rw [h₅, hseen]; decide
  · rw [h₅, hseen]; decide
  · rw [h₅, hseen]; decide
  · intro hcall _ hhex
    rw [h₁, hid] at hcall
    rw [h₃] at hhex
    cases identifier with
    | callsign cs =>
      rw [(hcallsign cs rfl).1] at hhex
      cases hhex
    | hex _ => cases hcall

@[simp] theorem seeTarget_frame (flight : TrackedFlight) (ac : NearbyAircraft) (now : Instant) :
    (seeTarget flight ac now).toTicket = flight.toTicket ∧
    (seeTarget flight ac now).toNames = flight.toNames ∧
    (seeTarget flight ac now).targetConfirmation = flight.targetConfirmation ∧
    (seeTarget flight ac now).lastSeen = some now ∧
    (seeTarget flight ac now).lastVisibleAt = some now ∧
    (seeTarget flight ac now).toTelemetry = flight.toTelemetry ∧
    (seeTarget flight ac now).takeoffAt = flight.takeoffAt := by
  simp [seeTarget]

/-- The first lookup keeps a flight in order. -/
theorem InOrder.initial {f g : TrackedFlight} {now : Instant} (h : InOrder Γ f) (hs : InitialStage Γ now f g) :
    InOrder Γ g := by
  cases hs with
  | skipped => exact h
  | unseen => exact h.congr rfl rfl rfl
  | unconfirmed => exact h.congr rfl rfl rfl
  | visible ac usedHex c byHex accepted direct =>
    have hc := applyObservedAircraft_names (Γ := Γ) { f with lastAdsbPollAt := some now } ac c false
    have hp := targetConfirmation_ne_pending accepted
    have hx := byHex (usedHex_of_visible accepted direct)
    refine ⟨h.names.change (by simp) hc, ⟨by simp [direct], by simp [hp], ?_⟩,
      h.unseenHex.aircraft (by simp) (by simp) (fun _ _ => hx) hc⟩
    simpa using h.sighting.seenVisible
  | seen ac usedHex c byHex accepted direct =>
    have hc := applyObservedAircraft_names (Γ := Γ) { f with lastAdsbPollAt := some now } ac c true
    have hp := targetConfirmation_ne_pending accepted
    refine ⟨h.names.change (by simp) (by simpa using hc), ⟨by simp, by simp [hp], by simp⟩, fun _ hn => ?_⟩
    simp at hn

/-- A sample keeps the sighting of a flight in order. -/
theorem SightingInOrder.sample {f : TrackedFlight} (h : SightingInOrder f) (s : Sample) :
    SightingInOrder (pollStep Γ f s) := by
  cases ha : acceptedHit f s with
  | none =>
    obtain ⟨-, -, hs, -⟩ := pollStep_of_ignored (Γ := Γ) ha
    exact ⟨by rw [hs]; exact h.confirmedSeen, by rw [hs]; exact h.seenConfirms, by rw [hs]; exact h.seenVisible⟩
  | some hit =>
    obtain ⟨ac, raw⟩ := hit
    obtain ⟨-, -, htc, hv, hl, -⟩ := pollStep_of_accepted (Γ := Γ) ha
    refine ⟨fun hconf => ?_, fun _ => ?_, fun _ => by rw [hv]; rfl⟩
    · rw [hl]
      rw [htc, confirmationAfter] at hconf
      split at hconf
      · rename_i hk
        obtain ⟨-, hraw, hs⟩ := keepPrior_spec hk
        rw [hraw]
        exact hs
      · rw [if_pos hconf]
        rfl
    · rw [htc, confirmationAfter]
      split
      · rename_i hk
        exact isTargetConfirmed_ne_pending (keepPrior_spec hk).1
      · exact targetConfirmation_ne_pending (accepted_confirmation ha)

/-- A sample keeps a flight in order, if it was looked up by hex only where the flight has one. -/
theorem InOrder.sample {f : TrackedFlight} {s : Sample} (h : InOrder Γ f)
    (byHex : s.obs.usedHex = true → shouldPollByHex f = true) : InOrder Γ (pollStep Γ f s) := by
  cases ha : acceptedHit f s with
  | none =>
    obtain ⟨ht, hn, hs, -⟩ := pollStep_of_ignored (Γ := Γ) ha
    exact h.congr ht hn hs
  | some hit =>
    obtain ⟨ac, raw⟩ := hit
    obtain ⟨ht, hc, -, -, hl, -⟩ := pollStep_of_accepted (Γ := Γ) ha
    have hacc := accepted_confirmation ha
    refine ⟨h.names.change ht hc, h.sighting.sample s, ?_⟩
    cases hd : raw.isTargetConfirmed with
    | true =>
      intro _ hn _
      rw [hl, hd] at hn
      cases hn
    | false =>
      rw [hd] at hc hl
      refine h.unseenHex.aircraft ht (fun hn => by rw [← hn, hl]; rfl) (fun hcall _ => ?_) hc
      have hpoll := byHex (usedHex_of_visible hacc hd)
      unfold shouldPollByHex at hpoll
      cases hid : f.identifier with
      | hex _ => rw [hid] at hcall; cases hcall
      | callsign _ =>
        rw [hid] at hpoll
        simp only [FlightIdentifier.isHex, Bool.false_or, Bool.and_eq_true] at hpoll
        exact hpoll.1

/-- A flight that a track produces is in order. -/
theorem ProducedBy.inOrder {env : Env} {state : FlightTrackerState} {identifier : FlightIdentifier}
    {requestedBy : String} {f : TrackedFlight} (h : ProducedBy Γ env state identifier requestedBy f) : InOrder Γ f :=
  h.stages.induct (fun resolved checked _ => inOrder_newFlight identifier requestedBy resolved checked env.now)
    (fun _ m hf => hf.metadata m) (fun _ hf => hf.congr rfl rfl rfl) (fun _ _ hf hs => hf.initial hs)
    (fun _ origin dest hf => hf.congr (by simp) (by simp) (by simp))

/-- What holds of every produced flight and is kept by every sample, made by hex only where there is one, holds of every
flight of a roster. -/
theorem Roster.forall_mem {P : TrackedFlight → Prop}
    (produced : ∀ env state identifier requestedBy f, ProducedBy Γ env state identifier requestedBy f → P f)
    (sample : ∀ f s, P f → (s.obs.usedHex = true → shouldPollByHex f = true) → P (pollStep Γ f s))
    {flights : List TrackedFlight} (h : Roster Γ flights) : ∀ f ∈ flights, P f := by
  induction h with
  | refl => simp
  | tail _ hs ih =>
    cases hs with
    | track env state identifier requestedBy flight hp =>
      intro f hf
      rcases List.mem_append.mp hf with hf | hf
      · exact ih f hf
      · rw [List.mem_singleton.mp hf]
        exact produced _ _ _ _ _ hp
    | leave _ i => exact fun f hf => ih f (List.mem_of_mem_eraseIdx hf)
    | observe _ i flight s hi byHex =>
      intro f hf
      rcases List.mem_or_eq_of_mem_set hf with hf | rfl
      · exact ih f hf
      · exact sample flight s (ih flight (List.mem_of_getElem? hi)) byHex

/-- Every flight of a roster is in order. -/
theorem Roster.inOrder {flights : List TrackedFlight} (h : Roster Γ flights) : ∀ f ∈ flights, InOrder Γ f :=
  h.forall_mem (fun _ _ _ _ _ hp => hp.inOrder) (fun _ _ hf byHex => hf.sample byHex)

/-- Every flight of a roster was produced by a track and has gone through samples since. -/
theorem Roster.flown {flights : List TrackedFlight} (h : Roster Γ flights) :
    ∀ f ∈ flights, ∃ f₀ samples, Produced Γ f₀ ∧ f = flyThrough Γ f₀ samples := by
  refine h.forall_mem (fun env state identifier requestedBy f hp => ?_) (fun f s hf _ => ?_)
  · exact ⟨f, [], ⟨env, state, identifier, requestedBy, hp⟩, rfl⟩
  · obtain ⟨f₀, samples, hp, hs⟩ := hf
    exact ⟨f₀, samples ++ [s], hp, by rw [flyThrough_append, ← hs]; rfl⟩

end Twitch1337.Tracker
