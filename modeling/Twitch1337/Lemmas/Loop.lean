import Mathlib.Data.List.Nodup
import Twitch1337.Lemmas.Sample

/-!
# The tracker refines the roster

Every step of the loop, and of a round within it, is made of steps of the roster. What carries this is the invariant of a round:
a lookup by hex under way, or answered, was made for a flight that has one, and no step takes a hex away.
-/

namespace Twitch1337.Tracker

open RustStr Chrono

variable {Γ : Ctx}

/-! ## Finding and removing -/

/-- A removal by name takes out the flight the name finds, or nothing. -/
theorem removeFlightAt_cases (state : FlightTrackerState) (query : String) :
    (findFlightIndex Γ state.flights query = none ∧ removeFlightAt Γ state query = (state, none)) ∨
      ∃ i f, findFlightIndex Γ state.flights query = some i ∧ state.flights[i]? = some f ∧
        removeFlightAt Γ state query =
          ({ state with flights := state.flights.eraseIdx i }, some (f.callsign.getD f.identifier.asStr)) := by
  unfold removeFlightAt
  cases hf : findFlightIndex Γ state.flights query with
  | none => exact .inl ⟨rfl, rfl⟩
  | some i =>
    obtain ⟨hi, -⟩ := List.findIdx?_eq_some_iff_getElem.mp hf
    refine .inr ⟨i, state.flights[i], rfl, List.getElem?_eq_getElem hi, ?_⟩
    simp [hi]

/-- The index an identifier finds is the place of a flight with that identifier. -/
theorem findIndexByIdentifier_spec {flights : List TrackedFlight} {identifier : FlightIdentifier} {i : Nat}
    (h : findIndexByIdentifier flights identifier = some i) :
    ∃ f, flights[i]? = some f ∧ f.identifier = identifier := by
  obtain ⟨hi, hp, -⟩ := List.findIdx?_eq_some_iff_getElem.mp h
  exact ⟨flights[i], List.getElem?_eq_getElem hi, by simpa using hp⟩

/-- Removals leave a sublist, by steps of the roster. -/
theorem removeAll_roster (removals : List FlightIdentifier) (flights : List TrackedFlight) :
    Relation.ReflTransGen (RosterStep Γ) flights (removeAll flights removals) := by
  induction removals generalizing flights with
  | nil => exact .refl
  | cons identifier rest ih =>
    rw [removeAll, List.foldl_cons]
    cases findIndexByIdentifier flights identifier with
    | none => exact ih flights
    | some idx => exact .head (.leave flights idx) (ih (flights.eraseIdx idx))

/-- Removals leave a sublist. -/
theorem removeAll_sublist (removals : List FlightIdentifier) (flights : List TrackedFlight) :
    (removeAll flights removals).Sublist flights := by
  induction removals generalizing flights with
  | nil => exact List.Sublist.refl _
  | cons identifier rest ih =>
    rw [removeAll, List.foldl_cons]
    cases findIndexByIdentifier flights identifier with
    | none => exact ih flights
    | some idx => exact (ih (flights.eraseIdx idx)).trans (List.eraseIdx_sublist flights idx)

/-! ## The dashboard commands -/

/-- A dashboard command is answered, and at most removes a flight; any other is handed back. -/
theorem processLatencySensitiveCommand_roster (state : FlightTrackerState) (now : Instant) (cmd : TrackerCommand) :
    (processLatencySensitiveCommand Γ state now cmd).1.flights = state.flights ∨
      ∃ i, (processLatencySensitiveCommand Γ state now cmd).1.flights = state.flights.eraseIdx i := by
  cases cmd with
  | deleteFromWeb identifier reply =>
    rcases removeFlightAt_cases (Γ := Γ) state identifier with ⟨-, h⟩ | ⟨i, f, -, -, h⟩
    · exact .inl (by simp [processLatencySensitiveCommand, h])
    · exact .inr ⟨i, by simp [processLatencySensitiveCommand, h]⟩
  | _ => exact .inl rfl

/-- An untracking takes one flight away, or none. -/
theorem handleUntrack_roster (state : FlightTrackerState) (identifier requestedBy : String) (isMod : Bool) :
    (handleUntrack Γ state identifier requestedBy isMod).1.flights = state.flights ∨
      ∃ i, (handleUntrack Γ state identifier requestedBy isMod).1.flights = state.flights.eraseIdx i := by
  unfold handleUntrack
  split
  · exact .inl rfl
  · split
    · exact .inl rfl
    · rcases removeFlightAt_cases (Γ := Γ) state identifier with ⟨-, h⟩ | ⟨i, f, -, -, h⟩
      · exact .inl (by simp [h])
      · exact .inr ⟨i, by simp [h]⟩

/-- A question leaves the flights. -/
@[simp] theorem handleInfo_flights (env : Env) (state : FlightTrackerState) (identifier : FlightIdentifier) :
    (handleInfo Γ env state identifier).1.flights = state.flights := by
  simp [handleInfo]

/-! ## Capacity and ownership -/

/-- The flights of one requester. -/
def flightsOf (flights : List TrackedFlight) (user : String) : List TrackedFlight :=
  flights.filter fun f => f.trackedBy == user

/-- The bounds of a roster, and its distinct identifiers. -/
structure WithinCapacity (flights : List TrackedFlight) : Prop where
  total : flights.length ≤ maxTrackedFlights
  perUser : ∀ user, (flightsOf flights user).length ≤ maxFlightsPerUser
  distinct : (flights.map (·.identifier)).Nodup

/-- A flight joins under the request it was made with. -/
theorem TrackStages.ticket {env : Env} {state : FlightTrackerState} {identifier : FlightIdentifier}
    {requestedBy : String} {flight : TrackedFlight} (h : TrackStages Γ env state identifier requestedBy flight) :
    flight.toTicket = ⟨identifier, requestedBy, env.now⟩ := by
  refine h.induct (P := fun f => f.toTicket = ⟨identifier, requestedBy, env.now⟩) ?_ ?_ ?_ ?_ ?_
  · intro resolved checked _
    simp [newFlight, seedFlightAliases]
  · intro f m hf
    simpa using hf
  · intro f hf
    exact hf
  · intro f g hf hs
    cases hs with
    | skipped => exact hf
    | unseen => exact hf
    | unconfirmed => exact hf
    | visible => simpa using hf
    | seen => simpa using hf
  · intro f origin dest hf
    simpa using hf

/-- A change in place that keeps a field keeps the list of that field. -/
theorem map_set_of_eq {β : Type} (p : TrackedFlight → β) {flights : List TrackedFlight} {i : Nat} {f g : TrackedFlight}
    (h : flights[i]? = some f) (e : p g = p f) : (flights.set i g).map p = flights.map p := by
  obtain ⟨hi, hf⟩ := List.getElem?_eq_some_iff.mp h
  rw [List.map_set, e, ← hf]
  have hi' : i < (flights.map p).length := by rwa [List.length_map]
  have hm : p flights[i] = (flights.map p)[i] := by simp
  rw [hm, List.set_getElem_self]

/-- The flights of a requester are counted on the owners alone. -/
theorem flightsOf_length (flights : List TrackedFlight) (user : String) :
    (flightsOf flights user).length = (flights.map (·.trackedBy)).countP (· == user) := by
  rw [flightsOf, ← List.countP_eq_length_filter, List.countP_map]
  rfl

/-- A poll leaves who tracks a flight. -/
theorem pollStep_ticket (f : TrackedFlight) (s : Sample) : (pollStep Γ f s).toTicket = f.toTicket := by
  cases ha : acceptedHit f s with
  | none => exact (pollStep_of_ignored ha).1
  | some hit =>
    obtain ⟨ac, raw⟩ := hit
    exact (pollStep_of_accepted ha).1

/-- One step of a roster keeps it within its capacity. -/
theorem RosterStep.withinCapacity {flights flights' : List TrackedFlight} (hs : RosterStep Γ flights flights')
    (h : WithinCapacity flights) : WithinCapacity flights' := by
  cases hs with
  | track env state identifier requestedBy flight hp =>
    have hst := hp.stages
    have ht := hst.ticket
    refine ⟨?_, fun user => ?_, ?_⟩
    · rw [List.length_append]
      exact hst.room
    · have hu := h.perUser user
      rw [flightsOf, List.filter_append, List.length_append]
      by_cases hby : flight.trackedBy = user
      · have hroom := hst.userRoom
        rw [ht] at hby
        simp only at hby
        rw [hby] at hroom
        have hlast : ([flight].filter fun f => f.trackedBy == user).length ≤ 1 := List.length_filter_le _ _
        omega
      · have hlast : ([flight].filter fun f => f.trackedBy == user) = [] := by simp [hby]
        rw [hlast]
        exact hu
    · rw [List.map_append, List.nodup_append]
      refine ⟨h.distinct, by simp, ?_⟩
      intro x hx y hy hxy
      obtain ⟨f, hf, rfl⟩ := List.mem_map.mp hx
      rw [List.map_singleton, List.mem_singleton, ht] at hy
      have hd := hst.unique f hf
      simp [isDuplicate, hxy, hy] at hd
  | leave _ i =>
    have hsub := List.eraseIdx_sublist flights i
    refine ⟨(hsub.length_le).trans h.total, fun user => ?_, h.distinct.sublist (hsub.map _)⟩
    exact ((hsub.filter _).length_le).trans (h.perUser user)
  | observe _ i flight s hi byHex =>
    have ht : (pollStep Γ flight s).toTicket = flight.toTicket := pollStep_ticket flight s
    refine ⟨by rw [List.length_set]; exact h.total, fun user => ?_, ?_⟩
    · rw [flightsOf_length, map_set_of_eq _ hi (by rw [ht]), ← flightsOf_length]
      exact h.perUser user
    · rw [map_set_of_eq _ hi (by rw [ht])]
      exact h.distinct

/-- Every roster is within its capacity. -/
theorem Roster.withinCapacity {flights : List TrackedFlight} (h : Roster Γ flights) : WithinCapacity flights := by
  induction h with
  | refl => exact ⟨by decide, fun _ => by simp [flightsOf], by simp⟩
  | tail _ hs ih => exact hs.withinCapacity ih

/-! ## The round -/

/-- A lookup by hex, under way or answered, belongs to a flight that has a hex. -/
structure LookupsInOrder (r : Round) : Prop where
  fetches : ∀ x ∈ r.inflight, x.usedHex = true → ∀ f ∈ r.state.flights, f.identifier = x.identifier →
    shouldPollByHex f = true
  results : ∀ x ∈ r.fetchResults, x.usedHex = true → ∀ f ∈ r.state.flights, f.identifier = x.identifier →
    shouldPollByHex f = true

/-- A hex that is there stays. -/
theorem NamesChange.hex_isSome {cs hx : Option String} {src : HexSource} {promote : Bool} {a b : Names}
    (h : NamesChange Γ cs hx src promote a b) (ha : a.hex.isSome = true) : b.hex.isSome = true := by
  cases h.hex with
  | kept same _ => rwa [same]
  | set _ _ _ _ _ now _ => rw [now]; rfl

/-- Where a hex is from stays known. -/
theorem NamesChange.hexSource_isSome {cs hx : Option String} {src : HexSource} {promote : Bool} {a b : Names}
    (h : NamesChange Γ cs hx src promote a b) (ha : a.hexSource.isSome = true) : b.hexSource.isSome = true := by
  cases h.hex with
  | kept _ sameSource => rwa [sameSource]
  | set _ _ _ _ _ _ nowSource =>
    rw [nowSource]
    rcases hexSourceAfter_cases a.hexSource src promote with ⟨s, -, e⟩ | ⟨-, e⟩ | ⟨-, -, e⟩ <;> rw [e] <;> rfl

/-- A flight that is polled by hex stays so. -/
theorem shouldPollByHex_sample {f : TrackedFlight} {s : Sample} (h : shouldPollByHex f = true) :
    shouldPollByHex (pollStep Γ f s) = true := by
  cases ha : acceptedHit f s with
  | none =>
    obtain ⟨ht, hn, hs, -⟩ := pollStep_of_ignored (Γ := Γ) ha
    unfold shouldPollByHex at h ⊢
    rwa [ht, hn, hs]
  | some hit =>
    obtain ⟨ac, raw⟩ := hit
    obtain ⟨ht, hc, -, -, hl, -⟩ := pollStep_of_accepted (Γ := Γ) ha
    unfold shouldPollByHex at h ⊢
    rw [ht]
    simp only [Bool.or_eq_true, Bool.and_eq_true] at h ⊢
    rcases h with h | ⟨hx, hs | hs⟩
    · exact .inl h
    · exact .inr ⟨hc.hex_isSome hx, .inl (hc.hexSource_isSome hs)⟩
    · refine .inr ⟨hc.hex_isSome hx, .inr ?_⟩
      rw [hl]
      split
      · rfl
      · exact hs

/-- A flight after a removal or a sample is one of before, or the sample's, with the identifier it had. -/
theorem LookupsInOrder.leave {r r' : Round} (h : LookupsInOrder r) (hin : r'.inflight ⊆ r.inflight)
    (hres : r'.fetchResults ⊆ r.fetchResults)
    (hfl : ∀ f ∈ r'.state.flights, f ∈ r.state.flights ∨ ∃ g ∈ r.state.flights, f.identifier = g.identifier ∧
      (shouldPollByHex g = true → shouldPollByHex f = true)) : LookupsInOrder r' := by
  have key : ∀ id, (∀ f ∈ r.state.flights, f.identifier = id → shouldPollByHex f = true) →
      ∀ f ∈ r'.state.flights, f.identifier = id → shouldPollByHex f = true := by
    intro id hall f hf hid
    rcases hfl f hf with hf | ⟨g, hg, hgid, hgf⟩
    · exact hall f hf hid
    · exact hgf (hall g hg (hgid ▸ hid))
  exact ⟨fun x hx hu => key _ (h.fetches x (hin hx) hu), fun x hx hu => key _ (h.results x (hres hx) hu)⟩

/-- A round looks up the flights in their order. -/
theorem beginRound_inOrder (state : FlightTrackerState) (now : Instant) (hn : (state.flights.map (·.identifier)).Nodup) :
    LookupsInOrder (beginRound Γ state now) := by
  refine ⟨fun x hx hu f hf hid => ?_, by simp [beginRound]⟩
  simp only [beginRound, List.mem_map, List.mem_filter] at hx hf
  obtain ⟨g, ⟨hg, -⟩, rfl⟩ := hx
  have hid' : f.identifier = g.identifier := by
    rw [hid]
    unfold planFetch
    split <;> rfl
  rw [List.inj_on_of_nodup_map hn hf hg hid']
  unfold planFetch at hu
  split at hu
  · assumption
  · cases hu

/-- The flight a sample of a round leaves, and what it adds to the messages and the removals of the round. -/
def Round.observe (Γ : Ctx) (r : Round) (attempt : PollAttempt) (s : Sample) (i : Nat) (f : TrackedFlight) : Round :=
  { r with
    state := { r.state with flights := r.state.flights.set i (pollStep Γ f s) }
    changed := true
    messages := r.messages ++ (sampleEmits Γ f s).map fun emit => (pollStep Γ f s, emit)
    removals := r.removals ++ (advanceFlight Γ f s.obs s.now).2.removal.toList.map fun _ => attempt.identifier }

/-- The sample an answer makes for the flight it is applied to. -/
def Round.sampleOf (r : Round) (attempt : PollAttempt) (getFlightRoute : String → Option FlightRoute) : Sample :=
  ⟨⟨attempt.usedHex, attempt.result.outcome⟩, r.now, getFlightRoute⟩

/-- What a round can do in one step. -/
inductive RoundStep (Γ : Ctx) (r : Round) : RoundEvent → Round → Prop
  | joined (fetch : Fetch) (result : PollResult) (mem : fetch ∈ r.inflight) (admits : fetch.admits result = true) :
      RoundStep Γ r (.joined fetch result)
        { r with
          inflight := r.inflight.erase fetch
          fetchResults := r.fetchResults ++ [⟨fetch.identifier, fetch.usedHex, result⟩] }
  | lost (fetch : Fetch) (mem : fetch ∈ r.inflight) :
      RoundStep Γ r (.lost fetch) { r with inflight := r.inflight.erase fetch }
  | command (now : Instant) (cmd : TrackerCommand) : RoundStep Γ r (.command now cmd) (r.receive Γ now cmd)
  | dropped (getFlightRoute : String → Option FlightRoute) (attempt : PollAttempt) (rest : List PollAttempt)
      (results : r.fetchResults = attempt :: rest)
      (gone : findIndexByIdentifier r.state.flights attempt.identifier = none) :
      RoundStep Γ r (.apply getFlightRoute) { r with fetchResults := rest }
  | applied (getFlightRoute : String → Option FlightRoute) (attempt : PollAttempt) (rest : List PollAttempt) (i : Nat)
      (f : TrackedFlight) (results : r.fetchResults = attempt :: rest)
      (found : findIndexByIdentifier r.state.flights attempt.identifier = some i)
      (at_ : r.state.flights[i]? = some f) (own : f.identifier = attempt.identifier) :
      RoundStep Γ r (.apply getFlightRoute)
        ({ r with fetchResults := rest }.observe Γ attempt (r.sampleOf attempt getFlightRoute) i f)
  | sweep (settled : r.inflight = []) (applied : r.fetchResults = []) (first : r.swept = false) :
      RoundStep Γ r .sweep r.sweep

/-- Every step of a round is one of them. -/
theorem Round.step_cases {r r' : Round} {e : RoundEvent} (h : r.step Γ e = some r') : RoundStep Γ r e r' := by
  cases e with
  | joined fetch result =>
    simp only [Round.step, Option.ite_none_right_eq_some, Option.some.injEq] at h
    obtain ⟨⟨mem, admits⟩, rfl⟩ := h
    exact .joined fetch result mem admits
  | lost fetch =>
    simp only [Round.step, Option.ite_none_right_eq_some, Option.some.injEq] at h
    obtain ⟨mem, rfl⟩ := h
    exact .lost fetch mem
  | command now cmd =>
    simp only [Round.step, Option.ite_none_right_eq_some, Option.some.injEq] at h
    obtain ⟨-, rfl⟩ := h
    exact .command now cmd
  | apply getFlightRoute =>
    simp only [Round.step, Option.ite_none_right_eq_some] at h
    obtain ⟨-, h⟩ := h
    split at h
    · cases h
    · rename_i attempt rest results
      rw [Option.some.injEq] at h
      subst h
      unfold Round.applyAttempt
      cases hf : findIndexByIdentifier r.state.flights attempt.identifier with
      | none =>
        exact .dropped getFlightRoute attempt rest results hf
      | some i =>
        obtain ⟨f, hi, hid⟩ := findIndexByIdentifier_spec hf
        simp only [hi]
        exact .applied getFlightRoute attempt rest i f results hf hi hid
  | sweep =>
    simp only [Round.step, Option.ite_none_right_eq_some, Option.some.injEq, Bool.and_eq_true, Bool.not_eq_true',
      List.isEmpty_iff] at h
    obtain ⟨⟨⟨settled, applied⟩, first⟩, rfl⟩ := h
    exact .sweep settled applied first

/-! ## What a step of the loop does to the flights -/

/-- Between rounds nothing is observed. -/
theorem TrackerLoop.observes_serving (state : FlightTrackerState) (deferred : List TrackerCommand) (e : Event) :
    (TrackerLoop.serving state deferred).observes e = none := by
  cases e <;> rfl

/-- In a round no command is processed. -/
theorem TrackerLoop.processes_polling (r : Round) (e : Event) : (TrackerLoop.polling r).processes e = none := by
  cases e <;> rfl

/-- What a step observes is the flight that the next answer of a round was fetched for. -/
theorem TrackerLoop.observes_spec {t : TrackerLoop} {e : Event} {i : Nat} {f : TrackedFlight} {s : Sample}
    (h : t.observes e = some (i, f, s)) :
    ∃ r getFlightRoute attempt rest, t = .polling r ∧ e = .round (.apply getFlightRoute) ∧
      r.fetchResults = attempt :: rest ∧ findIndexByIdentifier r.state.flights attempt.identifier = some i ∧
      r.state.flights[i]? = some f ∧ s = r.sampleOf attempt getFlightRoute := by
  unfold TrackerLoop.observes at h
  split at h
  · rename_i r getFlightRoute
    split at h
    · cases h
    · rename_i attempt rest hres
      rw [Option.bind_eq_some_iff] at h
      obtain ⟨j, hj, h⟩ := h
      rw [Option.map_eq_some_iff] at h
      obtain ⟨g, hg, h⟩ := h
      simp only [Prod.mk.injEq] at h
      obtain ⟨rfl, rfl, rfl⟩ := h
      exact ⟨r, getFlightRoute, attempt, rest, rfl, rfl, hres, hj, hg, rfl⟩
  · cases h

/-- The flights after a step of the loop. -/
inductive FlightsChange (Γ : Ctx) (t : TrackerLoop) (e : Event) : List TrackedFlight → Prop
  | same : FlightsChange Γ t e t.state.flights
  | track (env : Env) (identifier : FlightIdentifier) (requestedBy : String) (replyTo : PrivmsgMessage)
      (flight : TrackedFlight) (h : t.processes e = some (env, .track identifier requestedBy replyTo))
      (hp : ProducedBy Γ env t.state identifier requestedBy flight) : FlightsChange Γ t e (t.state.flights ++ [flight])
  | leave (i : Nat) : FlightsChange Γ t e (t.state.flights.eraseIdx i)
  | observe (i : Nat) (flight : TrackedFlight) (s : Sample) (h : t.observes e = some (i, flight, s))
      (hi : t.state.flights[i]? = some flight) : FlightsChange Γ t e (t.state.flights.set i (pollStep Γ flight s))
  | sweep (removals : List FlightIdentifier) : FlightsChange Γ t e (removeAll t.state.flights removals)

/-- Flights may leave. -/
theorem FlightsChange.of_leave {t : TrackerLoop} {e : Event} {flights : List TrackedFlight}
    (h : flights = t.state.flights ∨ ∃ i, flights = t.state.flights.eraseIdx i) : FlightsChange Γ t e flights := by
  rcases h with rfl | ⟨i, rfl⟩
  · exact .same
  · exact .leave i

/-- What a command does to the flights. -/
theorem processCommand_change {t : TrackerLoop} {e : Event} {env : Env} {cmd : TrackerCommand}
    (h : t.processes e = some (env, cmd)) : FlightsChange Γ t e (processCommand Γ env t.state cmd).1.flights := by
  cases cmd with
  | track identifier requestedBy replyTo =>
    have hp : (processCommand Γ env t.state (.track identifier requestedBy replyTo)).1 =
      (handleTrack Γ env t.state identifier requestedBy).1 := rfl
    rw [hp]
    rcases handleTrack_cases Γ env t.state identifier requestedBy with h' | ⟨f, h', -⟩
    · rw [h']
      exact .same
    · rw [h']
      exact .track env identifier requestedBy replyTo f h h'
  | untrack identifier requestedBy isMod replyTo =>
    exact .of_leave (handleUntrack_roster t.state identifier requestedBy isMod)
  | status identifier replyTo => exact .same
  | info identifier replyTo =>
    have hp : (processCommand Γ env t.state (.info identifier replyTo)).1 = (handleInfo Γ env t.state identifier).1 := rfl
    rw [hp, handleInfo_flights]
    exact .same
  | snapshot reply => exact .same
  | deleteFromWeb identifier reply =>
    exact .of_leave (processLatencySensitiveCommand_roster t.state env.now (.deleteFromWeb identifier reply))

/-- What a step of a round does to them. -/
theorem Round.step_change {r r' : Round} {e : RoundEvent} (h : r.step Γ e = some r') :
    FlightsChange Γ (.polling r) (.round e) r'.state.flights := by
  cases Round.step_cases h with
  | joined => exact .same
  | lost => exact .same
  | command now cmd => exact .of_leave (processLatencySensitiveCommand_roster r.state now cmd)
  | dropped => exact .same
  | applied getFlightRoute attempt rest i f results found at_ own =>
    refine .observe i f _ ?_ at_
    simp [TrackerLoop.observes, Round.sampleOf, results, found, at_]
  | sweep => exact .sweep r.removals

/-- Every step of the loop is one of the changes. -/
theorem TrackerLoop.step_change {t t' : TrackerLoop} {e : Event} (h : t.step Γ e = some t') :
    FlightsChange Γ t e t'.state.flights := by
  unfold TrackerLoop.step at h
  split at h
  · exact Option.some.inj h ▸ processCommand_change rfl
  · exact Option.some.inj h ▸ processCommand_change rfl
  · split at h
    · cases h
    · exact Option.some.inj h ▸ .same
  · rw [Option.map_eq_some_iff] at h
    obtain ⟨r', hs, rfl⟩ := h
    exact Round.step_change hs
  · split at h
    · exact Option.some.inj h ▸ .same
    · cases h
  · cases h

/-- A flight after a step was there before it, or is the one that joined, or the one observed. -/
theorem FlightsChange.mem {t : TrackerLoop} {e : Event} {flights : List TrackedFlight} (h : FlightsChange Γ t e flights)
    {f : TrackedFlight} (hf : f ∈ flights) :
    f ∈ t.state.flights ∨
      (∃ env identifier requestedBy replyTo, t.processes e = some (env, .track identifier requestedBy replyTo) ∧
        ProducedBy Γ env t.state identifier requestedBy f) ∨
      ∃ i g s, t.observes e = some (i, g, s) ∧ t.state.flights[i]? = some g ∧ f = pollStep Γ g s := by
  cases h with
  | same => exact .inl hf
  | track env identifier requestedBy replyTo flight h hp =>
    rcases List.mem_append.mp hf with hf | hf
    · exact .inl hf
    · exact .inr (.inl ⟨env, identifier, requestedBy, replyTo, h, List.mem_singleton.mp hf ▸ hp⟩)
  | leave i => exact .inl (List.mem_of_mem_eraseIdx hf)
  | observe i flight s h hi =>
    rcases List.mem_or_eq_of_mem_set hf with hf | hf
    · exact .inl hf
    · exact .inr (.inr ⟨i, flight, s, h, hi, hf⟩)
  | sweep removals => exact .inl ((removeAll_sublist removals _).subset hf)

/-! ## The refinement -/

/-- The invariant of the loop: its flights are a roster, and the lookups of a round belong to them. -/
structure LoopInOrder (Γ : Ctx) (t : TrackerLoop) : Prop where
  roster : Roster Γ t.state.flights
  lookups : ∀ r, t = .polling r → LookupsInOrder r

/-- What a step observes was looked up by hex only where the flight has one. -/
theorem LoopInOrder.observes_byHex {t : TrackerLoop} {e : Event} {i : Nat} {f : TrackedFlight} {s : Sample}
    (hi : LoopInOrder Γ t) (h : t.observes e = some (i, f, s)) : s.obs.usedHex = true → shouldPollByHex f = true := by
  obtain ⟨r, getFlightRoute, attempt, rest, rfl, rfl, hres, hj, hg, rfl⟩ := TrackerLoop.observes_spec h
  intro hu
  obtain ⟨g', hg', hid⟩ := findIndexByIdentifier_spec hj
  rw [hg, Option.some.injEq] at hg'
  subst hg'
  exact (hi.lookups r rfl).results attempt (by rw [hres]; exact List.mem_cons_self) hu f (List.mem_of_getElem? hg) hid

/-- Every change is made of steps of the roster. -/
theorem FlightsChange.roster {t : TrackerLoop} {e : Event} {flights : List TrackedFlight}
    (h : FlightsChange Γ t e flights) (hi : LoopInOrder Γ t) :
    Relation.ReflTransGen (RosterStep Γ) t.state.flights flights := by
  cases h with
  | same => exact .refl
  | track env identifier requestedBy replyTo flight h hp => exact .single (.track env t.state identifier requestedBy flight hp)
  | leave i => exact .single (.leave _ i)
  | observe i flight s h hat => exact .single (.observe _ i flight s hat (hi.observes_byHex h))
  | sweep removals => exact removeAll_roster removals _

/-- The lookups of a round stay in order. -/
theorem Round.step_lookups {r r' : Round} {e : RoundEvent} (hl : LookupsInOrder r) (h : r.step Γ e = some r') :
    LookupsInOrder r' := by
  have hfl : ∀ f ∈ r'.state.flights, f ∈ r.state.flights ∨ ∃ g ∈ r.state.flights, f.identifier = g.identifier ∧
      (shouldPollByHex g = true → shouldPollByHex f = true) := by
    intro f hf
    rcases (Round.step_change h).mem hf with hf | ⟨env, id, by_, msg, hp, -⟩ | ⟨i, g, s, -, hi, rfl⟩
    · exact .inl hf
    · cases hp
    · exact .inr ⟨g, List.mem_of_getElem? hi, by rw [pollStep_ticket], shouldPollByHex_sample⟩
  cases Round.step_cases h with
  | joined fetch result mem admits =>
    refine ⟨fun x hx => hl.fetches x (List.mem_of_mem_erase hx), fun x hx hu => ?_⟩
    rcases List.mem_append.mp hx with hx | hx
    · exact hl.results x hx hu
    · rw [List.mem_singleton.mp hx] at hu ⊢
      exact hl.fetches fetch mem hu
  | lost fetch mem => exact ⟨fun x hx => hl.fetches x (List.mem_of_mem_erase hx), hl.results⟩
  | command now cmd => exact hl.leave (List.Subset.refl _) (List.Subset.refl _) hfl
  | dropped getFlightRoute attempt rest results gone =>
    exact hl.leave (List.Subset.refl _) (results ▸ List.subset_cons_self _ _) hfl
  | applied getFlightRoute attempt rest i f results found at_ own =>
    exact hl.leave (List.Subset.refl _) (results ▸ List.subset_cons_self _ _) hfl
  | sweep => exact hl.leave (List.Subset.refl _) (List.Subset.refl _) hfl

/-- Every step of the loop keeps its invariant. -/
theorem TrackerLoop.step_inOrder {t t' : TrackerLoop} {e : Event} (hi : LoopInOrder Γ t) (h : t.step Γ e = some t') :
    LoopInOrder Γ t' := by
  refine ⟨hi.roster.trans ((TrackerLoop.step_change h).roster hi), fun r hr => ?_⟩
  subst hr
  unfold TrackerLoop.step at h
  split at h
  · cases h
  · cases h
  · split at h
    · cases h
    · rw [Option.some.injEq, TrackerLoop.polling.injEq] at h
      exact h ▸ beginRound_inOrder _ _ hi.roster.withinCapacity.distinct
  · rename_i r₀ e
    rw [Option.map_eq_some_iff] at h
    obtain ⟨r', hs, hr⟩ := h
    rw [TrackerLoop.polling.injEq] at hr
    exact hr ▸ Round.step_lookups (hi.lookups r₀ rfl) hs
  · split at h <;> cases h
  · cases h

/-- In every state the tracker reaches, its invariant holds. -/
theorem TrackerLoop.Reaches.inOrder {events : List Event} {t : TrackerLoop} (h : TrackerLoop.Reaches Γ events t) :
    LoopInOrder Γ t := by
  have hempty : LoopInOrder Γ TrackerLoop.empty := ⟨Relation.ReflTransGen.refl, nofun⟩
  exact Machine.run_invariant (fun _ _ _ hi hs => TrackerLoop.step_inOrder hi hs) hempty h

end Twitch1337.Tracker
