import Twitch1337.Lemmas.Names
import Twitch1337.Lib.Directory
import Twitch1337.Theorems.Restart

/-!
# Which flight a name finds

A command names a flight, and the first flight that goes by the name is taken. A duplicate is turned down when a flight is
tracked, but the polls that follow give names to flights and ask no one. Here is what the names taken over in a run have to
satisfy, so that each flight is found by its identifier and by the name the dashboard shows for it.
-/

namespace Twitch1337.Tracker

open RustStr Chrono

variable {Γ : Ctx}

/-! ## Tracked flights as a directory -/

/-- The names a flight is addressed by, in the upper case in which they are looked up. -/
def addressNames (Γ : Ctx) (f : TrackedFlight) : List String :=
  [Γ.upper.toUppercase f.identifier.asStr, Γ.upper.toUppercase (dashboardIdentifier f)]

/-- Every flight is found by its identifier and by the name the dashboard shows for it. -/
def Addressable (Γ : Ctx) (flights : List TrackedFlight) : Prop := Directory.Addressable answersTo (addressNames Γ) flights

/-- Every flight is found under its own two names. -/
theorem addressable_iff_finds {flights : List TrackedFlight} :
    Addressable Γ flights ↔ ∀ i f, flights[i]? = some f →
      findFlightIndex Γ flights f.identifier.asStr = some i ∧
      findFlightIndex Γ flights (dashboardIdentifier f) = some i := by
  rw [Addressable, Directory.addressable_iff]
  constructor
  · intro h i f hf
    have hn := h i f hf
    simp only [addressNames, List.mem_cons, List.not_mem_nil, or_false, forall_eq_or_imp, forall_eq] at hn
    exact hn
  · intro h i f hf
    simp only [addressNames, List.mem_cons, List.not_mem_nil, or_false, forall_eq_or_imp, forall_eq]
    exact h i f hf

/-! ## The condition -/

/-- A new flight can be told from the tracked ones. Its identifier was read from a message. Its callsign has no whitespace
around it, or upper case leaves it as it is. No tracked flight has the callsign it is addressed by as a hex, nor the hex as a
callsign. What is a callsign of both, or a hex of both, the duplicate check turns down; only where upper case changes a letter
that is not ASCII does it miss a callsign. -/
structure JoinsFree (Γ : Ctx) (flights : List TrackedFlight) (f : TrackedFlight) : Prop where
  parsed : ∃ input, FlightIdentifier.parse Γ input = .ok f.identifier
  ownCallsign : ∀ cs, f.callsign = some cs → trim cs = cs ∨ eqIgnoreAsciiCase cs (Γ.upper.toUppercase cs) = true
  callsigns : ∀ n, identifierCallsign f.identifier = some n ∨ f.callsign = some n → ∀ g ∈ flights,
    g.hex.any (eqIgnoreAsciiCase · (Γ.upper.toUppercase n)) = false ∧
      (eqIgnoreAsciiCase n (Γ.upper.toUppercase n) = true ∨ flightMatchesCallsign g (Γ.upper.toUppercase n) = false)
  hexes : ∀ n, f.identifier = .hex n ∨ (f.callsign = none ∧ f.hex = some n) → ∀ g ∈ flights,
    flightMatchesCallsign g (Γ.upper.toUppercase n) = false

/-- The names a flight takes over from a sample tell it from the others: no flight before it goes by the name that it is shown
under from now on, and no flight after it is addressed by what it goes by from now on. -/
structure SeenFree (Γ : Ctx) (flights : List TrackedFlight) (i : Nat) (f : TrackedFlight) (s : Sample) : Prop where
  shown : ∀ n, takenCallsign f s = some n ∨ (takenCallsign f s = none ∧ f.callsign = none ∧ takenHex Γ f s = some n) →
    ∀ g ∈ flights.take i, answersTo g (Γ.upper.toUppercase n) = false
  taken : ∀ n, Takes Γ f s n → ∀ g ∈ flights.drop (i + 1), ∀ u ∈ addressNames Γ g, eqIgnoreAsciiCase n u = false

/-- The condition on a step of the loop. -/
structure NamesFree (Γ : Ctx) (t : TrackerLoop) (e : Event) : Prop where
  joins : ∀ env identifier requestedBy replyTo f,
    t.processes e = some (env, .track identifier requestedBy replyTo) →
    ProducedBy Γ env t.state identifier requestedBy f → JoinsFree Γ t.state.flights f
  seen : ∀ i f s, t.observes e = some (i, f, s) → SeenFree Γ t.state.flights i f s

/-! ## The hex of a flight -/

/-- The hex of a flight is found by its upper case, and is the one of its identifier. -/
structure HexInOrder (Γ : Ctx) (f : TrackedFlight) : Prop where
  stable : ∀ h, f.hex = some h → eqIgnoreAsciiCase h (Γ.upper.toUppercase h) = true
  known : ∀ h, f.identifier = .hex h → f.hex.any (eqIgnoreAsciiCase · h) = true

/-- A change of names keeps the hex in order. -/
theorem HexInOrder.change {f g : TrackedFlight} {c : Option String} {src : HexSource} {promote : Bool}
    (h : HexInOrder Γ f) (ht : g.toTicket = f.toTicket) (hc : HexChange Γ c src promote f.toNames g.toNames) :
    HexInOrder Γ g := by
  cases hc with
  | kept same _ => exact ⟨by rw [same]; exact h.stable, by rw [same, ht]; exact h.known⟩
  | set c x offer normal consistent now _ =>
    refine ⟨fun y hy => ?_, fun y hy => ?_⟩
    · rw [now, Option.some.injEq] at hy
      rw [← hy, toUppercase_of_normalIcao24 normal]
      exact eqIgnoreAsciiCase_refl x
    · have hk := h.known y (by rw [← ht]; exact hy)
      rw [now]
      cases hx : f.hex with
      | none =>
        rw [hx] at hk
        cases hk
      | some old =>
        rw [hx] at hk
        simp only [Option.any_some] at hk ⊢
        rw [eqIgnoreAsciiCase_comm] at hk ⊢
        rw [← eqIgnoreAsciiCase_congr (consistent old hx)]
        exact hk

/-- A sample keeps the hex of a flight in order. -/
theorem HexInOrder.sample {f : TrackedFlight} (h : HexInOrder Γ f) (s : Sample) : HexInOrder Γ (pollStep Γ f s) := by
  cases ha : acceptedHit f s with
  | none =>
    obtain ⟨ht, hn, -⟩ := pollStep_of_ignored (Γ := Γ) ha
    exact ⟨by rw [hn]; exact h.stable, by rw [hn, ht]; exact h.known⟩
  | some hit =>
    obtain ⟨ac, raw⟩ := hit
    obtain ⟨ht, hc, -⟩ := pollStep_of_accepted (Γ := Γ) ha
    exact h.change ht hc.hex

/-- A new flight whose identifier is ASCII has its hex in order. -/
theorem ProducedBy.hexInOrder {env : Env} {state : FlightTrackerState} {identifier : FlightIdentifier}
    {requestedBy : String} {f : TrackedFlight} (h : ProducedBy Γ env state identifier requestedBy f)
    (hascii : ∀ c ∈ identifier.asStr.toList, c.toNat < 128) : HexInOrder Γ f := by
  refine h.stages.induct (P := HexInOrder Γ) ?_ ?_ ?_ ?_ ?_
  · intro resolved checked _
    refine ⟨fun x hx => ?_, fun x hx => ?_⟩
    · cases identifier with
      | callsign s => simp [newFlight, seedFlightAliases] at hx
      | hex y =>
        simp only [newFlight, seedFlightAliases, addAliasFrom_frame, Option.some.injEq] at hx
        rw [← hx]
        exact Γ.upper.eqIgnoreAsciiCase_toUppercase hascii
    · simp only [newFlight, seedFlightAliases, addAliasFrom_frame] at hx ⊢
      rw [hx]
      simp
  · intro f m hf
    exact hf.change (by simp) (applyAviationstackMetadata_names f m).hex
  · intro f hf
    exact ⟨hf.stable, hf.known⟩
  · intro f g hf hs
    cases hs with
    | skipped => exact hf
    | unseen => exact ⟨hf.stable, hf.known⟩
    | unconfirmed => exact ⟨hf.stable, hf.known⟩
    | visible ac usedHex confirmation =>
      exact hf.change (by simp) (applyObservedAircraft_names { f with lastAdsbPollAt := some env.now } ac confirmation false).hex
    | seen ac usedHex confirmation =>
      exact hf.change (by simp [seeTarget])
        (applyObservedAircraft_names { f with lastAdsbPollAt := some env.now } ac confirmation true).hex
  · intro f origin dest hf
    exact ⟨by simpa using hf.stable, by simpa using hf.known⟩

/-! ## A flight answers to its own names -/

/-- A flight answers to a callsign that its aliases know. -/
theorem answersTo_callsign {f : TrackedFlight} {cs : String} (hf : f.callsign = some cs)
    (hk : Knows Γ f.aliasCallsigns cs)
    (hs : trim cs = cs ∨ eqIgnoreAsciiCase cs (Γ.upper.toUppercase cs) = true) :
    answersTo f (Γ.upper.toUppercase cs) = true := by
  have hself : eqIgnoreAsciiCase cs (Γ.upper.toUppercase cs) = true → answersTo f (Γ.upper.toUppercase cs) = true := by
    intro h
    simp [answersTo, hf, h]
  rcases hs with htrim | hself'
  · by_cases hempty : cs.isEmpty = true
    · refine hself (Γ.upper.eqIgnoreAsciiCase_toUppercase fun c hc => ?_)
      rw [String.isEmpty_iff.mp hempty] at hc
      simp at hc
    · have hcode : normalizeFlightCode Γ cs = some (Γ.upper.toUppercase cs) := by
        simp [normalizeFlightCode, htrim, hempty]
      simp [answersTo, hk _ hcode]
  · exact hself hself'

/-- A flight answers to its hex. -/
theorem answersTo_hex {f : TrackedFlight} {h : String} (ho : HexInOrder Γ f) (hf : f.hex = some h) :
    answersTo f (Γ.upper.toUppercase h) = true := by
  simp [answersTo, hf, ho.stable h hf]

/-- A flight answers to an identifier that upper case leaves as it is. -/
theorem answersTo_identifier {f : TrackedFlight}
    (h : eqIgnoreAsciiCase f.identifier.asStr (Γ.upper.toUppercase f.identifier.asStr) = true) :
    answersTo f (Γ.upper.toUppercase f.identifier.asStr) = true := by
  simp [answersTo, h]

/-- What a flight is shown under. -/
theorem dashboardIdentifier_cases (f : TrackedFlight) :
    f.callsign = some (dashboardIdentifier f) ∨
    (f.callsign = none ∧ f.hex = some (dashboardIdentifier f)) ∨
    (f.callsign = none ∧ f.hex = none ∧ dashboardIdentifier f = f.identifier.asStr) := by
  unfold dashboardIdentifier
  cases f.callsign with
  | some cs => exact .inl rfl
  | none =>
    cases f.hex with
    | some h => exact .inr (.inl ⟨rfl, rfl⟩)
    | none => exact .inr (.inr ⟨rfl, rfl, rfl⟩)

/-! ## A flight joins -/

/-- What the duplicate check lets through shares no callsign and no hex with a tracked flight. -/
theorem not_duplicate_spec {identifier : FlightIdentifier} {cs hx : Option String} {g : TrackedFlight}
    (h : isDuplicate identifier cs hx g = false) :
    (∀ n, identifierCallsign identifier = some n ∨ cs = some n → flightMatchesCallsign g n = false) ∧
    (∀ n, identifier = .hex n ∨ hx = some n → g.hex.any (eqIgnoreAsciiCase · n) = false) := by
  simp only [isDuplicate, Bool.or_eq_false_iff] at h
  obtain ⟨⟨⟨⟨-, hmatch⟩, hid⟩, hcs⟩, hhex⟩ := h
  refine ⟨?_, ?_⟩
  · rintro n (hn | rfl)
    · rw [hn, Option.any_some, candidateCallsignMatchesFlight, Bool.or_eq_false_iff] at hid
      exact hid.1
    · rw [Option.any_some, candidateCallsignMatchesFlight, Bool.or_eq_false_iff] at hcs
      exact hcs.1
  · rintro n (rfl | rfl)
    · exact hmatch
    · exact hhex

/-- The case of a callsign does not matter. -/
theorem flightMatchesCallsign_congr {u v : String} (h : eqIgnoreAsciiCase u v = true) (f : TrackedFlight) :
    flightMatchesCallsign f u = flightMatchesCallsign f v := by
  simp only [flightMatchesCallsign, eqIgnoreAsciiCase_congr h]

/-- A flight with its hex in order answers to a name as a callsign or as its hex. -/
theorem not_answersTo {g : TrackedFlight} {u : String} (ho : HexInOrder Γ g) (hcs : flightMatchesCallsign g u = false)
    (hhex : g.hex.any (eqIgnoreAsciiCase · u) = false) : answersTo g u = false := by
  by_contra h
  rw [Bool.not_eq_false] at h
  rcases answersTo_cases h with h | h | ⟨x, hid, hx⟩
  · rw [hcs] at h
    cases h
  · rw [hhex] at h
    cases h
  · have hk := ho.known x hid
    simp only [eqIgnoreAsciiCase_congr hx] at hk
    rw [hhex] at hk
    cases hk

/-- A flight that joins under free names can be told from the others. -/
theorem JoinsFree.concat {env : Env} {state : FlightTrackerState} {identifier : FlightIdentifier} {requestedBy : String}
    {f : TrackedFlight} (hj : JoinsFree Γ state.flights f) (hp : ProducedBy Γ env state identifier requestedBy f)
    (ho : ∀ g ∈ state.flights, HexInOrder Γ g) (h : Addressable Γ state.flights) :
    Addressable Γ (state.flights ++ [f]) := by
  have hst := hp.stages
  have hid : f.identifier = identifier := by rw [hst.ticket]
  obtain ⟨input, hparse⟩ := hj.parsed
  have hascii := parse_ascii hparse
  have hself := Γ.upper.eqIgnoreAsciiCase_toUppercase hascii
  have hof : HexInOrder Γ f := hp.hexInOrder (hid ▸ hascii)
  have hdup : ∀ g ∈ state.flights, isDuplicate f.identifier f.callsign f.hex g = false := by
    rw [hid]
    exact hst.unique
  -- A callsign, and a hex, that no other flight goes by.
  have hcallsign : ∀ n, identifierCallsign f.identifier = some n ∨ f.callsign = some n → ∀ g ∈ state.flights,
      answersTo g (Γ.upper.toUppercase n) = false := by
    intro n hn g hg
    obtain ⟨hhex, hcs⟩ := hj.callsigns n hn g hg
    refine not_answersTo (ho g hg) ?_ hhex
    rcases hcs with hcs | hcs
    · rw [← flightMatchesCallsign_congr hcs]
      exact (not_duplicate_spec (hdup g hg)).1 n hn
    · exact hcs
  have hhexes : ∀ n, eqIgnoreAsciiCase n (Γ.upper.toUppercase n) = true →
      f.identifier = .hex n ∨ (f.callsign = none ∧ f.hex = some n) → ∀ g ∈ state.flights,
      answersTo g (Γ.upper.toUppercase n) = false := by
    intro n hs hn g hg
    refine not_answersTo (ho g hg) (hj.hexes n hn g hg) ?_
    have hd := (not_duplicate_spec (hdup g hg)).2 n (hn.imp_right And.right)
    rw [← hd]
    congr 1
    funext x
    exact (eqIgnoreAsciiCase_congr hs x).symm
  have hidentifier : ∀ g ∈ state.flights, answersTo g (Γ.upper.toUppercase f.identifier.asStr) = false := by
    cases hx : f.identifier with
    | callsign s => exact hcallsign s (.inl (by rw [hx]; rfl))
    | hex x => exact hhexes x (by rw [hx] at hself; exact hself) (.inl hx)
  refine Directory.Addressable.concat h ?_ ?_
  · intro n hn
    rcases List.mem_cons.mp hn with rfl | hn
    · exact answersTo_identifier hself
    · rw [List.mem_singleton.mp hn]
      rcases dashboardIdentifier_cases f with hd | ⟨-, hd⟩ | ⟨-, -, hd⟩
      · exact answersTo_callsign hd (hp.inOrder.names.callsignKnown _ hd) (hj.ownCallsign _ hd)
      · exact answersTo_hex hof hd
      · rw [hd]
        exact answersTo_identifier hself
  · intro g hg n hn
    rcases List.mem_cons.mp hn with rfl | hn
    · exact hidentifier g hg
    · rw [List.mem_singleton.mp hn]
      rcases dashboardIdentifier_cases f with hd | ⟨hnone, hd⟩ | ⟨-, -, hd⟩
      · exact hcallsign _ (.inr hd) g hg
      · exact hhexes _ (hof.stable _ hd) (.inr ⟨hnone, hd⟩) g hg
      · rw [hd]
        exact hidentifier g hg

/-! ## A flight is seen -/

/-- What a flight is shown under after a sample: a name it took over from the sample, or its old one up to ASCII case. -/
theorem dashboardIdentifier_pollStep {f : TrackedFlight} {s : Sample} (ho : HexInOrder Γ f) :
    (takenCallsign f s = some (dashboardIdentifier (pollStep Γ f s)) ∨
      (takenCallsign f s = none ∧ f.callsign = none ∧ takenHex Γ f s = some (dashboardIdentifier (pollStep Γ f s)))) ∨
    eqIgnoreAsciiCase (Γ.upper.toUppercase (dashboardIdentifier (pollStep Γ f s)))
      (Γ.upper.toUppercase (dashboardIdentifier f)) = true := by
  obtain ⟨hcs, -, hhex⟩ := pollStep_names (Γ := Γ) f s
  rcases dashboardIdentifier_cases (pollStep Γ f s) with hd | ⟨hnone, hd⟩ | ⟨hnone, hx, hd⟩
  · rw [hcs, Option.or_eq_some_iff] at hd
    rcases hd with ht | ⟨-, hf⟩
    · exact .inl (.inl ht)
    · right
      have hsame : dashboardIdentifier f = dashboardIdentifier (pollStep Γ f s) := by
        rw [dashboardIdentifier, hf]
        rfl
      rw [hsame]
      exact eqIgnoreAsciiCase_refl _
  · rw [hcs, Option.or_eq_none_iff] at hnone
    rcases hhex with ⟨-, hx⟩ | ⟨old, x, hold, hx, hsame⟩
    · exact .inl (.inr ⟨hnone.1, hnone.2, hx ▸ hd⟩)
    · right
      have hshown : dashboardIdentifier f = old := by
        rw [dashboardIdentifier, hnone.2, hold]
        rfl
      rw [hx, Option.some.injEq] at hd
      rw [hshown, ← hd]
      rcases hsame with rfl | ⟨hstable, hsame⟩
      · exact eqIgnoreAsciiCase_refl _
      · rw [hstable, eqIgnoreAsciiCase_comm, ← eqIgnoreAsciiCase_congr hsame, eqIgnoreAsciiCase_comm]
        exact ho.stable old hold
  · right
    rw [hcs, Option.or_eq_none_iff] at hnone
    have hf : f.hex = none := by
      rcases hhex with ⟨hf, -⟩ | ⟨_, _, -, hsome, -⟩
      · exact hf
      · rw [hsome] at hx
        cases hx
    have hshown : dashboardIdentifier f = f.identifier.asStr := by
      rw [dashboardIdentifier, hnone.2, hf]
      rfl
    rw [hd, hshown, pollStep_ticket]
    exact eqIgnoreAsciiCase_refl _

/-- A flight that takes over free names can still be told from the others. -/
theorem SeenFree.set {flights : List TrackedFlight} {i : Nat} {f : TrackedFlight} {s : Sample}
    (hs : SeenFree Γ flights i f s) (hi : flights[i]? = some f) (ho : HexInOrder Γ f)
    (hn : NamesInOrder Γ (pollStep Γ f s)) (h : Addressable Γ flights) :
    Addressable Γ (flights.set i (pollStep Γ f s)) := by
  obtain ⟨hbefore, hafter⟩ := Directory.Addressable.around h hi
  have hown := h.own f (List.mem_of_getElem? hi)
  have hidentifier : Γ.upper.toUppercase (pollStep Γ f s).identifier.asStr ∈ addressNames Γ f := by
    rw [pollStep_ticket]
    exact List.mem_cons_self
  have hshown : Γ.upper.toUppercase (dashboardIdentifier f) ∈ addressNames Γ f :=
    List.mem_cons_of_mem _ List.mem_cons_self
  refine Directory.Addressable.set h ?_ ?_ ?_
  · intro n hmem
    rcases List.mem_cons.mp hmem with rfl | hmem
    · exact answersTo_mono (hown _ hidentifier)
    · rw [List.mem_singleton.mp hmem]
      rcases dashboardIdentifier_pollStep (s := s) ho with (ht | ⟨-, hnone, ht⟩) | hsame
      · have hcs : (pollStep Γ f s).callsign = some (dashboardIdentifier (pollStep Γ f s)) := by
          rw [(pollStep_names f s).1, ht]
          rfl
        exact answersTo_callsign hcs (hn.callsignKnown _ hcs) (.inl (takenCallsign_spec ht).2)
      · have hhex : (pollStep Γ f s).hex = some (dashboardIdentifier (pollStep Γ f s)) := by
          rcases (pollStep_names (Γ := Γ) f s).2.2 with ⟨-, hx⟩ | ⟨old, x, hold, -⟩
          · rw [hx, ht]
          · rw [takenHex, hold] at ht
            cases ht
        exact answersTo_hex (ho.sample s) hhex
      · rw [answersTo_congr hsame]
        exact answersTo_mono (hown _ hshown)
  · intro g hg n hmem
    rcases List.mem_cons.mp hmem with rfl | hmem
    · exact hbefore g hg _ hidentifier
    · rw [List.mem_singleton.mp hmem]
      rcases dashboardIdentifier_pollStep (s := s) ho with ht | hsame
      · exact hs.shown _ ht g hg
      · rw [answersTo_congr hsame]
        exact hbefore g hg _ hshown
  · intro g hg n hmem
    by_contra hne
    rw [Bool.not_eq_false] at hne
    rcases answersTo_pollStep hne with hf | ⟨m, hm, heq⟩
    · rw [hafter g hg n hmem] at hf
      cases hf
    · rw [hs.taken m hm g hg n hmem] at heq
      cases heq

/-! ## Runs -/

/-- The invariant of a run whose names are free. -/
structure NamedInOrder (Γ : Ctx) (t : TrackerLoop) : Prop where
  loop : LoopInOrder Γ t
  hexes : ∀ f ∈ t.state.flights, HexInOrder Γ f
  addressable : Addressable Γ t.state.flights

/-- A step whose names are free keeps the invariant. -/
theorem NamedInOrder.step {t t' : TrackerLoop} {e : Event} (h : NamedInOrder Γ t) (hfree : NamesFree Γ t e)
    (hs : t.step Γ e = some t') : NamedInOrder Γ t' := by
  have hc := TrackerLoop.step_change hs
  have hloop := TrackerLoop.step_inOrder h.loop hs
  have hnames := hloop.roster.inOrder
  refine ⟨hloop, fun f hf => ?_, ?_⟩
  · rcases hc.mem hf with hf | ⟨env, identifier, requestedBy, replyTo, hp, hprod⟩ | ⟨i, g, s, ho, hg, rfl⟩
    · exact h.hexes f hf
    · obtain ⟨input, hparse⟩ := (hfree.joins env identifier requestedBy replyTo f hp hprod).parsed
      have hid : f.identifier = identifier := by rw [hprod.stages.ticket]
      exact hprod.hexInOrder (hid ▸ parse_ascii hparse)
    · exact (h.hexes g (List.mem_of_getElem? hg)).sample s
  · generalize t'.state.flights = flights at hc hnames
    cases hc with
    | same => exact h.addressable
    | track env identifier requestedBy replyTo flight hp hprod =>
      exact (hfree.joins env identifier requestedBy replyTo flight hp hprod).concat hprod h.hexes h.addressable
    | leave i => exact h.addressable.sublist (List.eraseIdx_sublist _ i)
    | observe i flight s ho hi =>
      have hlt : i < t.state.flights.length := (List.getElem?_eq_some_iff.mp hi).1
      have hmem : pollStep Γ flight s ∈ t.state.flights.set i (pollStep Γ flight s) := List.mem_set hlt _
      exact (hfree.seen i flight s ho).set hi (h.hexes flight (List.mem_of_getElem? hi)) (hnames _ hmem).names h.addressable
    | sweep removals => exact h.addressable.sublist (removeAll_sublist removals _)

/-- Removal by a name takes out the flight that the name finds. -/
theorem removeFlightAt_of_find {state : FlightTrackerState} {query : String} {i : Nat}
    (h : findFlightIndex Γ state.flights query = some i) :
    (removeFlightAt Γ state query).1 = { state with flights := state.flights.eraseIdx i } := by
  rw [removeFlightAt, h]

/-- Every tracked flight is addressable, in every run in which the names that flights join and are seen under are free. In
every state such a run reaches, each flight is found by its identifier and by the name the dashboard shows for it; its
requester and the moderators untrack it, and the dashboard deletes it, and no other. -/
theorem addressable_of_names_free {events : List Event} {t : TrackerLoop}
    (hfree : Machine.Meets (TrackerLoop.step Γ) (NamesFree Γ) TrackerLoop.empty events)
    (h : TrackerLoop.Reaches Γ events t) :
    ∀ i f, t.state.flights[i]? = some f →
      findFlightIndex Γ t.state.flights f.identifier.asStr = some i ∧
      findFlightIndex Γ t.state.flights (dashboardIdentifier f) = some i ∧
      (∀ env user isMod replyTo, f.trackedBy = user ∨ isMod = true →
        (processCommand Γ env t.state (.untrack f.identifier.asStr user isMod replyTo)).1 =
          { t.state with flights := t.state.flights.eraseIdx i }) ∧
      ∀ now reply, (processLatencySensitiveCommand Γ t.state now (.deleteFromWeb (dashboardIdentifier f) reply)).1 =
        { t.state with flights := t.state.flights.eraseIdx i } := by
  have hempty : LoopInOrder Γ TrackerLoop.empty := ⟨Relation.ReflTransGen.refl, nofun⟩
  have hstart : NamedInOrder Γ TrackerLoop.empty := ⟨hempty, fun f hf => (by cases hf), Directory.Addressable.nil⟩
  have hin : NamedInOrder Γ t :=
    Machine.run_invariant_of_meets (fun _ _ _ hi hok hs => hi.step hok hs) hstart hfree h
  intro i f hf
  obtain ⟨hid, hshown⟩ := addressable_iff_finds.mp hin.addressable i f hf
  refine ⟨hid, hshown, fun env user isMod replyTo hby => ?_, fun now reply => removeFlightAt_of_find hshown⟩
  rw [processCommand, handleUntrack]
  simp only [hid, Option.bind_some, hf]
  have hallowed : (f.trackedBy != user && !isMod) = false := by
    rcases hby with rfl | rfl
    · simp
    · simp
  rw [hallowed]
  exact removeFlightAt_of_find hid

/-! ## Whether names are free -/

/-- The callsigns, and the hexes, that a new flight brings. -/
def joiningCallsigns (f : TrackedFlight) : List String := (identifierCallsign f.identifier).toList ++ f.callsign.toList

/-- The hexes by which a flight that joins is addressed. -/
def joiningHexes (f : TrackedFlight) : List String :=
  (match f.identifier with
    | .hex n => [n]
    | .callsign _ => []) ++
  if f.callsign.isNone then f.hex.toList else []

/-- The condition on a new flight, as it is computed. -/
def joinsFree (Γ : Ctx) (flights : List TrackedFlight) (f : TrackedFlight) : Bool :=
  (FlightIdentifier.parse Γ f.identifier.asStr).toOption = some f.identifier &&
  f.callsign.all (fun cs => trim cs = cs || eqIgnoreAsciiCase cs (Γ.upper.toUppercase cs)) &&
  (joiningCallsigns f).all (fun n => flights.all fun g =>
    !g.hex.any (eqIgnoreAsciiCase · (Γ.upper.toUppercase n)) &&
      (eqIgnoreAsciiCase n (Γ.upper.toUppercase n) || !flightMatchesCallsign g (Γ.upper.toUppercase n))) &&
  (joiningHexes f).all fun n => flights.all fun g => !flightMatchesCallsign g (Γ.upper.toUppercase n)

/-- What a flight is shown under after a sample, when it takes that over. -/
def shownNames (Γ : Ctx) (f : TrackedFlight) (s : Sample) : List String :=
  match takenCallsign f s with
  | some n => [n]
  | none => if f.callsign.isNone then (takenHex Γ f s).toList else []

/-- The names that a flight takes over from a sample. -/
def takenNames (Γ : Ctx) (f : TrackedFlight) (s : Sample) : List String :=
  (takenCallsign f s).toList ++ ((takenCallsign f s).map Γ.upper.toUppercase).toList ++ (takenHex Γ f s).toList

/-- The condition on a sample, as it is computed. -/
def seenFree (Γ : Ctx) (flights : List TrackedFlight) (i : Nat) (f : TrackedFlight) (s : Sample) : Bool :=
  (shownNames Γ f s).all (fun n => (flights.take i).all fun g => !answersTo g (Γ.upper.toUppercase n)) &&
  (takenNames Γ f s).all fun n => (flights.drop (i + 1)).all fun g => (addressNames Γ g).all fun u => !eqIgnoreAsciiCase n u

/-- The condition on a step, as it is computed. -/
def namesFree (Γ : Ctx) (t : TrackerLoop) (e : Event) : Bool :=
  (match t.processes e with
    | some (env, .track identifier requestedBy _) =>
      (handleTrack Γ env t.state identifier requestedBy).1.flights.getLast?.all (joinsFree Γ t.state.flights)
    | _ => true) &&
  (t.observes e).all fun (i, f, s) => seenFree Γ t.state.flights i f s

/-- What the check of a flight that joins says. -/
theorem JoinsFree.of_check {flights : List TrackedFlight} {f : TrackedFlight} (h : joinsFree Γ flights f = true) :
    JoinsFree Γ flights f := by
  simp only [joinsFree, Bool.and_eq_true, decide_eq_true_eq, Option.all_eq_true, Bool.or_eq_true, List.all_eq_true,
    Bool.not_eq_true'] at h
  obtain ⟨⟨⟨hparse, hown⟩, hcallsigns⟩, hhexes⟩ := h
  refine ⟨⟨f.identifier.asStr, ?_⟩, hown, fun n hn => hcallsigns n ?_, fun n hn => hhexes n ?_⟩
  · cases hp : FlightIdentifier.parse Γ f.identifier.asStr with
    | ok identifier =>
      rw [hp] at hparse
      exact congrArg Except.ok (Option.some.inj hparse)
    | error e =>
      rw [hp] at hparse
      cases hparse
  · simpa [joiningCallsigns] using hn
  · rcases hn with hn | ⟨hnone, hn⟩
    · simp [joiningHexes, hn]
    · simp [joiningHexes, hnone, hn]

/-- What the check of a flight that is seen says. -/
theorem SeenFree.of_check {flights : List TrackedFlight} {i : Nat} {f : TrackedFlight} {s : Sample}
    (h : seenFree Γ flights i f s = true) : SeenFree Γ flights i f s := by
  simp only [seenFree, Bool.and_eq_true, List.all_eq_true, Bool.not_eq_true'] at h
  refine ⟨fun n hn => h.1 n ?_, fun n hn => h.2 n ?_⟩
  · rcases hn with hn | ⟨hnone, hcs, hn⟩
    · simp [shownNames, hn]
    · simp [shownNames, hnone, hcs, hn]
  · simpa [takenNames, Takes] using hn

/-- What the check of an event says. -/
theorem NamesFree.of_check {t : TrackerLoop} {e : Event} (h : namesFree Γ t e = true) : NamesFree Γ t e := by
  rw [namesFree, Bool.and_eq_true] at h
  obtain ⟨hjoins, hseen⟩ := h
  refine ⟨fun env identifier requestedBy replyTo f hp hprod => ?_, fun i f s ho => ?_⟩
  · rw [hp] at hjoins
    simp only [show (handleTrack Γ env t.state identifier requestedBy).1.flights = t.state.flights ++ [f] from hprod,
      List.getLast?_concat, Option.all_some] at hjoins
    exact JoinsFree.of_check hjoins
  · rw [ho] at hseen
    exact SeenFree.of_check hseen

/-! ### Two flights -/

/-- The aircraft of a hex is in the air, and transmits no callsign. -/
def silentEnv : Env := { quietEnv 0 with getAircraftByHex := fun _ => .answer (some { hex := some "3c6589" }) }

/-- A flight is tracked by hex, then another by callsign. A round two minutes later sees both aircraft: the first flight takes over
a callsign, and the second a hex. -/
def neighboursRun : List Event :=
  [.command silentEnv (.track (.hex "3C6589") "ann" ⟨"m1"⟩),
    .command (quietEnv 0) (.track (.callsign "LH456") "bob" ⟨"m2"⟩),
    .poll (seconds 120),
    .round (.joined ⟨.hex "3C6589", true, .hex "3C6589"⟩
      (.answer (some { hex := some "3c6589", flight := some "DLH123" }))),
    .round (.joined ⟨.callsign "LH456", false, .callsigns ["DLH456", "LH456"]⟩
      (.answer (some { hex := some "3c4b26", flight := some "DLH456" }))),
    .round (.apply fun _ => none),
    .round (.apply fun _ => none),
    .round .sweep,
    .finish]

theorem neighboursRun_isSome : (Machine.run (TrackerLoop.step fieldCtx) TrackerLoop.empty neighboursRun).isSome = true := by
  decide +kernel

/-- Each of them is found by its identifier and by the name it is shown under, and is deleted by that. -/
theorem addressable_neighbours :
    ∃ t, TrackerLoop.Reaches fieldCtx neighboursRun t ∧ t.state.flights.map dashboardIdentifier = ["DLH123", "DLH456"] ∧
      t.state.flights.map (·.hex) = [some "3C6589", some "3C4B26"] ∧
      ∀ i f, t.state.flights[i]? = some f →
        findFlightIndex fieldCtx t.state.flights f.identifier.asStr = some i ∧
          (processLatencySensitiveCommand fieldCtx t.state 0 (.deleteFromWeb (dashboardIdentifier f) 1)).1 =
            { t.state with flights := t.state.flights.eraseIdx i } := by
  have h : TrackerLoop.Reaches fieldCtx neighboursRun (Option.get _ neighboursRun_isSome) := (Option.some_get _).symm
  have hchecked : Machine.Meets (TrackerLoop.step fieldCtx) (fun t e => namesFree fieldCtx t e = true) TrackerLoop.empty
      neighboursRun := by
    decide +kernel
  refine ⟨_, h, by decide +kernel, by decide +kernel, fun i f hf => ?_⟩
  obtain ⟨hfound, -, -, hdeleted⟩ := addressable_of_names_free (hchecked.mono fun _ _ => NamesFree.of_check) h i f hf
  exact ⟨hfound, hdeleted 0 1⟩

/-! ## A name taken over from a poll -/

/-- A flight is tracked by hex, then another by callsign; then the aircraft of the first transmits that callsign. -/
def shadowRun : List Event :=
  [.command silentEnv (.track (.hex "3C6589") "ann" ⟨"m1"⟩),
    .command (quietEnv 0) (.track (.callsign "DLH123") "bob" ⟨"m2"⟩),
    .poll (seconds 120),
    .round (.joined ⟨.hex "3C6589", true, .hex "3C6589"⟩
      (.answer (some { hex := some "3c6589", flight := some "DLH123" }))),
    .round (.joined ⟨.callsign "DLH123", false, .callsigns ["DLH123"]⟩ (.answer none)),
    .round (.apply fun _ => none),
    .round (.apply fun _ => none),
    .round .sweep,
    .finish]

theorem shadowRun_isSome : (Machine.run (TrackerLoop.step fieldCtx) TrackerLoop.empty shadowRun).isSome = true := by
  decide +kernel

/-- The first flight shadows the second: the identifier of the second finds the first, its requester cannot untrack it, and
the dashboard deletes the first for it. -/
theorem shadowed_by_observed_callsign :
    ∃ t, TrackerLoop.Reaches fieldCtx shadowRun t ∧
      t.state.flights.map (·.identifier) = [.hex "3C6589", .callsign "DLH123"] ∧
      findFlightIndex fieldCtx t.state.flights "DLH123" = some 0 ∧
      (processCommand fieldCtx (quietEnv 0) t.state (.untrack "DLH123" "bob" false ⟨"m3"⟩)).1.flights.length = 2 ∧
      (processLatencySensitiveCommand fieldCtx t.state 0 (.deleteFromWeb "DLH123" 1)).1.flights.map (·.identifier) =
        [.callsign "DLH123"] ∧
      ¬ ∀ i f, t.state.flights[i]? = some f →
        findFlightIndex fieldCtx t.state.flights f.identifier.asStr = some i ∧
        findFlightIndex fieldCtx t.state.flights (dashboardIdentifier f) = some i := by
  have h : TrackerLoop.Reaches fieldCtx shadowRun (Option.get _ shadowRun_isSome) := (Option.some_get _).symm
  refine ⟨_, h, by decide +kernel, by decide +kernel, by decide +kernel, by decide +kernel, fun hall => ?_⟩
  have hsecond : ((Option.get _ shadowRun_isSome).state.flights[1]?).map (·.identifier) = some (.callsign "DLH123") := by
    decide +kernel
  obtain ⟨f, hf, hid⟩ := Option.map_eq_some_iff.mp hsecond
  have hfinds := (hall 1 f hf).1
  rw [hid] at hfinds
  revert hfinds
  decide +kernel

end Twitch1337.Tracker
