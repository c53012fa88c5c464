import Twitch1337.Theorems.Restart

/-!
# Rounds with commands in between

Commands come in while a poll round is under way. The dashboard's are processed at once, so that a flight can be gone when its
answer is applied, or when its removal is made; all others are handed back at the end.
-/

namespace Twitch1337.Tracker

open RustStr Chrono

variable {Γ : Ctx}

/-! ## The commands of a round -/

/-- The commands of the dashboard. -/
def TrackerCommand.fromDashboard : TrackerCommand → Bool
  | snapshot _ => true
  | deleteFromWeb _ _ => true
  | _ => false

/-- The command a step of the round takes from the channel. -/
def RoundEvent.received : RoundEvent → Option TrackerCommand
  | command _ cmd => some cmd
  | _ => none

/-- What is sent for a command of the dashboard, to the sender that waits for it. -/
inductive Answers : TrackerCommand → Output → Prop
  | snapshot (reply : Nat) (views : List TrackedFlightView) : Answers (.snapshot reply) (.views reply views)
  | removed (identifier : String) (reply : Nat) (label : Option String) :
      Answers (.deleteFromWeb identifier reply) (.removed reply label)

/-- The commands taken in the past of a round are answered once each, or handed back once each, in the order they came in. -/
structure Handled (past : List RoundEvent) (r : Round) : Prop where
  deferred : r.deferred = (past.filterMap RoundEvent.received).filter fun cmd => !cmd.fromDashboard
  answered : List.Forall₂ Answers ((past.filterMap RoundEvent.received).filter (·.fromDashboard)) r.answered

/-- A step that takes no command leaves the commands as they are. -/
theorem Handled.quiet {past : List RoundEvent} {r r' : Round} {e : RoundEvent} (h : Handled past r)
    (hq : e.received = none) (hd : r'.deferred = r.deferred) (ha : r'.answered = r.answered) :
    Handled (past ++ [e]) r' := by
  have hpast : (past ++ [e]).filterMap RoundEvent.received = past.filterMap RoundEvent.received := by
    simp [List.filterMap_append, hq]
  exact ⟨by rw [hpast, hd]; exact h.deferred, by rw [hpast, ha]; exact h.answered⟩

/-- A command that is taken is answered, or handed back. -/
theorem Handled.receive {past : List RoundEvent} {r : Round} (h : Handled past r) (now : Instant) (cmd : TrackerCommand) :
    Handled (past ++ [.command now cmd]) (r.receive Γ now cmd) := by
  have hpast : (past ++ [RoundEvent.command now cmd]).filterMap RoundEvent.received =
      past.filterMap RoundEvent.received ++ [cmd] := by
    simp [List.filterMap_append, RoundEvent.received]
  have hback : cmd.fromDashboard = false →
      (r.receive Γ now cmd).deferred = r.deferred ++ [cmd] ∧ (r.receive Γ now cmd).answered = r.answered := by
    intro hd
    cases cmd <;> simp [TrackerCommand.fromDashboard] at hd <;> simp [Round.receive, processLatencySensitiveCommand]
  have hanswer : cmd.fromDashboard = true → ∃ out, Answers cmd out ∧
      (r.receive Γ now cmd).deferred = r.deferred ∧ (r.receive Γ now cmd).answered = r.answered ++ [out] := by
    intro hd
    cases cmd with
    | snapshot reply =>
      exact ⟨_, .snapshot reply (buildFlightView r.state now), by simp [Round.receive, processLatencySensitiveCommand], rfl⟩
    | deleteFromWeb identifier reply =>
      exact ⟨_, .removed identifier reply (removeFlightAt Γ r.state identifier).2,
        by simp [Round.receive, processLatencySensitiveCommand], rfl⟩
    | _ => cases hd
  by_cases hd : cmd.fromDashboard = true
  · obtain ⟨out, hout, hdef, hans⟩ := hanswer hd
    refine ⟨?_, ?_⟩
    · rw [hdef, hpast, List.filter_append, h.deferred]
      simp [hd]
    · have hone : [cmd].filter (·.fromDashboard) = [cmd] := by simp [hd]
      rw [hans, hpast, List.filter_append, hone]
      exact List.rel_append h.answered (.cons hout .nil)
  · rw [Bool.not_eq_true] at hd
    obtain ⟨hdef, hans⟩ := hback hd
    refine ⟨?_, ?_⟩
    · rw [hdef, hpast, List.filter_append, h.deferred]
      simp [hd]
    · have hnone : [cmd].filter (·.fromDashboard) = [] := by simp [hd]
      rw [hans, hpast, List.filter_append, hnone, List.append_nil]
      exact h.answered

theorem Handled.step {past : List RoundEvent} {r r' : Round} {e : RoundEvent} (h : Handled past r)
    (hs : r.step Γ e = some r') : Handled (past ++ [e]) r' := by
  cases Round.step_cases hs with
  | joined => exact h.quiet rfl rfl rfl
  | lost => exact h.quiet rfl rfl rfl
  | command now cmd => exact h.receive now cmd
  | dropped => exact h.quiet rfl rfl rfl
  | applied => exact h.quiet rfl rfl rfl
  | sweep => exact h.quiet rfl rfl rfl

/-! ## The flights of a round -/

/-- The identifiers of the flights of a round, in their order. -/
def Round.identifiers (r : Round) : List FlightIdentifier := r.state.flights.map (·.identifier)

/-- A step leaves out identifiers, and neither adds one nor changes their order. -/
theorem Round.step_identifiers {r r' : Round} {e : RoundEvent} (h : r.step Γ e = some r') :
    r'.identifiers.Sublist r.identifiers := by
  have hc := Round.step_change h
  unfold Round.identifiers
  generalize r'.state.flights = flights at hc
  cases hc with
  | same => exact List.Sublist.refl _
  | track env identifier requestedBy replyTo flight hp => cases hp
  | leave i => exact (List.eraseIdx_sublist _ i).map _
  | observe i flight s ho hi =>
    rw [map_set_of_eq (·.identifier) hi (by rw [pollStep_ticket])]
    exact List.Sublist.refl _
  | sweep removals => exact (removeAll_sublist removals _).map _

/-- A run leaves out identifiers, and neither adds one nor changes their order. -/
theorem Round.run_identifiers {r r' : Round} {events : List RoundEvent}
    (h : Machine.run (Round.step Γ) r events = some r') : r'.identifiers.Sublist r.identifiers :=
  Machine.run_relates (fun _ => True) (fun a b : Round => b.identifiers.Sublist a.identifiers)
    (fun _ => List.Sublist.refl _) (fun h h' => h'.trans h) (fun _ _ _ _ hs => ⟨trivial, Round.step_identifiers hs⟩)
    trivial h

/-! ## The answers of a round -/

/-- An answer belongs to a lookup. -/
def PollAttempt.answers (attempt : PollAttempt) (fetch : Fetch) : Prop :=
  attempt.identifier = fetch.identifier ∧ attempt.usedHex = fetch.usedHex ∧ fetch.admits attempt.result = true

/-- The lookups of a round, and its answers, were made for flights that were due when it started. -/
structure FetchedAt (Γ : Ctx) (flights : List TrackedFlight) (now : Instant) (r : Round) : Prop where
  inflight : ∀ x ∈ r.inflight, ∃ f ∈ flights, pollReadiness f now = .due ∧ x = planFetch Γ f
  results : ∀ x ∈ r.fetchResults, ∃ f ∈ flights, pollReadiness f now = .due ∧ x.answers (planFetch Γ f)

theorem FetchedAt.step {flights : List TrackedFlight} {now : Instant} {r r' : Round} {e : RoundEvent}
    (h : FetchedAt Γ flights now r) (hs : r.step Γ e = some r') : FetchedAt Γ flights now r' := by
  cases Round.step_cases hs with
  | joined fetch result mem admits =>
    refine ⟨fun x hx => h.inflight x (List.mem_of_mem_erase hx), fun x hx => ?_⟩
    rcases List.mem_append.mp hx with hx | hx
    · exact h.results x hx
    · obtain ⟨f, hf, hdue, rfl⟩ := h.inflight fetch mem
      rw [List.mem_singleton.mp hx]
      exact ⟨f, hf, hdue, rfl, rfl, admits⟩
  | lost fetch mem => exact ⟨fun x hx => h.inflight x (List.mem_of_mem_erase hx), h.results⟩
  | command now cmd => exact ⟨h.inflight, h.results⟩
  | dropped getFlightRoute attempt rest results gone =>
    exact ⟨h.inflight, fun x hx => h.results x (results ▸ List.mem_cons_of_mem _ hx)⟩
  | applied getFlightRoute attempt rest i f results found at_ own =>
    exact ⟨h.inflight, fun x hx => h.results x (results ▸ List.mem_cons_of_mem _ hx)⟩
  | sweep => exact ⟨h.inflight, h.results⟩

theorem beginRound_fetchedAt (state : FlightTrackerState) (now : Instant) :
    FetchedAt Γ state.flights now (beginRound Γ state now) := by
  refine ⟨fun x hx => ?_, by simp [beginRound]⟩
  simp only [beginRound, List.mem_map, List.mem_filter, beq_iff_eq] at hx
  obtain ⟨f, ⟨hf, hdue⟩, rfl⟩ := hx
  exact ⟨f, hf, hdue, rfl⟩

/-- What becomes of an answer: it is dropped when no flight has its identifier, and is otherwise applied to the one flight that
has it. Only that flight changes, is announced, or is marked for removal. -/
inductive Applied (Γ : Ctx) (getFlightRoute : String → Option FlightRoute) (attempt : PollAttempt) (r r' : Round) : Prop
  | dropped (gone : ∀ f ∈ r.state.flights, f.identifier ≠ attempt.identifier)
      (same : r' = { r with fetchResults := r'.fetchResults })
  | applied (i : Nat) (f : TrackedFlight) (at_ : r.state.flights[i]? = some f)
      (own : f.identifier = attempt.identifier)
      (only : ∀ j g, r.state.flights[j]? = some g → g.identifier = attempt.identifier → j = i)
      (flights : r'.state.flights = r.state.flights.set i (pollStep Γ f (r.sampleOf attempt getFlightRoute)))
      (messages : ∃ sent, r'.messages = r.messages ++ sent ∧ ∀ m ∈ sent, m.1.identifier = attempt.identifier)
      (removals : ∃ more, r'.removals = r.removals ++ more ∧ ∀ identifier ∈ more, identifier = attempt.identifier)

/-- An answer that is applied is the next one, and goes to the flight it was fetched for. -/
theorem Round.apply_spec {r r' : Round} {getFlightRoute : String → Option FlightRoute} (hn : r.identifiers.Nodup)
    (h : r.step Γ (.apply getFlightRoute) = some r') :
    ∃ attempt, r.fetchResults = attempt :: r'.fetchResults ∧ Applied Γ getFlightRoute attempt r r' := by
  cases Round.step_cases h with
  | dropped _ attempt rest results gone =>
    refine ⟨attempt, results, .dropped (fun f hf hid => ?_) rfl⟩
    have hnone := List.findIdx?_eq_none_iff.mp gone f hf
    rw [hid, beq_self_eq_true] at hnone
    cases hnone
  | applied _ attempt rest i f results found at_ own =>
    refine ⟨attempt, results, .applied i f at_ own (fun j g hj hid => ?_) rfl ⟨_, rfl, ?_⟩ ⟨_, rfl, ?_⟩⟩
    · have hmap : ∀ (k : Nat) (x : TrackedFlight), r.state.flights[k]? = some x → r.identifiers[k]? = some x.identifier := by
        intro k x hk
        rw [Round.identifiers, List.getElem?_map, hk]
        rfl
      have hj' := hmap j g hj
      rw [hid, ← own, ← hmap i f at_] at hj'
      have hlt : j < r.identifiers.length := by
        rw [Round.identifiers, List.length_map]
        exact (List.getElem?_eq_some_iff.mp hj).1
      exact (List.getElem?_inj hlt hn).mp hj'
    · intro m hm
      obtain ⟨emit, -, rfl⟩ := List.mem_map.mp hm
      rw [pollStep_ticket, own]
    · intro identifier hm
      obtain ⟨_, -, rfl⟩ := List.mem_map.mp hm
      rfl

/-! ## The end of a round -/

/-- What is left to do in a round. -/
def Round.remaining (r : Round) : Nat := 2 * r.inflight.length + r.fetchResults.length + if r.swept then 0 else 1

/-- Every round can be brought to its end. -/
theorem Round.reaches_end (r : Round) :
    ∃ events r', Machine.run (Round.step Γ) r events = some r' ∧ r'.swept = true := by
  suffices hprogress : ∀ r : Round, ¬ r.swept = true →
      ∃ e r', r.step Γ e = some r' ∧ r'.remaining < r.remaining by
    obtain ⟨events, r', hrun, _, hswept⟩ := Machine.exists_run_final (fun _ => True) Round.remaining (fun _ => True)
      (fun r _ hs => by
        obtain ⟨e, r', hstep, hlt⟩ := hprogress r hs
        exact ⟨e, r', trivial, hstep, trivial, hlt⟩) r trivial
    exact ⟨events, r', hrun, hswept⟩
  intro r hs
  rw [Bool.not_eq_true] at hs
  cases hin : r.inflight with
  | cons fetch more =>
    -- An answer that finds nothing is one every lookup can have.
    have hadmits : fetch.admits (.answer none) = true := by
      unfold Fetch.admits
      cases fetch.query with
      | hex => rfl
      | callsigns candidates => cases candidates <;> rfl
    have hmem : fetch ∈ r.inflight := by
      rw [hin]
      exact List.mem_cons_self
    refine ⟨.joined fetch (.answer none), _, if_pos ⟨hmem, hadmits⟩, ?_⟩
    have hlen := List.length_erase_of_mem hmem
    have hpos := List.length_pos_of_mem hmem
    simp only [Round.remaining, List.length_append, List.length_singleton, hlen, hs]
    omega
  | nil =>
    cases hres : r.fetchResults with
    | cons attempt rest =>
      obtain ⟨r', hr'⟩ : ∃ r', r.step Γ (.apply fun _ => none) = some r' := by simp [Round.step, hin, hres]
      refine ⟨_, r', hr', ?_⟩
      cases Round.step_cases hr' with
      | dropped _ _ _ results => simp [Round.remaining, results]
      | applied _ _ _ _ _ results => simp [Round.remaining, Round.observe, results]
    | nil =>
      refine ⟨.sweep, r.sweep, ?_, ?_⟩
      · simp [Round.step, hin, hres, hs]
      · simp [Round.remaining, Round.sweep, hs]

/-- Rounds tolerate the commands that come in between. In every state of a round over flights with distinct identifiers,
whatever answers have come in and whatever commands: the identifiers are some of those at the start, in their order; an answer
is applied only to the flight it was fetched for, and dropped when that is gone; an identifier that is gone stays gone; the
commands of chat received so far are handed back once each in their order, and those of the dashboard answered once each. From
every state the round can be brought to its end. -/
theorem round_tolerates_commands {state : FlightTrackerState} {now : Instant} {events : List RoundEvent} {r : Round}
    (hn : (state.flights.map (·.identifier)).Nodup)
    (h : Machine.run (Round.step Γ) (beginRound Γ state now) events = some r) :
    r.identifiers.Sublist (state.flights.map (·.identifier)) ∧
    (∀ getFlightRoute r', r.step Γ (.apply getFlightRoute) = some r' →
      ∃ attempt, r.fetchResults = attempt :: r'.fetchResults ∧
        (∃ f ∈ state.flights, pollReadiness f now = .due ∧ attempt.answers (planFetch Γ f)) ∧
        Applied Γ getFlightRoute attempt r r') ∧
    (∀ more r', Machine.run (Round.step Γ) r more = some r' → r'.identifiers.Sublist r.identifiers) ∧
    r.deferred = (events.filterMap RoundEvent.received).filter (fun cmd => !cmd.fromDashboard) ∧
    List.Forall₂ Answers ((events.filterMap RoundEvent.received).filter (·.fromDashboard)) r.answered ∧
    (r.swept = true → (TrackerLoop.polling r).step Γ .finish = some (.serving r.state r.deferred)) ∧
    ∃ more r', Machine.run (Round.step Γ) r more = some r' ∧ r'.swept = true := by
  have hsub : r.identifiers.Sublist (state.flights.map (·.identifier)) := Round.run_identifiers h
  have hfetched : FetchedAt Γ state.flights now r :=
    Machine.run_invariant (fun _ _ _ hi hs => hi.step hs) (beginRound_fetchedAt state now) h
  have hhandled : Handled events r :=
    Machine.run_history Handled (fun _ _ _ _ hi hs => hi.step hs) [] ⟨rfl, .nil⟩ h
  refine ⟨hsub, fun getFlightRoute r' hs => ?_, fun more r' hrun => Round.run_identifiers hrun, hhandled.deferred,
    hhandled.answered, fun hswept => if_pos hswept, Round.reaches_end r⟩
  obtain ⟨attempt, hres, happ⟩ := Round.apply_spec (hn.sublist hsub) hs
  exact ⟨attempt, hres, hfetched.results attempt (hres ▸ List.mem_cons_self), happ⟩

/-- Two flights that are not in the air yet. -/
def pairState : FlightTrackerState :=
  (handleTrack fieldCtx (quietEnv 0) (handleTrack fieldCtx (quietEnv 0) {} (.callsign "DLH1") "ann").1
    (.callsign "DLH2") "bob").1

/-- A round of two flights, of which the dashboard deletes the first before its answer is applied. -/
def interruptedRound : List RoundEvent :=
  [.joined ⟨.callsign "DLH1", false, .callsigns ["DLH1"]⟩ (.answer (some { flight := some "DLH1" })),
    .command (seconds 120) (.status none ⟨"m1"⟩),
    .joined ⟨.callsign "DLH2", false, .callsigns ["DLH2"]⟩ (.answer none),
    .command (seconds 120) (.deleteFromWeb "DLH1" 7),
    .apply fun _ => none,
    .apply fun _ => none,
    .sweep]

theorem interruptedRound_isSome :
    (Machine.run (Round.step fieldCtx) (beginRound fieldCtx pairState (seconds 120)) interruptedRound).isSome = true := by
  decide +kernel

/-- The deleted flight is gone after its answer, the request is answered, and the status command is handed back. -/
theorem round_tolerates_delete :
    ∃ r, Machine.run (Round.step fieldCtx) (beginRound fieldCtx pairState (seconds 120)) interruptedRound = some r ∧
      r.identifiers = [.callsign "DLH2"] ∧ r.deferred = [.status none ⟨"m1"⟩] ∧
      List.Forall₂ Answers [.deleteFromWeb "DLH1" 7] r.answered := by
  have h := (Option.some_get interruptedRound_isSome).symm
  obtain ⟨-, -, -, hdef, hans, -, -⟩ := round_tolerates_commands (by decide +kernel) h
  exact ⟨_, h, by decide +kernel, hdef, hans⟩

end Twitch1337.Tracker
