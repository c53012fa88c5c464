import Twitch1337.Lemmas.Identity
import Twitch1337.Theorems.Squawk

/-!
# Diversions

A descending flight is compared with its course at every sample that has both positions. The counter of anomalies is a state;
what it stands for is the history of the flight: the comparisons that were made, and the hits that set them back.
-/

namespace Twitch1337.Tracker

open RustStr Chrono

variable {Γ : Ctx}

/-! ## What a sample says of the course -/

/-- What a sample says of the course of its flight: the bearings were compared, or the comparison starts over. -/
inductive DivertMark where
  | evaluated (anomalous : Bool)
  | reset
  deriving DecidableEq

/-- The comparison of the bearings at a hit, where the destination and both positions are known. -/
def bearingsAnomalous (Γ : Ctx) (f : TrackedFlight) (ac : NearbyAircraft) : Option Bool :=
  f.destLat.bind fun destLat => f.destLon.bind fun destLon =>
  ac.lat.bind fun curLat => ac.lon.bind fun curLon =>
  f.lat.bind fun prevLat => f.lon.map fun prevLon =>
    Γ.offHeading (prevLat, prevLon) (curLat, curLon) (destLat, destLon)

/-- A phase in which a flight is compared with its course. -/
def FlightPhase.isDescending (phase : FlightPhase) : Bool := phase == .descent || phase == .approach

/-- What an accepted hit says of the course: it starts the comparison over when it does not count for the phase or leaves the
flight in another phase, and without the positions it says nothing. -/
def hitMark (Γ : Ctx) (f : TrackedFlight) (ac : NearbyAircraft) (eligible : Bool) (phaseAfter : FlightPhase) :
    Option DivertMark :=
  if eligible && phaseAfter.isDescending then (bearingsAnomalous Γ f ac).map .evaluated else some .reset

/-- What a sample says of the course of a flight: nothing, unless the flight accepts its aircraft. -/
def divertMark (Γ : Ctx) (f : TrackedFlight) (s : Sample) : Option DivertMark :=
  (acceptedHit f s).bind fun (ac, raw) =>
    hitMark Γ f ac (phaseSampleConfirmed f ac raw s.obs.usedHex s.now) (pollStep Γ f s).phase

/-- The counter after a mark. -/
def DivertMark.count (counter : UInt32) : DivertMark → UInt32
  | evaluated anomalous => (updateDivertCounter counter anomalous).1
  | reset => 0

/-- Whether a mark calls for an alert. -/
def DivertMark.alerts (counter : UInt32) : DivertMark → Bool
  | evaluated anomalous => (updateDivertCounter counter anomalous).2
  | reset => false

/-! ## The counter of a step -/

/-- The diversion branch, by the mark of its hit. -/
theorem divertStep_eq {f g : TrackedFlight} {ac : NearbyAircraft} (hd : f.toRouting = g.toRouting) (hlat : f.lat = ac.lat)
    (hlon : f.lon = ac.lon) (eligible : Bool) :
    (divertStep Γ f g.lat g.lon eligible).1.divertConsecutivePolls =
      ((hitMark Γ g ac eligible f.phase).map (·.count f.divertConsecutivePolls)).getD f.divertConsecutivePolls ∧
    (divertStep Γ f g.lat g.lon eligible).2 =
      if (hitMark Γ g ac eligible f.phase).any (·.alerts f.divertConsecutivePolls) then [.possibleDivert] else [] := by
  unfold divertStep hitMark FlightPhase.isDescending
  by_cases hm : (eligible && (f.phase == .descent || f.phase == .approach)) = true
  · rw [if_pos hm, if_pos hm]
    simp only [bearingsAnomalous, ← hd, ← hlat, ← hlon]
    -- one of the six is missing, or the bearings are compared
    cases f.destLat with
    | none => exact ⟨rfl, rfl⟩
    | some destLat =>
    cases f.destLon with
    | none => exact ⟨rfl, rfl⟩
    | some destLon =>
    cases f.lat with
    | none => exact ⟨rfl, rfl⟩
    | some curLat =>
    cases f.lon with
    | none => exact ⟨rfl, rfl⟩
    | some curLon =>
    cases g.lat with
    | none => exact ⟨rfl, rfl⟩
    | some prevLat =>
    cases g.lon with
    | none => exact ⟨rfl, rfl⟩
    | some prevLon => exact ⟨rfl, rfl⟩
  · rw [if_neg hm, if_neg hm]
    exact ⟨rfl, rfl⟩

/-- Only an accepted hit touches the counter. -/
theorem advanceFlight_divert_of_ignored {f : TrackedFlight} {s : Sample} (h : acceptedHit f s = none) :
    (advanceFlight Γ f s.obs s.now).1.divertConsecutivePolls = f.divertConsecutivePolls := by
  rcases advanceFlight_of_ignored (Γ := Γ) h with ⟨-, e⟩ | e
  · rw [e]
    unfold advanceMiss
    split
    · rfl
    · dsimp only
      split <;> rfl
  · rw [e]
    rfl

/-- The diversion branch of an accepted hit works on a flight with the counter and the route it had before, the position of the
aircraft, and the phase it has after. -/
theorem observePhase_divert (f : TrackedFlight) (ac : NearbyAircraft) (restart eligible : Bool)
    (prevLat prevLon : Option F64) (now : Instant) :
    ∃ moved : TrackedFlight, moved.toRouting = f.toRouting ∧ moved.toTelemetry = f.toTelemetry ∧
      moved.divertConsecutivePolls = f.divertConsecutivePolls ∧
      moved.phase = (observePhase Γ f ac restart eligible prevLat prevLon now).1.phase ∧
      (observePhase Γ f ac restart eligible prevLat prevLon now).1.divertConsecutivePolls =
        (divertStep Γ moved prevLat prevLon eligible).1.divertConsecutivePolls ∧
      (observePhase Γ f ac restart eligible prevLat prevLon now).2 =
        (if eligible then (phaseStep (if restart then resetPhase f else f) ac now).2 else []) ++
          (divertStep Γ moved prevLat prevLon eligible).2 := by
  refine ⟨if eligible then (phaseStep (if restart then resetPhase f else f) ac now).1
    else if restart then resetPhase f else f, ?_, ?_, ?_, ?_, ?_, ?_⟩ <;>
    cases restart <;> cases eligible <;> simp [observePhase, resetPhase]

/-- The counter and the alert of a sample, by its mark. -/
theorem divert_pollStep (f : TrackedFlight) (s : Sample) :
    (pollStep Γ f s).divertConsecutivePolls =
      ((divertMark Γ f s).map (·.count f.divertConsecutivePolls)).getD f.divertConsecutivePolls ∧
    (.possibleDivert ∈ sampleEmits Γ f s ↔ (divertMark Γ f s).any (·.alerts f.divertConsecutivePolls) = true) := by
  cases h : acceptedHit f s with
  | none =>
    have hmark : divertMark Γ f s = none := by rw [divertMark, h, Option.bind_none]
    rw [hmark]
    refine ⟨?_, ⟨fun hm => ?_, fun hm => by cases hm⟩⟩
    · rw [pollStep, (performFollowups_rest _ _ _).2]
      exact advanceFlight_divert_of_ignored h
    · cases emits_of_ignored (Γ := Γ) h _ hm
  | some hit =>
    obtain ⟨ac, raw⟩ := hit
    obtain ⟨seen, g, emits, -, hroute, hlat, hlon, hcount, hobs, hpoll, hdivert, hsent⟩ := pollStep_of_seen (Γ := Γ) h
    obtain ⟨moved, mroute, mtele, mcount, mphase, mdivert, memits⟩ := observePhase_divert (Γ := Γ) seen ac
      (restartsPhase f raw) (phaseSampleConfirmed f ac raw s.obs.usedHex s.now) f.lat f.lon s.now
    rw [hobs] at mphase mdivert memits
    dsimp only at mphase mdivert memits
    have hmark : divertMark Γ f s =
        hitMark Γ f ac (phaseSampleConfirmed f ac raw s.obs.usedHex s.now) moved.phase := by
      rw [divertMark, h, Option.bind_some, mphase, hpoll]
    obtain ⟨dcount, demits⟩ := divertStep_eq (Γ := Γ) (mroute.trans hroute) (by rw [mtele, hlat]) (by rw [mtele, hlon])
      (phaseSampleConfirmed f ac raw s.obs.usedHex s.now)
    rw [mcount, hcount, ← hmark] at dcount demits
    refine ⟨by rw [hdivert, mdivert, dcount], ?_⟩
    have hphase : .possibleDivert ∉ if phaseSampleConfirmed f ac raw s.obs.usedHex s.now then
        (phaseStep (if restartsPhase f raw then resetPhase seen else seen) ac s.now).2 else [] := by
      intro hm
      split_ifs at hm
      · cases phaseStep_emits _ _ _ _ hm
      · cases phaseStep_emits _ _ _ _ hm
      · cases hm
    have hsquawk : .possibleDivert ∉
        squawkEmits f.squawk ac.squawk (phaseSampleConfirmed f ac raw s.obs.usedHex s.now) := by
      intro hm
      obtain ⟨code, meaning, hsq⟩ := squawkEmits_emits _ _ _ _ hm
      cases hsq
    have hvis : .possibleDivert ∉
        (if !f.targetConfirmation.isTargetConfirmed && raw.isTargetConfirmed then [Emit.adsbVisible] else []) := by
      split <;> simp
    rw [hsent, memits, demits]
    simp only [List.mem_append, hphase, hsquawk, hvis, false_or]
    by_cases halert : (divertMark Γ f s).any (·.alerts f.divertConsecutivePolls) = true
    · simp only [halert, if_true, List.mem_singleton]
    · simp only [halert, Bool.false_eq_true, if_false, List.not_mem_nil]

/-! ## The counter of a history -/

/-- The marks of a history. -/
def divertMarks (Γ : Ctx) (f : TrackedFlight) (samples : List Sample) : List DivertMark :=
  recordOf Γ (divertMark Γ) f samples

theorem recordOf_snoc {α : Type} (look : TrackedFlight → Sample → Option α) (f : TrackedFlight) (samples : List Sample)
    (s : Sample) :
    recordOf Γ look f (samples ++ [s]) = recordOf Γ look f samples ++ (look (flyThrough Γ f samples) s).toList := by
  induction samples generalizing f with
  | nil => simp [recordOf, flyThrough]
  | cons a rest ih => rw [List.cons_append, recordOf, ih, recordOf, List.append_assoc, flyThrough_cons]

/-- The anomalies at the end of a list of marks. -/
def trailing (marks : List DivertMark) : Nat := (marks.reverse.takeWhile (· == .evaluated true)).length

@[simp] theorem trailing_nil : trailing [] = 0 := rfl

theorem trailing_snoc (marks : List DivertMark) (m : DivertMark) :
    trailing (marks ++ [m]) = if m = .evaluated true then trailing marks + 1 else 0 := by
  unfold trailing
  rw [List.reverse_append, List.reverse_singleton, List.singleton_append, List.takeWhile_cons]
  by_cases h : m = .evaluated true
  · simp [h]
  · simp [h]

/-- Two anomalies at the end are two anomalies at the end. -/
theorem two_le_trailing_iff (marks : List DivertMark) :
    2 ≤ trailing marks ↔ ∃ past, marks = past ++ [.evaluated true, .evaluated true] := by
  constructor
  · intro h
    rcases List.eq_nil_or_concat marks with rfl | ⟨init, b, rfl⟩
    · simp at h
    rw [List.concat_eq_append] at h ⊢
    rw [trailing_snoc] at h
    split_ifs at h with hb
    · rcases List.eq_nil_or_concat init with rfl | ⟨past, a, rfl⟩
      · simp at h
      rw [List.concat_eq_append] at h ⊢
      rw [trailing_snoc] at h
      split_ifs at h with ha
      · exact ⟨past, by rw [ha, hb, List.append_assoc]; rfl⟩
      · exact absurd h (by decide)
    · exact absurd h (by decide)
  · rintro ⟨past, rfl⟩
    have hsplit : past ++ [.evaluated true, .evaluated true] = (past ++ [.evaluated true]) ++ [.evaluated true] := by simp
    rw [hsplit, trailing_snoc, trailing_snoc, if_pos rfl, if_pos rfl]
    omega

theorem saturatingSucc_toNat (n : UInt32) : (saturatingSucc n).toNat = min (n.toNat + 1) 0xFFFFFFFF := by
  unfold saturatingSucc
  split_ifs with h
  · rw [h]
    rfl
  · have hlt : n.toNat < 0xFFFFFFFF := by
      have hle := n.toNat_lt
      have hne : n.toNat ≠ 0xFFFFFFFF := fun he => h (UInt32.toNat_inj.mp he)
      omega
    rw [UInt32.toNat_add]
    simp
    omega

/-- The counter is the number of anomalies at the end of the history, as far as it counts. -/
theorem divert_flyThrough {f : TrackedFlight} (h : f.divertConsecutivePolls = 0) (samples : List Sample) :
    (flyThrough Γ f samples).divertConsecutivePolls.toNat = min (trailing (divertMarks Γ f samples)) 0xFFFFFFFF := by
  induction samples using List.reverseRecOn with
  | nil => simp [flyThrough, h, divertMarks, recordOf]
  | append_singleton samples s ih =>
    have hstep : flyThrough Γ f (samples ++ [s]) = pollStep Γ (flyThrough Γ f samples) s := by
      rw [flyThrough_append]
      rfl
    rw [hstep, (divert_pollStep _ s).1, divertMarks, recordOf_snoc, ← divertMarks]
    cases divertMark Γ (flyThrough Γ f samples) s with
    | none => simpa using ih
    | some m =>
      rw [Option.map_some, Option.getD_some, Option.toList_some, trailing_snoc]
      cases m with
      | reset => simp [DivertMark.count]
      | evaluated anomalous =>
        cases anomalous with
        | false => simp [DivertMark.count, updateDivertCounter]
        | true =>
          rw [if_pos rfl]
          simp only [DivertMark.count, updateDivertCounter, if_true]
          rw [saturatingSucc_toNat, ih]
          omega

/-! ## A flight that a track produces -/

theorem ProducedBy.divert {env : Env} {state : FlightTrackerState} {identifier : FlightIdentifier} {requestedBy : String}
    {f : TrackedFlight} (h : ProducedBy Γ env state identifier requestedBy f) : f.divertConsecutivePolls = 0 := by
  refine h.stages.induct (P := fun f => f.divertConsecutivePolls = 0)
    (fun resolved checked _ => by simp [newFlight, seedFlightAliases]) (fun _ m hf => by simpa using hf) (fun _ hf => hf)
    (fun f g hf hs => ?_) (fun _ origin dest hf => by simpa using hf)
  cases hs with
  | skipped => exact hf
  | unseen => exact hf
  | unconfirmed => exact hf
  | visible ac usedHex confirmation byHex accepted direct => simpa using hf
  | seen ac usedHex confirmation byHex accepted direct => simpa [seeTarget] using hf

/-- A diversion is announced by the step that compares the bearings and finds them anomalous, after two comparisons that did so
too, with no hit between them that starts the comparison over. -/
theorem divert_after_three_anomalies {f₀ : TrackedFlight} (h : Produced Γ f₀) (samples : List Sample) (s : Sample) :
    .possibleDivert ∈ sampleEmits Γ (flyThrough Γ f₀ samples) s ↔
      divertMark Γ (flyThrough Γ f₀ samples) s = some (.evaluated true) ∧
      ∃ past, divertMarks Γ f₀ samples = past ++ [.evaluated true, .evaluated true] := by
  obtain ⟨env, state, identifier, requestedBy, hp⟩ := h
  have hcount := divert_flyThrough (Γ := Γ) hp.divert samples
  rw [(divert_pollStep _ s).2, ← two_le_trailing_iff]
  have halert : 3 ≤ saturatingSucc (flyThrough Γ f₀ samples).divertConsecutivePolls ↔
      2 ≤ trailing (divertMarks Γ f₀ samples) := by
    rw [UInt32.le_iff_toNat_le, saturatingSucc_toNat, hcount]
    have h3 : (3 : UInt32).toNat = 3 := rfl
    omega
  cases divertMark Γ (flyThrough Γ f₀ samples) s with
  | none => simp
  | some m =>
    cases m with
    | reset => simp [DivertMark.alerts]
    | evaluated anomalous =>
      cases anomalous with
      | false => simp [DivertMark.alerts, updateDivertCounter]
      | true =>
        have hal : (some (DivertMark.evaluated true)).any
            (·.alerts (flyThrough Γ f₀ samples).divertConsecutivePolls) =
            decide (3 ≤ saturatingSucc (flyThrough Γ f₀ samples).divertConsecutivePolls) := rfl
        rw [hal, decide_eq_true_iff, halert]
        simp

/-- Tables in which every flight is off its heading. -/
def astrayCtx : Ctx :=
  { fieldCtx with
    iataToCoords := fun _ => some (F64.zero, F64.zero)
    offHeading := fun _ _ _ => true }

/-- AviationStack knows the airports of every flight. -/
def routedEnv : Env :=
  { quietEnv 0 with
    getAviationstackFlightMetadata := fun _ _ => .ok (some { departureIata := some "FRA", arrivalIata := some "JFK" }) }

theorem routed_length : (handleTrack astrayCtx routedEnv {} (.callsign "DLH123") "ann").1.flights.length = 1 := by
  decide +kernel

def routedFlight : TrackedFlight :=
  (handleTrack astrayCtx routedEnv {} (.callsign "DLH123") "ann").1.flights.get ⟨0, by rw [routed_length]; decide⟩

theorem routedFlight_produced : Produced astrayCtx routedFlight := by
  obtain ⟨f, hf⟩ := List.length_eq_one_iff.mp routed_length
  have hget : routedFlight = f := by simp [routedFlight, hf]
  exact ⟨_, _, _, _, hget ▸ hf⟩

/-- The aircraft of a flight descends. -/
def descending (now : Instant) : Sample :=
  { obs :=
      { usedHex := false
        outcome := .hit
          { flight := some "DLH123"
            altBaro := some (.feet 20000)
            lat := some F64.zero
            lon := some F64.zero
            baroRate := some (-1000) } }
    now := now
    getFlightRoute := fun _ => none }

/-- The first of four samples has no position before it, and the fourth announces the diversion. -/
theorem divert_after_three_descending :
    .possibleDivert ∈ sampleEmits astrayCtx
      (flyThrough astrayCtx routedFlight [descending (seconds 60), descending (seconds 90), descending (seconds 120)])
      (descending (seconds 150)) :=
  (divert_after_three_anomalies routedFlight_produced _ _).mpr ⟨by decide +kernel, [], by decide +kernel⟩

end Twitch1337.Tracker
