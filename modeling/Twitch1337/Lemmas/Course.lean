import Twitch1337.Lemmas.Identity

/-!
# What a sample announces

The announcements of an accepted hit come in three parts: the emergency squawk, the first confirmation of the target, and the
phase with the diversion. Only a sample that is eligible moves the course of a flight.
-/

namespace Twitch1337.Tracker

open RustStr Chrono

variable {Γ : Ctx}

/-! ## The course of a flight -/

/-- Whether a hit makes the phase of a flight start over. -/
def restartsPhase (f : TrackedFlight) (raw : TargetConfirmation) : Bool :=
  (!f.targetConfirmation.isTargetConfirmed && raw.isTargetConfirmed) && isPendingAdsb f

/-- The flight whose phase a sample is compared with. -/
def phaseBasis (f : TrackedFlight) (raw : TargetConfirmation) : TrackedFlight :=
  if restartsPhase f raw then resetPhase f else f

/-- The phase branch reads and writes the course of a flight. -/
theorem phaseStep_congr {f g : TrackedFlight} (h : f.toCourse = g.toCourse) (ac : NearbyAircraft) (now : Instant) :
    (phaseStep f ac now).1.toCourse = (phaseStep g ac now).1.toCourse ∧ (phaseStep f ac now).2 = (phaseStep g ac now).2 := by
  have hd : detectPhase f ac = detectPhase g ac := by simp only [detectPhase, h]
  simp only [phaseStep, hd, h]
  split
  · simp
  · split <;> simp

/-- A diversion is all that the diversion branch announces. -/
theorem divertStep_emits (f : TrackedFlight) (prevLat prevLon : Option F64) (eligible : Bool) :
    ∀ e ∈ (divertStep Γ f prevLat prevLon eligible).2, e = .possibleDivert := by
  intro e he
  unfold divertStep at he
  split at he
  · split at he
    · simp only at he
      split at he
      · exact List.mem_singleton.mp he
      · cases he
    · cases he
  · cases he

theorem observePhase_spec (f : TrackedFlight) (ac : NearbyAircraft) (restart eligible : Bool) (prevLat prevLon : Option F64)
    (now : Instant) :
    (observePhase Γ f ac restart eligible prevLat prevLon now).1.toCourse =
      (if eligible then (phaseStep (if restart then resetPhase f else f) ac now).1
        else if restart then resetPhase f else f).toCourse ∧
    ∃ diverted, (∀ e ∈ diverted, e = .possibleDivert) ∧
      (observePhase Γ f ac restart eligible prevLat prevLon now).2 =
        (if eligible then (phaseStep (if restart then resetPhase f else f) ac now).2 else []) ++ diverted := by
  cases eligible with
  | true => exact ⟨by simp [observePhase], _, divertStep_emits _ prevLat prevLon true, rfl⟩
  | false => exact ⟨by simp [observePhase], [], by simp, rfl⟩

/-- A sample with an accepted aircraft: the flight that has seen it has the course, the route and the counter from before, and
the telemetry of the aircraft; from there the phase and the diversion are observed. -/
theorem pollStep_of_seen {f : TrackedFlight} {s : Sample} {ac : NearbyAircraft} {raw : TargetConfirmation}
    (h : acceptedHit f s = some (ac, raw)) :
    ∃ seen g : TrackedFlight, ∃ emits, seen.toCourse = f.toCourse ∧ seen.toRouting = f.toRouting ∧
      seen.lat = ac.lat ∧ seen.lon = ac.lon ∧ seen.divertConsecutivePolls = f.divertConsecutivePolls ∧
      observePhase Γ seen ac (restartsPhase f raw) (phaseSampleConfirmed f ac raw s.obs.usedHex s.now) f.lat f.lon s.now =
        (g, emits) ∧
      (pollStep Γ f s).toCourse = g.toCourse ∧
      (pollStep Γ f s).divertConsecutivePolls = g.divertConsecutivePolls ∧
      sampleEmits Γ f s =
        squawkEmits f.squawk ac.squawk (phaseSampleConfirmed f ac raw s.obs.usedHex s.now) ++
          (if !f.targetConfirmation.isTargetConfirmed && raw.isTargetConfirmed then [.adsbVisible] else []) ++ emits := by
  obtain ⟨-, he⟩ := advanceFlight_of_accepted (Γ := Γ) h
  refine ⟨(applyObservedAircraft Γ
      { polledAt f s.now with
        lastVisibleAt := some s.now
        lastSeen := if raw.isTargetConfirmed then some s.now else f.lastSeen }
      ac (confirmationAfter f raw s.obs.usedHex s.now) raw.isTargetConfirmed).1, _, _, by simp, by simp, by simp, by simp,
    by simp [polledAt], rfl, ?_, ?_, ?_⟩
  · rw [pollStep, he]
    simp only [performFollowups_frame]
    rfl
  · rw [pollStep, he]
    simp only [performFollowups_rest]
    rfl
  · rw [sampleEmits, he]
    rfl

/-- What a sample with an accepted aircraft does to the course of a flight, and what it announces. -/
theorem course_of_accepted {f : TrackedFlight} {s : Sample} {ac : NearbyAircraft} {raw : TargetConfirmation}
    (h : acceptedHit f s = some (ac, raw)) :
    (pollStep Γ f s).toCourse =
      (if phaseSampleConfirmed f ac raw s.obs.usedHex s.now then (phaseStep (phaseBasis f raw) ac s.now).1
        else f).toCourse ∧
    ∃ diverted, (∀ e ∈ diverted, e = .possibleDivert) ∧
      sampleEmits Γ f s =
        squawkEmits f.squawk ac.squawk (phaseSampleConfirmed f ac raw s.obs.usedHex s.now) ++
          (if !f.targetConfirmation.isTargetConfirmed && raw.isTargetConfirmed then [.adsbVisible] else []) ++
          ((if phaseSampleConfirmed f ac raw s.obs.usedHex s.now then (phaseStep (phaseBasis f raw) ac s.now).2
            else []) ++ diverted) := by
  obtain ⟨seen, g, emits, hcourse, -, -, -, -, hobs, hpoll, -, hsent⟩ := pollStep_of_seen (Γ := Γ) h
  obtain ⟨hc, diverted, hd, hem⟩ := observePhase_spec (Γ := Γ) seen ac (restartsPhase f raw)
    (phaseSampleConfirmed f ac raw s.obs.usedHex s.now) f.lat f.lon s.now
  rw [hobs] at hc hem
  have hbasis : (if restartsPhase f raw then resetPhase seen else seen).toCourse = (phaseBasis f raw).toCourse := by
    unfold phaseBasis
    split
    · simp [resetPhase, hcourse]
    · exact hcourse
  obtain ⟨hstep, hphased⟩ := phaseStep_congr hbasis ac s.now
  refine ⟨?_, diverted, hd, ?_⟩
  · rw [hpoll, hc]
    cases hel : phaseSampleConfirmed f ac raw s.obs.usedHex s.now with
    | true => exact hstep
    | false =>
      have hraw : raw.isTargetConfirmed = false := by
        rw [phaseSampleConfirmed, Bool.or_eq_false_iff] at hel
        exact hel.1
      simp [restartsPhase, hraw, hcourse]
  · rw [hsent, ← hphased, ← hem]

/-! ## The parts of an announcement -/

/-- The announcements of a phase. -/
def Emit.ofPhase : Emit → Bool
  | takeoff | cruise | descent | approach | landing _ => true
  | _ => false

theorem phaseStep_emits (f : TrackedFlight) (ac : NearbyAircraft) (now : Instant) :
    ∀ e ∈ (phaseStep f ac now).2, e.ofPhase = true := by
  have hp : ∀ p t, ∀ e ∈ phaseEmits p t, e.ofPhase = true := by
    intro p t
    cases p <;> simp [phaseEmits, Emit.ofPhase]
  unfold phaseStep
  dsimp only
  split
  · simp
  · split
    · exact hp _ _
    · exact hp _ _

theorem squawkEmits_emits (prevSquawk newSquawk : Option String) (eligible : Bool) :
    ∀ e ∈ squawkEmits prevSquawk newSquawk eligible, ∃ code meaning, e = .squawkEmergency code meaning := by
  intro e he
  unfold squawkEmits at he
  split at he
  · cases he
  · split at he
    · split at he
      · exact ⟨_, _, List.mem_singleton.mp he⟩
      · cases he
    · cases he

/-- Without an accepted aircraft, a sample announces no more than the loss of the flight. -/
theorem emits_of_ignored {f : TrackedFlight} {s : Sample} (h : acceptedHit f s = none) :
    ∀ e ∈ sampleEmits Γ f s, e = .trackingLost := by
  intro e hmem
  rw [sampleEmits] at hmem
  rcases advanceFlight_of_ignored (Γ := Γ) h with ⟨-, he⟩ | he
  · rw [he, advanceMiss] at hmem
    split at hmem
    · cases hmem
    · simp only at hmem
      split at hmem
      · exact List.mem_singleton.mp hmem
      · cases hmem
  · rw [he] at hmem
    cases hmem

/-! ## The phase of a flight -/

/-- A sample leaves the phase of a flight, lands a flight in the air, finds one on the ground, or finds one in the air. -/
theorem detectPhase_cases (f : TrackedFlight) (ac : NearbyAircraft) :
    detectPhase f ac = f.phase ∨
    (detectPhase f ac = .landing ∧ f.phase.isParked = false) ∨
    (detectPhase f ac = .ground ∧ f.phase.isParked = true) ∨
    isAirbornePhase (detectPhase f ac) = true := by
  unfold detectPhase
  simp only
  split
  · rename_i h
    rw [Bool.and_eq_true, Bool.not_eq_true'] at h
    exact .inr (.inl ⟨rfl, h.2⟩)
  · rename_i hfly
    split
    · rename_i hground
      have hparked : f.phase.isParked = true := by
        by_contra hp
        rw [Bool.not_eq_true] at hp
        exact hfly (by rw [hground, hp]; rfl)
      exact .inr (.inr (.inl ⟨rfl, hparked⟩))
    · split
      · exact .inr (.inr (.inr rfl))
      · split
        · split
          · exact .inr (.inr (.inr rfl))
          · exact .inr (.inr (.inr rfl))
        · split
          · exact .inr (.inr (.inr rfl))
          · split
            · exact .inr (.inr (.inr rfl))
            · split
              · exact .inr (.inr (.inr rfl))
              · exact .inl rfl

/-- The takeoff time a landing carries. -/
def Emit.takeoffOfLanding : Emit → Option (Option Instant)
  | landing takeoffAt => some takeoffAt
  | _ => none

/-- The landings a sample announces, each with the takeoff time it carries. -/
def landings (Γ : Ctx) (f : TrackedFlight) (s : Sample) : List (Option Instant) :=
  (sampleEmits Γ f s).filterMap Emit.takeoffOfLanding

/-- What a sample does to the phase of a flight that starts from a phase `q`: nothing, a landing, or a move to the ground or
into the air. -/
inductive CourseChange (Γ : Ctx) (f : TrackedFlight) (s : Sample) (q : FlightPhase) : Prop
  | kept (phase : (pollStep Γ f s).phase = q) (takeoff : (pollStep Γ f s).takeoffAt = f.takeoffAt)
      (quiet : landings Γ f s = [])
  | landed (flew : q.isParked = false) (accepted : (acceptedHit f s).isSome = true)
      (phase : (pollStep Γ f s).phase = .ground) (takeoff : (pollStep Γ f s).takeoffAt = none)
      (landing : landings Γ f s = [f.takeoffAt])
  | moved (eligible : (eligibleHit f s).isSome = true)
      (phase : ((pollStep Γ f s).phase = .ground ∧ q.isParked = true) ∨ isAirbornePhase (pollStep Γ f s).phase = true)
      (takeoff : (pollStep Γ f s).takeoffAt =
        if q == .ground && isAirbornePhase (pollStep Γ f s).phase && f.takeoffAt.isNone then some s.now else f.takeoffAt)
      (quiet : landings Γ f s = [])

/-! ## Eligible samples -/

/-- An eligible sample is accepted. -/
theorem eligibleHit_eq_some {f : TrackedFlight} {s : Sample} {ac : NearbyAircraft} :
    eligibleHit f s = some ac ↔
      ∃ raw, acceptedHit f s = some (ac, raw) ∧ phaseSampleConfirmed f ac raw s.obs.usedHex s.now = true := by
  unfold eligibleHit
  split
  · rename_i ac' raw ha
    rw [ha]
    split
    · rename_i hp
      constructor
      · intro h
        rw [Option.some.injEq] at h
        subst h
        exact ⟨raw, rfl, hp⟩
      · rintro ⟨raw', h, -⟩
        rw [Option.some.injEq, Prod.mk.injEq] at h
        rw [h.1]
    · rename_i hp
      constructor
      · intro h
        cases h
      · rintro ⟨raw', h, hp'⟩
        rw [Option.some.injEq, Prod.mk.injEq] at h
        obtain ⟨rfl, rfl⟩ := h
        exact absurd hp' hp
  · rename_i ha
    rw [ha]
    simp

/-- Of the announcements of an accepted hit, only those of the phase are landings. -/
theorem landings_of_accepted {f : TrackedFlight} {s : Sample} {ac : NearbyAircraft} {raw : TargetConfirmation}
    (h : acceptedHit f s = some (ac, raw)) :
    landings Γ f s =
      (if phaseSampleConfirmed f ac raw s.obs.usedHex s.now then (phaseStep (phaseBasis f raw) ac s.now).2
        else []).filterMap Emit.takeoffOfLanding := by
  obtain ⟨-, diverted, hd, he⟩ := course_of_accepted (Γ := Γ) h
  have hsquawk : (squawkEmits f.squawk ac.squawk (phaseSampleConfirmed f ac raw s.obs.usedHex s.now)).filterMap
      Emit.takeoffOfLanding = [] := by
    rw [List.filterMap_eq_nil_iff]
    intro e hmem
    obtain ⟨code, meaning, rfl⟩ := squawkEmits_emits _ _ _ e hmem
    rfl
  have hvisible : (if !f.targetConfirmation.isTargetConfirmed && raw.isTargetConfirmed then [Emit.adsbVisible]
      else []).filterMap Emit.takeoffOfLanding = [] := by
    split <;> rfl
  have hdiverted : diverted.filterMap Emit.takeoffOfLanding = [] := by
    rw [List.filterMap_eq_nil_iff]
    intro e hmem
    rw [hd e hmem]
    rfl
  rw [landings, he, List.filterMap_append, List.filterMap_append, List.filterMap_append, hsquawk, hvisible, hdiverted]
  simp

/-- Without an accepted aircraft nothing lands. -/
theorem landings_of_ignored {f : TrackedFlight} {s : Sample} (h : acceptedHit f s = none) : landings Γ f s = [] := by
  rw [landings, List.filterMap_eq_nil_iff]
  intro e hmem
  rw [emits_of_ignored h e hmem]
  rfl

theorem phaseBasis_phase (f : TrackedFlight) (raw : TargetConfirmation) :
    (phaseBasis f raw).phase = f.phase ∨ ((phaseBasis f raw).phase = .unknown ∧ isPendingAdsb f = true) := by
  unfold phaseBasis
  by_cases hr : restartsPhase f raw = true
  · rw [if_pos hr]
    rw [restartsPhase, Bool.and_eq_true] at hr
    exact .inr ⟨rfl, hr.2⟩
  · rw [if_neg hr]
    exact .inl rfl

theorem phaseBasis_takeoffAt (f : TrackedFlight) (raw : TargetConfirmation) : (phaseBasis f raw).takeoffAt = f.takeoffAt := by
  unfold phaseBasis
  split <;> rfl

/-- What a sample does to the course of a flight. It starts from the phase the flight has, or starts over when the flight is
pending. -/
theorem courseChange (f : TrackedFlight) (s : Sample) :
    ∃ q, (q = f.phase ∨ (q = .unknown ∧ isPendingAdsb f = true)) ∧ CourseChange Γ f s q := by
  cases ha : acceptedHit f s with
  | none =>
    obtain ⟨-, -, -, -, hp, ht⟩ := pollStep_of_ignored (Γ := Γ) ha
    exact ⟨f.phase, .inl rfl, .kept hp ht (landings_of_ignored ha)⟩
  | some hit =>
    obtain ⟨ac, raw⟩ := hit
    obtain ⟨hc, -⟩ := course_of_accepted (Γ := Γ) ha
    have hl := landings_of_accepted (Γ := Γ) ha
    cases hel : phaseSampleConfirmed f ac raw s.obs.usedHex s.now with
    | false =>
      rw [hel] at hc hl
      exact ⟨f.phase, .inl rfl, .kept (congrArg (·.phase) hc) (congrArg (·.takeoffAt) hc) hl⟩
    | true =>
      rw [hel, if_pos rfl] at hc hl
      have heligible : (eligibleHit f s).isSome = true := by
        rw [eligibleHit_eq_some.mpr ⟨raw, ha, hel⟩]
        rfl
      have htakeoff := phaseBasis_takeoffAt f raw
      refine ⟨(phaseBasis f raw).phase, phaseBasis_phase f raw, ?_⟩
      have hphase := congrArg (·.phase) hc
      have hto := congrArg (·.takeoffAt) hc
      unfold phaseStep at hphase hto hl
      simp only at hphase hto hl
      by_cases hsame : detectPhase (phaseBasis f raw) ac = (phaseBasis f raw).phase
      · simp only [if_pos hsame] at hphase hto hl
        exact .kept hphase (hto.trans htakeoff) hl
      · simp only [if_neg hsame] at hphase hto hl
        by_cases hland : detectPhase (phaseBasis f raw) ac = .landing
        · simp only [if_pos hland] at hphase hto hl
          have hflew : (phaseBasis f raw).phase.isParked = false := by
            rcases detectPhase_cases (phaseBasis f raw) ac with h | ⟨-, h⟩ | ⟨h, -⟩ | h
            · exact absurd h hsame
            · exact h
            · rw [hland] at h
              cases h
            · rw [hland] at h
              cases h
          refine .landed hflew (by rw [ha]; rfl) hphase hto ?_
          rw [hl, hland]
          simp [phaseEmits, isAirbornePhase, htakeoff, Emit.takeoffOfLanding]
        · simp only [if_neg hland] at hphase hto hl
          refine .moved heligible ?_ ?_ ?_
          · rw [hphase]
            rcases detectPhase_cases (phaseBasis f raw) ac with h | ⟨h, -⟩ | h | h
            · exact absurd h hsame
            · exact absurd h hland
            · exact .inl h
            · exact .inr h
          · rw [hto, hphase, htakeoff]
          · rw [hl]
            cases hd : detectPhase (phaseBasis f raw) ac with
            | landing => exact absurd hd hland
            | _ => rfl

end Twitch1337.Tracker
