import Twitch1337.Lemmas.Course
import Twitch1337.Theorems.Squawk

/-!
# Takeoff and landing

A landing leaves a flight on the ground with its takeoff time cleared. It lands again only after it was seen in the air, and
then the landing carries the time of the first sample that saw it there.
-/

namespace Twitch1337.Tracker

open RustStr Chrono

variable {Γ : Ctx}

/-! ## No flight is stored as landing -/

/-- A sample stores no landing. -/
theorem pollStep_ne_landing {f : TrackedFlight} (hf : f.phase ≠ .landing) (s : Sample) :
    (pollStep Γ f s).phase ≠ .landing := by
  obtain ⟨q, hq, hc⟩ := courseChange (Γ := Γ) f s
  intro hland
  cases hc with
  | kept phase _ _ =>
    rw [hland] at phase
    subst phase
    rcases hq with h | ⟨h, -⟩
    · exact hf h.symm
    · cases h
  | landed _ _ phase _ _ =>
    rw [hland] at phase
    cases phase
  | moved _ phase _ _ =>
    rw [hland] at phase
    rcases phase with ⟨h, -⟩ | h
    · cases h
    · cases h

/-- The phase of a prepared flight is not known. -/
theorem preparedFlight_phase (env : Env) (state : FlightTrackerState) (identifier : FlightIdentifier)
    (requestedBy : String) : (preparedFlight Γ env state identifier requestedBy).phase = .unknown := by
  refine preparedFlight_induct (P := fun f => f.phase = .unknown) ?_ ?_
  · intro resolved checked _
    simp [newFlight, seedFlightAliases]
  · intro f m hf
    simpa using hf

/-- A flight whose phase is not known does not land when it is first seen. -/
theorem seeTarget_ne_landing {f : TrackedFlight} (h : f.phase = .unknown) (ac : NearbyAircraft) (now : Instant) :
    (seeTarget f ac now).phase ≠ .landing := by
  intro hland
  rw [seeTarget] at hland
  simp only at hland
  rcases detectPhase_cases { f with lastSeen := some now, lastVisibleAt := some now } ac with hd | ⟨-, hd⟩ | ⟨hd, -⟩ | hd
  · rw [hland] at hd
    simp only [h] at hd
    cases hd
  · simp only [h] at hd
    cases hd
  · rw [hland] at hd
    cases hd
  · rw [hland] at hd
    cases hd

/-- A flight is not produced landing. -/
theorem ProducedBy.ne_landing {env : Env} {state : FlightTrackerState} {identifier : FlightIdentifier}
    {requestedBy : String} {f₀ : TrackedFlight} (h : ProducedBy Γ env state identifier requestedBy f₀) :
    f₀.phase ≠ .landing := by
  obtain ⟨-, -, -, f₁, f₂, hi, hl, hr⟩ := h.stages
  have hprep := preparedFlight_phase (Γ := Γ) env state identifier requestedBy
  have h₁ : f₁.phase ≠ .landing := by
    cases initialPoll_stage hi with
    | skipped => simp [hprep]
    | unseen => simp [hprep]
    | unconfirmed => simp [hprep]
    | visible ac usedHex confirmation => simp [hprep]
    | seen ac usedHex confirmation =>
      exact seeTarget_ne_landing (by simp [hprep]) ac env.now
  have h₂ : f₂.phase = f₁.phase := by
    cases hl with
    | skipped => rfl
    | missing => rfl
    | found m => simp
  rcases hr with rfl | ⟨origin, dest, rfl⟩
  · rw [h₂]
    exact h₁
  · simpa [h₂] using h₁

/-- No flight that a track produced is ever stored as landing. -/
theorem flyThrough_ne_landing {f₀ : TrackedFlight} (h : f₀.phase ≠ .landing) (samples : List Sample) :
    (flyThrough Γ f₀ samples).phase ≠ .landing := by
  induction samples generalizing f₀ with
  | nil => exact h
  | cons s rest ih => exact ih (pollStep_ne_landing h s)

/-! ## Settled flights -/

/-- A flight that has accepted an aircraft is not pending any more. -/
theorem settled_of_accepted {f : TrackedFlight} {s : Sample} (h : (acceptedHit f s).isSome = true) :
    isPendingAdsb (pollStep Γ f s) = false := by
  obtain ⟨⟨ac, raw⟩, ha⟩ := Option.isSome_iff_exists.mp h
  obtain ⟨-, -, hc, hv, -, -⟩ := pollStep_of_accepted (Γ := Γ) ha
  have hne : confirmationAfter f raw s.obs.usedHex s.now ≠ .pending := by
    unfold confirmationAfter
    split
    · rename_i hk
      exact isTargetConfirmed_ne_pending (keepPrior_spec hk).1
    · exact targetConfirmation_ne_pending (accepted_confirmation ha)
  rw [isPendingAdsb, hc, hv, Bool.or_eq_false_iff, beq_eq_false_iff_ne]
  exact ⟨hne, by simp⟩

/-- A flight that is not pending stays so. -/
theorem settled_sample {f : TrackedFlight} (h : isPendingAdsb f = false) (s : Sample) :
    isPendingAdsb (pollStep Γ f s) = false := by
  by_cases ha : (acceptedHit f s).isSome = true
  · exact settled_of_accepted ha
  · rw [Bool.not_eq_true, Option.isSome_eq_false_iff, Option.isNone_iff_eq_none] at ha
    have hs := (pollStep_of_ignored (Γ := Γ) ha).2.2.1
    rw [← h, isPendingAdsb, isPendingAdsb, hs]

/-- What a sample does to the course of a flight that is not pending. -/
theorem courseChange_of_settled {f : TrackedFlight} (h : isPendingAdsb f = false) (s : Sample) :
    CourseChange Γ f s f.phase := by
  obtain ⟨q, hq, hc⟩ := courseChange (Γ := Γ) f s
  rcases hq with rfl | ⟨-, hp⟩
  · exact hc
  · rw [h] at hp
    cases hp

/-- A sample that announces a landing leaves the flight settled on the ground, with no takeoff time; it was in the air, and the
landing carries its takeoff time. -/
theorem landing_spec {f : TrackedFlight} {s : Sample} {t : Option Instant} (h : t ∈ landings Γ f s) :
    isPendingAdsb (pollStep Γ f s) = false ∧ (pollStep Γ f s).phase = .ground ∧ (pollStep Γ f s).takeoffAt = none ∧
      t = f.takeoffAt ∧ (isPendingAdsb f = false → f.phase.isParked = false) := by
  obtain ⟨q, hq, hc⟩ := courseChange (Γ := Γ) f s
  cases hc with
  | kept _ _ quiet =>
    rw [quiet] at h
    cases h
  | landed flew accepted phase takeoff landing =>
    rw [landing, List.mem_singleton] at h
    refine ⟨settled_of_accepted accepted, phase, takeoff, h, fun hp => ?_⟩
    rcases hq with rfl | ⟨-, hp'⟩
    · exact flew
    · rw [hp] at hp'
      cases hp'
  | moved _ _ _ quiet =>
    rw [quiet] at h
    cases h

/-- A sample announces one landing at most. -/
theorem landings_length (f : TrackedFlight) (s : Sample) : (landings Γ f s).length ≤ 1 := by
  obtain ⟨q, -, hc⟩ := courseChange (Γ := Γ) f s
  cases hc with
  | kept _ _ quiet => simp [quiet]
  | landed _ _ _ _ landing => simp [landing]
  | moved _ _ _ quiet => simp [quiet]

/-! ## Between two landings -/

/-- A flight on the ground stays there or takes off. -/
theorem ground_sample {f : TrackedFlight} (h : isPendingAdsb f = false) (hg : f.phase = .ground) (s : Sample) :
    ((pollStep Γ f s).phase = .ground ∧ (pollStep Γ f s).takeoffAt = f.takeoffAt) ∨
      ((eligibleHit f s).isSome = true ∧ isAirbornePhase (pollStep Γ f s).phase = true ∧
        (f.takeoffAt = none → (pollStep Γ f s).takeoffAt = some s.now)) := by
  have hc := courseChange_of_settled (Γ := Γ) h s
  rw [hg] at hc
  cases hc with
  | kept phase takeoff _ => exact .inl ⟨phase, takeoff⟩
  | landed flew => cases flew
  | moved eligible phase takeoff _ =>
    by_cases ha : isAirbornePhase (pollStep Γ f s).phase = true
    · refine .inr ⟨eligible, ha, fun hn => ?_⟩
      rw [takeoff, ha, hn]
      rfl
    · rcases phase with ⟨phase, -⟩ | phase
      · left
        refine ⟨phase, ?_⟩
        rw [takeoff, phase]
        rfl
      · exact absurd phase ha

/-- A flight on the ground stays there, or some sample moves it into the air. -/
theorem ground_or_departs {g : TrackedFlight} (h : isPendingAdsb g = false) (hg : g.phase = .ground)
    (samples : List Sample) :
    (flyThrough Γ g samples).phase = .ground ∨
      ∃ a s b, samples = a ++ s :: b ∧ (flyThrough Γ g a).phase = .ground ∧
        isAirbornePhase (flyThrough Γ g (a ++ [s])).phase = true := by
  induction samples generalizing g with
  | nil => exact .inl hg
  | cons s rest ih =>
    rcases ground_sample (Γ := Γ) h hg s with ⟨hground, -⟩ | ⟨-, hair, -⟩
    · rcases ih (settled_sample h s) hground with hr | ⟨a, x, b, rfl, ha, hx⟩
      · exact .inl hr
      · exact .inr ⟨s :: a, x, b, rfl, ha, hx⟩
    · exact .inr ⟨[], s, rest, rfl, hg, hair⟩

/-- The time of a sample that is eligible and leaves the flight in an airborne phase. -/
def airborneAt (Γ : Ctx) (f : TrackedFlight) (s : Sample) : Option Instant :=
  if (eligibleHit f s).isSome && isAirbornePhase (pollStep Γ f s).phase then some s.now else none

/-- What a flight that has landed satisfies until it lands again: it is on the ground and no sample saw it in the air, or it is
in the air since the first sample that did. -/
def SinceLanding (g : TrackedFlight) (aloft : List Instant) : Prop :=
  isPendingAdsb g = false ∧
    ((g.phase = .ground ∧ g.takeoffAt = none ∧ aloft = []) ∨
      (isAirbornePhase g.phase = true ∧ g.takeoffAt.isSome = true ∧ g.takeoffAt = aloft.head?))

/-- A sample that announces no landing keeps what a landed flight satisfies. -/
theorem SinceLanding.sample {g : TrackedFlight} {aloft : List Instant} (h : SinceLanding g aloft) (s : Sample)
    (hquiet : landings Γ g s = []) : SinceLanding (pollStep Γ g s) (aloft ++ (airborneAt Γ g s).toList) := by
  obtain ⟨hset, ⟨hg, ht, rfl⟩ | ⟨hair, hsome, ht⟩⟩ := h
  · refine ⟨settled_sample hset s, ?_⟩
    rcases ground_sample (Γ := Γ) hset hg s with ⟨hground, hto⟩ | ⟨heligible, hair, hto⟩
    · left
      refine ⟨hground, hto.trans ht, ?_⟩
      rw [airborneAt, hground]
      simp [isAirbornePhase]
    · right
      refine ⟨hair, by rw [hto ht]; rfl, ?_⟩
      rw [hto ht, airborneAt, heligible, hair]
      rfl
  · refine ⟨settled_sample hset s, .inr ?_⟩
    have hhead : (aloft ++ (airborneAt Γ g s).toList).head? = aloft.head? := by
      cases aloft with
      | nil =>
        rw [ht] at hsome
        cases hsome
      | cons t rest => rfl
    have hne : g.phase ≠ .ground := by
      intro he
      rw [he] at hair
      cases hair
    cases courseChange_of_settled (Γ := Γ) hset s with
    | kept phase takeoff _ =>
      rw [phase, takeoff, hhead]
      exact ⟨hair, hsome, ht⟩
    | landed _ _ _ _ landing =>
      rw [hquiet] at landing
      cases landing
    | moved _ phase takeoff _ =>
      have hto : (pollStep Γ g s).takeoffAt = g.takeoffAt := by
        rw [takeoff, beq_eq_false_iff_ne.mpr hne]
        rfl
      rw [hto, hhead]
      refine ⟨?_, hsome, ht⟩
      rcases phase with ⟨-, hp⟩ | phase
      · cases hphase : g.phase <;> rw [hphase] at hp hair <;> simp [FlightPhase.isParked, isAirbornePhase] at hp hair
      · exact phase

/-- Samples that announce no landing keep what a landed flight satisfies. -/
theorem SinceLanding.samples {g : TrackedFlight} {aloft : List Instant} (h : SinceLanding g aloft)
    (samples : List Sample)
    (hquiet : ∀ a s b, samples = a ++ s :: b → landings Γ (flyThrough Γ g a) s = []) :
    SinceLanding (flyThrough Γ g samples) (aloft ++ recordOf Γ (airborneAt Γ) g samples) := by
  induction samples generalizing g aloft with
  | nil =>
    rw [recordOf, List.append_nil]
    exact h
  | cons s rest ih =>
    have hs := h.sample s (hquiet [] s rest rfl)
    have hr := ih hs fun a x b he => hquiet (s :: a) x b (by rw [he, List.cons_append])
    rwa [List.append_assoc] at hr

/-- Takeoff and landing alternate. A flight that a track produced is never stored as landing, whatever its history is, and no
sample announces two landings. Between two samples that announce a landing there is one that moves the flight from the ground
into the air. And if none between them announces a landing, the second landing carries the time of the first sample between
them that is eligible and finds the flight in the air. -/
theorem takeoff_and_landing_alternate {f₀ : TrackedFlight} (h : Produced Γ f₀) :
    (∀ samples, (flyThrough Γ f₀ samples).phase ≠ .landing) ∧
    (∀ pre s, (landings Γ (flyThrough Γ f₀ pre) s).length ≤ 1) ∧
    ∀ pre s₁ mid s₂ t₁ t₂, t₁ ∈ landings Γ (flyThrough Γ f₀ pre) s₁ →
      t₂ ∈ landings Γ (flyThrough Γ f₀ (pre ++ s₁ :: mid)) s₂ →
      (∃ a s b, mid = a ++ s :: b ∧ (flyThrough Γ f₀ (pre ++ s₁ :: a)).phase = .ground ∧
        isAirbornePhase (flyThrough Γ f₀ (pre ++ s₁ :: (a ++ [s]))).phase = true) ∧
      ((∀ a s b, mid = a ++ s :: b → landings Γ (flyThrough Γ f₀ (pre ++ s₁ :: a)) s = []) →
        t₂.isSome = true ∧ t₂ = (recordOf Γ (airborneAt Γ) (flyThrough Γ f₀ (pre ++ [s₁])) mid).head?) := by
  obtain ⟨env, state, identifier, requestedBy, hp⟩ := h
  refine ⟨flyThrough_ne_landing hp.ne_landing, fun pre s => landings_length _ s, ?_⟩
  intro pre s₁ mid s₂ t₁ t₂ h₁ h₂
  obtain ⟨hset, hground, hto, -, -⟩ := landing_spec h₁
  have hsplit : ∀ l, flyThrough Γ f₀ (pre ++ s₁ :: l) = flyThrough Γ (pollStep Γ (flyThrough Γ f₀ pre) s₁) l := by
    intro l
    rw [flyThrough_append, flyThrough_cons]
  rw [hsplit] at h₂
  have hset₂ : isPendingAdsb (flyThrough Γ (pollStep Γ (flyThrough Γ f₀ pre) s₁) mid) = false := by
    clear h₂ hsplit
    generalize pollStep Γ (flyThrough Γ f₀ pre) s₁ = g at hset
    induction mid generalizing g with
    | nil => exact hset
    | cons s rest ih => exact ih _ (settled_sample hset s)
  obtain ⟨-, -, -, ht₂, hflew⟩ := landing_spec h₂
  refine ⟨?_, fun hquiet => ?_⟩
  · rcases ground_or_departs (Γ := Γ) hset hground mid with hg | ⟨a, s, b, he, ha, hs⟩
    · have hparked := hflew hset₂
      rw [hg] at hparked
      cases hparked
    · exact ⟨a, s, b, he, by rw [hsplit]; exact ha, by rw [hsplit]; exact hs⟩
  · have hstart : SinceLanding (pollStep Γ (flyThrough Γ f₀ pre) s₁) [] := ⟨hset, .inl ⟨hground, hto, rfl⟩⟩
    have hend := hstart.samples (Γ := Γ) mid fun a s b he => by rw [← hsplit]; exact hquiet a s b he
    have hfirst : flyThrough Γ f₀ (pre ++ [s₁]) = pollStep Γ (flyThrough Γ f₀ pre) s₁ := hsplit []
    rw [hfirst]
    obtain ⟨-, ⟨hg, -, -⟩ | ⟨-, hsome, hhead⟩⟩ := hend
    · have hparked := hflew hset₂
      rw [hg] at hparked
      cases hparked
    · rw [ht₂]
      exact ⟨hsome, hhead⟩

/-- The aircraft of a flight stands on the ground. -/
def onGround (now : Instant) : Sample :=
  { obs := ⟨true, .hit { hex := some "3c6589", flight := some "DLH123", altBaro := some .ground }⟩
    now := now
    getFlightRoute := fun _ => none }

/-- The aircraft of a flight climbs fast at a speed of 256 knots. -/
def climbing (now : Instant) : Sample :=
  { obs :=
      { usedHex := true
        outcome := .hit
          { hex := some "3c6589"
            flight := some "DLH123"
            altBaro := some (.feet 1500)
            gs := some ⟨0x4070000000000000⟩
            baroRate := some 1200 } }
    now := now
    getFlightRoute := fun _ => none }

/-- A flight that lands twice carries, in its second landing, the time of the first sample in the air after its first one. -/
theorem alternate_twice :
    none ∈ landings fieldCtx (flyThrough fieldCtx assignedFlight [climbing (seconds 60)]) (onGround (seconds 120)) ∧
    some (seconds 180) = (recordOf fieldCtx (airborneAt fieldCtx)
      (flyThrough fieldCtx assignedFlight ([climbing (seconds 60)] ++ [onGround (seconds 120)]))
      [climbing (seconds 180), climbing (seconds 240)]).head? := by
  have h₁ : none ∈ landings fieldCtx (flyThrough fieldCtx assignedFlight [climbing (seconds 60)])
      (onGround (seconds 120)) := by
    decide +kernel
  have h₂ : some (seconds 180) ∈ landings fieldCtx (flyThrough fieldCtx assignedFlight ([climbing (seconds 60)] ++
      onGround (seconds 120) :: [climbing (seconds 180), climbing (seconds 240)])) (onGround (seconds 300)) := by
    decide +kernel
  have hquiet : ∀ a s b, [climbing (seconds 180), climbing (seconds 240)] = a ++ s :: b →
      landings fieldCtx (flyThrough fieldCtx assignedFlight ([climbing (seconds 60)] ++ onGround (seconds 120) :: a)) s =
        [] := by
    intro a s b he
    match a with
    | [] =>
      rw [List.nil_append, List.cons.injEq] at he
      rw [← he.1]
      decide +kernel
    | [x] =>
      rw [List.cons_append, List.nil_append, List.cons.injEq, List.cons.injEq] at he
      rw [← he.1, ← he.2.1]
      decide +kernel
    | x :: y :: a => simp at he
  exact ⟨h₁, (((takeoff_and_landing_alternate ⟨_, _, _, _, assignedFlight_produced⟩).2.2 _ _ _ _ _ _ h₁ h₂).2 hquiet).2⟩

end Twitch1337.Tracker
