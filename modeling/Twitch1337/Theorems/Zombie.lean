import Twitch1337.Theorems.Restart

/-!
# No flight is tracked for ever

A flight the tracker holds is pending, so that it expires, or its aircraft was visible once, so that it is lost when the
aircraft stays away. The clock of the tracker never runs backwards here; a round reads it once and applies all its answers at
that time, while the dashboard commands that come in meanwhile read it again.
-/

namespace Twitch1337.Tracker

open RustStr Chrono

variable {Γ : Ctx}

/-! ## The times of a sighting -/

/-- The aircraft of a flight was last visible no later than a time, and its target was not seen after that. -/
structure SeenBy (now : Instant) (f : TrackedFlight) : Prop where
  visible : ∀ v, f.lastVisibleAt = some v → v ≤ now
  seen : ∀ s, f.lastSeen = some s → ∃ v, f.lastVisibleAt = some v ∧ s ≤ v

theorem SeenBy.mono {now later : Instant} {f : TrackedFlight} (h : SeenBy now f) (hle : now ≤ later) : SeenBy later f :=
  ⟨fun v hv => Int.le_trans (h.visible v hv) hle, h.seen⟩

theorem SeenBy.congr {now : Instant} {f g : TrackedFlight} (h : SeenBy now f) (hs : g.toSighting = f.toSighting) :
    SeenBy now g :=
  ⟨by rw [hs]; exact h.visible, by rw [hs]; exact h.seen⟩

/-- A sample does not look back. -/
theorem SeenBy.sample {f : TrackedFlight} {s : Sample} (h : SeenBy s.now f) : SeenBy s.now (pollStep Γ f s) := by
  cases ha : acceptedHit f s with
  | none => exact h.congr (pollStep_of_ignored ha).2.2.1
  | some hit =>
    obtain ⟨ac, raw⟩ := hit
    obtain ⟨-, -, -, hv, hl, -⟩ := pollStep_of_accepted (Γ := Γ) ha
    refine ⟨fun v hv' => ?_, fun x hx => ⟨s.now, hv, ?_⟩⟩
    · rw [hv, Option.some.injEq] at hv'
      exact Int.le_of_eq hv'.symm
    · rw [hl] at hx
      split at hx
      · exact Int.le_of_eq (Option.some.inj hx).symm
      · obtain ⟨v, hv', hle⟩ := h.seen x hx
        exact Int.le_trans hle (h.visible v hv')

/-- A flight that a track produces was not seen before it, nor later. -/
theorem ProducedBy.seenBy {env : Env} {state : FlightTrackerState} {identifier : FlightIdentifier}
    {requestedBy : String} {f : TrackedFlight} (h : ProducedBy Γ env state identifier requestedBy f) :
    SeenBy env.now f := by
  -- Until the first lookup the flight was never sighted; after it, it was not, or was seen now.
  have key : (f.lastVisibleAt = none ∧ f.lastSeen = none) ∨ (f.lastVisibleAt = some env.now ∧ f.lastSeen = some env.now) := by
    refine h.stages.induct (P := fun f => (f.lastVisibleAt = none ∧ f.lastSeen = none) ∨
      (f.lastVisibleAt = some env.now ∧ f.lastSeen = some env.now)) ?_ ?_ ?_ ?_ ?_
    · intro resolved checked _
      left
      simp [newFlight, seedFlightAliases]
    · intro f m hf
      simpa using hf
    · intro f hf
      exact hf
    · intro f g hf hs
      cases hs with
      | skipped => exact hf
      | unseen => exact hf
      | unconfirmed => exact hf
      | visible => simpa using hf
      | seen => right; simp
    · intro f origin dest hf
      simpa using hf
  rcases key with ⟨hv, hs⟩ | ⟨hv, hs⟩
  · exact ⟨by simp [hv], by simp [hs]⟩
  · refine ⟨fun v hv' => ?_, fun x hx => ⟨env.now, hv, ?_⟩⟩
    · rw [hv, Option.some.injEq] at hv'
      exact Int.le_of_eq hv'.symm
    · rw [hs, Option.some.injEq] at hx
      exact Int.le_of_eq hx.symm

/-! ## The clock of the loop -/

/-- The time at which a loop works: the start of its round, or the last reading of its clock. -/
def TrackerLoop.workTime (clock : Instant) : TrackerLoop → Instant
  | serving _ _ => clock
  | polling r => r.now

theorem Round.step_now {r r' : Round} {e : RoundEvent} (h : r.step Γ e = some r') : r'.now = r.now := by
  cases Round.step_cases h <;> rfl

/-- A step of the timed loop works no earlier than the one before, a track works at its own time, and an observation at the
time of its round. -/
theorem workTime_step {t t' : TrackerLoop} {e : Event} {clock : Instant} (h : t.step Γ e = some t')
    (hle : ∀ now, e.reading = some now → clock ≤ now) (hb : t.workTime clock ≤ clock) :
    t.workTime clock ≤ t'.workTime (e.reading.getD clock) ∧
    t'.workTime (e.reading.getD clock) ≤ e.reading.getD clock ∧
    (∀ env cmd, t.processes e = some (env, cmd) → t'.workTime (e.reading.getD clock) = env.now) ∧
    (∀ i f s, t.observes e = some (i, f, s) →
      t.workTime clock = s.now ∧ t'.workTime (e.reading.getD clock) = s.now) := by
  unfold TrackerLoop.step at h
  split at h
  · rename_i state env cmd
    rw [← Option.some.inj h]
    refine ⟨hle env.now rfl, Int.le_refl _, fun env' cmd' hp => ?_, by simp [TrackerLoop.observes_serving]⟩
    rw [TrackerLoop.processes, Option.some.injEq, Prod.mk.injEq] at hp
    exact hp.1 ▸ rfl
  · rename_i state cmd rest env
    rw [← Option.some.inj h]
    refine ⟨hle env.now rfl, Int.le_refl _, fun env' cmd' hp => ?_, by simp [TrackerLoop.observes_serving]⟩
    rw [TrackerLoop.processes, Option.some.injEq, Prod.mk.injEq] at hp
    exact hp.1 ▸ rfl
  · rename_i state now
    split at h
    · cases h
    · rw [← Option.some.inj h]
      exact ⟨hle now rfl, Int.le_refl _, by simp [TrackerLoop.processes], by simp [TrackerLoop.observes_serving]⟩
  · rename_i r e
    rw [Option.map_eq_some_iff] at h
    obtain ⟨r', hs, rfl⟩ := h
    have hn := Round.step_now hs
    have hmono : clock ≤ (Event.round e).reading.getD clock := by
      cases hr : (Event.round e).reading with
      | none => exact Int.le_refl _
      | some now => exact hle now hr
    refine ⟨Int.le_of_eq hn.symm, ?_, by simp [TrackerLoop.processes_polling], fun i f s ho => ?_⟩
    · rw [TrackerLoop.workTime, hn]
      exact Int.le_trans hb hmono
    · have hs : r.now = s.now := by
        obtain ⟨r₀, _, _, _, heq, -, -, -, -, rfl⟩ := TrackerLoop.observes_spec ho
        rw [TrackerLoop.polling.injEq] at heq
        exact heq ▸ rfl
      exact ⟨hs, by rw [TrackerLoop.workTime, hn, hs]⟩
  · rename_i r
    split at h
    · rw [← Option.some.inj h]
      exact ⟨hb, Int.le_refl _, by simp [TrackerLoop.processes_polling], by simp [TrackerLoop.observes]⟩
    · cases h
  · cases h

/-- The invariant of the loop with its clock. -/
structure TimedInOrder (Γ : Ctx) (s : TrackerLoop × Instant) : Prop where
  loop : LoopInOrder Γ s.1
  clock : s.1.workTime s.2 ≤ s.2
  seen : ∀ f ∈ s.1.state.flights, SeenBy (s.1.workTime s.2) f

theorem TimedInOrder.step {s s' : TrackerLoop × Instant} {e : Event} (hi : TimedInOrder Γ s)
    (h : Machine.timed (TrackerLoop.step Γ) Event.reading s e = some s') : TimedInOrder Γ s' := by
  obtain ⟨hs, hle, hc⟩ := Machine.timed_eq_some h
  obtain ⟨hmono, hbound, hproc, hobs⟩ := workTime_step hs hle hi.clock
  rw [← hc] at hmono hbound hproc hobs
  refine ⟨TrackerLoop.step_inOrder hi.loop hs, hbound, fun f hf => ?_⟩
  rcases (TrackerLoop.step_change hs).mem hf with hf | ⟨env, id, user, msg, hp, hprod⟩ | ⟨i, g, x, ho, hg, rfl⟩
  · exact (hi.seen f hf).mono hmono
  · rw [hproc env _ hp]
    exact hprod.seenBy
  · obtain ⟨h₁, h₂⟩ := hobs i g x ho
    rw [h₂]
    exact SeenBy.sample (h₁ ▸ hi.seen g (List.mem_of_getElem? hg))

/-! ## The last hit -/

/-- The visible anchor of a flight is the time of its last hit. -/
theorem lastVisibleAt_flyThrough (f : TrackedFlight) (samples : List Sample) :
    (flyThrough Γ f samples).lastVisibleAt = lastHit Γ f samples := by
  have hset : ∀ (f : TrackedFlight) (s : Sample) (now : Instant), ((acceptedHit f s).map fun _ => s.now) = some now →
      (pollStep Γ f s).lastVisibleAt = some now := by
    intro f s now h
    obtain ⟨⟨ac, raw⟩, ha, rfl⟩ := Option.map_eq_some_iff.mp h
    exact (pollStep_of_accepted ha).2.2.2.1
  have hkeep : ∀ (f : TrackedFlight) (s : Sample), ((acceptedHit f s).map fun _ => s.now) = none →
      (pollStep Γ f s).lastVisibleAt = f.lastVisibleAt := by
    intro f s h
    rw [(pollStep_of_ignored (Option.map_eq_none_iff.mp h)).2.2.1]
  rw [flyThrough_field (·.lastVisibleAt) some hset hkeep, lastHit]
  cases (recordOf Γ (fun f s => (acceptedHit f s).map fun _ => s.now) f samples).getLast? <;> rfl

/-- Only a miss removes a flight, and only when its aircraft was last visible long enough ago. -/
theorem removal_spec {f : TrackedFlight} {s : Sample} {reason : RemovalReason}
    (h : (advanceFlight Γ f s.obs s.now).2.removal = some reason) :
    s.obs.outcome = .miss ∧ ∃ v, f.lastVisibleAt = some v ∧ trackingLostRemoval ≤ s.now - v ∧
      reason = .trackingLost (numSeconds (s.now - v)) := by
  cases ha : acceptedHit f s with
  | some hit =>
    obtain ⟨ac, raw⟩ := hit
    obtain ⟨-, he⟩ := advanceFlight_of_accepted (Γ := Γ) ha
    rw [he] at h
    cases h
  | none =>
    rcases advanceFlight_of_ignored (Γ := Γ) ha with ⟨ho, he⟩ | he
    · rw [he, advanceMiss] at h
      split at h
      · cases h
      · rename_i v hv
        simp only at h
        split at h
        · rename_i hle
          exact ⟨ho, v, hv, hle, (Option.some.inj h).symm⟩
        · cases h
    · rw [he] at h
      cases h

/-- No zombie flights. In every state the tracker reaches while its clock does not run backwards, every flight is pending or
has its visible anchor set; a seen target was visible no earlier; a confirmed target was seen. The flight was produced by a
track and went through samples, and whatever its history is, a sample removes it only by a miss, and only 1800 seconds or more
after the last hit of that history. -/
theorem no_zombie_flights {events : List Event} {start clock : Instant} {t : TrackerLoop}
    (h : Machine.run (Machine.timed (TrackerLoop.step Γ) Event.reading) (TrackerLoop.empty, start) events =
      some (t, clock)) :
    ∀ f ∈ t.state.flights,
      (isPendingAdsb f = true ∨ f.lastVisibleAt.isSome = true) ∧
      (∀ s, f.lastSeen = some s → ∃ v, f.lastVisibleAt = some v ∧ s ≤ v) ∧
      (f.targetConfirmation.isTargetConfirmed = true → f.lastSeen.isSome = true) ∧
      (∃ f₀ samples, Produced Γ f₀ ∧ f = flyThrough Γ f₀ samples) ∧
      ∀ f₀ samples, Produced Γ f₀ → f = flyThrough Γ f₀ samples →
        ∀ (s : Sample) (reason : RemovalReason), (advanceFlight Γ f s.obs s.now).2.removal = some reason →
          s.obs.outcome = .miss ∧ ∃ v, lastHit Γ f₀ samples = some v ∧ seconds 1800 ≤ s.now - v ∧
            reason = .trackingLost (numSeconds (s.now - v)) := by
  have hempty : LoopInOrder Γ TrackerLoop.empty := ⟨Relation.ReflTransGen.refl, nofun⟩
  have hstart : TimedInOrder Γ (TrackerLoop.empty, start) := ⟨hempty, Int.le_refl _, fun f hf => by cases hf⟩
  have hin : TimedInOrder Γ (t, clock) := Machine.run_invariant (fun _ _ _ hi hs => hi.step hs) hstart h
  intro f hf
  have hs := (hin.loop.roster.inOrder f hf).sighting
  refine ⟨?_, (hin.seen f hf).seen, hs.confirmedSeen, hin.loop.roster.flown f hf, fun f₀ samples _ hfly s reason hr => ?_⟩
  · by_cases hv : f.lastVisibleAt.isSome = true
    · exact .inr hv
    · left
      have hunseen : ¬ f.targetConfirmation.isTargetConfirmed = true := fun hc => hv (hs.seenVisible (hs.confirmedSeen hc))
      rw [Bool.not_eq_true, Option.isSome_eq_false_iff] at hv
      cases hc : f.targetConfirmation <;> simp_all [isPendingAdsb, TargetConfirmation.isTargetConfirmed]
  · obtain ⟨hm, v, hv, hle, hreason⟩ := removal_spec hr
    refine ⟨hm, v, ?_, hle, hreason⟩
    rw [← lastVisibleAt_flyThrough, ← hfly]
    exact hv

/-- The run of one sighted flight on a clock that starts at zero. -/
def sightedTimed : Option (TrackerLoop × Instant) :=
  Machine.run (Machine.timed (TrackerLoop.step fieldCtx) Event.reading) (TrackerLoop.empty, 0) sightedRun

theorem sightedTimed_isSome : sightedTimed.isSome = true := by
  decide +kernel

/-- On its clock the one sighted flight has its anchor, the time of the round that saw it. -/
theorem no_zombie_flights_sighted :
    ((sightedTimed.get sightedTimed_isSome).1.state.flights.map (·.lastVisibleAt)) = [some (seconds 120)] ∧
      ∀ f ∈ (sightedTimed.get sightedTimed_isSome).1.state.flights,
        isPendingAdsb f = true ∨ f.lastVisibleAt.isSome = true :=
  ⟨by decide +kernel, fun f hf => (no_zombie_flights (Option.some_get sightedTimed_isSome).symm f hf).1⟩

end Twitch1337.Tracker
