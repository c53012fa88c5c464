import Mathlib.Tactic.Linarith
import Twitch1337.Theorems.Rounds

/-!
# When the tracker wakes up

The tracker sleeps until the first of its flights is to be looked at. A pending flight is looked at by a schedule whose
intervals change around its departure. Where they get shorter, the schedule has an instant at which it is looked at again; where
they get longer, an instant computed before stays early enough.
-/

namespace Twitch1337.Tracker

open Chrono

variable {Γ : Ctx}

/-! ## How a schedule changes -/

/-- The seven segments of the schedule around a departure. The ones before it are open at their end, the ones after it
closed. -/
inductive Segment (departure now : Instant) : Instant × Instant × Option Instant → Prop
  | asleep (upTo : now < departure - pendingScheduledWakeBefore) :
      Segment departure now (pendingPoll15Min, departure - pendingScheduledWakeBefore,
        some (departure - pendingScheduledWakeBefore))
  | awake (since : departure - pendingScheduledWakeBefore ≤ now) (upTo : now < departure - pendingScheduledLockInBefore) :
      Segment departure now (pendingPoll15Min, departure - pendingScheduledWakeBefore,
        some (departure - pendingScheduledLockInBefore))
  | lockedIn (since : departure - pendingScheduledLockInBefore ≤ now)
      (upTo : now < departure - pendingScheduledHuntBefore) :
      Segment departure now (pendingPoll5Min, departure - pendingScheduledLockInBefore,
        some (departure - pendingScheduledHuntBefore))
  | hunting (since : departure - pendingScheduledHuntBefore ≤ now) (upTo : now ≤ departure) :
      Segment departure now (pendingPoll60Sec, departure - pendingScheduledHuntBefore, some departure)
  | nearAfter (since : departure < now) (upTo : now ≤ departure + pendingScheduledNearAfter) :
      Segment departure now (pendingPoll2Min, departure, some (departure + pendingScheduledNearAfter))
  | midAfter (since : departure + pendingScheduledNearAfter < now) (upTo : now ≤ departure + pendingScheduledMidAfter) :
      Segment departure now (pendingPoll5Min, departure + pendingScheduledNearAfter,
        some (departure + pendingScheduledMidAfter))
  | late (since : departure + pendingScheduledMidAfter < now) :
      Segment departure now (pendingPoll15Min, departure + pendingScheduledMidAfter, none)

/-- The distances to a departure lie in order. -/
theorem pendingScheduled_order :
    0 < pendingScheduledHuntBefore ∧ pendingScheduledHuntBefore < pendingScheduledLockInBefore ∧
      pendingScheduledLockInBefore < pendingScheduledWakeBefore ∧ 0 < pendingScheduledNearAfter ∧
      pendingScheduledNearAfter < pendingScheduledMidAfter ∧ pendingScheduledMidAfter < pendingScheduledExpireAfter := by
  decide

/-- The window around a departure is one of its segments. -/
theorem scheduledPollWindow_segment (departure now : Instant) :
    Segment departure now (scheduledPollWindow departure now) := by
  simp only [scheduledPollWindow]
  split_ifs
  · exact .asleep (by linarith)
  · exact .awake (by linarith) (by linarith)
  · exact .lockedIn (by linarith) (by linarith)
  · exact .hunting (by linarith) (by linarith)
  · exact .nearAfter (by linarith) (by linarith)
  · exact .midAfter (by linarith) (by linarith)
  · exact .late (by linarith)

/-- What becomes of a poll window between two instants: the instant of its change has come, or it starts no earlier and polls no
more often. -/
inductive WindowChange (now now' : Instant) (w w' : Instant × Instant × Option Instant) : Prop
  | refreshed (b : Instant) (refresh : w.2.2 = some b) (ahead : now < b) (come : b ≤ now')
  | kept (interval : w.1 ≤ w'.1) (start : w.2.1 ≤ w'.2.1)

/-- A window that stays does not change. -/
theorem WindowChange.refl (now now' : Instant) (w : Instant × Instant × Option Instant) : WindowChange now now' w w :=
  .kept (le_refl _) (le_refl _)

/-- The intervals after a departure get longer. -/
theorem pendingPoll_order :
    pendingPoll60Sec ≤ pendingPoll2Min ∧ pendingPoll2Min ≤ pendingPoll5Min ∧ pendingPoll5Min ≤ pendingPoll10Min ∧
      pendingPoll10Min ≤ pendingPoll15Min ∧ pendingPoll15Min ≤ pendingPoll30Min := by
  decide

/-- Around a departure the changes to come are those to shorter intervals. -/
theorem Segment.change {departure now now' : Instant} {w w' : Instant × Instant × Option Instant} (h : now ≤ now')
    (s : Segment departure now w) (s' : Segment departure now' w') : WindowChange now now' w w' := by
  obtain ⟨h₁, h₂, h₃, h₄, h₅, -⟩ := pendingScheduled_order
  obtain ⟨p₁, p₂, p₃, p₄, -⟩ := pendingPoll_order
  -- in the same segment nothing changes, and an earlier one is past
  cases s with
  | asleep upTo =>
    by_cases come : departure - pendingScheduledWakeBefore ≤ now'
    · exact .refreshed _ rfl upTo come
    · cases s' <;> first | exact .refl _ _ _ | (exfalso; linarith)
  | awake since upTo =>
    by_cases come : departure - pendingScheduledLockInBefore ≤ now'
    · exact .refreshed _ rfl upTo come
    · cases s' <;> first | exact .refl _ _ _ | (exfalso; linarith)
  | lockedIn since upTo =>
    by_cases come : departure - pendingScheduledHuntBefore ≤ now'
    · exact .refreshed _ rfl upTo come
    · cases s' <;> first | exact .refl _ _ _ | (exfalso; linarith)
  | hunting since upTo =>
    cases s' with
    | hunting since' upTo' => exact .refl _ _ _
    | nearAfter since' upTo' => exact .kept p₁ (by linarith)
    | midAfter since' upTo' => exact .kept (p₁.trans p₂) (by linarith)
    | late since' => exact .kept (by linarith) (by linarith)
    | _ => exfalso; linarith
  | nearAfter since upTo =>
    cases s' with
    | nearAfter since' upTo' => exact .refl _ _ _
    | midAfter since' upTo' => exact .kept p₂ (by linarith)
    | late since' => exact .kept (by linarith) (by linarith)
    | _ => exfalso; linarith
  | midAfter since upTo =>
    cases s' with
    | midAfter since' upTo' => exact .refl _ _ _
    | late since' => exact .kept (p₃.trans p₄) (by linarith)
    | _ => exfalso; linarith
  | late since =>
    cases s' <;> first | exact .refl _ _ _ | (exfalso; linarith)

/-! ## The schedule of a pending flight -/

/-- The poll window of a pending flight without a departure to come. -/
def unknownPollWindow (flight : TrackedFlight) (now : Instant) : Instant × Instant × Option Instant :=
  let age := now - flight.trackedAt
  (if age < pendingUnknownFastAfterTrack then pendingPoll2Min
    else if age < pendingUnknownNormalAfterTrack then pendingPoll10Min
    else pendingPoll30Min,
    flight.trackedAt, none)

/-- A departure that had long passed when the flight was tracked says nothing. -/
def departureAhead (flight : TrackedFlight) : Option Instant :=
  flight.scheduledDepartureAt.filter fun departure => decide (flight.trackedAt < departure + pendingScheduledExpireAfter)

/-- The poll window of a pending flight. -/
def pendingPollWindow (flight : TrackedFlight) (now : Instant) : Instant × Instant × Option Instant :=
  match departureAhead flight with
  | none => unknownPollWindow flight now
  | some departure => scheduledPollWindow departure now

/-- The instant at which a flight that stays pending expires. -/
def pendingBound (flight : TrackedFlight) : Instant :=
  match departureAhead flight with
  | none => flight.trackedAt + pendingUnknownExpireAfter
  | some departure => departure + pendingScheduledExpireAfter

/-- The schedule of an unknown departure is its window, until it expires. -/
theorem pendingUnknownPollSchedule_eq (flight : TrackedFlight) (now : Instant) :
    pendingUnknownPollSchedule flight now =
      if flight.trackedAt + pendingUnknownExpireAfter ≤ now then .expired
      else .active (unknownPollWindow flight now).1 (unknownPollWindow flight now).2.1 (unknownPollWindow flight now).2.2
        (flight.trackedAt + pendingUnknownExpireAfter) := rfl

/-- A pending flight is polled by its window until it expires. -/
theorem pendingPollSchedule_eq (flight : TrackedFlight) (now : Instant) :
    pendingPollSchedule flight now =
      if pendingBound flight ≤ now then .expired
      else .active (pendingPollWindow flight now).1 (pendingPollWindow flight now).2.1
        (pendingPollWindow flight now).2.2 (pendingBound flight) := by
  unfold pendingPollSchedule pendingBound pendingPollWindow departureAhead
  cases flight.scheduledDepartureAt with
  | none => exact pendingUnknownPollSchedule_eq flight now
  | some departure =>
    by_cases stale : departure + pendingScheduledExpireAfter ≤ flight.trackedAt
    · rw [Option.filter_some_neg (by simpa using stale)]
      simpa only [stale, if_true] using pendingUnknownPollSchedule_eq flight now
    · rw [Option.filter_some_pos (by simpa using stale)]
      simp only [stale, if_false]

/-- How that window changes. -/
theorem unknownPollWindow_change (flight : TrackedFlight) {now now' : Instant} (h : now ≤ now') :
    WindowChange now now' (unknownPollWindow flight now) (unknownPollWindow flight now') := by
  obtain ⟨-, p₂, p₃, p₄, p₅⟩ := pendingPoll_order
  refine .kept ?_ (le_refl _)
  simp only [unknownPollWindow]
  split_ifs <;> linarith

/-- How the window of a pending flight changes. -/
theorem pendingPollWindow_change (flight : TrackedFlight) {now now' : Instant} (h : now ≤ now') :
    WindowChange now now' (pendingPollWindow flight now) (pendingPollWindow flight now') := by
  unfold pendingPollWindow
  cases departureAhead flight with
  | none => exact unknownPollWindow_change flight h
  | some departure =>
    exact (scheduledPollWindow_segment departure now).change h (scheduledPollWindow_segment departure now')

/-! ## The instant a pending flight is due -/

/-- The instant a flight is due by a poll window: when its interval has passed, not before its start, and no later than its
change to come. -/
def windowDueAt (lastAdsbPollAt : Option Instant) (w : Instant × Instant × Option Instant) (now : Instant) : Instant :=
  let dueAt := max (nextDueAfterLastPoll lastAdsbPollAt w.1 now) w.2.1
  match w.2.2 with
  | some refreshAt => if now < refreshAt ∧ refreshAt < dueAt then refreshAt else dueAt
  | none => dueAt

/-- A pending flight is due by its window, or when it expires. -/
theorem pendingDueAt_eq (lastAdsbPollAt : Option Instant) (w : Instant × Instant × Option Instant)
    (expiresAt now : Instant) :
    pendingDueAt lastAdsbPollAt w.1 w.2.1 w.2.2 expiresAt now = min (windowDueAt lastAdsbPollAt w now) expiresAt := by
  rw [min_def]
  rfl

/-- A window is looked at again no later than it changes. -/
theorem windowDueAt_le_refresh {lastAdsbPollAt : Option Instant} {w : Instant × Instant × Option Instant}
    {now b : Instant} (hb : w.2.2 = some b) (ahead : now < b) : windowDueAt lastAdsbPollAt w now ≤ b := by
  simp only [windowDueAt, hb]
  split_ifs with hlt
  · exact le_refl _
  · exact not_lt.mp fun hgt => hlt ⟨ahead, hgt⟩

/-- It is due no later than one interval after the last poll, once it has started. -/
theorem windowDueAt_le (lastAdsbPollAt : Option Instant) (w : Instant × Instant × Option Instant) (now : Instant) :
    windowDueAt lastAdsbPollAt w now ≤ max (nextDueAfterLastPoll lastAdsbPollAt w.1 now) w.2.1 := by
  unfold windowDueAt
  cases w.2.2 with
  | none => exact le_refl _
  | some b =>
    dsimp only
    split_ifs with hb
    · exact hb.2.le
    · exact le_refl _

/-- What is due later than now is looked at later than now. -/
theorem lt_windowDueAt {lastAdsbPollAt : Option Instant} {w : Instant × Instant × Option Instant} {now : Instant}
    (h : now < max (nextDueAfterLastPoll lastAdsbPollAt w.1 now) w.2.1) : now < windowDueAt lastAdsbPollAt w now := by
  unfold windowDueAt
  cases w.2.2 with
  | none => exact h
  | some b =>
    dsimp only
    split_ifs with hb
    · exact hb.1
    · exact h

/-- A flight that is due later than an instant is still due later when that instant comes. -/
theorem WindowChange.dueAt {lastAdsbPollAt : Option Instant} {now now' : Instant}
    {w w' : Instant × Instant × Option Instant} (hc : WindowChange now now' w w') (h : now ≤ now')
    (hd : now' < windowDueAt lastAdsbPollAt w now) : now' < windowDueAt lastAdsbPollAt w' now' := by
  cases hc with
  | refreshed b refresh ahead come =>
    exact absurd (windowDueAt_le_refresh refresh ahead) (not_le.mpr (lt_of_le_of_lt come hd))
  | kept interval start =>
    apply lt_windowDueAt
    rcases lt_max_iff.mp (hd.trans_le (windowDueAt_le lastAdsbPollAt w now)) with hn | hs
    · cases lastAdsbPollAt with
      | none => exact absurd h (not_le.mpr hn)
      | some lastPoll =>
        simp only [nextDueAfterLastPoll] at hn ⊢
        exact lt_max_of_lt_left (by linarith)
    · exact lt_max_of_lt_right (hs.trans_le start)

/-! ## The readiness of a flight -/

/-- How often a flight is polled by the schedule in force. -/
def cadence (flight : TrackedFlight) (now : Instant) : Option Instant :=
  if isPendingAdsb flight then
    match pendingPollSchedule flight now with
    | .active interval _ _ _ => some interval
    | .expired => none
  else
    some (livePollInterval flight)

/-- The readiness of a pending flight. -/
theorem pollReadiness_pending {flight : TrackedFlight} (hp : isPendingAdsb flight = true) (now : Instant) :
    pollReadiness flight now =
      if pendingBound flight ≤ now then .expired
      else readyAt (min (windowDueAt flight.lastAdsbPollAt (pendingPollWindow flight now) now) (pendingBound flight)) now := by
  rw [pollReadiness, if_pos hp, pendingPollSchedule_eq, ← pendingDueAt_eq]
  split_ifs <;> rfl

/-- The readiness of a flight that was seen. -/
theorem pollReadiness_live {flight : TrackedFlight} (hp : isPendingAdsb flight = false) (now : Instant) :
    pollReadiness flight now =
      readyAt (nextDueAfterLastPoll flight.lastAdsbPollAt (livePollInterval flight) now) now := by
  rw [pollReadiness, if_neg (by simp [hp])]

/-- What is not due is due at its instant. -/
theorem readyAt_eq_notDue {nextDue now t : Instant} : readyAt nextDue now = .notDue t ↔ now < nextDue ∧ t = nextDue := by
  unfold readyAt
  split_ifs with h
  · simp [not_lt.mpr h]
  · simp [not_le.mp h, eq_comm]

/-- A flight that is not due is so until its time. -/
theorem pollReadiness_stays {flight : TrackedFlight} {now now' t : Instant} (h : pollReadiness flight now = .notDue t)
    (hn : now ≤ now') (ht : now' < t) : ∃ t', pollReadiness flight now' = .notDue t' := by
  cases hp : isPendingAdsb flight with
  | true =>
    rw [pollReadiness_pending hp] at h
    split_ifs at h with hb
    obtain ⟨-, rfl⟩ := readyAt_eq_notDue.mp h
    obtain ⟨hw, he⟩ := lt_min_iff.mp ht
    refine ⟨min (windowDueAt flight.lastAdsbPollAt (pendingPollWindow flight now') now') (pendingBound flight), ?_⟩
    rw [pollReadiness_pending hp, if_neg (not_le.mpr he)]
    exact readyAt_eq_notDue.mpr ⟨lt_min ((pendingPollWindow_change flight hn).dueAt hn hw) he, rfl⟩
  | false =>
    rw [pollReadiness_live hp] at h
    obtain ⟨hlt, rfl⟩ := readyAt_eq_notDue.mp h
    refine ⟨nextDueAfterLastPoll flight.lastAdsbPollAt (livePollInterval flight) now', ?_⟩
    rw [pollReadiness_live hp]
    refine readyAt_eq_notDue.mpr ⟨?_, rfl⟩
    cases hl : flight.lastAdsbPollAt with
    | none =>
      rw [hl] at hlt
      exact absurd hlt (lt_irrefl _)
    | some lastPoll =>
      rw [hl] at ht
      exact ht

/-- What is not due is due later. -/
theorem pollReadiness_lt {flight : TrackedFlight} {now t : Instant} (h : pollReadiness flight now = .notDue t) : now < t := by
  cases hp : isPendingAdsb flight with
  | true =>
    rw [pollReadiness_pending hp] at h
    split_ifs at h with hb
    obtain ⟨hlt, rfl⟩ := readyAt_eq_notDue.mp h
    exact hlt
  | false =>
    rw [pollReadiness_live hp] at h
    obtain ⟨hlt, rfl⟩ := readyAt_eq_notDue.mp h
    exact hlt

/-- Before its time a flight is polled no more often than when its time was computed. -/
theorem cadence_stays {flight : TrackedFlight} {now now' t : Instant} (h : pollReadiness flight now = .notDue t)
    (hn : now ≤ now') (ht : now' < t) :
    ∃ c c', cadence flight now = some c ∧ cadence flight now' = some c' ∧ c ≤ c' := by
  unfold cadence
  cases hp : isPendingAdsb flight with
  | true =>
    rw [pollReadiness_pending hp] at h
    split_ifs at h with hb
    obtain ⟨-, rfl⟩ := readyAt_eq_notDue.mp h
    obtain ⟨hw, he⟩ := lt_min_iff.mp ht
    refine ⟨(pendingPollWindow flight now).1, (pendingPollWindow flight now').1, ?_, ?_, ?_⟩
    · simp [pendingPollSchedule_eq, hb]
    · simp [pendingPollSchedule_eq, not_le.mpr he]
    · cases pendingPollWindow_change flight hn with
      | refreshed b refresh ahead come =>
        exact absurd (windowDueAt_le_refresh refresh ahead) (not_le.mpr (lt_of_le_of_lt come hw))
      | kept interval start => exact interval
  | false => exact ⟨_, _, rfl, rfl, le_refl _⟩

/-- The next poll is the first of all wake-ups. -/
theorem nextPollAt_eq_some {flights : List TrackedFlight} {now t : Instant} :
    nextPollAt flights now = some t ↔
      (∃ f ∈ flights, (pollReadiness f now).wakeAt now = t) ∧ ∀ f ∈ flights, t ≤ (pollReadiness f now).wakeAt now := by
  simp only [nextPollAt, List.min?_eq_some_iff, List.mem_map, forall_exists_index, and_imp, forall_apply_eq_imp_iff₂]

/-- Where there are flights, there is a time to wake up. -/
theorem nextPollAt_eq_none {flights : List TrackedFlight} {now : Instant} : nextPollAt flights now = none ↔ flights = [] := by
  rw [nextPollAt, List.min?_eq_none_iff, List.map_eq_nil_iff]

/-- Before the tracker wakes up none of its flights is due or expired. -/
theorem nextPollAt_quiet {flights : List TrackedFlight} {now now' t : Instant} (h : nextPollAt flights now = some t)
    (hn : now ≤ now') (ht : now' < t) {f : TrackedFlight} (hf : f ∈ flights) :
    ∃ t', pollReadiness f now' = .notDue t' := by
  have hle := (nextPollAt_eq_some.mp h).2 f hf
  cases hr : pollReadiness f now with
  | notDue u =>
    rw [hr] at hle
    exact pollReadiness_stays hr hn (lt_of_lt_of_le ht hle)
  | due =>
    rw [hr] at hle
    exact absurd (lt_of_lt_of_le ht hle) (not_lt.mpr hn)
  | expired =>
    rw [hr] at hle
    exact absurd (lt_of_lt_of_le ht hle) (not_lt.mpr hn)

/-- A flight that is not due has its time ahead, and until then it stays so and is polled no more often. Hence a tracker with
flights wakes up at the time of one of them, and before that none is due or expired. -/
theorem wake_ups_exact :
    (∀ flight now t, pollReadiness flight now = .notDue t →
      now < t ∧ ∀ now', now ≤ now' → now' < t →
        (∃ t', pollReadiness flight now' = .notDue t') ∧
        ∃ c c', cadence flight now = some c ∧ cadence flight now' = some c' ∧ c ≤ c') ∧
    (∀ flights now, nextPollAt flights now = none ↔ flights = []) ∧
    (∀ flights now t, nextPollAt flights now = some t →
      (∃ f ∈ flights, (pollReadiness f now).wakeAt now = t) ∧
      ∀ f ∈ flights, ∀ now', now ≤ now' → now' < t → ∃ t', pollReadiness f now' = .notDue t') ∧
    (∀ (state : FlightTrackerState) now now', now ≤ now' → now' < state.sleepUntil now →
      ∀ f ∈ state.flights, ∃ t', pollReadiness f now' = .notDue t') := by
  refine ⟨fun flight now t h => ⟨pollReadiness_lt h, fun now' hn ht => ?_⟩, fun flights now => nextPollAt_eq_none, fun flights now t h => ?_,
    fun state now now' hn ht f hf => ?_⟩
  · exact ⟨pollReadiness_stays h hn ht, cadence_stays h hn ht⟩
  · exact ⟨(nextPollAt_eq_some.mp h).1, fun f hf now' hn ht => nextPollAt_quiet h hn ht hf⟩
  · unfold FlightTrackerState.sleepUntil at ht
    cases h : nextPollAt state.flights now with
    | none =>
      rw [h] at ht
      exact absurd ht (not_lt.mpr hn)
    | some t =>
      rw [h] at ht
      exact nextPollAt_quiet h hn ht hf

/-- A flight tracked four hours before its departure, after its first lookup. -/
def sleepingFlight : TrackedFlight where
  identifier := .callsign "DLH1"
  trackedBy := "ann"
  trackedAt := 0
  lastAdsbPollAt := some 0
  scheduledDepartureAt := some (seconds 14400)

/-- It is looked at again three hours before the departure. -/
theorem wake_ups_exact_sleeping :
    pollReadiness sleepingFlight 0 = .notDue (seconds 3600) ∧
      ∃ t', pollReadiness sleepingFlight (seconds 3599) = .notDue t' := by
  have h : pollReadiness sleepingFlight 0 = .notDue (seconds 3600) := by decide
  exact ⟨h, ((wake_ups_exact.1 _ _ _ h).2 (seconds 3599) (by decide) (by decide)).1⟩

/-! ## The flight after its poll -/

/-- An accepted hit ends the pending stage; what is not accepted leaves the sighting of a flight as it is. -/
theorem isPendingAdsb_advanceFlight {flight : TrackedFlight} {obs : Observation} {now : Instant}
    (h : isPendingAdsb (advanceFlight Γ flight obs now).1 = true) : isPendingAdsb flight = true := by
  cases hh : acceptedHit flight ⟨obs, now, fun _ => none⟩ with
  | some hit =>
    have hv : (advanceFlight Γ flight obs now).1.lastVisibleAt = some now := by
      rw [(advanceFlight_of_accepted (Γ := Γ) hh).2]
      simp
    have hc : (advanceFlight Γ flight obs now).1.targetConfirmation ≠ .pending := by
      rw [(advanceFlight_of_accepted (Γ := Γ) hh).2, (advanceHit_frame _ _ _ _ _).2.2.2.1, confirmationAfter]
      split_ifs with hk
      · exact isTargetConfirmed_ne_pending (keepPrior_spec hk).1
      · exact targetConfirmation_ne_pending (accepted_confirmation hh)
    simp [isPendingAdsb, hv, hc] at h
  | none =>
    have hs : (advanceFlight Γ flight obs now).1.toSighting = flight.toSighting := by
      rcases advanceFlight_of_ignored (Γ := Γ) hh with ⟨-, e⟩ | e <;> rw [e] <;> simp [polledAt]
    rw [isPendingAdsb, hs] at h
    exact h

/-- When a flight expires depends on when it was tracked and on its departure. -/
theorem pendingBound_congr {f g : TrackedFlight} (ht : g.trackedAt = f.trackedAt)
    (hd : g.scheduledDepartureAt = f.scheduledDepartureAt) : pendingBound g = pendingBound f := by
  simp only [pendingBound, departureAhead, ht, hd]

/-- No interval is empty. -/
theorem pollInterval_pos (flight : TrackedFlight) (now : Instant) :
    0 < livePollInterval flight ∧ 0 < (pendingPollWindow flight now).1 := by
  have hfast : 0 < pollFast ∧ 0 < pollNormal ∧ 0 < pollSlow := by decide
  have hmin : 0 < pendingPoll60Sec := by decide
  obtain ⟨p₁, p₂, p₃, p₄, p₅⟩ := pendingPoll_order
  constructor
  · unfold livePollInterval
    split_ifs
    exacts [hfast.1, hfast.2.1, hfast.2.2]
  · unfold pendingPollWindow
    cases departureAhead flight with
    | none =>
      simp only [unknownPollWindow]
      split_ifs <;> linarith
    | some departure =>
      have hs := scheduledPollWindow_segment departure now
      dsimp only
      generalize scheduledPollWindow departure now = w at hs
      cases hs <;> linarith

/-- A flight that was due is not due after its poll, whatever it found. -/
theorem advanceFlight_notDue {flight : TrackedFlight} {obs : Observation} {now : Instant}
    (h : pollReadiness flight now = .due) :
    ∃ t, now < t ∧ pollReadiness (advanceFlight Γ flight obs now).1 now = .notDue t := by
  obtain ⟨hpl, ht⟩ := advanceFlight_planning (Γ := Γ) flight obs now
  have hl : (advanceFlight Γ flight obs now).1.lastAdsbPollAt = some now := by rw [hpl]
  have hb : pendingBound (advanceFlight Γ flight obs now).1 = pendingBound flight :=
    pendingBound_congr (by rw [ht]) (by rw [hpl])
  generalize hg : (advanceFlight Γ flight obs now).1 = g at hl hb
  have hpos := pollInterval_pos g now
  suffices hr : ∃ nextDue, now < nextDue ∧ pollReadiness g now = readyAt nextDue now by
    obtain ⟨t, hlt, e⟩ := hr
    exact ⟨t, hlt, e.trans (readyAt_eq_notDue.mpr ⟨hlt, rfl⟩)⟩
  cases hp : isPendingAdsb g with
  | false =>
    refine ⟨_, ?_, pollReadiness_live hp now⟩
    simpa only [hl, nextDueAfterLastPoll] using lt_add_of_pos_right now hpos.1
  | true =>
    have hf : isPendingAdsb flight = true := isPendingAdsb_advanceFlight (by rw [hg]; exact hp)
    rw [pollReadiness_pending hf] at h
    split_ifs at h with hexp
    refine ⟨_, lt_min (lt_windowDueAt (lt_max_of_lt_left ?_)) (not_le.mp hexp),
      by rw [pollReadiness_pending hp, hb, if_neg hexp]⟩
    simpa only [hl, nextDueAfterLastPoll] using lt_add_of_pos_right now hpos.2

/-! ## The end of a pending flight -/

/-- A pending flight has expired from its bound on. -/
theorem pollReadiness_expired {flight : TrackedFlight} (hp : isPendingAdsb flight = true) {now : Instant}
    (h : pendingBound flight ≤ now) : pollReadiness flight now = .expired := by
  rw [pollReadiness_pending hp, if_pos h]

/-- No sample moves the bound of a flight. -/
theorem pendingBound_flyThrough (flight : TrackedFlight) (samples : List Sample) :
    pendingBound (flyThrough Γ flight samples) = pendingBound flight := by
  induction samples generalizing flight with
  | nil => rfl
  | cons s rest ih =>
    rw [flyThrough_cons, ih]
    refine pendingBound_congr (by rw [pollStep_ticket]) ?_
    have h := (performFollowups_frame (Γ := Γ) s.getFlightRoute (advanceFlight Γ flight s.obs s.now).1
      (advanceFlight Γ flight s.obs s.now).2.followups).2.2.2.2.2
    rw [pollStep, h, (advanceFlight_planning flight s.obs s.now).1]

/-- Where identifiers are distinct, a removal leaves none of its flights. -/
theorem removeAll_gone {removals : List FlightIdentifier} {flights : List TrackedFlight} {identifier : FlightIdentifier}
    (hn : (flights.map (·.identifier)).Nodup) (hm : identifier ∈ removals) :
    identifier ∉ (removeAll flights removals).map (·.identifier) := by
  induction removals generalizing flights with
  | nil => cases hm
  | cons first rest ih =>
    -- one step of the removals: without the first name, where it was
    obtain ⟨flights', hsub, hgone, hstep⟩ : ∃ flights' : List TrackedFlight, flights'.Sublist flights ∧
        first ∉ flights'.map (·.identifier) ∧ removeAll flights (first :: rest) = removeAll flights' rest := by
      rw [removeAll, List.foldl_cons]
      cases hf : findIndexByIdentifier flights first with
      | none =>
        refine ⟨flights, List.Sublist.refl _, fun hmem => ?_, rfl⟩
        obtain ⟨f, hf', hid⟩ := List.mem_map.mp hmem
        simpa [hid] using List.findIdx?_eq_none_iff.mp hf f hf'
      | some i =>
        refine ⟨flights.eraseIdx i, List.eraseIdx_sublist _ _, fun hmem => ?_, rfl⟩
        obtain ⟨f, hi, hid⟩ := findIndexByIdentifier_spec hf
        obtain ⟨g, hg, hgid⟩ := List.mem_map.mp hmem
        obtain ⟨j, hj, hji, rfl⟩ := List.mem_eraseIdx_iff_getElem.mp hg
        obtain ⟨hil, rfl⟩ := List.getElem?_eq_some_iff.mp hi
        refine hji ((@List.Nodup.getElem_inj_iff _ _ hn j (by simpa using hj) i (by simpa using hil)).mp ?_)
        simp only [List.getElem_map, hgid, hid]
    rw [hstep]
    rcases List.mem_cons.mp hm with rfl | hrest
    · exact fun hmem => hgone (((removeAll_sublist rest flights').map _).subset hmem)
    · exact ih (hn.sublist (hsub.map _)) hrest

/-- What a round does with a flight that had expired when it started: it is removed with the others, and does not come back. -/
structure Leaving (identifier : FlightIdentifier) (r : Round) : Prop where
  distinct : r.identifiers.Nodup
  listed : identifier ∈ r.removals
  gone : r.swept = true → identifier ∉ r.identifiers

/-- A flight that leaves stays gone. -/
theorem Leaving.step {identifier : FlightIdentifier} {r r' : Round} {e : RoundEvent} (h : Leaving identifier r)
    (hs : r.step Γ e = some r') : Leaving identifier r' := by
  have hsub := Round.step_identifiers hs
  have gone : (r.swept = true → identifier ∉ r'.identifiers) := fun hsw hm => h.gone hsw (hsub.subset hm)
  have distinct : r'.identifiers.Nodup := h.distinct.sublist hsub
  cases Round.step_cases hs with
  | joined fetch result mem admits => exact ⟨distinct, h.listed, gone⟩
  | lost fetch mem => exact ⟨distinct, h.listed, gone⟩
  | command now cmd => exact ⟨distinct, h.listed, gone⟩
  | dropped getFlightRoute attempt rest results gone' => exact ⟨distinct, h.listed, gone⟩
  | applied getFlightRoute attempt rest i f results found at_ own =>
    exact ⟨distinct, List.mem_append_left _ h.listed, gone⟩
  | sweep settled applied first => exact ⟨distinct, h.listed, fun _ => removeAll_gone h.distinct h.listed⟩

/-- A round that starts when a flight has expired removes it. -/
theorem round_removes_expired {state : FlightTrackerState} {now : Instant} {f : TrackedFlight} {events : List RoundEvent}
    {r : Round} (hn : (state.flights.map (·.identifier)).Nodup) (hf : f ∈ state.flights)
    (hx : pollReadiness f now = .expired) (h : Machine.run (Round.step Γ) (beginRound Γ state now) events = some r)
    (hs : r.swept = true) : f.identifier ∉ r.identifiers := by
  have h₀ : Leaving f.identifier (beginRound Γ state now) := by
    refine ⟨hn, ?_, fun hsw => by cases hsw⟩
    exact List.mem_map_of_mem (List.mem_filter.mpr ⟨hf, by simpa using hx⟩)
  exact (Machine.run_invariant (fun _ _ _ hi hstep => hi.step hstep) h₀ h).gone hs

/-- A poll puts off the next one, and a flight that stays pending is removed: it expires at an instant that is known from when it
was tracked and when it is to depart, and every round from then on removes it. -/
theorem polls_progress :
    (∀ flight obs now, pollReadiness flight now = .due →
      ∃ t, now < t ∧ pollReadiness (advanceFlight Γ flight obs now).1 now = .notDue t) ∧
    (∀ f g : TrackedFlight, g.trackedAt = f.trackedAt → g.scheduledDepartureAt = f.scheduledDepartureAt →
      pendingBound g = pendingBound f) ∧
    (∀ flight samples now, isPendingAdsb (flyThrough Γ flight samples) = true → pendingBound flight ≤ now →
      pollReadiness (flyThrough Γ flight samples) now = .expired) ∧
    (∀ events state now f, TrackerLoop.Reaches Γ events (.serving state []) → f ∈ state.flights →
      isPendingAdsb f = true → pendingBound f ≤ now →
      (TrackerLoop.serving state []).step Γ (.poll now) = some (.polling (beginRound Γ state now)) ∧
      (∃ steps r, Machine.run (Round.step Γ) (beginRound Γ state now) steps = some r ∧ r.swept = true) ∧
      ∀ steps r, Machine.run (Round.step Γ) (beginRound Γ state now) steps = some r → r.swept = true →
        f.identifier ∉ r.identifiers) := by
  refine ⟨fun _ _ _ h => advanceFlight_notDue h, fun _ _ ht hd => pendingBound_congr ht hd,
    fun flight samples now hp hb => ?_, fun events state now f hreach hf hp hb => ⟨?_, ?_, fun steps r h hs => ?_⟩⟩
  · exact pollReadiness_expired hp (by rwa [pendingBound_flyThrough])
  · cases hfl : state.flights with
    | nil =>
      rw [hfl] at hf
      cases hf
    | cons g rest => simp only [TrackerLoop.step, hfl, List.isEmpty_cons, Bool.false_eq_true, if_false]
  · exact Round.reaches_end _
  · have hn : (state.flights.map (·.identifier)).Nodup := hreach.inOrder.roster.withinCapacity.distinct
    exact round_removes_expired hn hf (pollReadiness_expired hp hb) h hs

/-- Two tracked flights. -/
def pairRun : List Event :=
  [.command (quietEnv 0) (.track (.callsign "DLH1") "ann" ⟨"m1"⟩),
    .command (quietEnv 0) (.track (.callsign "DLH2") "bob" ⟨"m2"⟩)]

theorem pairRun_reaches : TrackerLoop.Reaches fieldCtx pairRun (.serving pairState []) := rfl

theorem pairState_pending : ∀ f ∈ pairState.flights, isPendingAdsb f = true ∧ pendingBound f ≤ seconds 86400 := by
  decide +kernel

/-- A day after they were tracked, the flights that were never seen are removed. -/
theorem polls_progress_pair :
    ∃ steps r, Machine.run (Round.step fieldCtx) (beginRound fieldCtx pairState (seconds 86400)) steps = some r ∧
      r.swept = true ∧ ∀ f ∈ pairState.flights, f.identifier ∉ r.identifiers := by
  obtain ⟨steps, r, h, hs⟩ := Round.reaches_end (Γ := fieldCtx) (beginRound fieldCtx pairState (seconds 86400))
  refine ⟨steps, r, h, hs, fun f hf => ?_⟩
  obtain ⟨hp, hb⟩ := pairState_pending f hf
  exact (polls_progress.2.2.2 pairRun pairState (seconds 86400) f pairRun_reaches hf hp hb).2.2 steps r h hs

end Twitch1337.Tracker
