import Twitch1337.Theorems.Diversion
import Twitch1337.Tracker.Checked

/-!
# The counters of a flight

A flight counts the polls since its phase changed and the anomalies of its course. Of the operations of a transition one can
overflow: what adds a poll that leaves the phase as it is. The rate is never made positive when that is not possible.
-/

namespace Twitch1337.Tracker

open RustStr Chrono Decimal

variable {Γ : Ctx} {b : Build}

/-! ## What cannot go wrong -/

/-- A time is shifted, or runs out of the calendar. -/
theorem shift_cases (t d : Instant) : Checked.shift t d = .ok (t + d) ∨ Checked.shift t d = .error .calendar := by
  unfold Checked.shift
  split
  · exact .inl rfl
  · exact .inr rfl

/-- The window of a hex is checked, or runs out of the calendar. -/
theorem inferredByHexWindow_checked (f : TrackedFlight) (now : Instant) :
    Checked.inferredByHexWindow f now = .ok (inferredByHexWindow f now) ∨
      Checked.inferredByHexWindow f now = .error .calendar := by
  unfold Checked.inferredByHexWindow inferredByHexWindow
  cases f.identifier.isHex with
  | true => exact .inl rfl
  | false =>
    cases f.scheduledDepartureAt with
    | none => exact .inl rfl
    | some departure =>
      rw [Bool.false_or, Option.any_some, if_neg Bool.false_ne_true]
      dsimp only
      rcases shift_cases departure (-seconds (30 * 60)) with hopens | hopens
      · rw [hopens]
        by_cases hnow : departure - seconds (30 * 60) ≤ now
        · rcases shift_cases departure (seconds (3 * 60 * 60)) with hcloses | hcloses
          · refine .inl ?_
            rw [hcloses, decide_eq_true hnow, Bool.true_and]
            exact if_pos hnow
          · refine .inr ?_
            rw [hcloses]
            exact if_pos hnow
        · refine .inl ?_
          rw [decide_eq_false hnow, Bool.false_and]
          exact if_neg hnow
      · refine .inr ?_
        rw [hopens]
        rfl

/-- What stops before an aircraft is accepted is the calendar. -/
theorem targetConfirmation_checked (f : TrackedFlight) (ac : NearbyAircraft) (usedHex : Bool) (now : Instant) :
    Checked.targetConfirmationForAircraft f ac usedHex now = .ok (targetConfirmationForAircraft f ac usedHex now) ∨
      Checked.targetConfirmationForAircraft f ac usedHex now = .error .calendar := by
  unfold Checked.targetConfirmationForAircraft targetConfirmationForAircraft
  split
  · exact .inl rfl
  · split
    · exact .inl rfl
    · split
      · rcases inferredByHexWindow_checked f now with h | h
        · refine .inl ?_
          rw [h]
          cases inferredByHexWindow f now <;> rfl
        · refine .inr ?_
          rw [h]
          rfl
      · exact .inl rfl

/-- The rule for a cruise, where the rate is not the lowest. -/
theorem cruises_of_ne {f : TrackedFlight} {ac : NearbyAircraft} (h : verticalRate ac ≠ some .minValue) :
    Checked.cruises b f ac = .ok ((altitudeFt ac).any (fun altVal => decide (cruiseMinAltitude < altVal)) &&
      (verticalRate ac).any (fun vr => decide (vr.abs < cruiseRateThreshold)) &&
      decide (cruiseStablePolls ≤ f.pollsSinceChange) && !(f.phase == .descent || f.phase == .approach)) := by
  unfold Checked.cruises
  cases altitudeFt ac with
  | none => rfl
  | some altVal =>
    cases hr : verticalRate ac with
    | none => simp [pure, Except.pure]
    | some vr =>
      have hne : vr ≠ .minValue := fun he => h (by rw [hr, he])
      dsimp only
      split
      · rename_i hhigh
        rw [Build.abs_of_ne hne]
        simp [hhigh]
        rfl
      · rename_i hhigh
        simp [hhigh]
        rfl

/-- A rate that is made positive is none of a descent, and has an absolute value. -/
theorem detectPhase_checked (f : TrackedFlight) (ac : NearbyAircraft) :
    Checked.detectPhase b f ac = .ok (detectPhase f ac) := by
  unfold Checked.detectPhase detectPhase
  dsimp only
  split
  · rfl
  · split
    · rfl
    · split
      · rfl
      · split
        · split <;> rfl
        · rename_i hdescent
          split
          · rfl
          · have hne : verticalRate ac ≠ some .minValue := by
              intro hr
              rw [hr] at hdescent
              exact hdescent rfl
            rw [cruises_of_ne hne]
            simp only [bind, Except.bind]
            split
            · rfl
            · split <;> rfl

/-! ## The counter of polls -/

/-- A poll that leaves the phase as it is can be added. -/
def Adds (b : Build) (f : TrackedFlight) (ac : NearbyAircraft) : Prop :=
  detectPhase f ac = f.phase → b.u32 (f.pollsSinceChange.toNat + 1) = .ok (f.pollsSinceChange + 1)

/-- The phase is detected from the course. -/
theorem detectPhase_congr {f g : TrackedFlight} (hcourse : g.toCourse = f.toCourse) (ac : NearbyAircraft) :
    detectPhase g ac = detectPhase f ac := by
  simp only [detectPhase, hcourse]

/-- Whether a hit raises the counter depends on the flight through its course only. -/
theorem Adds.congr {f g : TrackedFlight} {ac : NearbyAircraft} (h : Adds b f ac) (hcourse : g.toCourse = f.toCourse) :
    Adds b g ac := by
  unfold Adds at h ⊢
  rwa [detectPhase_congr hcourse, hcourse]

/-- After the phase starts over there are no polls. -/
theorem adds_resetPhase (f : TrackedFlight) (ac : NearbyAircraft) : Adds b (resetPhase f) ac := fun _ => rfl

/-- A release build always raises it. -/
theorem adds_release (f : TrackedFlight) (ac : NearbyAircraft) : Adds .release f ac := by
  intro _
  rw [u32_release, UInt32.ofNat_add, UInt32.ofNat_toNat]
  rfl

/-- A counter that is not the largest can be raised, and one that starts again too. -/
theorem adds_of_ne {f : TrackedFlight} {ac : NearbyAircraft}
    (h : ¬ (f.pollsSinceChange = 0xFFFFFFFF ∧ detectPhase f ac = f.phase)) : Adds b f ac := by
  intro hsame
  exact Build.u32_succ (fun hmax => h ⟨hmax, hsame⟩) b

/-- A step of the phase that may raise the counter is the one without checks. -/
theorem phaseStep_checked {f : TrackedFlight} {ac : NearbyAircraft} (h : Adds b f ac) (now : Instant) :
    Checked.phaseStep b f ac now = .ok (phaseStep f ac now) := by
  unfold Checked.phaseStep phaseStep
  rw [detectPhase_checked]
  dsimp only [bind, Except.bind]
  by_cases hsame : detectPhase f ac = f.phase
  · rw [if_pos hsame, if_pos hsame, h hsame]
    rfl
  · rw [if_neg hsame, if_neg hsame]
    split <;> rfl

/-- A development build stops at the largest counter. -/
theorem phaseStep_dev {f : TrackedFlight} {ac : NearbyAircraft} (hmax : f.pollsSinceChange = 0xFFFFFFFF)
    (hsame : detectPhase f ac = f.phase) (now : Instant) : Checked.phaseStep .dev f ac now = .error .overflow := by
  unfold Checked.phaseStep
  rw [detectPhase_checked]
  dsimp only [bind, Except.bind]
  rw [if_pos hsame, hmax]
  rfl

/-! ## The transition -/

section hits

variable {f : TrackedFlight} {ac : NearbyAircraft} {raw : TargetConfirmation} {usedHex : Bool} {now : Instant}

/-- The same of a sample of the phase. -/
theorem observePhase_checked {restart eligible : Bool} (h : eligible = true → Adds b (if restart then resetPhase f else f) ac)
    (prevLat prevLon : Option F64) :
    Checked.observePhase b Γ f ac restart eligible prevLat prevLon now =
      .ok (observePhase Γ f ac restart eligible prevLat prevLon now) := by
  unfold Checked.observePhase observePhase
  cases eligible with
  | false => rfl
  | true =>
    dsimp only
    rw [if_pos rfl, phaseStep_checked (h rfl)]
    rfl

/-- The transition of a hit is what the model without overflows says, where the poll can be added. -/
theorem advanceHit_checked (h : phaseSampleConfirmed f ac raw usedHex now = true → restartsPhase f raw = false → Adds b f ac) :
    Checked.advanceHit b Γ f ac raw usedHex now = .ok (advanceHit Γ f ac raw usedHex now) := by
  have hadds : phaseSampleConfirmed f ac raw usedHex now = true → ∀ seen : TrackedFlight, seen.toCourse = f.toCourse →
      Adds b (if restartsPhase f raw then resetPhase seen else seen) ac := by
    intro heligible seen hcourse
    cases hrestart : restartsPhase f raw with
    | true => exact adds_resetPhase seen ac
    | false => exact (h heligible hrestart).congr hcourse
  unfold Checked.advanceHit advanceHit
  dsimp only
  rw [observePhase_checked]
  · rfl
  · intro heligible
    exact hadds heligible _ (by simp)

/-- A development build stops where a phase would be held for one poll more than fit in the counter. -/
theorem observePhase_dev {restart eligible : Bool} (hrestart : restart = false) (heligible : eligible = true)
    (hmax : f.pollsSinceChange = 0xFFFFFFFF) (hsame : detectPhase f ac = f.phase) (prevLat prevLon : Option F64) :
    Checked.observePhase .dev Γ f ac restart eligible prevLat prevLon now = .error .overflow := by
  unfold Checked.observePhase
  rw [hrestart, heligible]
  dsimp only
  rw [if_neg Bool.false_ne_true, if_pos rfl, phaseStep_dev hmax hsame]
  rfl

/-- A development build stops at such a hit. -/
theorem advanceHit_dev (hmax : f.pollsSinceChange = 0xFFFFFFFF) (heligible : phaseSampleConfirmed f ac raw usedHex now = true)
    (hrestart : restartsPhase f raw = false) (hsame : detectPhase f ac = f.phase) :
    Checked.advanceHit .dev Γ f ac raw usedHex now = .error .overflow := by
  have hseen : ∀ seen : TrackedFlight, seen.toCourse = f.toCourse →
      seen.pollsSinceChange = 0xFFFFFFFF ∧ detectPhase seen ac = seen.phase := by
    intro seen hcourse
    rw [detectPhase_congr hcourse, hcourse]
    exact ⟨hmax, hsame⟩
  unfold restartsPhase at hrestart
  unfold Checked.advanceHit
  dsimp only
  rw [observePhase_dev hrestart heligible]
  · rfl
  · exact (hseen _ (by simp)).1
  · exact (hseen _ (by simp)).2

end hits

/-- The largest number of polls, and a sample that adds one: it counts for the phase, does not let it start over and leaves it as
it is. -/
def AtLimit (f : TrackedFlight) (s : Sample) : Prop :=
  f.pollsSinceChange = 0xFFFFFFFF ∧ ∃ ac raw, s.obs.outcome = .hit ac ∧
    Checked.targetConfirmationForAircraft f ac s.obs.usedHex s.now = .ok (some raw) ∧
    phaseSampleConfirmed f ac raw s.obs.usedHex s.now = true ∧ restartsPhase f raw = false ∧ detectPhase f ac = f.phase

/-- A hit that is checked and confirmed is accepted. -/
theorem acceptedHit_of_checked {f : TrackedFlight} {s : Sample} {ac : NearbyAircraft} {raw : TargetConfirmation}
    (ho : s.obs.outcome = .hit ac)
    (ht : Checked.targetConfirmationForAircraft f ac s.obs.usedHex s.now = .ok (some raw)) :
    acceptedHit f s = some (ac, raw) := by
  rcases targetConfirmation_checked f ac s.obs.usedHex s.now with h | h
  · have hraw : targetConfirmationForAircraft f ac s.obs.usedHex s.now = some raw := Except.ok.inj (h.symm.trans ht)
    rw [acceptedHit, ho]
    exact congrArg (Option.map _) hraw
  · rw [ht] at h
    cases h

/-- A confirmed hit is followed by the transition. -/
theorem advanceFlight_of_confirmed {f : TrackedFlight} {s : Sample} {ac : NearbyAircraft} {raw : TargetConfirmation}
    (ho : s.obs.outcome = .hit ac) (ht : Checked.targetConfirmationForAircraft f ac s.obs.usedHex s.now = .ok (some raw)) :
    Checked.advanceFlight b Γ f s.obs s.now = Checked.advanceHit b Γ (polledAt f s.now) ac raw s.obs.usedHex s.now := by
  have ht' : Checked.targetConfirmationForAircraft { f with lastAdsbPollAt := some s.now } ac s.obs.usedHex s.now =
      .ok (some raw) := ht
  unfold Checked.advanceFlight
  rw [ho]
  dsimp only
  rw [ht']
  rfl

/-- A time out of the calendar stops a sample. -/
theorem advanceFlight_of_calendar {f : TrackedFlight} {s : Sample} {ac : NearbyAircraft} (ho : s.obs.outcome = .hit ac)
    (ht : Checked.targetConfirmationForAircraft f ac s.obs.usedHex s.now = .error .calendar) :
    Checked.advanceFlight b Γ f s.obs s.now = .error .calendar := by
  have ht' : Checked.targetConfirmationForAircraft { f with lastAdsbPollAt := some s.now } ac s.obs.usedHex s.now =
      .error .calendar := ht
  unfold Checked.advanceFlight
  rw [ho]
  dsimp only
  rw [ht']
  rfl

/-- An aircraft that confirms nothing leaves the flight as it is. -/
theorem advanceFlight_of_unconfirmed {f : TrackedFlight} {s : Sample} {ac : NearbyAircraft} (ho : s.obs.outcome = .hit ac)
    (ht : Checked.targetConfirmationForAircraft f ac s.obs.usedHex s.now = .ok none)
    (hc : targetConfirmationForAircraft f ac s.obs.usedHex s.now = none) :
    Checked.advanceFlight b Γ f s.obs s.now = .ok (advanceFlight Γ f s.obs s.now) := by
  have ht' : Checked.targetConfirmationForAircraft { f with lastAdsbPollAt := some s.now } ac s.obs.usedHex s.now = .ok none := ht
  have hc' : targetConfirmationForAircraft { f with lastAdsbPollAt := some s.now } ac s.obs.usedHex s.now = none := hc
  unfold Checked.advanceFlight advanceFlight
  rw [ho]
  dsimp only
  rw [ht', hc']
  rfl

/-- The transition is the one of the model without overflows, or stops at the calendar. -/
theorem advanceFlight_checked {f : TrackedFlight} {s : Sample} (h : ¬ AtLimit f s) :
    Checked.advanceFlight b Γ f s.obs s.now = .ok (advanceFlight Γ f s.obs s.now) ∨
      Checked.advanceFlight b Γ f s.obs s.now = .error .calendar := by
  cases ho : s.obs.outcome with
  | miss | error | timeout =>
    refine .inl ?_
    unfold Checked.advanceFlight advanceFlight
    rw [ho]
    rfl
  | hit ac =>
    rcases targetConfirmation_checked f ac s.obs.usedHex s.now with ht | ht
    · refine .inl ?_
      cases hc : targetConfirmationForAircraft f ac s.obs.usedHex s.now with
      | none =>
        rw [hc] at ht
        exact advanceFlight_of_unconfirmed ho ht hc
      | some raw =>
        rw [hc] at ht
        have hacc := acceptedHit_of_checked ho ht
        rw [advanceFlight_of_confirmed ho ht, (advanceFlight_of_accepted (Γ := Γ) hacc).2]
        refine advanceHit_checked fun heligible hrestart => ?_
        have hne : ¬ (f.pollsSinceChange = 0xFFFFFFFF ∧ detectPhase f ac = f.phase) := fun hboth =>
          h ⟨hboth.1, ac, raw, ho, ht, heligible, hrestart, hboth.2⟩
        exact (adds_of_ne hne).congr rfl
    · exact .inr (advanceFlight_of_calendar ho ht)

/-- A development build stops at a flight whose counter is the largest. -/
theorem advanceFlight_dev {f : TrackedFlight} {s : Sample} (h : AtLimit f s) :
    Checked.advanceFlight .dev Γ f s.obs s.now = .error .overflow := by
  obtain ⟨hmax, ac, raw, ho, ht, heligible, hrestart, hsame⟩ := h
  rw [advanceFlight_of_confirmed ho ht]
  exact advanceHit_dev (f := polledAt f s.now) hmax heligible hrestart hsame

/-! ## The counters -/

/-- The polls are set back: a hit lets the phase start over, or changes it. -/
def ResetsPolls (f : TrackedFlight) (s : Sample) : Prop :=
  ∃ ac raw, acceptedHit f s = some (ac, raw) ∧
    (restartsPhase f raw = true ∨
      phaseSampleConfirmed f ac raw s.obs.usedHex s.now = true ∧ detectPhase (phaseBasis f raw) ac ≠ (phaseBasis f raw).phase)

/-- The anomalies are set back: a comparison finds none, or starts over. -/
def ResetsAnomalies (Γ : Ctx) (f : TrackedFlight) (s : Sample) : Prop :=
  divertMark Γ f s = some (.evaluated false) ∨ divertMark Γ f s = some .reset

/-- No operation of a transition overflows, and no counter is less than before unless it is set back. -/
structure Sound (b : Build) (Γ : Ctx) (f : TrackedFlight) (s : Sample) : Prop where
  fits : Checked.advanceFlight b Γ f s.obs s.now ≠ .error .overflow
  polls : ∀ g update, Checked.advanceFlight b Γ f s.obs s.now = .ok (g, update) →
    f.pollsSinceChange ≤ g.pollsSinceChange ∨ ResetsPolls f s
  anomalies : ∀ g update, Checked.advanceFlight b Γ f s.obs s.now = .ok (g, update) →
    f.divertConsecutivePolls ≤ g.divertConsecutivePolls ∨ ResetsAnomalies Γ f s

/-- No counter gets smaller. -/
theorem le_saturatingSucc (n : UInt32) : n ≤ saturatingSucc n := by
  have := n.toNat_lt
  rw [UInt32.le_iff_toNat_le, saturatingSucc_toNat]
  omega

/-- A counter that is not at its limit does not get smaller when it is raised. -/
theorem le_succ_of_ne {n : UInt32} (h : n ≠ 0xFFFFFFFF) : n ≤ n + 1 := by
  have hn : n.toNat ≠ 4294967295 := fun he => h (UInt32.toNat_inj.mp he)
  have hlt := n.toNat_lt
  have hone : (1 : UInt32).toNat = 1 := rfl
  rw [UInt32.le_iff_toNat_le, UInt32.toNat_add, hone]
  omega

/-- Without an accepted aircraft the polls are those from before, or one more if there are more. -/
theorem polls_of_ignored {f : TrackedFlight} {s : Sample} (h : acceptedHit f s = none) :
    f.pollsSinceChange ≤ (advanceFlight Γ f s.obs s.now).1.pollsSinceChange := by
  rcases advanceFlight_of_ignored (Γ := Γ) h with ⟨-, e⟩ | e
  · rw [e]
    unfold advanceMiss
    split
    · exact le_saturatingSucc _
    · dsimp only
      split <;> exact UInt32.le_refl _
  · rw [e]
    exact UInt32.le_refl _

/-- A hit that is accepted adds a poll to those it does not set back. -/
theorem polls_of_accepted {f : TrackedFlight} {s : Sample} {ac : NearbyAircraft} {raw : TargetConfirmation}
    (h : acceptedHit f s = some (ac, raw)) (hreset : ¬ ResetsPolls f s) :
    restartsPhase f raw = false ∧ (advanceFlight Γ f s.obs s.now).1.pollsSinceChange =
      (if phaseSampleConfirmed f ac raw s.obs.usedHex s.now then f.pollsSinceChange + 1 else f.pollsSinceChange) ∧
    (phaseSampleConfirmed f ac raw s.obs.usedHex s.now = true → detectPhase f ac = f.phase) := by
  have hrestart : restartsPhase f raw = false := by
    rw [← Bool.not_eq_true]
    exact fun hr => hreset ⟨ac, raw, h, .inl hr⟩
  have hbasis : phaseBasis f raw = f := if_neg (by rw [hrestart]; exact Bool.false_ne_true)
  have hsame : phaseSampleConfirmed f ac raw s.obs.usedHex s.now = true → detectPhase f ac = f.phase := by
    intro he
    by_contra hne
    exact hreset ⟨ac, raw, h, .inr ⟨he, by rwa [hbasis]⟩⟩
  have hcourse : (advanceFlight Γ f s.obs s.now).1.toCourse = (pollStep Γ f s).toCourse := by simp [pollStep]
  refine ⟨hrestart, ?_, hsame⟩
  rw [hcourse, (course_of_accepted (Γ := Γ) h).1, hbasis]
  split
  · rename_i he
    rw [phaseStep, if_pos (hsame he)]
  · rfl

/-- The anomalies are those from before, or one more if there are more, unless they are set back. -/
theorem anomalies_le {f : TrackedFlight} {s : Sample} (hreset : ¬ ResetsAnomalies Γ f s) :
    f.divertConsecutivePolls ≤ (advanceFlight Γ f s.obs s.now).1.divertConsecutivePolls := by
  have hpoll : (advanceFlight Γ f s.obs s.now).1.divertConsecutivePolls = (pollStep Γ f s).divertConsecutivePolls := by
    simp [pollStep]
  rw [hpoll, (divert_pollStep f s).1]
  cases hmark : divertMark Γ f s with
  | none => exact UInt32.le_refl _
  | some mark =>
    cases mark with
    | reset => exact absurd (.inr hmark) hreset
    | evaluated anomalous =>
      cases anomalous with
      | false => exact absurd (.inl hmark) hreset
      | true => exact le_saturatingSucc _

/-- At the limit the build with overflow checks stops, and the other one has no polls left. -/
theorem not_sound_of_atLimit {f : TrackedFlight} {s : Sample} (h : AtLimit f s) : ¬ Sound b Γ f s := by
  intro hsound
  cases b with
  | dev => exact hsound.fits (advanceFlight_dev h)
  | release =>
    obtain ⟨hmax, ac, raw, ho, ht, heligible, hrestart, hsame⟩ := h
    have hacc := acceptedHit_of_checked ho ht
    have hbasis : phaseBasis f raw = f := if_neg (by rw [hrestart]; exact Bool.false_ne_true)
    have hreset : ¬ ResetsPolls f s := by
      rintro ⟨ac', raw', hacc', h⟩
      cases hacc.symm.trans hacc'
      rw [hrestart, hbasis] at h
      rcases h with h | ⟨-, h⟩
      · cases h
      · exact h hsame
    have hok : Checked.advanceFlight .release Γ f s.obs s.now = .ok (advanceFlight Γ f s.obs s.now) := by
      rw [advanceFlight_of_confirmed ho ht, (advanceFlight_of_accepted (Γ := Γ) hacc).2]
      exact advanceHit_checked fun _ _ => adds_release _ _
    have hle : f.pollsSinceChange ≤ (advanceFlight Γ f s.obs s.now).1.pollsSinceChange :=
      (hsound.polls _ _ hok).resolve_right hreset
    rw [(polls_of_accepted hacc hreset).2.1, if_pos heligible, hmax] at hle
    exact absurd hle (by decide)

/-- Where no poll is added to the largest number of them, a transition is sound. -/
theorem sound_of_not_atLimit {f : TrackedFlight} {s : Sample} (hlimit : ¬ AtLimit f s) : Sound b Γ f s := by
  have hchecked := advanceFlight_checked (b := b) (Γ := Γ) hlimit
  have hvalue : ∀ g update, Checked.advanceFlight b Γ f s.obs s.now = .ok (g, update) → g = (advanceFlight Γ f s.obs s.now).1 := by
    intro g update hok
    rcases hchecked with h | h
    · rw [h, Except.ok.injEq] at hok
      rw [hok]
    · rw [h] at hok
      cases hok
  refine ⟨?_, fun g update hok => ?_, fun g update hok => ?_⟩
  · rcases hchecked with h | h <;> rw [h] <;> exact fun he => by cases he
  · by_cases hreset : ResetsPolls f s
    · exact .inr hreset
    · refine .inl ?_
      rw [hvalue g update hok]
      cases hacc : acceptedHit f s with
      | none => exact polls_of_ignored hacc
      | some hit =>
        obtain ⟨ac, raw⟩ := hit
        obtain ⟨hrestart, hpolls, hsame⟩ := polls_of_accepted (Γ := Γ) hacc hreset
        rw [hpolls]
        split
        · rename_i heligible
          have ho := (advanceFlight_of_accepted (Γ := Γ) hacc).1
          rcases targetConfirmation_checked f ac s.obs.usedHex s.now with ht | ht
          · rw [accepted_confirmation hacc] at ht
            exact le_succ_of_ne fun hmax => hlimit ⟨hmax, ac, raw, ho, ht, heligible, hrestart, hsame heligible⟩
          · rw [advanceFlight_of_calendar ho ht] at hok
            cases hok
        · exact UInt32.le_refl _
  · by_cases hreset : ResetsAnomalies Γ f s
    · exact .inr hreset
    · refine .inl ?_
      rw [hvalue g update hok]
      exact anomalies_le hreset

/-- The operations of a transition are sound but where a poll is added to the largest number of them. -/
theorem counters_sound_iff (b : Build) (Γ : Ctx) (f : TrackedFlight) (s : Sample) : Sound b Γ f s ↔ ¬ AtLimit f s :=
  ⟨fun hsound hlimit => not_sound_of_atLimit hlimit hsound, sound_of_not_atLimit⟩

/-- A flight in its cruise, with the largest number of polls. -/
def countedFlight : TrackedFlight where
  identifier := .callsign "DLH123"
  trackedBy := "ann"
  trackedAt := 0
  callsign := some "DLH123"
  aliasCallsigns := ["DLH123"]
  targetConfirmation := .confirmedByCallsign
  lastSeen := some 0
  lastVisibleAt := some 0
  phase := .cruise
  pollsSinceChange := 0xFFFFFFFF

/-- It flies on. -/
def cruising : Sample where
  obs := { usedHex := false, outcome := .hit { flight := some "DLH123", altBaro := some (.feet 35000), baroRate := some 0 } }
  now := seconds 60
  getFlightRoute := fun _ => none

/-- One more poll is too much for both builds. -/
theorem not_sound : ¬ Sound .dev fieldCtx countedFlight cruising ∧ ¬ Sound .release fieldCtx countedFlight cruising := by
  have hlimit : AtLimit countedFlight cruising := 
    ⟨rfl, _, .confirmedByCallsign, rfl, by decide +kernel, rfl, rfl, by decide +kernel⟩
  exact ⟨not_sound_of_atLimit hlimit, not_sound_of_atLimit hlimit⟩

/-! ## Histories -/

/-- A counter is raised by one at most. -/
theorem toNat_succ_le (n : UInt32) : (n + 1).toNat ≤ n.toNat + 1 := by
  rw [UInt32.toNat_add]
  exact Nat.mod_le _ _

/-- A sample adds no more than one poll. -/
theorem polls_pollStep_le (f : TrackedFlight) (s : Sample) :
    (pollStep Γ f s).pollsSinceChange.toNat ≤ f.pollsSinceChange.toNat + 1 := by
  cases hacc : acceptedHit f s with
  | none =>
    have hcourse : (pollStep Γ f s).toCourse = (advanceFlight Γ f s.obs s.now).1.toCourse := by simp [pollStep]
    rw [hcourse]
    rcases advanceFlight_of_ignored (Γ := Γ) hacc with ⟨-, e⟩ | e
    · rw [e]
      unfold advanceMiss
      split
      · exact (saturatingSucc_toNat _).trans_le (Nat.min_le_left _ _)
      · dsimp only
        split <;> exact Nat.le_succ _
    · rw [e]
      exact Nat.le_succ _
  | some hit =>
    obtain ⟨ac, raw⟩ := hit
    have hbasis : (phaseBasis f raw).pollsSinceChange.toNat ≤ f.pollsSinceChange.toNat := by
      unfold phaseBasis
      split
      · exact Nat.zero_le _
      · exact Nat.le_refl _
    rw [(course_of_accepted (Γ := Γ) hacc).1]
    split
    · unfold phaseStep
      dsimp only
      split
      · exact (toNat_succ_le _).trans (Nat.succ_le_succ hbasis)
      · split <;> exact Nat.zero_le _
    · exact Nat.le_succ _

/-- After some samples the counter is larger by their number at most. -/
theorem polls_flyThrough_le (f : TrackedFlight) (samples : List Sample) :
    (flyThrough Γ f samples).pollsSinceChange.toNat ≤ f.pollsSinceChange.toNat + samples.length := by
  induction samples generalizing f with
  | nil => exact Nat.le_refl _
  | cons s rest ih =>
    have hstep := polls_pollStep_le (Γ := Γ) f s
    have hrest := ih (pollStep Γ f s)
    rw [flyThrough_cons, List.length_cons]
    omega

/-- A flight is far from the limit: its transitions are sound as long as there are fewer than `2 ^ 32` samples. -/
theorem sound_flyThrough {f : TrackedFlight} {samples : List Sample}
    (h : f.pollsSinceChange.toNat + samples.length < 4294967295) (s : Sample) : Sound b Γ (flyThrough Γ f samples) s := by
  refine sound_of_not_atLimit fun hlimit => ?_
  have hle := polls_flyThrough_le (Γ := Γ) f samples
  rw [hlimit.1] at hle
  exact absurd (Nat.lt_of_le_of_lt hle h) (by decide)

end Twitch1337.Tracker
