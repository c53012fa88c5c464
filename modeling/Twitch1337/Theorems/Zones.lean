import Twitch1337.Theorems.Filters

/-!
# The clocks of Berlin

What is documented of them beside `Zone.Civil`, and zones whose clocks are changed once, of which it holds.
-/

namespace Twitch1337.Schedules

open Chrono

theorem single?_eq_some_iff {r : LocalResult} {t : Instant} : r.single? = some t ↔ r = .single t := by
  cases r <;> simp [LocalResult.single?]

theorem first?_eq_none_iff {r : LocalResult} : r.first? = none ↔ r = .none := by
  cases r <;> simp [LocalResult.first?]

/-- The clocks of Berlin are up to three hours ahead of UTC. What they read twice they read once an hour later, before and after an
instant that has a reading of its own they read less and more, and they read nothing that is not in the calendar. -/
structure Zone.Berlin (Z : Zone) : Prop extends Z.Civil where
  ahead : ∀ t, 0 ≤ Z.offset t ∧ Z.offset t ≤ 10800
  fold : ∀ naive t t', Z.fromLocal naive = .ambiguous t t' → ∃ u, Z.fromLocal (naive + seconds 3600) = .single u ∧ t < u
  single : ∀ naive t u, Z.fromLocal naive = .single t → (u < t ↔ Z.local u < naive) ∧ (t < u ↔ naive < Z.local u)
  beyond : ∀ naive, ¬ inRange naive → Z.fromLocal naive = .none

/-- A zone whose clocks are changed once, from one offset to another. -/
def Zone.change (change before after : Int) : Zone where
  offset t := if t < seconds change then before else after
  fromLocal naive :=
    if ¬ inRange naive then .none
    else if naive - seconds before < seconds change then
      if seconds change ≤ naive - seconds after then .ambiguous (naive - seconds before) (naive - seconds after)
      else .single (naive - seconds before)
    else if seconds change ≤ naive - seconds after then .single (naive - seconds after)
    else .none

section Change

variable {change before after : Int}

/-- How a zone whose clocks are changed once finds the instants of a reading. -/
theorem fromLocal_change (change before after : Int) (naive : NaiveDateTime) :
    (¬ inRange naive ∧ (Zone.change change before after).fromLocal naive = .none) ∨
      (naive < seconds (change + before) ∧ naive < seconds (change + after) ∧
        (Zone.change change before after).fromLocal naive = .single (naive - seconds before)) ∨
      (naive < seconds (change + before) ∧ seconds (change + after) ≤ naive ∧
        (Zone.change change before after).fromLocal naive = .ambiguous (naive - seconds before) (naive - seconds after)) ∨
      (seconds (change + before) ≤ naive ∧ seconds (change + after) ≤ naive ∧
        (Zone.change change before after).fromLocal naive = .single (naive - seconds after)) ∨
      (inRange naive ∧ seconds (change + before) ≤ naive ∧ naive < seconds (change + after) ∧
        (Zone.change change before after).fromLocal naive = .none) := by
  have hbefore : naive - seconds before < seconds change ↔ naive < seconds (change + before) := by
    unfold seconds Instant NaiveDateTime at *
    omega
  have hafter : seconds change ≤ naive - seconds after ↔ seconds (change + after) ≤ naive := by
    unfold seconds Instant NaiveDateTime at *
    omega
  unfold Zone.change
  dsimp only
  by_cases hin : inRange naive
  · simp only [if_neg (not_not.mpr hin), hbefore, hafter]
    by_cases h1 : naive < seconds (change + before)
    · by_cases h2 : seconds (change + after) ≤ naive
      · exact .inr (.inr (.inl ⟨h1, h2, by rw [if_pos h1, if_pos h2]⟩))
      · exact .inr (.inl ⟨h1, not_le.mp h2, by rw [if_pos h1, if_neg h2]⟩)
    · by_cases h2 : seconds (change + after) ≤ naive
      · exact .inr (.inr (.inr (.inl ⟨not_lt.mp h1, h2, by rw [if_neg h1, if_pos h2]⟩)))
      · exact .inr (.inr (.inr (.inr ⟨hin, not_lt.mp h1, not_le.mp h2, by rw [if_neg h1, if_neg h2]⟩)))
  · exact .inl ⟨hin, if_pos hin⟩

theorem local_change (change before after : Int) (t : Instant) :
    (t < seconds change ∧ (Zone.change change before after).local t = t + seconds before) ∨
      (seconds change ≤ t ∧ (Zone.change change before after).local t = t + seconds after) := by
  unfold Zone.local Zone.change
  dsimp only
  by_cases ht : t < seconds change
  · exact .inl ⟨ht, by rw [if_pos ht]⟩
  · exact .inr ⟨not_lt.mp ht, by rw [if_neg ht]⟩

/-- Before the change a reading is found by the first offset, after it by the second. -/
theorem first?_fromLocal_change {naive : NaiveDateTime} {t : Instant}
    (h : ((Zone.change change before after).fromLocal naive).first? = some t) :
    (t < seconds change ∧ t = naive - seconds before) ∨
      (seconds change ≤ t ∧ seconds (change + before) ≤ naive ∧ t = naive - seconds after) := by
  rcases fromLocal_change change before after naive with
    ⟨-, hn⟩ | ⟨hb, -, hn⟩ | ⟨hb, -, hn⟩ | ⟨hb, ha, hn⟩ | ⟨-, -, -, hn⟩
  · rw [hn] at h
    cases h
  · rw [hn] at h
    obtain rfl := Option.some.inj h
    left
    unfold seconds Instant NaiveDateTime at *
    omega
  · rw [hn] at h
    obtain rfl := Option.some.inj h
    left
    unfold seconds Instant NaiveDateTime at *
    omega
  · rw [hn] at h
    obtain rfl := Option.some.inj h
    right
    unfold seconds Instant NaiveDateTime at *
    omega
  · rw [hn] at h
    cases h

theorem reads_change (naive : NaiveDateTime) (t : Instant)
    (h : ((Zone.change change before after).fromLocal naive).first? = some t) :
    (Zone.change change before after).local t = naive := by
  rcases first?_fromLocal_change h with ⟨ht, rfl⟩ | ⟨ht, -, rfl⟩
  · rcases local_change change before after (naive - seconds before) with
      ⟨-, hlocal⟩ | ⟨hge, -⟩
    · rw [hlocal]
      exact Int.sub_add_cancel _ _
    · exact absurd ht (not_lt_of_ge hge)
  · rcases local_change change before after (naive - seconds after) with
      ⟨hlt, -⟩ | ⟨-, hlocal⟩
    · exact absurd hlt (not_lt_of_ge ht)
    · rw [hlocal]
      exact Int.sub_add_cancel _ _

theorem fromLocal_change_later {naive : NaiveDateTime} (hin : inRange naive) (hb : seconds (change + before) ≤ naive)
    (ha : seconds (change + after) ≤ naive) :
    (Zone.change change before after).fromLocal naive = .single (naive - seconds after) := by
  rcases fromLocal_change change before after naive with
    ⟨hout, -⟩ | ⟨hlt, -, -⟩ | ⟨hlt, -, -⟩ | ⟨-, -, hn⟩ | ⟨-, -, hlt, -⟩
  · exact absurd hin hout
  · exact absurd hlt (not_lt_of_ge hb)
  · exact absurd hlt (not_lt_of_ge hb)
  · exact hn
  · exact absurd hlt (not_lt_of_ge ha)

/-- Clocks that are changed once, by an hour at most and not back into the day before, are like those of Berlin. -/
theorem berlin_change (hbefore : 0 ≤ before ∧ before ≤ 10800) (hafter : 0 ≤ after ∧ after ≤ 10800)
    (hhour : before ≤ after + 3600 ∧ after ≤ before + 3600)
    (hdate : (change + before - 1) / 86400 ≤ (change + after) / 86400)
    (hchange : -8000000000000 ≤ change ∧ change ≤ 8000000000000) : (Zone.change change before after).Berlin where
  reads := reads_change
  gap naive _ hlater hnone := by
    rcases fromLocal_change change before after naive with
      ⟨hout, -⟩ | ⟨-, -, hn⟩ | ⟨-, -, hn⟩ | ⟨-, -, hn⟩ | ⟨-, hb, ha, -⟩
    · contradiction
    · rw [hn] at hnone
      cases hnone
    · rw [hn] at hnone
      cases hnone
    · rw [hn] at hnone
      cases hnone
    · refine ⟨_, fromLocal_change_later hlater ?_ ?_⟩
      · unfold seconds Instant NaiveDateTime at *
        omega
      · unfold seconds Instant NaiveDateTime at *
        omega
  ordered t t' hle := by
    unfold Zone.date
    rcases local_change change before after t with ⟨h1, h2⟩ | ⟨h1, h2⟩ <;>
      rcases local_change change before after t' with ⟨h3, h4⟩ | ⟨h3, h4⟩ <;>
      rw [h2, h4]
    · exact Int.ediv_le_ediv (by decide) (Int.add_le_add_right hle _)
    · have hlast : (t + seconds before) / seconds 86400 ≤ (change + before - 1) / 86400 := by
        unfold seconds Instant at *
        omega
      have hfirst : (change + after) / 86400 ≤ (t' + seconds after) / seconds 86400 := by
        unfold seconds Instant at *
        omega
      exact (hlast.trans hdate).trans hfirst
    · exact absurd (lt_of_le_of_lt (le_trans h1 hle) h3) (lt_irrefl _)
    · exact Int.ediv_le_ediv (by decide) (Int.add_le_add_right hle _)
  ahead t := by
    unfold Zone.change
    dsimp only
    split
    · exact hbefore
    · exact hafter
  fold naive t t' h := by
    rcases fromLocal_change change before after naive with
      ⟨-, hn⟩ | ⟨-, -, hn⟩ | ⟨hb, ha, hn⟩ | ⟨-, -, hn⟩ | ⟨-, -, -, hn⟩
    · rw [hn] at h
      cases h
    · rw [hn] at h
      cases h
    · rw [hn] at h
      cases h
      refine ⟨_, fromLocal_change_later ?_ ?_ ?_, ?_⟩
      · unfold inRange seconds Instant NaiveDateTime at *
        omega
      · unfold seconds Instant NaiveDateTime at *
        omega
      · unfold seconds Instant NaiveDateTime at *
        omega
      · unfold seconds Instant NaiveDateTime at *
        omega
    · rw [hn] at h
      cases h
    · rw [hn] at h
      cases h
  single naive t u h := by
    rcases fromLocal_change change before after naive with
      ⟨-, hn⟩ | ⟨hb, ha, hn⟩ | ⟨-, -, hn⟩ | ⟨hb, ha, hn⟩ | ⟨-, -, -, hn⟩
    · rw [hn] at h
      cases h
    · rw [hn] at h
      cases h
      rcases local_change change before after u with ⟨hu, hlocal⟩ | ⟨hu, hlocal⟩ <;>
        rw [hlocal] <;> unfold seconds Instant NaiveDateTime at * <;> omega
    · rw [hn] at h
      cases h
    · rw [hn] at h
      cases h
      rcases local_change change before after u with ⟨hu, hlocal⟩ | ⟨hu, hlocal⟩ <;>
        rw [hlocal] <;> unfold seconds Instant NaiveDateTime at * <;> omega
    · rw [hn] at h
      cases h
  beyond naive hout := if_pos hout

end Change

/-- Berlin in the year 2026 after its spring: an hour is read twice in the night to the 25th of October. -/
def autumnTime : Zone := .change 1792890000 7200 3600

theorem berlin_autumnTime : autumnTime.Berlin := berlin_change (by decide) (by decide) (by decide) (by decide) (by decide)

/-- Berlin before the autumn of 1916: the last hour of April was left out. -/
def springTime : Zone := .change (-1693706400) 3600 7200

theorem berlin_springTime : springTime.Berlin := berlin_change (by decide) (by decide) (by decide) (by decide) (by decide)

end Twitch1337.Schedules
