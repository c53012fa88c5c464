import Twitch1337.Daily.Tracker1337

/-!
# The leaderboard

The board holds what each user did best so far, and when it was done first. What is said of the fastest user of a day is what the
update of that day does to the board.
-/

namespace Twitch1337.Daily

open Schedules

variable {board : Leaderboard} {s : Session} {user : String} {ms : Nat}

/-! ## One update -/

/-- The entry that a session makes for a user, if it makes one. -/
def newBest (today : NaiveDate) (board : Leaderboard) (user : String) (time : Option Nat) : Option PersonalBest :=
  (time.filter fun ms => ms < 1000 && beatsOwnBest user ms board).map (⟨·, today⟩)

theorem lookup_updateUser (today : NaiveDate) (board : Leaderboard) (k user : String) (ms : Nat) :
    (updateUser today board k ms).lookup user =
      if user = k then (newBest today board k (some ms)).or (board.lookup k) else board.lookup user := by
  unfold updateUser newBest
  by_cases hb : (ms < 1000 && beatsOwnBest k ms board) = true
  · rw [if_pos hb, Table.lookup_insert]
    simp [Option.filter, hb]
  · rw [if_neg hb]
    by_cases hk : user = k
    · subst hk
      simp [Option.filter, hb]
    · simp [hk]

/-- An update makes its entries whatever the order of the users. -/
theorem lookup_foldl_updateUser (today : NaiveDate) (l : List (Sigma fun _ : String => Nat)) (hl : l.NodupKeys)
    (board : Leaderboard) (user : String) :
    AList.lookup user (l.foldl (fun board e => updateUser today board e.1 e.2) board) =
      (newBest today board user (l.dlookup user)).or (board.lookup user) := by
  induction l generalizing board with
  | nil => rfl
  | cons e l ih =>
    obtain ⟨k, ms⟩ := e
    rw [List.nodupKeys_cons] at hl
    rw [List.foldl_cons, ih hl.2]
    by_cases hk : user = k
    · subst hk
      rw [List.dlookup_eq_none.mpr hl.1, List.dlookup_cons_eq, lookup_updateUser, if_pos rfl]
      rfl
    · have hkeep : (updateUser today board k ms).lookup user = board.lookup user := by
        rw [lookup_updateUser, if_neg hk]
      have hnew : newBest today (updateUser today board k ms) user (l.dlookup user) =
          newBest today board user (l.dlookup user) := by
        simp only [newBest, beatsOwnBest, hkeep]
      rw [List.dlookup_cons_ne _ _ hk, hkeep, hnew]

/-- The entry of a user after a session. -/
theorem lookup_update (s : Session) (board : Leaderboard) (user : String) :
    (s.update board).lookup user = (newBest s.today board user (s.users.lookup user)).or (board.lookup user) :=
  lookup_foldl_updateUser s.today s.users.entries s.users.nodupKeys board user

theorem newBest_eq_some {today : NaiveDate} {time : Option Nat} {pb : PersonalBest} :
    newBest today board user time = some pb ↔
      time = some pb.ms ∧ pb.ms < 1000 ∧ beatsOwnBest user pb.ms board = true ∧ pb.date = today := by
  obtain ⟨ms, date⟩ := pb
  simp only [newBest, Option.map_eq_some_iff, Option.filter_eq_some_iff, Bool.and_eq_true, decide_eq_true_eq,
    PersonalBest.mk.injEq]
  constructor
  · rintro ⟨m, ⟨htime, hlt, hbeats⟩, rfl, rfl⟩
    exact ⟨htime, hlt, hbeats, rfl⟩
  · rintro ⟨htime, hlt, hbeats, rfl⟩
    exact ⟨ms, ⟨htime, hlt, hbeats⟩, rfl, rfl⟩

/-! ## The running minimum -/

/-- The times of a user below one second, with their days. -/
def times (user : String) (sessions : List Session) : List PersonalBest :=
  sessions.filterMap fun s => ((s.users.lookup user).filter (· < 1000)).map (⟨·, s.today⟩)

/-- The smallest of some times, on the first day it was reached. -/
def FirstBest (ts : List PersonalBest) (pb : PersonalBest) : Prop :=
  ∃ before after, ts = before ++ pb :: after ∧ (∀ t ∈ before, pb.ms < t.ms) ∧ ∀ t ∈ after, pb.ms ≤ t.ms

/-- What a board should hold of a user with some times. -/
def Best (ts : List PersonalBest) : Option PersonalBest → Prop
  | .none => ts = []
  | some pb => FirstBest ts pb

theorem Best.snoc {ts : List PersonalBest} {o : Option PersonalBest} (h : Best ts o) (t : PersonalBest) :
    Best (ts ++ [t]) (if o.all fun own => t.ms < own.ms then some t else o) := by
  cases o with
  | none =>
    cases h
    exact ⟨[], [], rfl, by simp, by simp⟩
  | some pb =>
    obtain ⟨before, after, rfl, hbefore, hafter⟩ := h
    by_cases hlt : t.ms < pb.ms
    · rw [Option.all_some, if_pos (decide_eq_true hlt)]
      refine ⟨before ++ pb :: after, [], rfl, fun x hx => ?_, by simp⟩
      rcases List.mem_append.mp hx with hx | hx
      · exact Nat.lt_trans hlt (hbefore x hx)
      · rcases List.mem_cons.mp hx with rfl | hx
        · exact hlt
        · exact Nat.lt_of_lt_of_le hlt (hafter x hx)
    · rw [Option.all_some, if_neg (by simpa using hlt)]
      refine ⟨before, after ++ [t], by simp, hbefore, fun x hx => ?_⟩
      rcases List.mem_append.mp hx with hx | hx
      · exact hafter x hx
      · rw [List.mem_singleton.mp hx]
        exact Nat.le_of_not_lt hlt

theorem best_boardAfter (sessions : List Session) (user : String) :
    Best (times user sessions) ((boardAfter sessions).lookup user) := by
  induction sessions using List.reverseRecOn with
  | nil => rfl
  | append_singleton sessions s ih =>
    have hboard : boardAfter (sessions ++ [s]) = s.update (boardAfter sessions) := by
      simp [boardAfter]
    have htimes : times user (sessions ++ [s]) =
        times user sessions ++ (((s.users.lookup user).filter (· < 1000)).map (⟨·, s.today⟩)).toList := by
      cases h : ((s.users.lookup user).filter (· < 1000)).map (PersonalBest.mk · s.today) <;> simp [times, h]
    rw [hboard, htimes, lookup_update, newBest]
    cases hms : s.users.lookup user with
    | none => simpa using ih
    | some ms =>
      by_cases hlt : ms < 1000
      · have hsnoc := ih.snoc ⟨ms, s.today⟩
        by_cases hbeats : beatsOwnBest user ms (boardAfter sessions) = true
        · rw [beatsOwnBest] at hbeats
          rw [if_pos hbeats] at hsnoc
          simpa [Option.filter, hlt, beatsOwnBest, hbeats] using hsnoc
        · rw [beatsOwnBest] at hbeats
          rw [if_neg hbeats] at hsnoc
          simpa [Option.filter, hlt, beatsOwnBest, hbeats] using hsnoc
      · simpa [Option.filter, hlt] using ih

/-! ## The record -/

/-- The record is the time of some user, and no user has a smaller one. -/
theorem record_eq_some {m : Nat} :
    board.record = some m ↔
      (∃ user pb, board.lookup user = some pb ∧ pb.ms = m) ∧ ∀ user pb, board.lookup user = some pb → m ≤ pb.ms := by
  rw [Leaderboard.record, List.min?_eq_some_iff]
  constructor
  · rintro ⟨hmem, hle⟩
    obtain ⟨e, he, hm⟩ := List.mem_map.mp hmem
    exact ⟨⟨e.1, e.2, AList.mem_lookup_iff.mpr he, hm⟩,
      fun user pb hpb => hle _ (List.mem_map.mpr ⟨⟨user, pb⟩, AList.mem_lookup_iff.mp hpb, rfl⟩)⟩
  · rintro ⟨⟨user, pb, hpb, hm⟩, hle⟩
    refine ⟨List.mem_map.mpr ⟨⟨user, pb⟩, AList.mem_lookup_iff.mp hpb, hm⟩, fun b hb => ?_⟩
    obtain ⟨e, he, rfl⟩ := List.mem_map.mp hb
    exact hle e.1 e.2 (AList.mem_lookup_iff.mpr he)

/-- A board with an entry has a record, not above it. -/
theorem exists_record {pb : PersonalBest} (h : board.lookup user = some pb) : ∃ m, board.record = some m ∧ m ≤ pb.ms := by
  have hmem : pb.ms ∈ board.entries.map fun e => e.2.ms :=
    List.mem_map.mpr ⟨⟨user, pb⟩, AList.mem_lookup_iff.mp h, rfl⟩
  obtain ⟨m, hm⟩ := Option.isSome_iff_exists.mp (List.isSome_min?_of_mem hmem)
  exact ⟨m, hm, (record_eq_some.mp hm).2 user pb h⟩

/-- A board has a record that is smaller than that of another board, or that board has none. -/
def Lowers (board board' : Leaderboard) : Prop :=
  ∃ m', board'.record = some m' ∧ ∀ m, board.record = some m → m' < m

theorem mem_timedUsers {u : String} {m : Nat} : (u, m) ∈ s.timedUsers ↔ s.users.lookup u = some m := by
  rw [← Option.mem_def, AList.mem_lookup_iff, Session.timedUsers, List.mem_map]
  constructor
  · rintro ⟨e, he, heq⟩
    cases heq
    exact he
  · intro he
    exact ⟨_, he, rfl⟩

/-- The fastest user has a time below one second, and no user a smaller one. -/
theorem fastest_spec (h : s.fastest = some (user, ms)) :
    s.users.lookup user = some ms ∧ ms < 1000 ∧ ∀ u m, s.users.lookup u = some m → m < 1000 → ms ≤ m := by
  have hin := List.mem_filter.mp (List.argmin_mem h)
  refine ⟨mem_timedUsers.mp hin.1, by simpa using hin.2, fun u m hm hlt => ?_⟩
  exact List.le_of_mem_argmin (List.mem_filter.mpr ⟨mem_timedUsers.mpr hm, by simpa using hlt⟩) h

/-- A day has no fastest user exactly when nobody has a time below one second. -/
theorem fastest_eq_none : s.fastest = none ↔ ∀ u m, s.users.lookup u = some m → 1000 ≤ m := by
  rw [Session.fastest, List.argmin_eq_none, List.filter_eq_nil_iff]
  constructor
  · intro h u m hm
    have hslow := h (u, m) (mem_timedUsers.mpr hm)
    simpa using hslow
  · rintro h ⟨u, m⟩ hm
    have hslow := h u m (mem_timedUsers.mp hm)
    simpa using hslow

/-- Whoever beats the record beats their own best. -/
theorem beatsOwnBest_of_record (h : (board.record.all fun record => ms < record) = true) : beatsOwnBest user ms board = true := by
  cases hpb : board.lookup user with
  | none => simp [beatsOwnBest, hpb]
  | some pb =>
    obtain ⟨m, hm, hle⟩ := exists_record hpb
    rw [hm, Option.all_some, decide_eq_true_eq] at h
    simp only [beatsOwnBest, hpb, Option.all_some, decide_eq_true_eq]
    omega

/-- The fastest user beats the record if and only if the update lowers it. -/
theorem beats_record_iff_lowers (h : s.fastest = some (user, ms)) :
    (board.record.all fun record => ms < record) = true ↔ Lowers board (s.update board) := by
  obtain ⟨htime, hlt, hleast⟩ := fastest_spec h
  -- an entry of the new board is of the session, or of the old board
  have hentry : ∀ u pb, (s.update board).lookup u = some pb → ms ≤ pb.ms ∨ board.lookup u = some pb := by
    intro u pb hpb
    rw [lookup_update, Option.or_eq_some_iff] at hpb
    rcases hpb with hnew | ⟨_, hold⟩
    · obtain ⟨hu, hlt', _, _⟩ := newBest_eq_some.mp hnew
      exact .inl (hleast u pb.ms hu hlt')
    · exact .inr hold
  constructor
  · intro hbeats
    have hnew : newBest s.today board user (s.users.lookup user) = some ⟨ms, s.today⟩ :=
      newBest_eq_some.mpr ⟨htime, hlt, beatsOwnBest_of_record hbeats, rfl⟩
    refine ⟨ms, record_eq_some.mpr ⟨⟨user, ⟨ms, s.today⟩, ?_, rfl⟩, fun u pb hpb => ?_⟩, fun m hm => ?_⟩
    · rw [lookup_update, hnew]
      rfl
    · rcases hentry u pb hpb with hle | hold
      · exact hle
      · obtain ⟨m, hm, hle⟩ := exists_record hold
        rw [hm, Option.all_some, decide_eq_true_eq] at hbeats
        omega
    · rw [hm, Option.all_some, decide_eq_true_eq] at hbeats
      exact hbeats
  · rintro ⟨m', hm', hlower⟩
    cases hm : board.record with
    | none => rfl
    | some m =>
      rw [Option.all_some, decide_eq_true_eq]
      have hlt' := hlower m hm
      obtain ⟨⟨u, pb, hpb, hpbm⟩, _⟩ := record_eq_some.mp hm'
      rcases hentry u pb hpb with hle | hold
      · omega
      · have := (record_eq_some.mp hm).2 u pb hold
        omega

/-- The fastest user beats their own best if and only if the update changes their entry. -/
theorem beatsOwnBest_iff_changes (h : s.fastest = some (user, ms)) :
    beatsOwnBest user ms board = true ↔ (s.update board).lookup user ≠ board.lookup user := by
  obtain ⟨htime, hlt, _⟩ := fastest_spec h
  rw [lookup_update, htime]
  by_cases hb : beatsOwnBest user ms board = true
  · have hnew : newBest s.today board user (some ms) = some ⟨ms, s.today⟩ := newBest_eq_some.mpr ⟨rfl, hlt, hb, rfl⟩
    rw [hnew]
    refine ⟨fun _ heq => ?_, fun _ => hb⟩
    rw [beatsOwnBest, ← heq] at hb
    simp at hb
  · have hnew : newBest s.today board user (some ms) = none := by
      simp [newBest, Option.filter, hb]
    rw [hnew]
    simp [hb]

/-- After any sessions, the entry of a user is the smallest of their times below one second, with the first day it was reached,
and there is none when there are no such times; the order in which a session is processed does not matter; a day has a fastest
user, with the smallest time of the day, exactly when somebody has a time below one second; and what is said of that user is what
the update does to the board and to their entry. -/
theorem leaderboard_is_running_minimum :
    (∀ (sessions : List Session) (user : String),
      ((boardAfter sessions).lookup user = none ↔ times user sessions = []) ∧
        ∀ pb, (boardAfter sessions).lookup user = some pb → FirstBest (times user sessions) pb) ∧
      (∀ (board : Leaderboard) (s s' : Session), s.today = s'.today → s.users.entries.Perm s'.users.entries →
        ∀ user, (s.update board).lookup user = (s'.update board).lookup user) ∧
      (∀ s : Session, s.fastest = none ↔ ∀ user ms, s.users.lookup user = some ms → 1000 ≤ ms) ∧
      ∀ (board : Leaderboard) (s : Session) (user : String) (ms : Nat), s.fastest = some (user, ms) →
        (s.users.lookup user = some ms ∧ ms < 1000 ∧ ∀ u m, s.users.lookup u = some m → m < 1000 → ms ≤ m) ∧
        (classifyAchievement user ms board = .overallRecord ↔ Lowers board (s.update board)) ∧
          (classifyAchievement user ms board = .personalBest ↔
            (s.update board).lookup user ≠ board.lookup user ∧ ¬ Lowers board (s.update board)) ∧
          (classifyAchievement user ms board = .none ↔ (s.update board).lookup user = board.lookup user) := by
  refine ⟨fun sessions user => ⟨⟨fun h => ?_, fun h => ?_⟩, fun pb h => ?_⟩, fun board s s' htoday hperm user => ?_,
    fun s => fastest_eq_none, fun board s user ms h => ⟨fastest_spec h, ?_⟩⟩
  · have hbest := best_boardAfter sessions user
    rwa [h] at hbest
  · have hbest := best_boardAfter sessions user
    rw [h] at hbest
    cases hpb : (boardAfter sessions).lookup user with
    | none => rfl
    | some pb =>
      rw [hpb] at hbest
      obtain ⟨before, after, heq, _⟩ := hbest
      simp at heq
  · have hbest := best_boardAfter sessions user
    rwa [h] at hbest
  · rw [lookup_update, lookup_update, htoday, AList.perm_lookup hperm]
  · have hstays : (s.update board).lookup user = board.lookup user ↔ ¬ beatsOwnBest user ms board = true := by
      rw [beatsOwnBest_iff_changes h, ne_eq, not_not]
    rw [← beats_record_iff_lowers h, ne_eq, hstays, not_not, classifyAchievement]
    by_cases hrecord : (board.record.all fun record => ms < record) = true
    · have hown : beatsOwnBest user ms board = true := beatsOwnBest_of_record hrecord
      simp [hrecord, hown]
    · by_cases hown : beatsOwnBest user ms board = true
      · simp [hrecord, hown]
      · simp [hrecord, hown]

/-! ### A day with two users -/

def firstDay : Session := ⟨(∅ : Table String Nat).insert "bob" 700 |>.insert "alice" 234, 20454⟩

theorem leaderboard_is_running_minimum_firstDay :
    (∀ u m, firstDay.users.lookup u = some m → m < 1000 → 234 ≤ m) ∧ classifyAchievement "alice" 234 ∅ = .overallRecord ∧
      Lowers ∅ (firstDay.update ∅) := by
  obtain ⟨hfastest, hrecord, -⟩ := leaderboard_is_running_minimum.2.2.2 ∅ firstDay "alice" 234 (by decide +kernel)
  exact ⟨hfastest.2.2, by decide +kernel, hrecord.mp (by decide +kernel)⟩

end Twitch1337.Daily
