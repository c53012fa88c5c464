import Twitch1337.Daily.Handler
import Twitch1337.Lib.Arrivals
import Twitch1337.Theorems.Leaderboard
import Twitch1337.Theorems.Zones

/-!
# One session a day

The handler holds at most one session on a date, as long as it does not sleep into another date. A session has the first message of
each of the first who made it, and the board has the best of the sessions it has seen, also over ends of the program.
-/

namespace Twitch1337.Daily

open Arrivals Chrono Schedules

variable {Z : Zone} {channel : String} {now : Instant} {date : NaiveDate} {h h' : Handler}

/-! ## The start of a session -/

/-- When a session begins on a date. -/
def opening (Z : Zone) (date : NaiveDate) : Instant := resolveBerlinTime Z (andTime date (.fromHms targetHour (targetMinute - 1) 0))

/-- The clocks of Berlin are not set back shortly before the session. -/
structure Afternoon (Z : Zone) : Prop extends Z.Berlin where
  once : ∀ date t t', Z.fromLocal (andTime date (.fromHms targetHour (targetMinute - 1) 0)) ≠ .ambiguous t t'

theorem andTime_opening (date : NaiveDate) :
    andTime date (.fromHms targetHour (targetMinute - 1) 0) = seconds (date * 86400 + 48960) := Int.add_zero _

/-- A session begins on its date. -/
theorem date_opening (hZ : Afternoon Z) (date : NaiveDate) : Z.date (opening Z date) = date := by
  have honce := hZ.once date
  have hreads := hZ.reads (andTime date (.fromHms targetHour (targetMinute - 1) 0))
  unfold opening resolveBerlinTime
  rw [andTime_opening] at honce hreads ⊢
  cases hlocal : Z.fromLocal (seconds (date * 86400 + 48960)) with
  | single t =>
    rw [hlocal] at hreads
    rw [date_of_reads (hreads t rfl)]
    unfold NaiveDate at *
    omega
  | ambiguous t t' => exact absurd hlocal (honce t t')
  | none =>
    have hahead := hZ.ahead (seconds (date * 86400 + 48960))
    dsimp only
    unfold Zone.date Zone.local seconds Instant NaiveDateTime NaiveDate at *
    omega

/-- After the start of a session it is past 13:36. -/
theorem local_of_opening_le (hZ : Afternoon Z) (hle : opening Z date ≤ now) : seconds (date * 86400 + 48960) ≤ Z.local now := by
  have honce := hZ.once date
  have hsingle := hZ.single (andTime date (.fromHms targetHour (targetMinute - 1) 0))
  unfold opening resolveBerlinTime at hle
  rw [andTime_opening] at honce hsingle hle
  cases hlocal : Z.fromLocal (seconds (date * 86400 + 48960)) with
  | single t =>
    rw [hlocal] at hsingle hle
    by_contra hlt
    exact absurd ((hsingle t now rfl).1.mpr (not_le.mp hlt)) (not_lt_of_ge hle)
  | ambiguous t t' => exact absurd hlocal (honce t t')
  | none =>
    rw [hlocal] at hle
    have hahead := hZ.ahead now
    dsimp only at hle
    unfold Zone.local seconds Instant NaiveDateTime NaiveDate at *
    omega

/-- A day later it is another date. -/
theorem date_lt_next_day (hZ : Afternoon Z) (hle : opening Z (Z.date now) ≤ now) : Z.date now < Z.date (now + seconds 86400) := by
  have hlocal := local_of_opening_le hZ hle
  have hnow := hZ.ahead now
  have hnext := hZ.ahead (now + seconds 86400)
  unfold Zone.date Zone.local seconds Instant NaiveDateTime NaiveDate at *
  omega

/-- The next session is the one of a date, which is not over yet. -/
theorem calculateNextOccurrence_eq (hZ : Afternoon Z) (now : Instant) :
    ∃ date, calculateNextOccurrence Z now targetHour (targetMinute - 1) = opening Z date ∧ Z.date now ≤ date ∧
      (opening Z (Z.date now) ≤ now → Z.date now < date) := by
  unfold calculateNextOccurrence
  dsimp only
  split
  · rename_i hle
    exact ⟨_, rfl, (date_lt_next_day hZ hle).le, fun _ => date_lt_next_day hZ hle⟩
  · rename_i hgt
    exact ⟨_, rfl, le_refl _, fun hle => absurd hle hgt⟩

/-! ## What is heard -/

/-- Who has made it, in the order of the messages. -/
def made (Z : Zone) (channel : String) (heard : List Privmsg) : List (String × Nat) := heard.filterMap (qualifies Z channel)

theorem monitor_fill (heard : List Privmsg) (m : Privmsg) :
    monitor Z channel (fill maxUsers (made Z channel heard)) m = fill maxUsers (made Z channel (heard ++ [m])) := by
  unfold monitor made
  rw [List.filterMap_append]
  cases hm : qualifies Z channel m with
  | none => simp [hm]
  | some e =>
    have hlast : [m].filterMap (qualifies Z channel) = [e] := by simp [hm]
    rw [hlast, fill_snoc]
    rfl

theorem time_lt (t : Instant) : (Z.time t).frac < 1000000000 := Nat.mod_lt _ (by decide)

/-- Who makes it does so within a minute. -/
theorem qualifies_lt {m : Privmsg} {login : String} {ms : Nat} (h : qualifies Z channel m = some (login, ms)) : ms < 60000 := by
  unfold qualifies at h
  split at h
  · cases h
  dsimp only at h
  split at h
  · cases h
  split at h
  · obtain ⟨-, rfl⟩ := Prod.mk.inj (Option.some.inj h)
    have hfrac := time_lt (Z := Z) m.serverTimestamp
    omega
  · cases h

/-! ## Runs -/

/-- The date on which an event is due: a session begins on the date it was planned for, and ends on the one on which it began. -/
def Handler.due (Z : Zone) (h : Handler) : HandlerEvent → Option NaiveDate
  | .wake _ =>
    match h.stage with
    | .sleeping next => some (Z.date next)
    | _ => none
  | .close _ _ =>
    match h.stage with
    | .closing opened _ _ _ => some (Z.date opened)
    | _ => none
  | _ => none

/-- The handler does not sleep into another date. -/
def OnDate (Z : Zone) (h : Handler) (e : HandlerEvent) : Prop := ∀ date ∈ h.due Z e, Z.date h.now = date

instance (Z : Zone) (h : Handler) : DecidablePred (OnDate Z h) := fun e =>
  inferInstanceAs (Decidable (∀ date ∈ h.due Z e, Z.date h.now = date))

/-- What holds in a session. -/
structure InSession (Z : Zone) (channel : String) (h : Handler) (opened : Instant) (heard : List Privmsg)
    (users : Table String Nat) : Prop where
  begun : opening Z (Z.date opened) ≤ opened
  since : opened ≤ h.now
  new : ∀ day ∈ h.days, day.session.today < Z.date opened
  users : users = fill maxUsers (made Z channel heard)

/-- What holds at a stage. -/
def AtStage (Z : Zone) (channel : String) (h : Handler) : Stage → Prop
  | .planning => True
  | .sleeping next => next = opening Z (Z.date next) ∧ ∀ day ∈ h.days, day.session.today < Z.date next
  | .reminding opened heard users _ => InSession Z channel h opened heard users
  | .closing opened heard users _ => InSession Z channel h opened heard users

/-- What always holds. -/
structure Handler.Sound (Z : Zone) (channel : String) (h : Handler) : Prop where
  increasing : (h.days.map (·.session.today)).Pairwise (· < ·)
  past : ∀ day ∈ h.days, day.session.today ≤ Z.date h.now ∧ opening Z day.session.today ≤ h.now
  stage : AtStage Z channel h h.stage
  users : ∀ day ∈ h.days, day.session.users = fill maxUsers (made Z channel day.heard)
  board : h.board = boardAfter h.onBoard
  file : h.file = boardAfter h.onFile
  onBoard : h.onBoard.Sublist (h.days.map (·.session))
  onFile : h.onFile.Sublist h.onBoard

theorem sound_start (Z : Zone) (channel : String) (now : Instant) : (Handler.start now).Sound Z channel := by
  refine ⟨.nil, fun _ h => ?_, trivial, fun _ h => ?_, rfl, rfl, List.Sublist.refl _, List.Sublist.refl _⟩ <;> cases h

/-- The time that passes. -/
theorem Handler.Sound.pass (hZ : Afternoon Z) (hs : h.Sound Z channel) (time : Nat) :
    ({ h with now := h.now + time } : Handler).Sound Z channel := by
  have hle : h.now ≤ h.now + time := by
    unfold Instant at *
    omega
  refine ⟨hs.increasing, fun day hday => ?_, ?_, hs.users, hs.board, hs.file, hs.onBoard, hs.onFile⟩
  · obtain ⟨htoday, hopening⟩ := hs.past day hday
    exact ⟨htoday.trans (hZ.ordered _ _ hle), hopening.trans hle⟩
  · have hstage := hs.stage
    cases hst : h.stage with
    | planning => trivial
    | sleeping next =>
      rw [hst] at hstage
      exact hstage
    | reminding | closing =>
      rw [hst] at hstage
      exact ⟨hstage.begun, hstage.since.trans hle, hstage.new, hstage.users⟩

/-- A stage that is entered. -/
theorem Handler.Sound.enter (hs : h.Sound Z channel) {stage : Stage} (hstage : AtStage Z channel { h with stage } stage) :
    ({ h with stage } : Handler).Sound Z channel :=
  ⟨hs.increasing, hs.past, hstage, hs.users, hs.board, hs.file, hs.onBoard, hs.onFile⟩

/-- The end of a session. -/
theorem Handler.Sound.close {opened target : Instant} {heard : List Privmsg} {users : Table String Nat} (hs : h.Sound Z channel)
    (hst : h.stage = .closing opened heard users target) (hdate : Z.date h.now = Z.date opened) (message : String) (saves : Bool) :
    Handler.Sound Z channel
      { h with
        stage := .planning
        board := Session.update ⟨users, Z.date h.now⟩ h.board
        file := if saves then Session.update ⟨users, Z.date h.now⟩ h.board else h.file
        days := h.days ++ [⟨heard, ⟨users, Z.date h.now⟩, message⟩]
        onBoard := h.onBoard ++ [⟨users, Z.date h.now⟩]
        onFile := if saves then h.onBoard ++ [⟨users, Z.date h.now⟩] else h.onFile } := by
  have hstage := hs.stage
  rw [hst] at hstage
  have hboard : Session.update ⟨users, Z.date h.now⟩ h.board = boardAfter (h.onBoard ++ [⟨users, Z.date h.now⟩]) := by
    simp [boardAfter, hs.board]
  refine ⟨?_, fun day hday => ?_, trivial, fun day hday => ?_, hboard, ?_, ?_, ?_⟩
  · rw [List.map_append, List.pairwise_append]
    refine ⟨hs.increasing, List.pairwise_singleton _ _, fun a ha b hb => ?_⟩
    obtain ⟨day, hday, rfl⟩ := List.mem_map.mp ha
    obtain rfl := List.mem_singleton.mp hb
    exact hdate ▸ hstage.new day hday
  · rcases List.mem_append.mp hday with hday | hday
    · exact hs.past day hday
    · obtain rfl := List.mem_singleton.mp hday
      exact ⟨le_refl _, hdate ▸ hstage.begun.trans hstage.since⟩
  · rcases List.mem_append.mp hday with hday | hday
    · exact hs.users day hday
    · obtain rfl := List.mem_singleton.mp hday
      exact hstage.users
  · cases saves with
    | true => exact hboard
    | false => exact hs.file
  · rw [List.map_append]
    exact hs.onBoard.append (List.Sublist.refl _)
  · cases saves with
    | true => exact List.Sublist.refl _
    | false => exact hs.onFile.trans (List.sublist_append_left _ _)

/-- Every step keeps it. -/
theorem Handler.Sound.step (hZ : Afternoon Z) (hs : h.Sound Z channel) {e : HandlerEvent} (hok : OnDate Z h e)
    (hstep : h.step Z channel e = some h') : h'.Sound Z channel := by
  have hstage := hs.stage
  cases e with
  | pass time =>
    cases hstep
    exact hs.pass hZ time
  | plan =>
    simp only [Handler.step] at hstep
    split at hstep
    · cases hstep
      obtain ⟨date, hnext, hdate, hlater⟩ := calculateNextOccurrence_eq hZ h.now
      refine hs.enter ⟨?_, fun day hday => ?_⟩
      · rw [hnext, date_opening hZ]
      · rw [hnext, date_opening hZ]
        obtain ⟨htoday, hopening⟩ := hs.past day hday
        rcases htoday.lt_or_eq with hlt | heq
        · exact hlt.trans_le hdate
        · rw [heq] at hopening ⊢
          exact hlater hopening
    · cases hstep
  | wake latency =>
    simp only [Handler.step] at hstep
    split at hstep
    · rename_i next hst
      rw [hst] at hstage
      have hdate : Z.date h.now = Z.date next := hok _ (by rw [Handler.due, hst]; rfl)
      split at hstep
      · rename_i hle
        cases hstep
        refine hs.enter ⟨?_, le_refl _, fun day hday => ?_, rfl⟩
        · rw [hdate, ← hstage.1]
          exact hle
        · exact hdate ▸ hstage.2 day hday
      · cases hstep
    · cases hstep
  | hear m =>
    simp only [Handler.step] at hstep
    split at hstep
    · rename_i opened heard users target hst
      rw [hst] at hstage
      cases hstep
      exact hs.enter ⟨hstage.begun, hstage.since, hstage.new, by rw [hstage.users, monitor_fill]⟩
    · rename_i opened heard users target hst
      rw [hst] at hstage
      cases hstep
      exact hs.enter ⟨hstage.begun, hstage.since, hstage.new, by rw [hstage.users, monitor_fill]⟩
    · cases hstep
  | remind latency =>
    simp only [Handler.step] at hstep
    split at hstep
    · rename_i opened heard users target hst
      rw [hst] at hstage
      split at hstep
      · cases hstep
        exact hs.enter ⟨hstage.begun, hstage.since, hstage.new, hstage.users⟩
      · cases hstep
    · cases hstep
  | close stats saves =>
    simp only [Handler.step] at hstep
    split at hstep
    · rename_i opened heard users target hst
      have hdate : Z.date h.now = Z.date opened := hok _ (by rw [Handler.due, hst]; rfl)
      split at hstep
      · cases hstep
        exact hs.close hst hdate _ saves
      · cases hstep
    · cases hstep
  | restart =>
    cases hstep
    exact ⟨hs.increasing, hs.past, trivial, hs.users, hs.file, hs.file, hs.onFile.trans hs.onBoard, List.Sublist.refl _⟩

/-- The board and the file have every session. -/
def Handler.Complete (h : Handler) : Prop := h.onBoard = h.days.map (·.session) ∧ h.onFile = h.onBoard

/-- That is kept while no save fails. -/
theorem Handler.Complete.step {e : HandlerEvent} (hok : ∀ stats, e ≠ .close stats false) (hk : h.Complete)
    (hstep : h.step Z channel e = some h') : h'.Complete := by
  cases e with
  | pass time =>
    cases hstep
    exact hk
  | close stats saves =>
    simp only [Handler.step] at hstep
    split at hstep
    · split at hstep
      · cases hstep
        cases saves with
        | true => exact ⟨by rw [List.map_append, hk.1]; rfl, rfl⟩
        | false => exact absurd rfl (hok stats)
      · cases hstep
    · cases hstep
  | restart =>
    cases hstep
    exact ⟨hk.2.trans hk.1, rfl⟩
  | plan =>
    simp only [Handler.step] at hstep
    split at hstep <;> cases hstep
    exact hk
  | wake | remind =>
    simp only [Handler.step] at hstep
    split at hstep
    · split at hstep <;> cases hstep
      exact hk
    · cases hstep
  | hear m =>
    simp only [Handler.step] at hstep
    split at hstep <;> cases hstep
    · exact hk
    · exact hk

/-- What each user has on the board of some sessions. -/
theorem lookup_boardAfter (sessions : List Session) (user : String) :
    ((boardAfter sessions).lookup user = none ↔ times user sessions = []) ∧
      ∀ pb, (boardAfter sessions).lookup user = some pb → FirstBest (times user sessions) pb := by
  have hbest := best_boardAfter sessions user
  cases hpb : (boardAfter sessions).lookup user with
  | none =>
    rw [hpb] at hbest
    exact ⟨⟨fun _ => hbest, fun _ => rfl⟩, fun pb h => by cases h⟩
  | some pb =>
    rw [hpb] at hbest
    refine ⟨⟨fun h => (by cases h), fun h => ?_⟩, fun pb' h => Option.some.inj h ▸ hbest⟩
    obtain ⟨before, after, heq, -⟩ := hbest
    rw [h] at heq
    simp at heq

/-- However the days go, and however often the program ends and starts again: there is at most one session on a date, it has the
first message of each of the first ten thousand users who made it, within a minute, and the board has the best of each user in the
sessions it has seen; those are all sessions when no save fails. -/
theorem daily_sessions (hZ : Afternoon Z) (events : List HandlerEvent)
    (hok : Machine.Meets (Handler.step Z channel) (OnDate Z) (.start now) events)
    (hrun : Machine.run (Handler.step Z channel) (.start now) events = some h) :
    (h.days.map (·.session.today)).Pairwise (· < ·) ∧
      (∀ day ∈ h.days, ∀ user,
        day.session.users.lookup user =
            (if user ∈ (firsts (made Z channel day.heard)).take maxUsers then
              ((made Z channel day.heard).find? fun e => e.1 = user).map Prod.snd else none) ∧
          ∀ ms, day.session.users.lookup user = some ms → ms < 60000) ∧
      (∀ user, (h.board.lookup user = none ↔ times user h.onBoard = []) ∧
        ∀ pb, h.board.lookup user = some pb → FirstBest (times user h.onBoard) pb) ∧
      h.onBoard.Sublist (h.days.map (·.session)) ∧
      ((∀ e ∈ events, ∀ stats, e ≠ .close stats false) → h.onBoard = h.days.map (·.session)) := by
  have keeps : ∀ s e s', s.Sound Z channel → OnDate Z s e → s.step Z channel e = some s' → s'.Sound Z channel :=
    fun s e s' hs hok hstep => hs.step hZ hok hstep
  have hs := Machine.run_invariant_of_meets keeps (sound_start Z channel now) hok hrun
  refine ⟨hs.increasing, fun day hday user => ?_, fun user => ?_, hs.onBoard, fun hsaves => ?_⟩
  · rw [hs.users day hday]
    refine ⟨lookup_fill _ _ _, fun ms hms => ?_⟩
    obtain ⟨e, he, rfl⟩ := Option.map_eq_some_iff.mp (find?_of_lookup_fill hms)
    obtain ⟨m, -, hm⟩ := List.mem_filterMap.mp (List.mem_of_find?_eq_some he)
    exact qualifies_lt hm
  · rw [hs.board]
    exact lookup_boardAfter h.onBoard user
  · have kept : ∀ (s : Handler) e s', s.Complete → (∀ stats, e ≠ HandlerEvent.close stats false) →
        s.step Z channel e = some s' → s'.Complete := fun s e s' hk hok hstep => hk.step hok hstep
    exact (Machine.run_invariant_of_meets kept ⟨rfl, rfl⟩ (.of_mem hsaves _) hrun).1

/-! ## A day in October -/

theorem afternoon_autumnTime : Afternoon autumnTime := by
  refine ⟨berlin_autumnTime, fun date t t' hlocal => ?_⟩
  rw [andTime_opening] at hlocal
  rcases fromLocal_change 1792890000 7200 3600 (seconds (date * 86400 + 48960)) with
    ⟨-, hn⟩ | ⟨-, -, hn⟩ | ⟨hb, ha, -⟩ | ⟨-, -, hn⟩ | ⟨-, -, -, hn⟩
  · exact LocalResult.noConfusion (hn.symm.trans hlocal)
  · exact LocalResult.noConfusion (hn.symm.trans hlocal)
  · -- 13:36 is not in the night
    unfold seconds Instant NaiveDateTime NaiveDate at *
    omega
  · exact LocalResult.noConfusion (hn.symm.trans hlocal)
  · exact LocalResult.noConfusion (hn.symm.trans hlocal)

/-- A message that is sent some milliseconds after 12:37 UTC. -/
def at1337 (login : String) (ms : Int) : Privmsg := ⟨"chan", login, "1337", seconds (20752 * 86400 + 45420) + ms * 1000000⟩

/-- Two users make it, one of them twice. -/
def october : List HandlerEvent :=
  [.plan, .pass 5360000000000, .wake 0, .pass 61000000000, .hear (at1337 "alice" 234), .remind 0, .hear (at1337 "bob" 1200),
    .hear (at1337 "alice" 1300), .pass 59000000000, .close "2" true]

def beforeNoon : Instant := seconds (20752 * 86400 + 40000)

theorem october_isSome : (Machine.run (Handler.step autumnTime "chan") (.start beforeNoon) october).isSome = true := by
  decide +kernel

theorem daily_sessions_october :
    ∃ h, Machine.run (Handler.step autumnTime "chan") (.start beforeNoon) october = some h ∧
      (h.days.map (·.session.today)).Pairwise (· < ·) ∧ h.board.lookup "alice" = some ⟨234, 20752⟩ ∧ h.days.length = 1 := by
  have hrun := (Option.some_get october_isSome).symm
  refine ⟨_, hrun, ?_, by decide +kernel, by decide +kernel⟩
  exact (daily_sessions afternoon_autumnTime october (by decide +kernel) hrun).1

end Twitch1337.Daily
