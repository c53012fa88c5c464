import Twitch1337.Memory.Ritual

/-!
# Transcripts keep their lines

As long as no ritual files the transcript under a date that has a file, every line whose append succeeded is in the files once,
in the order of the appends. An edit of `run_at` on the morning of a ritual makes the next one reuse its date.
-/

namespace Twitch1337.Memory

open Chrono Machine Schedules

/-- A ritual that renames `today.md` files it under a date that has no file yet. -/
def Diary.FreshDate (Z : Zone) (s : Diary) : DiaryEvent → Prop
  | .ritual true _ => ∀ next, s.stage = .sleeping next → s.transcript.renamed = none →
      ritualDate Z next ∉ s.transcript.dated.map (·.1)
  | _ => True

instance (Z : Zone) (s : Diary) (e : DiaryEvent) : Decidable (s.FreshDate Z e) :=
  match e with
  | .ritual true _ =>
    match hs : s.stage with
    | .sleeping next =>
      decidable_of_iff (s.transcript.renamed = none → ritualDate Z next ∉ s.transcript.dated.map (·.1)) (by
        simp [Diary.FreshDate, hs])
    | .planning => .isTrue (fun _ h => nomatch hs.symm.trans h)
    | .ended => .isTrue (fun _ h => nomatch hs.symm.trans h)
  | .ritual false _ => .isTrue trivial
  | .append .. => .isTrue trivial
  | .edit _ => .isTrue trivial
  | .plan _ => .isTrue trivial
  | .shutdown => .isTrue trivial

/-- One step adds the line of a successful append, and nothing else. -/
theorem lines_step {Z : Zone} {s s' : Diary} {e : DiaryEvent} (hok : s.FreshDate Z e) (h : s.step Z e = some s') :
    s'.transcript.lines = s.transcript.lines ++ appended Z [e] := by
  cases e with
  | append ts user text written =>
    cases h
    cases written with
    | whole => exact lines_appendLine_whole _ _
    | failed reached =>
      rw [lines_appendLine_failed]
      simp [appended]
  | edit dreamer =>
    cases h
    simp [appended]
  | plan now =>
    have : s'.transcript = s.transcript := by
      simp only [Diary.step] at h
      split at h
      · split at h
        · split at h
          · cases h
            rfl
          · cases h
            rfl
        · cases h
          rfl
      · cases h
    simp [this, appended]
  | ritual renames reopens =>
    simp only [Diary.step] at h
    split at h
    · rename_i next hs
      cases h
      have hdate : s.transcript.renamed = none → renames = true →
          ritualDate Z next ∉ s.transcript.dated.map (·.1) := by
        intro hn hr
        rw [hr] at hok
        exact hok next hs hn
      rw [lines_rotateTo reopens hdate]
      simp [appended]
    · cases h
  | shutdown =>
    cases h
    simp [appended]

/-- In every run in which each rotation goes to a date that has no file yet, the lines of the files are those there were at the
start and then every line whose append succeeded, each once, in the order of the appends. -/
theorem transcripts_keep_lines {Z : Zone} {s s' : Diary} {es : List DiaryEvent} (h : run (Diary.step Z) s es = some s')
    (fresh : Meets (Diary.step Z) (Diary.FreshDate Z) s es) :
    s'.transcript.lines = s.transcript.lines ++ appended Z es := by
  induction es generalizing s with
  | nil =>
    cases h
    simp [appended]
  | cons e es ih =>
    obtain ⟨t, ht, h⟩ := run_cons_iff.mp h
    have happ : appended Z (e :: es) = appended Z [e] ++ appended Z es := by
      rw [appended, ← List.singleton_append, List.filterMap_append, appended, appended]
    rw [ih h (fresh.2 t ht), lines_step fresh.1 ht, happ, List.append_assoc]

/-! ### A day of rituals -/

/-- An hour of a day, two hours ahead of UTC. -/
def atHour (day hour : Int) : Instant := seconds (day * 86400 + hour * 3600) - seconds 7200

def fourOClock : NaiveTime := .fromHms 4 0 0

def fiveOClock : NaiveTime := .fromHms 5 0 0

def emptyDiary : Diary := ⟨⟨[], none, []⟩, ⟨true, fourOClock⟩, .planning⟩

/-- A line is appended in the evening of a day, and one after the ritual of the next morning. -/
def twoLines : List DiaryEvent :=
  [.append (atHour 20571 20) "ann".toList "gn".toList .whole, .plan (atHour 20572 3), .ritual true true,
    .append (atHour 20572 4) "bob".toList "gm".toList .whole]

/-- A second ritual that morning, after `run_at` was moved from four to five, overwrites the transcript of the first. -/
theorem moved_ritual_overwrites : ∃ s, run (Diary.step (.fixed 7200)) emptyDiary
      (twoLines ++ [.edit ⟨true, fiveOClock⟩, .plan (atHour 20572 4), .ritual true true]) = some s ∧
    appended (.fixed 7200) (twoLines ++ [.edit ⟨true, fiveOClock⟩, .plan (atHour 20572 4), .ritual true true]) =
      ["20:00:00  ann: gn\n".toList, "04:00:00  bob: gm\n".toList] ∧
    s.transcript.lines = ["04:00:00  bob: gm\n".toList] := by
  refine ⟨_, rfl, by decide +kernel, by decide +kernel⟩

/-- With `run_at` as it was, the second ritual is on the morning after, and both lines are kept. -/
theorem transcripts_keep_lines_next_day : ∃ s, run (Diary.step (.fixed 7200)) emptyDiary
      (twoLines ++ [.plan (atHour 20572 4), .ritual true true]) = some s ∧
    s.transcript.lines = [] ++ appended (.fixed 7200) (twoLines ++ [.plan (atHour 20572 4), .ritual true true]) := by
  have h : run (Diary.step (.fixed 7200)) emptyDiary (twoLines ++ [.plan (atHour 20572 4), .ritual true true]) = some _ :=
    rfl
  exact ⟨_, h, transcripts_keep_lines h (by decide +kernel)⟩

end Twitch1337.Memory
