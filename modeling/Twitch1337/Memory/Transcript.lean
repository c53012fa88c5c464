import Twitch1337.Lib.Text
import Twitch1337.Schedule.Trigger

/-!
# The transcript

`ai/memory/transcript.rs`. A transcript file is the list of what was written to it. The file the writer's handle is on is kept
apart from the others, with its name: it is `today.md` but after a rotation that could not reopen it.
-/

namespace Twitch1337.Memory

open Chrono Schedules

/-- What one append leaves in a file: its line, or as much of it as was written before it failed. -/
inductive Chunk where
  | line (text : Text)
  | fragment (text : Text)
  deriving DecidableEq

def Chunk.line? : Chunk → Option Text
  | line text => some text
  | fragment _ => none

/-- The transcript files. -/
structure Transcripts where
  /-- The dated files, in the order of the rotations that made them. -/
  dated : List (NaiveDate × List Chunk)
  /-- The date of the file the handle is on. `none` is `today.md`. -/
  renamed : Option NaiveDate
  /-- What is in that file. -/
  current : List Chunk
  deriving DecidableEq

/-- The lines of all files, today's last. -/
def Transcripts.lines (t : Transcripts) : List Text := (t.dated.flatMap (·.2) ++ t.current).filterMap Chunk.line?

/-- `HH:MM:SS`. -/
def clockText (t : NaiveTime) : Text :=
  (Civil.pad 2 (t.secs / 3600)).toList ++ [':'] ++ (Civil.pad 2 (t.secs / 60 % 60)).toList ++ [':'] ++
    (Civil.pad 2 (t.secs % 60 + t.frac / 1000000000)).toList

/-- A text with its line breaks as blanks. -/
def oneLine (t : Text) : Text := t.map fun c => if c = '\n' ∨ c = '\r' then ' ' else c

/-- The line of a message. -/
def transcriptLine (Z : Zone) (ts : Instant) (user text : Text) : Text :=
  clockText (Z.time ts) ++ [' ', ' '] ++ oneLine user ++ [':', ' '] ++ oneLine text ++ ['\n']

/-- How an append ends. -/
inductive Written where
  | whole
  | failed (reached : Nat)
  deriving DecidableEq

/-- `append_line`. -/
def Transcripts.appendLine (t : Transcripts) (line : Text) : Written → Transcripts
  | .whole => { t with current := t.current ++ [.line line] }
  | .failed reached => { t with current := t.current ++ [.fragment (line.take reached)] }

/-- `rotate_to`. The rename takes the place of a file of that date. Without a `today.md`, or when the rename fails, nothing
changes; when `today.md` cannot be opened again, the handle stays on the file that was renamed. -/
def Transcripts.rotateTo (t : Transcripts) (date : NaiveDate) (renames reopens : Bool) : Transcripts :=
  if t.renamed.isNone && renames then
    let others := t.dated.filter fun file => file.1 ≠ date
    if reopens then ⟨others ++ [(date, t.current)], none, []⟩ else ⟨others, some date, t.current⟩
  else t

/-! ## Lemmas -/

theorem lines_appendLine_whole (t : Transcripts) (line : Text) : (t.appendLine line .whole).lines = t.lines ++ [line] := by
  simp [Transcripts.appendLine, Transcripts.lines, Chunk.line?]

theorem lines_appendLine_failed (t : Transcripts) (line : Text) (reached : Nat) :
    (t.appendLine line (.failed reached)).lines = t.lines := by
  simp [Transcripts.appendLine, Transcripts.lines, Chunk.line?]

/-- A rotation to a date that has no file keeps every line. -/
theorem lines_rotateTo {t : Transcripts} {date : NaiveDate} {renames : Bool} (reopens : Bool)
    (fresh : t.renamed = none → renames = true → date ∉ t.dated.map (·.1)) :
    (t.rotateTo date renames reopens).lines = t.lines := by
  unfold Transcripts.rotateTo
  split
  · rename_i h
    rw [Bool.and_eq_true, Option.isNone_iff_eq_none] at h
    have hall : (t.dated.filter fun file => file.1 ≠ date) = t.dated := by
      rw [List.filter_eq_self]
      intro file hfile
      have hne := fresh h.1 h.2
      simp only [decide_eq_true_eq]
      rintro rfl
      exact hne (List.mem_map_of_mem hfile)
    dsimp only
    rw [hall]
    split
    · simp [Transcripts.lines]
    · rfl
  · rfl

theorem newline_oneLine (t : Text) : '\n' ∉ oneLine t := by
  intro h
  obtain ⟨c, _, hc⟩ := List.mem_map.mp h
  by_cases hb : c = '\n' ∨ c = '\r'
  · rw [if_pos hb] at hc
    cases hc
  · rw [if_neg hb] at hc
    exact hb (.inl hc)

theorem newline_clockText (t : NaiveTime) : '\n' ∉ clockText t := by
  have hpad : ∀ n, '\n' ∉ (Civil.pad 2 n).toList := by
    intro n h
    cases Civil.isDigit_of_mem_pad h
  simp [clockText, hpad]

/-- What is appended is one line: its only line break ends it. -/
theorem newline_transcriptLine (Z : Zone) (ts : Instant) (user text : Text) :
    ∃ body, transcriptLine Z ts user text = body ++ ['\n'] ∧ '\n' ∉ body := by
  refine ⟨_, rfl, ?_⟩
  simp [newline_oneLine, newline_clockText]

end Twitch1337.Memory
