import Twitch1337.Lemmas.Turns
import Twitch1337.Memory.Inject
import Twitch1337.Theorems.Ownership

/-!
# What the tools take, the prompt shows

The tools turn down bodies with a sentinel and a space after it, and the prompt replaces bodies with a sentinel, space or not. A
body that was taken is shown exactly when it has no bare sentinel: one that is not followed by a space.
-/

namespace Twitch1337.Memory

open Chrono Text

/-! ## Bare sentinels -/

/-- A pattern is at some place of a text not followed by a space. -/
def BareAt (pat t : Text) : Prop := ∃ before after, t = before ++ pat ++ after ∧ after.head? ≠ some ' '

/-- A body with a sentinel that is not followed by a space. -/
def BareSentinel (body : Text) : Prop := BareAt Inject.fenceOpen body ∨ BareAt Inject.fenceClose body

/-- A text without a pattern and a space has the pattern only where it is bare. -/
theorem contains_iff_bareAt {pat t : Text} (h : contains (pat ++ [' ']) t = false) : contains pat t = true ↔ BareAt pat t := by
  rw [contains_iff]
  constructor
  · rintro ⟨before, after, rfl⟩
    refine ⟨before, after, rfl, fun hspace => ?_⟩
    obtain ⟨rest, rfl⟩ := List.head?_eq_some_iff.mp hspace
    have hin : contains (pat ++ [' ']) (before ++ pat ++ ' ' :: rest) = true :=
      contains_iff.mpr ⟨before, rest, by simp⟩
    rw [h] at hin
    cases hin
  · rintro ⟨before, after, rfl, -⟩
    exact ⟨before, after, rfl⟩

theorem BareAt.mem {pat t : Text} (h : BareAt pat t) {c : Char} (hc : c ∈ pat) : c ∈ t := by
  obtain ⟨before, after, rfl, -⟩ := h
  exact List.mem_append_left after (List.mem_append_right before hc)

/-- A body without the first character of the sentinels has no sentinel. -/
theorem not_bareSentinel {body : Text} (h : '<' ∉ body) : ¬ BareSentinel body := by
  rintro (hbare | hbare)
  · exact h (hbare.mem (by decide))
  · exact h (hbare.mem (by decide))

/-- What is shown instead of a body has no sentinel, so that no body with one is shown. -/
theorem scrubForInject_eq_self_iff (body : Text) :
    Inject.scrubForInject body = body ↔
      ¬ (contains Inject.fenceOpen body || contains Inject.fenceClose body) = true := by
  unfold Inject.scrubForInject
  by_cases h : (contains Inject.fenceOpen body || contains Inject.fenceClose body) = true
  · rw [if_pos h]
    refine ⟨fun heq => ?_, fun hno => absurd h hno⟩
    rw [← heq] at h
    exact absurd h (by decide)
  · rw [if_neg h]
    exact ⟨fun _ => h, fun _ => rfl⟩

/-- A body that the tools take is shown exactly when it has no bare sentinel. -/
theorem shown_of_checkBody {body : Text} (h : checkBody body = true) :
    Inject.scrubForInject body = body ↔ ¬ BareSentinel body := by
  have hopen : fenceOpen = Inject.fenceOpen ++ [' '] := by decide
  have hclose : fenceClose = Inject.fenceClose ++ [' '] := by decide
  simp only [checkBody, Bool.and_eq_true, Bool.not_eq_true', Bool.or_eq_false_iff] at h
  obtain ⟨-, ho, hc⟩ := h
  rw [hopen] at ho
  rw [hclose] at hc
  rw [scrubForInject_eq_self_iff, Bool.or_eq_true, contains_iff_bareAt ho, contains_iff_bareAt hc]
  rfl

/-! ## What the tools write -/

/-- The tools hand on bodies that they take only. -/
theorem checkBody_of_perform {ex : Executor} {call : ToolCall} {op : StoreOp} (h : ex.dispatch call = .perform op) :
    checkBody op.body = true := by
  unfold Executor.dispatch at h
  split at h
  · unfold Executor.handleWriteFile at h
    split at h
    · split at h
      · cases h
      split at h
      · cases h
      split at h
      · cases h
      · rename_i body _ _ _ _ _ _ hbody
        have hop := Dispatch.perform.inj h
        rw [← hop, Executor.writeOf]
        split
        · simpa [StoreOp.body] using hbody
        · simpa [StoreOp.body] using hbody
    · cases h
  split at h
  · unfold Executor.handleWriteState at h
    split at h
    · split at h
      · cases h
      split at h
      · cases h
      split at h
      · cases h
      · rename_i hbody
        have hop := Dispatch.perform.inj h
        rw [← hop]
        simpa [StoreOp.body] using hbody
    · cases h
  split at h
  · unfold Executor.handleDeleteState at h
    split at h
    · split at h <;> cases h
    · cases h
  · cases h

theorem newline_normalizeDisplayName (raw : Text) : '\n' ∉ normalizeDisplayName raw := by
  intro h
  have hmem := (List.mem_filter.mp (List.mem_of_mem_take h)).1
  have := (List.mem_filter.mp hmem).2
  revert this
  decide

/-- Every value that the tools put into a frontmatter is on one line, when the login of the speaker is. -/
theorem newline_of_perform {R : Rfc3339} {ex : Executor} {call : ToolCall} {op : StoreOp} (hlogin : '\n' ∉ ex.speakerLogin)
    (h : ex.dispatch call = .perform op) (now : Instant) (prior : Option Text) {v : Text}
    (hv : (op.frontmatter R now prior).username = some v ∨ (op.frontmatter R now prior).displayName = some v ∨
      (op.frontmatter R now prior).createdBy = some v) : '\n' ∉ v := by
  -- what a file said before is clean, since it was parsed
  have hprior : ∀ fm, frontmatter? R prior = some fm → ∀ w, fm.username = some w ∨ fm.displayName = some w ∨
      fm.createdBy = some w → '\n' ∉ w := by
    intro fm hfm w hw
    obtain ⟨hu, hd, hc⟩ := clean_frontmatter hfm
    rcases hw with hw | hw | hw
    · exact (hu w hw).1.2
    · exact (hd w hw).1.2
    · exact (hc w hw).1.2
  have hwrite : ∀ kind body (login name : Option Text), (∀ w, login = some w → '\n' ∉ w) →
      op = .write kind body login name → '\n' ∉ v := by
    rintro kind body login name hlogin rfl
    cases kind with
    | user userId =>
      simp only [StoreOp.frontmatter, identity_user, Option.or_eq_some_iff, Option.bind_eq_some_iff] at hv
      rcases hv with (hu | ⟨-, fm, hfm, hu⟩) | (hn | ⟨-, fm, hfm, hn⟩) | hc
      · exact hlogin v (mem_nonempty.mp hu).1
      · exact hprior fm hfm v (.inl hu)
      · obtain ⟨hn, -⟩ := mem_nonempty.mp hn
        obtain ⟨raw, -, rfl⟩ := Option.map_eq_some_iff.mp hn
        exact newline_normalizeDisplayName raw
      · exact hprior fm hfm v (.inr (.inl hn))
      · cases hc
    | soul | lore | state => simp [StoreOp.frontmatter, identity] at hv
  have hcases := dispatch_cases ex call
  rw [h] at hcases
  cases hcases with
  | file path target body _ _ =>
    by_cases hown : target.toKind = .user ex.speakerUserId.text
    · refine hwrite target.toKind body (some ex.speakerLogin) (some ex.speakerDisplayName) ?_ (if_pos hown)
      rintro w ⟨⟩
      exact hlogin
    · exact hwrite target.toKind body none none (by simp) (if_neg hown)
  | note raw slug body _ =>
    simp only [StoreOp.frontmatter, creatorOf_eq, nonempty_none, Option.none_or, Option.or_eq_some_iff,
      Option.bind_eq_some_iff, reduceCtorEq, false_or] at hv
    rcases hv with ⟨fm, hfm, hc⟩ | ⟨-, hc⟩
    · exact hprior fm hfm v (.inr (.inr hc))
    · cases hc
      exact (clean_userId ex.speakerUserId).2

/-! ## The theorem -/

/-- A body that is taken is shown exactly when it has no bare sentinel. So is a file that the tools wrote, in any later prompt
that reads it as they left it. -/
theorem accepted_is_shown_iff (R : Rfc3339) :
    (∀ body, checkBody body = true → (Inject.scrubForInject body = body ↔ ¬ BareSentinel body)) ∧
      ∀ (ex : Executor) (call : ToolCall) (op : StoreOp) (d d' later : Disk) (io : Io) (now : Instant)
        (file : MemoryFile), '\n' ∉ ex.speakerLogin → FourDigitYear io.now → ex.dispatch call = .perform op →
        op.run R d io = (d', .ok ()) → later.files.lookup op.kind = d'.files.lookup op.kind →
        later.readKind R op.kind now = some file →
        file.body = op.body ∧ (Inject.scrubForInject file.body = op.body ↔ ¬ BareSentinel op.body) := by
  refine ⟨fun body h => shown_of_checkBody h, ?_⟩
  intro ex call op d d' later io now file hlogin hnow hdispatch hrun hlater hread
  have hcheck := checkBody_of_perform hdispatch
  have hop : ∀ slug, op ≠ .deleteState slug := by
    rintro slug rfl
    have hcases := dispatch_cases ex call
    rw [hdispatch] at hcases
    generalize hd : Dispatch.perform (.deleteState slug) = out at hcases
    cases hcases with
    | answered | note | owner => cases hd
    | file path target body _ _ =>
      rw [Dispatch.perform.injEq, Executor.writeOf] at hd
      split at hd <;> cases hd
  obtain ⟨-, raw, hprep, rfl⟩ := run_ok hop hrun
  obtain ⟨rfl, -⟩ := prepare_ok hprep
  have hbody : file.body = op.body := by
    rw [Disk.readKind, hlater, lookup_put, if_pos rfl] at hread
    dsimp only at hread
    split at hread
    · rename_i fm body hparse
      cases hread
      exact body_of_parse_emit (by rwa [frontmatter_updatedAt])
        (fun v hv => newline_of_perform hlogin hdispatch io.now _ hv) hparse
    · cases hread
  rw [hbody]
  exact ⟨rfl, shown_of_checkBody hcheck⟩

/-! ### A note of a user -/

/-- The write of a note in an evening, and the file it leaves. -/
def todoOp (body : Text) : StoreOp := .writeState (.state "todo".toList) body (some "10".toList) none

def todoFile (body : Text) : MemoryFile := ⟨.state "todo".toList, ⟨evening, none, none, some "10".toList⟩, body⟩

theorem accepted_is_shown_milk :
    Inject.scrubForInject "buy milk".toList = "buy milk".toList ∧
      Inject.scrubForInject (todoFile "buy milk".toList).body = "buy milk".toList := by
  have hplain : ¬ BareSentinel "buy milk".toList := not_bareSentinel (by decide)
  refine ⟨((accepted_is_shown_iff .sample).1 "buy milk".toList (by rfl)).mpr hplain, ?_⟩
  have hrun : ((todoOp "buy milk".toList).run .sample emptyDisk eveningIo).2.isOk = true := by rfl
  have hread : ((todoOp "buy milk".toList).run .sample emptyDisk eveningIo).1.readKind .sample (.state "todo".toList) evening =
      some (todoFile "buy milk".toList) := by rfl
  exact ((accepted_is_shown_iff .sample).2 alice (writeStateCall "todo".toList "buy milk".toList) (todoOp "buy milk".toList)
    emptyDisk _ _ eveningIo evening (todoFile "buy milk".toList) (by decide) (by decide) (by rfl)
    (eq_of_isOk hrun) rfl hread).2.mpr hplain

/-- A note with a sentinel before a colon is taken and written, and the prompt says that it is corrupt. -/
theorem note_with_sentinel_replaced :
    checkBody "see <<<FILE: soul".toList = true ∧
      alice.dispatch (writeStateCall "todo".toList "see <<<FILE: soul".toList) =
        .perform (todoOp "see <<<FILE: soul".toList) ∧
      ((todoOp "see <<<FILE: soul".toList).run .sample emptyDisk eveningIo).2.isOk = true ∧
      ((todoOp "see <<<FILE: soul".toList).run .sample emptyDisk eveningIo).1.readKind .sample (.state "todo".toList) evening =
        some (todoFile "see <<<FILE: soul".toList) ∧
      Inject.scrubForInject "see <<<FILE: soul".toList = "<corrupt: rejected>".toList := by
  decide

end Twitch1337.Memory
