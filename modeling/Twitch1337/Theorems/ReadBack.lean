import Twitch1337.Lemmas.Store

/-!
# What is written is read back

After a write that reports success, the file reads as the body and the identity that the write stored, exactly when the values
it was given are clean: on one line, without blanks around them. Nothing checks the login and the creator that the dashboard
sends, and a name may end in a blank after it was cut to its 64 characters.
-/

namespace Twitch1337.Memory

open Chrono

variable {R : Rfc3339}

/-! ## Calls -/

/-- The calls that write. -/
inductive Call where
  | write (kind : FileKind) (body : Text) (username displayName : Option Text)
  | writeState (kind : FileKind) (body : Text) (creator : Option Text)
  | writeWithGuard (kind : FileKind) (body : Text) (expected : Option Mtime) (o : FrontmatterOverride)

/-- The write of a call. -/
def Call.op : Call → StoreOp
  | write kind body username displayName => .write kind body username displayName
  | writeState kind body creator => .writeState kind body creator none
  | writeWithGuard kind body _ o => guardedOp kind body o

/-- The disk after a call, and whether it reports success. -/
def Call.run (R : Rfc3339) (d : Disk) (io : Io) : Call → Disk × Bool
  | write kind body username displayName =>
    let (d', result) := (StoreOp.write kind body username displayName).run R d io
    (d', result.isOk)
  | writeState kind body creator =>
    let (d', result) := (StoreOp.writeState kind body creator none).run R d io
    (d', result.isOk)
  | writeWithGuard kind body expected o =>
    match Memory.writeWithGuard R d io kind body expected o with
    | (d', .ok (.written _)) => (d', true)
    | (d', _) => (d', false)

theorem op_ne_deleteState (call : Call) (slug : Text) : call.op ≠ .deleteState slug := by
  cases call with
  | write =>
    intro h
    cases h
  | writeState =>
    intro h
    cases h
  | writeWithGuard kind body expected o =>
    cases kind <;> exact fun h => by cases h

/-- A guarded write that reports success has run its write to the end. -/
theorem run_of_written {d d' : Disk} {io : Io} {kind : FileKind} {body : Text} {expected : Option Mtime}
    {o : FrontmatterOverride} {m : Mtime} (h : writeWithGuard R d io kind body expected o = (d', .ok (.written m))) :
    (guardedOp kind body o).run R d io = (d', .ok ()) := by
  unfold writeWithGuard at h
  split at h
  · rename_i outcome hc
    rw [Prod.mk.injEq] at h
    exact absurd (h.2 ▸ hc) (checkToken_ne_written m)
  · split at h
    · cases h
    · rename_i d'' hrun
      rw [Prod.mk.injEq] at h
      rw [hrun, h.1]

theorem eq_of_isOk {out : Disk × Except WriteError Unit} (h : out.2.isOk = true) : out = (out.1, .ok ()) := by
  obtain ⟨d', result⟩ := out
  cases result with
  | error e => cases h
  | ok u => rfl

/-- A call that reports success has run its write to the end. -/
theorem run_op_of_call {d : Disk} {io : Io} {call : Call} (h : (call.run R d io).2 = true) :
    call.op.run R d io = ((call.run R d io).1, .ok ()) := by
  cases call with
  | write kind body username displayName =>
    simp only [Call.run, Call.op] at h ⊢
    exact eq_of_isOk h
  | writeState kind body creator =>
    simp only [Call.run, Call.op] at h ⊢
    exact eq_of_isOk h
  | writeWithGuard kind body expected o =>
    simp only [Call.run, Call.op] at h ⊢
    cases hw : Memory.writeWithGuard R d io kind body expected o with
    | mk d' result =>
      rw [hw] at h
      cases result with
      | error e => cases h
      | ok outcome =>
        cases outcome with
        | conflict body mtime => cases h
        | written m => exact run_of_written hw

/-! ## Identities -/

/-- What the frontmatter of a file says before a call. -/
def Disk.prior (R : Rfc3339) (d : Disk) (kind : FileKind) (field : Frontmatter → Option Text) : Option Text :=
  (frontmatter? R (d.read kind)).bind field

/-- The frontmatter that is to be read after a write: on a user file the login and the name that the write is given, if they
are not empty, else those of the file; on a state file the override, else the creator there is, else the writer. -/
def StoreOp.expected (R : Rfc3339) (d : Disk) (now : Instant) (op : StoreOp) : Frontmatter :=
  match op with
  | write (.user userId) _ username displayName =>
    ⟨toMillis now, (nonempty username).or (d.prior R (.user userId) (·.username)),
      (nonempty (displayName.map normalizeDisplayName)).or (d.prior R (.user userId) (·.displayName)), none⟩
  | write (.state slug) .. => ⟨toMillis now, none, none, d.prior R (.state slug) (·.createdBy)⟩
  | writeState kind _ creator override_ =>
    ⟨toMillis now, none, none, (nonempty override_).or ((d.prior R kind (·.createdBy)).or (nonempty creator))⟩
  | _ => ⟨toMillis now, none, none, none⟩

/-- The values that a write is given, and stores, are clean. `write` forgets the creator of a state file. -/
def StoreOp.CleanInput (R : Rfc3339) (d : Disk) : StoreOp → Prop
  | write (.user _) _ username displayName =>
    (∀ v ∈ nonempty username, Clean v) ∧ ∀ v ∈ nonempty (displayName.map normalizeDisplayName), Clean v
  | write (.state slug) .. => d.prior R (.state slug) (·.createdBy) = none
  | writeState kind _ creator override_ =>
    (∀ v ∈ nonempty override_, Clean v) ∧
      (nonempty override_ = none → d.prior R kind (·.createdBy) = none → ∀ v ∈ nonempty creator, Clean v)
  | _ => True

/-- A value from a file that was read is clean, and not empty. -/
theorem clean_prior (R : Rfc3339) (d : Disk) (kind : FileKind) :
    (∀ v ∈ d.prior R kind (·.username), Clean v ∧ v ≠ []) ∧ (∀ v ∈ d.prior R kind (·.displayName), Clean v ∧ v ≠ []) ∧
      ∀ v ∈ d.prior R kind (·.createdBy), Clean v ∧ v ≠ [] := by
  unfold Disk.prior
  cases h : frontmatter? R (d.read kind) with
  | none => simp
  | some fm => exact clean_frontmatter h

/-- Leaving out empty values changes nothing where the file had none. -/
theorem nonempty_or {a b : Option Text} (hb : ∀ v ∈ b, v ≠ []) : nonempty ((nonempty a).or b) = (nonempty a).or b := by
  cases ha : nonempty a with
  | some v => exact nonempty_some (mem_nonempty.mp ha).2
  | none =>
    cases b with
    | none => rfl
    | some v => exact nonempty_some (hb v rfl)

/-- With clean values a write stores a clean frontmatter, which is the expected one but for empty values. -/
theorem clean_of_cleanInput {d : Disk} (now : Instant) {op : StoreOp} (h : op.CleanInput R d) :
    let fm := op.frontmatter R now (d.read op.kind)
    fm.Clean ∧ op.expected R d now =
      ⟨toMillis now, nonempty fm.username, nonempty fm.displayName, nonempty fm.createdBy⟩ := by
  intro fm
  cases op with
  | write kind body username displayName =>
    cases kind with
    | soul => exact ⟨⟨by simp [fm, StoreOp.frontmatter, identity], by simp [fm, StoreOp.frontmatter, identity],
        by simp [fm, StoreOp.frontmatter]⟩, rfl⟩
    | lore => exact ⟨⟨by simp [fm, StoreOp.frontmatter, identity], by simp [fm, StoreOp.frontmatter, identity],
        by simp [fm, StoreOp.frontmatter]⟩, rfl⟩
    | state slug =>
      refine ⟨⟨by simp [fm, StoreOp.frontmatter, identity], by simp [fm, StoreOp.frontmatter, identity],
        by simp [fm, StoreOp.frontmatter]⟩, ?_⟩
      simp only [StoreOp.expected, fm, StoreOp.frontmatter, identity, nonempty_none]
      rw [show d.prior R (.state slug) (·.createdBy) = none from h]
    | user userId =>
      obtain ⟨hu, hn, _⟩ := clean_prior R d (.user userId)
      have hfm : fm = ⟨now, (nonempty username).or (d.prior R (.user userId) (·.username)),
          (nonempty (displayName.map normalizeDisplayName)).or (d.prior R (.user userId) (·.displayName)), none⟩ := by
        simp only [fm, StoreOp.frontmatter, StoreOp.kind, identity_user, Disk.prior]
      have hor : ∀ {a b : Option Text}, (∀ v ∈ nonempty a, Clean v) → (∀ v ∈ b, Clean v ∧ v ≠ []) →
          ∀ v ∈ nonempty ((nonempty a).or b), Clean v := by
        intro a b ha hb v hv
        rw [nonempty_or fun v hv => (hb v hv).2, Option.mem_def, Option.or_eq_some_iff] at hv
        rcases hv with hv | ⟨_, hv⟩
        · exact ha v hv
        · exact (hb v hv).1
      rw [hfm]
      refine ⟨⟨hor h.1 hu, hor h.2 hn, by simp⟩, ?_⟩
      dsimp only
      rw [nonempty_or fun v hv => (hu v hv).2, nonempty_or fun v hv => (hn v hv).2]
      rfl
  | writeState kind body creator override_ =>
    obtain ⟨_, _, hc⟩ := clean_prior R d kind
    have hfm : fm = ⟨now, none, none, (nonempty override_).or ((d.prior R kind (·.createdBy)).or creator)⟩ := by
      simp only [fm, StoreOp.frontmatter, StoreOp.kind, creatorOf_eq, Disk.prior]
    have hexp : nonempty ((nonempty override_).or ((d.prior R kind (·.createdBy)).or creator)) =
        (nonempty override_).or ((d.prior R kind (·.createdBy)).or (nonempty creator)) := by
      cases ho : nonempty override_ with
      | some v => exact nonempty_some (mem_nonempty.mp ho).2
      | none =>
        cases hp : d.prior R kind (·.createdBy) with
        | none => rfl
        | some v => exact nonempty_some (hc v hp).2
    rw [hfm]
    refine ⟨⟨by simp, by simp, ?_⟩, ?_⟩
    · intro v hv
      dsimp only at hv
      rw [hexp, Option.mem_def, Option.or_eq_some_iff, Option.or_eq_some_iff] at hv
      rcases hv with hv | ⟨ho, hv | ⟨hp, hv⟩⟩
      · exact h.1 v hv
      · exact (hc v hv).1
      · exact h.2 ho hp v hv
    · dsimp only
      rw [hexp]
      rfl
  | deleteState slug => exact ⟨⟨by simp [fm, StoreOp.frontmatter], by simp [fm, StoreOp.frontmatter],
      by simp [fm, StoreOp.frontmatter]⟩, rfl⟩

/-- When the expected frontmatter has clean values only, the input was clean. -/
theorem cleanInput_of_expected {d : Disk} {now : Instant} {op : StoreOp} {body raw : Text}
    (hraw : raw = emit R (op.frontmatter R now (d.read op.kind)) op.body)
    (h : parse R raw = .ok (op.expected R d now, body)) (ht : FourDigitYear now) : op.CleanInput R d := by
  obtain ⟨hu, hn, hc⟩ := clean_of_parse h
  cases op with
  | write kind stored username displayName =>
    cases kind with
    | soul => trivial
    | lore => trivial
    | state slug =>
      -- what `write` stores has no creator, whatever the file had
      have hempty : (⟨now, none, none, none⟩ : Frontmatter).Clean := ⟨by simp, by simp, by simp⟩
      have hp := parse_emit (R := R) hempty ht stored
      have hfm : (StoreOp.write (.state slug) stored username displayName).frontmatter R now
          (d.read (.state slug)) = ⟨now, none, none, none⟩ := rfl
      simp only [StoreOp.kind, StoreOp.body, hfm] at hraw
      rw [hraw, hp, Except.ok.injEq, Prod.mk.injEq] at h
      exact (congrArg Frontmatter.createdBy h.1).symm
    | user userId =>
      refine ⟨fun v hv => (hu v ?_).1, fun v hv => (hn v ?_).1⟩
      · rw [StoreOp.expected, Option.mem_def, hv, Option.some_or]
      · rw [StoreOp.expected, Option.mem_def, hv, Option.some_or]
  | writeState kind body creator override_ =>
    refine ⟨fun v hv => (hc v ?_).1, fun ho hp v hv => (hc v ?_).1⟩
    · rw [StoreOp.expected, Option.mem_def, hv, Option.some_or]
    · rw [StoreOp.expected, Option.mem_def, ho, hp, hv]
      rfl
  | deleteState slug => trivial

/-! ## The theorem -/

/-- After a call that reports success, at a time in the years from 0 to 9999, the file reads as the body and the expected
frontmatter (up to milliseconds) exactly when the values that the call was given and stores are clean. -/
theorem reads_back_iff (R : Rfc3339) (d : Disk) (io : Io) (call : Call) (hnow : FourDigitYear io.now)
    (hok : (call.run R d io).2 = true) (now : Instant) :
    (call.run R d io).1.readKind R call.op.kind now =
        some ⟨call.op.kind, call.op.expected R d io.now, call.op.body⟩ ↔
      call.op.CleanInput R d := by
  obtain ⟨_, raw, hprep, hput⟩ := run_ok (op_ne_deleteState call) (run_op_of_call hok)
  obtain ⟨hraw, _⟩ := prepare_ok hprep
  rw [hput, readKind_put]
  constructor
  · intro h
    split at h
    · rename_i fm body hp
      rw [Option.some.injEq, MemoryFile.mk.injEq] at h
      exact cleanInput_of_expected hraw (h.2.1 ▸ hp) hnow
    · cases h
  · intro h
    obtain ⟨hclean, hexp⟩ := clean_of_cleanInput io.now h
    have hp := parse_emit (R := R) hclean (by rwa [frontmatter_updatedAt]) call.op.body
    rw [hraw, hp, hexp, frontmatter_updatedAt]

/-! ### A user file from the dashboard -/

def emptyDisk : Disk := ⟨∅, 0⟩

/-- Nothing fails, in the evening of that day. -/
def eveningIo : Io := ⟨evening, .default, true, true, true⟩

/-- The dashboard saves a user file that is not there yet, with a login. -/
def saveLogin (login : Text) : Call :=
  .writeWithGuard (.user "12345".toList) "likes trains".toList (some 0) ⟨some login, some "Alice".toList, none⟩

theorem reads_back_alice :
    ((saveLogin "alice".toList).run .sample emptyDisk eveningIo).1.readKind .sample (.user "12345".toList) evening =
      some ⟨.user "12345".toList, ⟨evening, some "alice".toList, some "Alice".toList, none⟩, "likes trains".toList⟩ :=
  (reads_back_iff .sample emptyDisk eveningIo (saveLogin "alice".toList) (by decide) (by decide +kernel) evening).mpr
    ⟨by decide +kernel, by decide +kernel⟩

/-- A login with a line break in it is stored, and the file cannot be read any more. -/
theorem login_breaks_file :
    ((saveLogin "alice\nupdated_at: x".toList).run .sample emptyDisk eveningIo).2 = true ∧
      ((saveLogin "alice\nupdated_at: x".toList).run .sample emptyDisk eveningIo).1.readKind .sample
        (.user "12345".toList) evening = none := by
  decide +kernel

end Twitch1337.Memory
