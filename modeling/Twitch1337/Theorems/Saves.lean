import Twitch1337.Lemmas.History
import Twitch1337.Theorems.ReadBack

/-!
# What a save of the dashboard replaces

A save checks its token under the lock of the file, gives the lock back, and writes under it again. So it replaces the version
of its token, unless another write comes in between: of that the code says that it is accepted.
-/

namespace Twitch1337.Memory

open Chronicle Pool

variable {R : Rfc3339} {d : Disk} {w w' : World} {p : Nat} {io : Io} {request : Request} {s s' : Point}

/-! ## Saves on their way -/

/-- Where a save can be, and what the log says of it there: after the check of its token the check, after its write the write. -/
def SaveAt (log : List Obs) (p : Nat) (by_ : UserId) (kind : FileKind) (body : Text) (token : Mtime) (o : FrontmatterOverride) :
    Point → Prop
  | .guarding src k b expected o' => src = .save by_ token ∧ k = kind ∧ b = body ∧ expected = some token ∧ o' = o
  | .entering src op => src = .save by_ token ∧ op = guardedOp kind body o ∧ .checked p kind token ∈ log
  | .creating src op _ => src = .save by_ token ∧ op = guardedOp kind body o ∧ .checked p kind token ∈ log
  | .committing src op _ _ => src = .save by_ token ∧ op = guardedOp kind body o ∧ .checked p kind token ∈ log
  | .stating src _ =>
    src = .save by_ token ∧ ∃ before after, .wrote p (.save by_ token) (guardedOp kind body o) before after ∈ log
  | .ended reply =>
    ∀ m, reply = .saved (.ok (.written m)) →
      ∃ before after, .wrote p (.save by_ token) (guardedOp kind body o) before after ∈ log
  | _ => False

/-- Where the operation of a process comes from. -/
def Point.source : Point → Option Source
  | calling ex _ => some (.tool ex)
  | owning ex _ => some (.tool ex)
  | asking ex _ => some (.tool ex)
  | undoing ex => some (.tool ex)
  | guarding src .. => some src
  | entering src _ => some src
  | creating src .. => some src
  | committing src .. => some src
  | stating src _ => some src
  | _ => none

/-- What a process has behind it. -/
structure Behind (w : World) (p : Nat) (q : Process) : Prop where
  source : ∀ src, q.point.source = some src → q.request.source = some src
  save : ∀ by_ kind body token o, q.request = .save by_ kind body token o → SaveAt w.log p by_ kind body token o q.point
  view : ∀ kind body, q.point = .viewed kind body → .opened p kind body ∈ w.log

@[simp] theorem guardedOp_kind (kind : FileKind) (body : Text) (o : FrontmatterOverride) :
    (guardedOp kind body o).kind = kind := by
  cases kind <;> rfl

/-- What a process has behind it stays behind it. -/
theorem SaveAt.mono {log log' : List Obs} {by_ : UserId} {kind : FileKind} {body : Text} {token : Mtime}
    {o : FrontmatterOverride} (h : SaveAt log p by_ kind body token o s) (hl : ∀ x ∈ log, x ∈ log') :
    SaveAt log' p by_ kind body token o s := by
  cases s with
  | entering src op => exact ⟨h.1, h.2.1, hl _ h.2.2⟩
  | creating src op raw => exact ⟨h.1, h.2.1, hl _ h.2.2⟩
  | committing src op raw isNew => exact ⟨h.1, h.2.1, hl _ h.2.2⟩
  | stating src k =>
    obtain ⟨hsrc, before, after, hw⟩ := h
    exact ⟨hsrc, before, after, hl _ hw⟩
  | ended reply =>
    intro m hm
    obtain ⟨before, after, hw⟩ := h m hm
    exact ⟨before, after, hl _ hw⟩
  | _ => exact h

theorem Behind.mono {q : Process} (h : Behind w p q) (hl : ∀ x ∈ w.log, x ∈ w'.log) : Behind w' p q :=
  ⟨h.source, fun by_ kind body token o hr => (h.save by_ kind body token o hr).mono hl,
    fun kind body hv => hl _ (h.view kind body hv)⟩

theorem finish_source (src : Source) (kind : FileKind) :
    (src.finish kind (.ok ())).source = none ∨ (src.finish kind (.ok ())).source = some src := by
  rcases finish_ok src kind with ⟨_, h⟩ | ⟨_, reply, _, h⟩
  · exact .inr (by rw [h]; rfl)
  · exact .inl (by rw [h]; rfl)

/-- A step keeps to the source. -/
theorem Move.source (h : Move R w p io s w' s') : s'.source = none ∨ s'.source = s.source := by
  cases h with
  | removes src slug valid => exact finish_source src _
  | writes src op raw isNew => exact finish_source src _
  | prepares src op raw accepted write prepared => split <;> exact .inr rfl
  | _ => first | exact .inr rfl | exact .inl rfl

/-- Only the first read of a page leads to its second. -/
theorem Move.viewed (h : Move R w p io s w' s') {kind : FileKind} {body : Text} (hv : s' = .viewed kind body) :
    .opened p kind body ∈ w'.log := by
  have hfinish : ∀ (src : Source) (k : FileKind), src.finish k (.ok ()) ≠ .viewed kind body := by
    intro src k he
    rcases finish_ok src k with ⟨_, h⟩ | ⟨_, reply, _, h⟩ <;> (rw [h] at he; cases he)
  cases h with
  | views k b read =>
    cases hv
    exact List.mem_append_right _ (List.mem_singleton_self _)
  | removes src slug valid => exact absurd hv (hfinish src _)
  | writes src op raw isNew => exact absurd hv (hfinish src _)
  | prepares src op raw accepted write prepared => split at hv <;> cases hv
  | _ => cases hv

/-- A version of the lore. -/
def loreVersion (body : Text) (mtime : Mtime) : File := ⟨some (emit .sample ⟨evening, none, none, none⟩ body), mtime⟩

def loreDisk : Disk := ⟨(∅ : Table FileKind File).insert .lore (loreVersion "old".toList 1), 1⟩

def owner : UserId := ⟨"1".toList, by decide⟩

def moderator : Executor := ⟨⟨"2".toList, by decide⟩, "mod".toList, "Mod".toList, .moderator, 5, 0⟩

/-- A call of `write_file`. -/
def writeFile (path body : Text) : ToolCall :=
  ⟨"write_file".toList, ((∅ : Table Text Text).insert "path".toList path).insert "body".toList body⟩

/-- The owner opens the lore and saves it; after the check a tool writes it. -/
def lateSave : List TrafficEvent :=
  [.spawn (.view .lore), .step 0 eveningIo, .step 0 eveningIo,
    .spawn (.save owner .lore "mine".toList 1 ⟨none, none, none⟩), .step 1 eveningIo,
    .spawn (.call 0 (writeFile "LORE.md".toList "theirs".toList)), .step 2 eveningIo, .step 2 eveningIo, .step 2 eveningIo,
    .step 2 eveningIo, .step 1 eveningIo, .step 1 eveningIo, .step 1 eveningIo]

theorem lateSave_runs :
    ((Machine.run (Traffic.step .sample) (Traffic.start loreDisk [moderator]) lateSave).map fun v =>
        (v.1.log, (v.2[1]?).bind (·.point.reply))) =
      some ([.opened 0 .lore "old".toList, .shown 0 .lore "old".toList 1, .checked 1 .lore 1, .granted 2 0,
        .wrote 2 (.tool 0) (.write .lore "theirs".toList none none) (some (loreVersion "old".toList 1))
          (loreVersion "theirs".toList 2),
        .wrote 1 (.save owner 1) (.write .lore "mine".toList none none) (some (loreVersion "theirs".toList 2))
          (loreVersion "mine".toList 3)],
        some (.saved (.ok (.written 3)))) := by
  decide +kernel

end Twitch1337.Memory
