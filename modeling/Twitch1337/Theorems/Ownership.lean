import Twitch1337.Lemmas.Turns
import Twitch1337.Theorems.Saves

/-!
# Who may delete a note

A note belongs to the one who created it, until a save of the dashboard names another. A regular speaker who deletes a note is
its owner, as long as the note is still the one whose creator the deletion looked at, and every note that a tool or a creation
of the dashboard writes over names its creator. The deletion looks at the creator before it takes the lock, so that it may
remove a note that was deleted and created anew in between.
-/

namespace Twitch1337.Memory

open Chronicle Chrono Pool RustStr

variable {R : Rfc3339} {executors : List Executor} {w w' : World} {p : Nat} {io : Io} {request : Request} {s s' : Point}

/-! ## Owners by the history -/

/-- The user behind an operation. -/
def Source.author (executors : List Executor) : Source → Option Text
  | .tool ex => (executors[ex]?).map (·.speakerUserId.text)
  | .save by_ _ => some by_.text
  | .create by_ => some by_.text
  | .delete by_ => some by_.text
  | .api _ => none

/-- The owner that a save names. -/
def StoreOp.reassigned : StoreOp → Option Text
  | .writeState _ _ _ override_ => nonempty override_
  | _ => none

/-- What an entry makes of the owner of a note: the first write makes one, a later write only when it names one, and a removal
leaves none. -/
def Obs.entitles (executors : List Executor) (slug : Text) (owner : Option Text) : Obs → Option Text
  | wrote _ src op before _ =>
    if op.kind = .state slug then
      op.reassigned.or (match before with
        | none => src.author executors
        | some _ => owner)
    else owner
  | removed _ _ kind _ => if kind = .state slug then none else owner
  | _ => owner

/-- The owner of a note after the entries of a log. -/
def entitled (R : Rfc3339) (executors : List Executor) (d : Disk) (slug : Text) (log : List Obs) : Option Text :=
  replay (Obs.entitles executors slug) (creatorIn R (d.files.lookup (.state slug))) log

/-- Who is entitled after one more note. -/
theorem entitled_snoc (R : Rfc3339) (executors : List Executor) (d : Disk) (slug : Text) (log : List Obs) (o : Obs) :
    entitled R executors d slug (log ++ [o]) = o.entitles executors slug (entitled R executors d slug log) :=
  replay_snoc _ log o

/-- What does not change a note leaves its owner. -/
theorem entitles_of_not_changed {o : Obs} {slug : Text} (h : o.changed ≠ some (.state slug)) (owner : Option Text) :
    o.entitles executors slug owner = owner := by
  cases o with
  | wrote q src op old new => exact if_neg fun hk => h (congrArg some hk)
  | removed q src k old => exact if_neg fun hk => h (congrArg some hk)
  | _ => rfl

/-! ## Conditions -/

/-- What a deletion saw in a note when it looked for the owner. -/
def Obs.judgement (p : Nat) (slug : Text) : Obs → Option (Option Text)
  | judged p' slug' owner => if p' = p ∧ slug' = slug then some owner else none
  | _ => none

/-- Whether a request is a bare call of the store. -/
def Request.isBare : Request → Bool
  | api _ => true
  | apiGuarded .. => true
  | _ => false

/-- The creator that a save puts into a note. -/
def Request.namedCreator : Request → Option Text
  | save _ (.state _) _ _ o => nonempty o.createdBy
  | _ => none

/-- The requests of the dashboard and of the model, with creators that are on one line, without blanks around. -/
def Request.Proper (request : Request) : Prop := request.isBare = false ∧ ∀ v ∈ request.namedCreator, Clean v

instance (request : Request) : Decidable request.Proper := inferInstanceAs (Decidable (_ ∧ _))

/-- The turn and the slug of a deletion that is about to remove its note. -/
def Point.deletion : Point → Option (Nat × Text)
  | entering (.tool ex) (.deleteState slug) => some (ex, slug)
  | _ => none

/-- The file that a tool or a creation of the dashboard is about to write. -/
def Point.overwritten : Point → Option FileKind
  | committing _ (.writeState kind _ (some _) _) _ _ => some kind
  | _ => none

/-- A note that a regular speaker is about to remove has the creator that the deletion saw, and a note that a tool or a
creation is about to write over has a creator. -/
def Undisturbed (R : Rfc3339) (w : World) (p : Nat) (q : Process) (io : Io) : Prop :=
  FourDigitYear io.now ∧
    (∀ del ∈ q.point.deletion, ∀ e ∈ w.executors[del.1]?, e.speakerRole = .regular →
      w.disk.files.lookup (.state del.2) = none ∨
        ∀ o ∈ w.log, ∀ owner ∈ o.judgement p del.2, creatorIn R (w.disk.files.lookup (.state del.2)) = owner) ∧
    ∀ kind ∈ q.point.overwritten,
      w.disk.files.lookup kind = none ∨ (creatorIn R (w.disk.files.lookup kind)).isSome = true

instance (R : Rfc3339) (w : World) (p : Nat) (q : Process) (io : Io) : Decidable (Undisturbed R w p q io) :=
  inferInstanceAs (Decidable (_ ∧ _ ∧ _))

/-! ## Operations on their way -/

/-- Where the creator of an operation comes from. -/
def Authored (executors : List Executor) (src : Source) : StoreOp → Prop
  | .write kind .. => kind.isState = false
  | .writeState _ _ creator override_ =>
    (override_ = none ∧ creator = src.author executors ∧ ∃ id : UserId, creator = some id.text) ∨
      (creator = none ∧ ∀ v ∈ nonempty override_, Clean v)
  | .deleteState _ => True

/-- A deletion has looked at the creator of its note, and its speaker may delete a note of that creator. -/
def Judged (executors : List Executor) (log : List Obs) (p ex : Nat) (slug : Text) : Prop :=
  ∃ owner, .judged p slug owner ∈ log ∧ ∀ e, executors[ex]? = some e → e.mayDelete owner = true

/-- The file that is about to be written was put together from the one there is. -/
def Prepared (R : Rfc3339) (w : World) (op : StoreOp) (raw : Text) : Prop :=
  (∀ slug, op ≠ .deleteState slug) ∧
    ∃ now, FourDigitYear now ∧ raw = emit R (op.frontmatter R now (w.disk.read op.kind)) op.body

/-- What an operation on its way was begun with. -/
def OnBehalf (R : Rfc3339) (executors : List Executor) (w : World) (p : Nat) : Point → Prop
  | .asking ex op => Authored executors (.tool ex) op ∧ ∀ slug, op = .deleteState slug → Judged executors w.log p ex slug
  | .guarding src kind _ _ o =>
    (∀ ex, src ≠ .tool ex) ∧ ∀ slug, kind = .state slug → ∀ v ∈ nonempty o.createdBy, Clean v
  | .entering src op =>
    Authored executors src op ∧ ∀ ex slug, src = .tool ex → op = .deleteState slug → Judged executors w.log p ex slug
  | .creating src op raw => Authored executors src op ∧ Prepared R w op raw
  | .committing src op raw _ => Authored executors src op ∧ Prepared R w op raw
  | _ => True

/-- The id of a user is one line, without blanks around. -/
theorem clean_userId (id : UserId) : Clean id.text := by
  have hall := List.all_eq_true.mp id.valid.2
  have hplain : ∀ c, c.isAlphanum = true → isWhitespace c = false ∧ c ≠ '\n' := by
    intro c hc
    exact ascii_induction (P := fun c => c.isAlphanum = true → isWhitespace c = false ∧ c ≠ '\n') (by decide)
      (ascii_of_isAlphanum hc) hc
  refine ⟨⟨fun c hc => ?_, fun c hc => ?_⟩, fun hn => ?_⟩
  · exact (hplain c (hall c (List.mem_of_mem_head? hc))).1
  · exact (hplain c (hall c (List.mem_of_mem_getLast? hc))).1
  · exact (hplain _ (hall _ hn)).2 rfl

/-- The calls that go through to the quota are in the name of the speaker. -/
theorem dispatch_authored {e : Executor} {ex : Nat} {call : ToolCall} {op : StoreOp} (h : e.dispatch call = .perform op)
    (hid : (executors[ex]?).map (·.speakerUserId.text) = some e.speakerUserId.text) :
    Authored executors (.tool ex) op ∧ ∀ slug, op ≠ .deleteState slug := by
  have hwrite : ∀ (target : WritePath) body, Authored executors (.tool ex) (e.writeOf target.toKind body) ∧
      ∀ slug, e.writeOf target.toKind body ≠ .deleteState slug := by
    intro target body
    have hkind : target.toKind.isState = false := by cases target <;> rfl
    unfold Executor.writeOf
    split
    · exact ⟨hkind, fun slug h => by cases h⟩
    · exact ⟨hkind, fun slug h => by cases h⟩
  have hcases := dispatch_cases e call
  rw [h] at hcases
  cases hcases with
  | file path target body _ _ => exact hwrite target body
  | note raw slug body _ =>
    refine ⟨.inl ⟨rfl, hid.symm, e.speakerUserId, rfl⟩, ?_⟩
    intro slug h
    cases h

/-! ## Creators in the files -/

/-- What a note says of its creator after a write with clean values. -/
theorem creatorIn_written {d : Disk} {now : Instant} (hnow : FourDigitYear now) {kind : FileKind} {body : Text}
    {creator override_ : Option Text} (hclean : (StoreOp.writeState kind body creator override_).CleanInput R d)
    (mtime : Mtime) :
    creatorIn R (some ⟨some (emit R ((StoreOp.writeState kind body creator override_).frontmatter R now (d.read kind)) body),
        mtime⟩) =
      (nonempty override_).or ((creatorIn R (d.files.lookup kind)).or (nonempty creator)) := by
  obtain ⟨hfm, hexp⟩ := clean_of_cleanInput now hclean
  have hp := parse_emit (R := R) hfm hnow body
  have hcreated := congrArg Frontmatter.createdBy hexp
  simp only [creatorIn, Option.bind_some, frontmatter?]
  simp only [StoreOp.kind] at hp hcreated
  rw [hp]
  simp only [Option.bind_some]
  rw [← hcreated]
  rfl

/-- The owner that a write leaves is the creator in its file. -/
theorem creator_of_write {d : Disk} (hI : ∀ slug v, creatorIn R (w.disk.files.lookup (.state slug)) = some v →
      entitled R executors d slug w.log = some v)
    {src : Source} {op : StoreOp} {raw : Text} (hauth : Authored executors src op) (hprep : Prepared R w op raw)
    (hover : ∀ kind body creator override_, op = .writeState kind body (some creator) override_ →
      w.disk.files.lookup kind = none ∨ (creatorIn R (w.disk.files.lookup kind)).isSome = true)
    {slug v : Text} (hkind : op.kind = .state slug) {mtime : Mtime} (hv : creatorIn R (some ⟨some raw, mtime⟩) = some v) :
    op.reassigned.or (match w.disk.files.lookup op.kind with
      | none => src.author executors
      | some _ => entitled R executors d slug w.log) = some v := by
  obtain ⟨hne, now, hnow, rfl⟩ := hprep
  cases op with
  | write kind body username displayName =>
    rw [StoreOp.kind] at hkind
    rw [hkind] at hauth
    cases hauth
  | deleteState slug' => exact absurd rfl (hne slug')
  | writeState kind body creator override_ =>
    rw [StoreOp.kind] at hkind
    subst hkind
    rcases hauth with ⟨rfl, hsrc, id, hid⟩ | ⟨rfl, hclean⟩
    · -- a tool, or a creation
      rw [hid] at hsrc
      subst hid
      have hci : (StoreOp.writeState (.state slug) body (some id.text) none).CleanInput R w.disk := by
        refine ⟨by simp, fun _ _ u hu => ?_⟩
        rw [nonempty_some id.valid.1, Option.mem_def, Option.some.injEq] at hu
        exact hu ▸ clean_userId id
      have hw := (creatorIn_written hnow hci mtime).symm.trans hv
      simp only [nonempty_none, Option.none_or, nonempty_some id.valid.1] at hw
      simp only [StoreOp.reassigned, nonempty_none, Option.none_or, StoreOp.kind]
      rcases hover _ _ _ _ rfl with hnone | hsome
      · rw [hnone] at hw ⊢
        rw [← hsrc]
        exact hw
      · obtain ⟨u, hu⟩ := Option.isSome_iff_exists.mp hsome
        rw [hu, Option.some_or] at hw
        cases hl : w.disk.files.lookup (.state slug) with
        | none =>
          rw [hl] at hu
          cases hu
        | some file => exact hI slug v (hw ▸ hu)
    · -- a save
      have hci : (StoreOp.writeState (.state slug) body none override_).CleanInput R w.disk :=
        ⟨hclean, by simp⟩
      have hw := (creatorIn_written hnow hci mtime).symm.trans hv
      simp only [nonempty_none, Option.or_none] at hw
      simp only [StoreOp.reassigned, StoreOp.kind]
      cases ho : nonempty override_ with
      | some u =>
        rw [ho, Option.some_or] at hw
        rw [Option.some_or, hw]
      | none =>
        rw [ho, Option.none_or] at hw
        rw [Option.none_or]
        cases hl : w.disk.files.lookup (.state slug) with
        | none =>
          rw [hl] at hw
          cases hw
        | some file => exact hI slug v hw

/-! ## Steps -/

/-- A regular speaker removes a note as its owner. -/
def Obs.ByOwner (R : Rfc3339) (executors : List Executor) (d : Disk) (past : List Obs) : Obs → Prop
  | .removed _ (.tool ex) (.state slug) (some _) =>
    ∀ e, executors[ex]? = some e → e.speakerRole = .regular → entitled R executors d slug past = some e.speakerUserId.text
  | _ => True

/-- The notes name their owners, and were removed by them. -/
structure Owned (R : Rfc3339) (executors : List Executor) (d : Disk) (w : World) : Prop where
  staffed : Staffed executors w
  creators : ∀ slug v, creatorIn R (w.disk.files.lookup (.state slug)) = some v →
    entitled R executors d slug w.log = some v
  removals : InOrder (Obs.ByOwner R executors d) w.log

/-- The deletion of a regular speaker removes a note of theirs. -/
theorem byOwner_of_judged {d : Disk} (hI : Owned R executors d w) {src : Source} {slug : Text}
    (hA : OnBehalf R executors w p (.entering src (.deleteState slug)))
    (hok : Undisturbed R w p ⟨request, .entering src (.deleteState slug)⟩ io) :
    Obs.ByOwner R executors d w.log (.removed p src (.state slug) (w.disk.files.lookup (.state slug))) := by
  cases src with
  | tool ex =>
    cases hl : w.disk.files.lookup (.state slug) with
    | none => trivial
    | some file =>
      intro e he hreg
      obtain ⟨owner, hjudged, hmay⟩ := hA.2 ex slug rfl rfl
      have hsame := hI.staffed.same ex
      rw [he, Option.map_some, Option.map_eq_some_iff] at hsame
      obtain ⟨e', he', hfresh⟩ := hsame
      have hrole : e'.speakerRole = .regular := by
        change e'.fresh.speakerRole = .regular
        rw [hfresh]
        exact hreg
      have howner : owner = some e.speakerUserId.text := by
        simpa [Executor.mayDelete, hreg] using hmay e he
      rcases hok.2.1 (ex, slug) rfl e' he' hrole with hnone | hstill
      · rw [hnone] at hl
        cases hl
      · refine hI.creators slug _ ?_
        rw [hstill _ hjudged owner (by simp [Obs.judgement]), howner]
  | _ => trivial

/-- A step keeps the owners in the files those of the history. -/
theorem Move.owned {d : Disk} (h : Move R w p io s w' s') (hI : Owned R executors d w) (hA : OnBehalf R executors w p s)
    (hok : Undisturbed R w p ⟨request, s⟩ io) : Owned R executors d w' := by
  refine ⟨h.staffed hI.staffed, ?_, ?_⟩
  · intro slug v hv
    rcases h.effect with ⟨hd, new, hnew, hl⟩ | ⟨src, slug', rfl, _, rfl⟩ | ⟨src, op, raw, isNew, rfl, rfl⟩
    · rw [hd] at hv
      rw [hl, entitled, replay_quiet _ fun o ho => entitles_of_not_changed (by simp [(hnew o ho).1])]
      exact hI.creators slug v hv
    · simp only [World.observe, lookup_remove] at hv
      rw [World.observe, entitled_snoc]
      by_cases hs : slug = slug'
      · rw [if_pos (congrArg _ hs)] at hv
        cases hv
      · rw [if_neg (fun hk => hs (FileKind.state.inj hk))] at hv
        rw [entitles_of_not_changed (by simp [Obs.changed, Ne.symm hs])]
        exact hI.creators slug v hv
    · simp only [World.observe, lookup_put] at hv
      rw [World.observe, entitled_snoc]
      by_cases hs : op.kind = .state slug
      · rw [if_pos hs.symm] at hv
        simp only [Obs.entitles, if_pos hs]
        refine creator_of_write hI.creators hA.1 hA.2 ?_ hs hv
        rintro kind body creator override_ rfl
        exact hok.2.2 kind rfl
      · rw [if_neg (Ne.symm hs)] at hv
        rw [entitles_of_not_changed (by simp [Obs.changed, hs])]
        exact hI.creators slug v hv
  · rcases h.effect with ⟨_, new, hnew, hl⟩ | ⟨src, slug, rfl, _, rfl⟩ | ⟨src, op, raw, isNew, _, rfl⟩
    · rw [hl]
      refine hI.removals.append fun o ho past => ?_
      have hnone := (hnew o ho).1
      cases o with
      | removed q src kind before => cases hnone
      | _ => trivial
    · exact hI.removals.snoc (byOwner_of_judged hI hA hok)
    · exact hI.removals.snoc trivial

/-- What others do, while a process has the lock of its path, leaves what it has put together. -/
theorem Move.onBehalf_other {q : Nat} {t t' : Point} (h : Move R w q io t w' t')
    (hl : ∀ k ∈ s.holds, k ∉ t.holds ∧ t.needs ≠ some k) (hA : OnBehalf R executors w p s) :
    OnBehalf R executors w' p s := by
  have hjudged : ∀ {ex slug}, Judged executors w.log p ex slug → Judged executors w'.log p ex slug :=
    fun ⟨owner, hj, hmay⟩ => ⟨owner, h.mem_log hj, hmay⟩
  have hprep : ∀ {op raw}, .path op.kind ∈ s.holds → Prepared R w op raw → Prepared R w' op raw := by
    rintro op raw hk ⟨hne, now, hnow, hraw⟩
    refine ⟨hne, now, hnow, ?_⟩
    rw [Disk.read, h.lookup (hl _ hk).1 (hl _ hk).2]
    exact hraw
  cases s with
  | asking ex op => exact ⟨hA.1, fun slug hs => hjudged (hA.2 slug hs)⟩
  | entering src op => exact ⟨hA.1, fun ex slug hsrc hs => hjudged (hA.2 ex slug hsrc hs)⟩
  | creating src op raw => exact ⟨hA.1, hprep (by simp [Point.holds]) hA.2⟩
  | committing src op raw isNew => exact ⟨hA.1, hprep (by cases isNew <;> simp [Point.holds]) hA.2⟩
  | guarding src kind body expected o => exact hA
  | _ => trivial

/-- The write of a guarded save names its creator as it was given. -/
theorem authored_guardedOp {src : Source} (kind : FileKind) (body : Text) (o : FrontmatterOverride)
    (hclean : ∀ slug, kind = .state slug → ∀ v ∈ nonempty o.createdBy, Clean v) :
    Authored executors src (guardedOp kind body o) := by
  cases kind with
  | state slug => exact .inr ⟨rfl, hclean slug rfl⟩
  | _ => rfl

/-- What is finished has nothing left to answer for. -/
theorem onBehalf_finish (src : Source) (kind : FileKind) : OnBehalf R executors w p (src.finish kind (.ok ())) := by
  rcases finish_ok src kind with ⟨_, h⟩ | ⟨_, reply, _, h⟩ <;> (rw [h]; trivial)

/-- A step goes on with what its operation was begun with. -/
theorem Move.onBehalf {d : Disk} (h : Move R w p io s w' s') (hI : Owned R executors d w) (hA : OnBehalf R executors w p s)
    (hnow : FourDigitYear io.now) : OnBehalf R executors w' p s' := by
  have hnodelete : ∀ (kind : FileKind) (body : Text) (o : FrontmatterOverride) slug,
      guardedOp kind body o ≠ .deleteState slug := by
    intro kind body o slug
    cases kind <;> exact fun hd => by cases hd
  cases h with
  | performs ex e call op there dispatch =>
    obtain ⟨e₀, he₀, hfresh⟩ := hI.staffed.origin there
    have hid : (executors[ex]?).map (·.speakerUserId.text) = some e.speakerUserId.text := by
      rw [he₀]
      change some e₀.fresh.speakerUserId.text = some e.fresh.speakerUserId.text
      rw [hfresh]
    obtain ⟨hauth, hne⟩ := dispatch_authored dispatch hid
    exact ⟨hauth, fun slug hs => absurd hs (hne slug)⟩
  | owns ex e slug there may =>
    refine ⟨trivial, fun slug' hs => ?_⟩
    cases hs
    refine ⟨_, List.mem_append_right _ (List.mem_singleton_self _), fun e' he' => ?_⟩
    obtain ⟨e₀, he₀, hfresh⟩ := hI.staffed.origin there
    rw [he₀, Option.some.injEq] at he'
    subst he'
    change e₀.fresh.mayDelete _ = true
    rw [hfresh]
    exact may
  | granted ex e op there left =>
    refine ⟨hA.1, fun ex' slug hsrc hs => ?_⟩
    cases hsrc
    obtain ⟨owner, hj, hmay⟩ := hA.2 slug hs
    exact ⟨owner, List.mem_append_left _ hj, hmay⟩
  | unguarded src kind body o =>
    exact ⟨authored_guardedOp kind body o hA.2, fun ex slug _ hs => absurd hs (hnodelete kind body o slug)⟩
  | passes src kind body token o same =>
    exact ⟨authored_guardedOp kind body o hA.2, fun ex slug _ hs => absurd hs (hnodelete kind body o slug)⟩
  | prepares src op raw accepted write prepared =>
    have hprep : Prepared R w op raw := ⟨write, io.now, hnow, (prepare_ok prepared).1⟩
    split
    · exact ⟨hA.1, hprep⟩
    · exact ⟨hA.1, hprep⟩
  | counts src op raw room => exact hA
  | removes src slug valid => exact onBehalf_finish src _
  | writes src op raw isNew => exact onBehalf_finish src _
  | _ => trivial

/-- A proper request begins so. -/
theorem onBehalf_start (request : Request) (hok : request.Proper) : OnBehalf R executors w p request.start := by
  cases request with
  | view kind => simp only [Request.start]; split <;> trivial
  | save by_ kind body token o =>
    simp only [Request.start]
    split
    · refine ⟨fun ex h => (by cases h), ?_⟩
      rintro slug rfl
      exact hok.2
    · trivial
  | create by_ slug body =>
    simp only [Request.start]
    split
    · exact ⟨.inl ⟨rfl, rfl, by_, rfl⟩, fun ex slug h => by cases h⟩
    · trivial
  | delete by_ slug =>
    simp only [Request.start]
    split
    · exact ⟨trivial, fun ex slug h => by cases h⟩
    · trivial
  | call ex call => trivial
  | api op => cases hok.1
  | apiGuarded kind body expected o => cases hok.1

/-- The owners of the notes, in an outline. -/
theorem owners_outline (R : Rfc3339) (executors : List Executor) (d : Disk) :
    (traffic R).Outline Request.Proper (Undisturbed R) (Owned R executors d)
      (fun w p q => OnBehalf R executors w p q.point) fun _ _ => True := by
  refine outline ?_ ?_ ?_ ?_
  · intro w p request hok _ _
    exact onBehalf_start request hok
  · intro w p request s io w' s' hI hA hok hm
    exact ⟨hm.owned hI hA hok, hm.onBehalf hI hA hok.1⟩
  · intro w p request s q t io w' t' _ hA _ _ _ hm hl
    exact hm.onBehalf_other hl hA
  · intro w p q t io w' t' _ _ _ _ _
    trivial

/-! ## The theorem -/

/-- In every run of tool calls of any turns and of pages, saves, creations and deletions of the dashboard whose steps are
undisturbed, a regular speaker removes only notes of their own, and the notes name those they belong to. -/
theorem removed_by_owner (R : Rfc3339) (disk : Disk) (executors : List Executor) (es : List TrafficEvent) (v : Traffic)
    (hok : Machine.Meets (Traffic.step R) (Allows Request.Proper (Undisturbed R)) (Traffic.start disk executors) es)
    (h : Machine.run (Traffic.step R) (Traffic.start disk executors) es = some v) :
    (∀ past p ex slug file future e, v.1.log = past ++ .removed p (.tool ex) (.state slug) (some file) :: future →
      executors[ex]? = some e → e.speakerRole = .regular →
        entitled R executors disk slug past = some e.speakerUserId.text) ∧
      ∀ slug u, creatorIn R (v.1.disk.files.lookup (.state slug)) = some u →
        entitled R executors disk slug v.1.log = some u := by
  have hstart : Owned R executors disk ⟨disk, executors, []⟩ :=
    ⟨⟨fun _ => rfl, fun ex e _ => ⟨Nat.zero_le _, Nat.zero_le _⟩⟩, fun slug v hv => hv, inOrder_nil⟩
  obtain ⟨_, howned, _, _⟩ := (owners_outline R executors disk).run (disciplined R) (exclusive_start disk executors)
    (holds_start hstart fun _ => trivial) hok h
  exact ⟨fun past p ex slug file future e hl he hreg => howned.removals past _ future hl e he hreg, howned.creators⟩

/-! ### A note that is created anew -/

def alice : Executor := ⟨⟨"10".toList, by decide⟩, "alice".toList, "Alice".toList, .regular, 5, 0⟩

def bob : Executor := ⟨⟨"20".toList, by decide⟩, "bob".toList, "Bob".toList, .regular, 5, 0⟩

/-- A call of `write_state`. -/
def writeStateCall (slug body : Text) : ToolCall :=
  ⟨"write_state".toList, ((∅ : Table Text Text).insert "slug".toList slug).insert "body".toList body⟩

/-- A call of `delete_state`. -/
def deleteStateCall (slug : Text) : ToolCall := ⟨"delete_state".toList, (∅ : Table Text Text).insert "slug".toList slug⟩

/-- A process takes some steps in the evening. -/
def steps (p n : Nat) : List TrafficEvent := List.replicate n (.step p eveningIo)

/-- Alice writes a note. -/
def writesNote : List TrafficEvent := .spawn (.call 0 (writeStateCall "todo".toList "hers".toList)) :: steps 0 5

/-- Alice writes a note and deletes it. -/
def ownNote : List TrafficEvent := writesNote ++ .spawn (.call 0 (deleteStateCall "todo".toList)) :: steps 1 4

/-- Alice deletes her note; after the look at the creator the dashboard deletes it, and Bob writes one of that name. -/
def renewedNote : List TrafficEvent :=
  writesNote ++ .spawn (.call 0 (deleteStateCall "todo".toList)) :: steps 1 3 ++
    .spawn (.delete owner "todo".toList) :: steps 2 1 ++
    .spawn (.call 1 (writeStateCall "todo".toList "his".toList)) :: steps 3 5 ++ steps 1 1

/-- In the evening Alice deletes her own note. -/
theorem removed_by_owner_alice :
    ∃ v, Machine.run (Traffic.step .sample) (Traffic.start emptyDisk [alice, bob]) ownNote = some v ∧
      (∀ past p ex slug file future e, v.1.log = past ++ .removed p (.tool ex) (.state slug) (some file) :: future →
        [alice, bob][ex]? = some e → e.speakerRole = .regular →
          entitled .sample [alice, bob] emptyDisk slug past = some e.speakerUserId.text) ∧
        ∀ slug u, creatorIn .sample (v.1.disk.files.lookup (.state slug)) = some u →
          entitled .sample [alice, bob] emptyDisk slug v.1.log = some u := by
  have hruns : (Machine.run (Traffic.step .sample) (Traffic.start emptyDisk [alice, bob]) ownNote).isSome = true := by
    rfl
  have hok : Machine.Meets (Traffic.step .sample) (Allows Request.Proper (Undisturbed .sample))
      (Traffic.start emptyDisk [alice, bob]) ownNote := by
    decide
  obtain ⟨v, hv⟩ := Option.isSome_iff_exists.mp hruns
  exact ⟨v, hv, removed_by_owner .sample emptyDisk [alice, bob] ownNote v hok hv⟩

/-- A version of the note. -/
def noteVersion (body creator : Text) (mtime : Mtime) : File :=
  ⟨some (emit .sample ⟨evening, none, none, some creator⟩ body), mtime⟩

/-- What happens before Alice's deletion comes to its end. -/
def renewedPast : List Obs :=
  [.granted 0 0,
    .wrote 0 (.tool 0) (.writeState (.state "todo".toList) "hers".toList (some "10".toList) none) none
      (noteVersion "hers".toList "10".toList 1),
    .judged 1 "todo".toList (some "10".toList), .granted 1 0,
    .removed 2 (.delete owner) (.state "todo".toList) (some (noteVersion "hers".toList "10".toList 1)), .granted 3 1,
    .wrote 3 (.tool 1) (.writeState (.state "todo".toList) "his".toList (some "20".toList) none) none
      (noteVersion "his".toList "20".toList 2)]

theorem renewedNote_runs :
    ((Machine.run (Traffic.step .sample) (Traffic.start emptyDisk [alice, bob]) renewedNote).map fun v =>
        (v.1.log, (v.2[1]?).bind (·.point.reply))) =
      some (renewedPast ++ [.removed 1 (.tool 0) (.state "todo".toList) (some (noteVersion "his".toList "20".toList 2))],
        some (.tool .ok)) := by
  rfl

/-- Alice, a regular speaker, removes a note that belongs to Bob. -/
theorem removed_by_other :
    ∃ v, Machine.run (Traffic.step .sample) (Traffic.start emptyDisk [alice, bob]) renewedNote = some v ∧
      v.1.log =
        renewedPast ++ [.removed 1 (.tool 0) (.state "todo".toList) (some (noteVersion "his".toList "20".toList 2))] ∧
      alice.speakerRole = .regular ∧
      entitled .sample [alice, bob] emptyDisk "todo".toList renewedPast = some bob.speakerUserId.text ∧
      bob.speakerUserId ≠ alice.speakerUserId := by
  obtain ⟨v, hv, hout⟩ := Option.map_eq_some_iff.mp renewedNote_runs
  exact ⟨v, hv, (Prod.mk.inj hout).1, rfl, by rfl, by decide⟩

end Twitch1337.Memory
