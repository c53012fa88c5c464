import Twitch1337.Lemmas.Store
import Twitch1337.Memory.History

/-!
# What a step of the traffic does

`Move` says, once, what the next step of a process can be. From it come the discipline and the order of the locks, and what a
step does to the shared state, which is what the other processes see of it.
-/

namespace Twitch1337.Memory

open Chronicle Chrono Pool

variable {R : Rfc3339} {w w' : World} {p : Nat} {io : Io} {s s' : Point}

/-! ## Moves -/

/-- A reply that neither reports that a save was written nor that a tool's slug or kind was turned down by the store. -/
def Reply.Plain (r : Reply) : Prop :=
  (∀ m, r ≠ .saved (.ok (.written m))) ∧ ∀ e, r = .tool (.store e) → e = .full ∨ e = .stateFull ∨ e = .system

/-- The next step of a process: the shared state and the point it leads to. -/
inductive Move (R : Rfc3339) (w : World) (p : Nat) (io : Io) : Point → World → Point → Prop where
  | ends (s : Point) (reply : Reply) (plain : reply.Plain) : Move R w p io s w (.ended reply)
  | refused (src : Source) (op : StoreOp) (e : WriteError) (refusal : op.refusal = some e) (reply : Reply)
      (finish : src.finish op.kind (.error e) = .ended reply) (written : ∀ m, reply ≠ .saved (.ok (.written m))) :
      Move R w p io (.entering src op) w (.ended reply)
  | reports (src : Source) (kind : FileKind) (outcome : Except WriteError WriteOutcome) :
      Move R w p io (.stating src kind) w (.ended (.saved outcome))
  | views (kind : FileKind) (body : Text) (read : bodyOf R (w.disk.files.lookup kind) = some body) :
      Move R w p io (.viewing kind) (w.observe (.opened p kind body)) (.viewed kind body)
  | shows (kind : FileKind) (body : Text) :
      Move R w p io (.viewed kind body) (w.observe (.shown p kind body (w.disk.currentMtime kind)))
        (.ended (.shown kind body (w.disk.currentMtime kind)))
  | performs (ex : Nat) (e : Executor) (call : ToolCall) (op : StoreOp) (there : w.executors[ex]? = some e)
      (dispatch : e.dispatch call = .perform op) : Move R w p io (.calling ex call) w (.asking ex op)
  | looks (ex : Nat) (e : Executor) (call : ToolCall) (slug : Text) (there : w.executors[ex]? = some e)
      (dispatch : e.dispatch call = .checkOwner slug) : Move R w p io (.calling ex call) w (.owning ex slug)
  | owns (ex : Nat) (e : Executor) (slug : Text) (there : w.executors[ex]? = some e)
      (may : e.mayDelete (creatorIn R (w.disk.files.lookup (.state slug))) = true) :
      Move R w p io (.owning ex slug) (w.observe (.judged p slug (creatorIn R (w.disk.files.lookup (.state slug)))))
        (.asking ex (.deleteState slug))
  | granted (ex : Nat) (e : Executor) (op : StoreOp) (there : w.executors[ex]? = some e)
      (left : e.writeCount < e.maxWritesPerTurn) :
      Move R w p io (.asking ex op) ((w.setCount ex e (e.writeCount + 1)).observe (.granted p ex)) (.entering (.tool ex) op)
  | denied (ex : Nat) (e : Executor) (op : StoreOp) (there : w.executors[ex]? = some e) :
      Move R w p io (.asking ex op) (w.setCount ex e (e.writeCount + 1)) (.undoing ex)
  | undone (ex : Nat) (e : Executor) (there : w.executors[ex]? = some e) (reply : Reply) (plain : reply.Plain) :
      Move R w p io (.undoing ex) (w.setCount ex e e.maxWritesPerTurn) (.ended reply)
  | unguarded (src : Source) (kind : FileKind) (body : Text) (o : FrontmatterOverride) :
      Move R w p io (.guarding src kind body none o) w (.entering src (guardedOp kind body o))
  | conflicts (src : Source) (kind : FileKind) (body : Text) (expected : Option Mtime) (o : FrontmatterOverride)
      (page : Text) (read : bodyOf R (w.disk.files.lookup kind) = some page) (reply : Reply) (plain : reply.Plain) :
      Move R w p io (.guarding src kind body expected o)
        ((w.observe (.opened p kind page)).observe (.shown p kind page (w.disk.currentMtime kind))) (.ended reply)
  | passes (src : Source) (kind : FileKind) (body : Text) (token : Mtime) (o : FrontmatterOverride)
      (same : w.disk.currentMtime kind = token) :
      Move R w p io (.guarding src kind body (some token) o) (w.observe (.checked p kind token))
        (.entering src (guardedOp kind body o))
  | removes (src : Source) (slug : Text) (valid : validateStateSlug slug = true) :
      Move R w p io (.entering src (.deleteState slug))
        (({ w with disk := w.disk.remove (.state slug) } : World).observe
          (.removed p src (.state slug) (w.disk.files.lookup (.state slug)))) (src.finish (.state slug) (.ok ()))
  | prepares (src : Source) (op : StoreOp) (raw : Text) (accepted : op.refusal = none)
      (write : ∀ slug, op ≠ .deleteState slug)
      (prepared : op.prepare R io.caps io.now (w.disk.read op.kind) = .ok raw) :
      Move R w p io (.entering src op) w
        (if op.isNew (w.disk.read op.kind) then .creating src op raw else .committing src op raw false)
  | counts (src : Source) (op : StoreOp) (raw : Text) (room : w.disk.stateCount < io.caps.maxStateFiles) :
      Move R w p io (.creating src op raw) w (.committing src op raw true)
  | writes (src : Source) (op : StoreOp) (raw : Text) (isNew : Bool) :
      Move R w p io (.committing src op raw isNew)
        (({ w with disk := w.disk.put op.kind raw } : World).observe
          (.wrote p src op (w.disk.files.lookup op.kind) ⟨some raw, w.disk.writes + 1⟩)) (src.finish op.kind (.ok ()))

/-- A reply that is neither a write nor a tool's is plain. -/
theorem plain_of_ne_tool {r : Reply} (hw : ∀ m, r ≠ .saved (.ok (.written m))) (ht : ∀ t, r ≠ .tool t) : r.Plain :=
  ⟨hw, fun _ h => absurd h (ht _)⟩

/-- A failure is. -/
theorem plain_failed : Reply.Plain .failed := plain_of_ne_tool (by simp) (by simp)

/-- A tool's reply is, unless the store has given it. -/
theorem plain_tool {t : ToolReply} (h : ∀ e, t ≠ .store e) : Reply.Plain (.tool t) :=
  ⟨by simp, fun e h' => absurd (Reply.tool.inj h') (h e)⟩

/-- An operation that fails ends its process, and reports no write. -/
theorem finish_error (src : Source) (kind : FileKind) (e : WriteError) :
    ∃ reply, src.finish kind (.error e) = .ended reply ∧ (∀ m, reply ≠ .saved (.ok (.written m))) ∧
      ∀ e', reply = .tool (.store e') → e' = e := by
  cases src with
  | tool ex =>
    refine ⟨_, rfl, by simp, fun e' h => ?_⟩
    cases h
    rfl
  | save by_ token => exact ⟨_, rfl, by simp, by simp⟩
  | create by_ => exact ⟨_, rfl, by simp, by simp⟩
  | delete by_ => exact ⟨_, rfl, by simp, by simp⟩
  | api guarded => cases guarded <;> exact ⟨_, rfl, by simp, by simp⟩

/-- An operation that succeeds ends its process with a plain reply, or reads the time of its file. -/
theorem finish_ok (src : Source) (kind : FileKind) :
    (src.guarded = true ∧ src.finish kind (.ok ()) = .stating src kind) ∨
      (src.guarded = false ∧ ∃ reply, reply.Plain ∧ src.finish kind (.ok ()) = .ended reply) := by
  have hstored : Reply.Plain (.stored (.ok ())) := plain_of_ne_tool (by simp) (by simp)
  cases src with
  | tool ex => exact .inr ⟨rfl, _, plain_tool (t := .ok) (by simp), rfl⟩
  | save by_ token => exact .inl ⟨rfl, rfl⟩
  | create by_ => exact .inr ⟨rfl, _, hstored, rfl⟩
  | delete by_ => exact .inr ⟨rfl, _, hstored, rfl⟩
  | api guarded =>
    cases guarded with
    | true => exact .inl ⟨rfl, rfl⟩
    | false => exact .inr ⟨rfl, _, hstored, rfl⟩

/-- What fails in the store for another reason than a refusal ends plainly. -/
theorem move_fails (w : World) (p : Nat) (io : Io) (s : Point) (src : Source) (kind : FileKind) {e : WriteError}
    (he : e = .full ∨ e = .stateFull ∨ e = .system) : Move R w p io s w (src.finish kind (.error e)) := by
  obtain ⟨reply, hr, hne, htool⟩ := finish_error src kind e
  rw [hr]
  refine .ends s reply ⟨hne, fun e' h => ?_⟩
  rw [htool e' h]
  exact he

/-- The part of a write under the lock of its path, up to the one of new files. -/
theorem move_prepared (w : World) (p : Nat) (src : Source) (op : StoreOp) (io : Io) (href : op.refusal = none)
    (hop : ∀ slug, op ≠ .deleteState slug) : Move R w p io (.entering src op) w (w.disk.prepared R src op io) := by
  unfold Disk.prepared
  cases hprep : op.prepare R io.caps io.now (w.disk.read op.kind) with
  | error e =>
    have he : e = .full := by
      unfold StoreOp.prepare at hprep
      dsimp only at hprep
      split at hprep
      · cases hprep
        rfl
      · cases hprep
    exact move_fails w p io _ src op.kind (.inl he)
  | ok raw => exact .prepares src op raw href hop hprep

/-- The refusals of a deletion. -/
theorem valid_of_deleteState {slug : Text} (h : (StoreOp.deleteState slug).refusal = none) :
    validateStateSlug slug = true := by
  simp only [StoreOp.refusal] at h
  split at h
  · assumption
  · cases h

/-- Where an operation enters, it moves. -/
theorem move_enter (w : World) (p : Nat) (src : Source) (op : StoreOp) (io : Io) :
    Move R w p io (.entering src op) (w.enter R p src op io).1 (w.enter R p src op io).2 := by
  cases href : op.refusal with
  | some e =>
    obtain ⟨reply, hr, hne, _⟩ := finish_error src op.kind e
    have heq : w.enter R p src op io = (w, .ended reply) := by
      simp only [World.enter, href, hr]
    rw [heq]
    exact .refused src op e href reply hr hne
  | none =>
    cases op with
    | deleteState slug =>
      by_cases hw : io.writes = true
      · simp only [World.enter, href, Disk.unlink, hw, if_true]
        exact .removes src slug (valid_of_deleteState href)
      · simp only [World.enter, href, Disk.unlink, hw]
        exact move_fails w p io _ src _ (.inr (.inr rfl))
    | write kind body username displayName =>
      simp only [World.enter, href]
      exact move_prepared w p src _ io href fun slug h => by cases h
    | writeState kind body creator override_ =>
      simp only [World.enter, href]
      exact move_prepared w p src _ io href fun slug h => by cases h

/-- Where an operation commits, it moves. -/
theorem move_commit (w : World) (p : Nat) (src : Source) (op : StoreOp) (raw : Text) (isNew : Bool) (io : Io) :
    Move R w p io (.committing src op raw isNew) (w.commit p src op raw io).1 (w.commit p src op raw io).2 := by
  unfold World.commit Disk.commit
  by_cases hw : io.writes = true
  · simp only [hw, if_true]
    exact .writes src op raw isNew
  · simp only [hw]
    exact move_fails w p io _ src _ (.inr (.inr rfl))

/-- What a call of the tools comes to: an answer that is not one of the store, a write of a file that the speaker may write, a
note of the speaker, or a look for the owner of a note. -/
inductive Dispatched (e : Executor) : Dispatch → Prop
  | answered (r : ToolReply) (plain : ∀ err, r ≠ .store err) : Dispatched e (.reply r)
  | file (path : Text) (target : WritePath) (body : Text) (parsed : parseWritePath path = some target)
      (permitted : e.permittedWritePath target = true) : Dispatched e (.perform (e.writeOf target.toKind body))
  | note (raw slug body : Text) (parsed : parseSlug raw = .ok slug) :
      Dispatched e (.perform (.writeState (.state slug) body (some e.speakerUserId.text) none))
  | owner (raw slug : Text) (parsed : parseSlug raw = .ok slug) : Dispatched e (.checkOwner slug)

/-- A call of `write_file` is turned down, or asks the store for a file it permits. -/
theorem handleWriteFile_cases (e : Executor) (call : ToolCall) : Dispatched e (e.handleWriteFile call) := by
  unfold Executor.handleWriteFile
  split
  · rename_i path body _ _
    split
    · exact .answered _ (by simp)
    · rename_i target hparse
      split
      · exact .answered _ (by simp)
      · rename_i hpermit
        split
        · exact .answered _ (by simp)
        · exact .file path target body hparse (by simpa using hpermit)
  · exact .answered _ (by simp)

/-- A call of `write_state` is turned down, or asks the store for a file it permits. -/
theorem handleWriteState_cases (e : Executor) (call : ToolCall) : Dispatched e (e.handleWriteState call) := by
  unfold Executor.handleWriteState
  split
  · rename_i raw body _ _
    split
    · exact .answered _ (by simp)
    · rename_i slug hparse
      split
      · exact .answered _ (by simp)
      · split
        · exact .answered _ (by simp)
        · exact .note raw slug body hparse
  · exact .answered _ (by simp)

/-- A call of `delete_state` is turned down, or asks the store for a file it permits. -/
theorem handleDeleteState_cases (e : Executor) (call : ToolCall) : Dispatched e (Executor.handleDeleteState call) := by
  unfold Executor.handleDeleteState
  split
  · rename_i raw _
    split
    · exact .answered _ (by simp)
    · rename_i slug hparse
      exact .owner raw slug hparse
  · exact .answered _ (by simp)

/-- Any call is turned down, or asks the store for a file it permits. -/
theorem dispatch_cases (e : Executor) (call : ToolCall) : Dispatched e (e.dispatch call) := by
  unfold Executor.dispatch
  split
  · exact handleWriteFile_cases e call
  split
  · exact handleWriteState_cases e call
  split
  · exact handleDeleteState_cases e call
  · exact .answered _ (by simp)

/-- A call that is answered at once is not answered by the store. -/
theorem dispatch_reply {e : Executor} {call : ToolCall} {r : ToolReply} (h : e.dispatch call = .reply r) (err : WriteError) :
    r ≠ .store err := by
  have hcases := dispatch_cases e call
  rw [h] at hcases
  cases hcases with
  | answered _ plain => exact plain err

/-- The body that a file is read as. -/
theorem readKind_body (d : Disk) (kind : FileKind) (now : Instant) :
    (d.readKind R kind now).map (·.body) = bodyOf R (d.files.lookup kind) := by
  unfold Disk.readKind bodyOf
  cases d.files.lookup kind with
  | none => rfl
  | some file =>
    dsimp only
    cases file.content with
    | none => rfl
    | some raw =>
      dsimp only
      cases parse R raw with
      | ok out => rfl
      | error e => rfl

/-- The owner that a file is read with. -/
theorem readKind_createdBy (d : Disk) (kind : FileKind) (now : Instant) :
    (d.readKind R kind now).bind (·.frontmatter.createdBy) = creatorIn R (d.files.lookup kind) := by
  unfold Disk.readKind creatorIn frontmatter?
  cases d.files.lookup kind with
  | none => rfl
  | some file =>
    dsimp only [Option.bind_some]
    cases file.content with
    | none => rfl
    | some raw =>
      dsimp only
      cases parse R raw with
      | ok out => rfl
      | error e => rfl

/-- What the next step of a process can be. -/
theorem move (w : World) (p : Nat) (s : Point) (io : Io) (hs : s.isEnded = false) :
    Move R w p io s (w.next R p s io).1 (w.next R p s io).2 := by
  cases s with
  | viewing kind =>
    simp only [World.next]
    cases hr : w.disk.readKind R kind io.now with
    | none => exact .ends _ _ plain_failed
    | some mf =>
      refine .views kind mf.body ?_
      rw [← readKind_body w.disk kind io.now, hr]
      rfl
  | viewed kind body =>
    simp only [World.next]
    split
    · exact .shows kind body
    · exact .ends _ _ plain_failed
  | calling ex call =>
    simp only [World.next]
    cases he : w.executors[ex]? with
    | none => exact .ends _ _ plain_failed
    | some e =>
      dsimp only
      cases hd : e.dispatch call with
      | reply r => exact .ends _ _ (plain_tool (dispatch_reply hd))
      | perform op => exact .performs ex e call op he hd
      | checkOwner slug => exact .looks ex e call slug he hd
  | owning ex slug =>
    simp only [World.next]
    cases he : w.executors[ex]? with
    | none => exact .ends _ _ plain_failed
    | some e =>
      dsimp only
      rw [readKind_createdBy]
      split
      · rename_i hmay
        exact .owns ex e slug he hmay
      · exact .ends _ _ (plain_tool (by simp))
  | asking ex op =>
    simp only [World.next]
    cases he : w.executors[ex]? with
    | none => exact .ends _ _ plain_failed
    | some e =>
      dsimp only
      split
      · exact .denied ex e op he
      · rename_i hlt
        exact .granted ex e op he (Nat.lt_of_not_le hlt)
  | undoing ex =>
    simp only [World.next]
    cases he : w.executors[ex]? with
    | none => exact .ends _ _ plain_failed
    | some e => exact .undone ex e he _ (plain_tool (by simp))
  | guarding src kind body expected o =>
    simp only [World.next]
    cases hc : w.disk.checkToken R io kind expected with
    | some outcome =>
      have hplain : Reply.Plain (.saved outcome) :=
        plain_of_ne_tool (fun m h => checkToken_ne_written m (Reply.saved.inj h ▸ hc)) (by simp)
      cases outcome with
      | error e => exact .ends _ _ hplain
      | ok out =>
        cases out with
        | written m => exact .ends _ _ hplain
        | conflict currentBody currentMtime =>
          cases hr : w.disk.readKind R kind io.now with
          | none => exact .ends _ _ hplain
          | some mf =>
            refine .conflicts src kind body expected o mf.body ?_ _ hplain
            rw [← readKind_body w.disk kind io.now, hr]
            rfl
    | none =>
      cases expected with
      | none => exact .unguarded src kind body o
      | some token => exact .passes src kind body token o (currentMtime_of_checkToken hc)
  | entering src op => exact move_enter w p src op io
  | creating src op raw =>
    simp only [World.next, Disk.checkCount]
    split
    · rename_i e he
      refine move_fails w p io _ src op.kind ?_
      split at he
      · cases he
        exact .inr (.inr rfl)
      · split at he
        · cases he
          exact .inr (.inl rfl)
        · cases he
    · rename_i he
      refine .counts src op raw ?_
      split at he
      · cases he
      · split at he
        · cases he
        · rename_i hlt
          exact Nat.lt_of_not_le hlt
  | committing src op raw isNew => exact move_commit w p src op raw isNew io
  | stating src kind => exact .reports src kind _
  | ended reply => cases hs

/-! ## Locks -/

/-- What is finished holds no lock. -/
theorem finish_holds (src : Source) (kind : FileKind) : (src.finish kind (.ok ())).holds = [] := by
  rcases finish_ok src kind with ⟨_, h⟩ | ⟨_, reply, _, h⟩
  · rw [h]
    rfl
  · rw [h]
    rfl

/-- A process takes no lock but the one its step needs. -/
theorem Move.holds (h : Move R w p io s w' s') : ∀ k ∈ s'.holds, k ∈ s.holds ∨ s.needs = some k := by
  intro k hk
  cases h with
  | removes src slug valid =>
    rw [finish_holds] at hk
    cases hk
  | writes src op raw isNew =>
    rw [finish_holds] at hk
    cases hk
  | prepares src op raw accepted write prepared =>
    have hpath : k = .path op.kind := by
      split at hk
      · simpa [Point.holds] using hk
      · simpa [Point.holds] using hk
    exact .inr (by simp [Point.needs, accepted, hpath])
  | counts src op raw room =>
    simp only [Point.holds, if_true, List.mem_cons, List.not_mem_nil, or_false] at hk
    rcases hk with rfl | rfl
    · exact .inl (by simp [Point.holds])
    · exact .inr rfl
  | _ => cases hk

/-- A process that begins holds no lock. -/
theorem start_holds (request : Request) : request.start.holds = [] := by
  cases request with
  | view kind => simp only [Request.start]; split <;> rfl
  | save by_ kind body token o => simp only [Request.start]; split <;> rfl
  | create by_ slug body => simp only [Request.start]; split <;> rfl
  | delete by_ slug => simp only [Request.start]; split <;> rfl
  | call ex call => rfl
  | api op => rfl
  | apiGuarded kind body expected o => rfl

/-- What has ended does nothing. -/
theorem next_ended (hs : s.isEnded = true) : w.next R p s io = (w, s) := by
  cases s with
  | ended reply => rfl
  | _ => cases hs

/-- Processes take the locks they need. -/
theorem disciplined (R : Rfc3339) : (traffic R).Disciplined where
  start := start_holds
  next w p q io k hk := by
    change k ∈ (w.next R p q.point io).2.holds at hk
    cases hs : q.point.isEnded with
    | true =>
      rw [next_ended hs] at hk
      exact .inl hk
    | false => exact (move w p q.point io hs).holds k hk

/-- The path of a file comes before the lock for new files, and a process that is done holds no lock. -/
theorem ordered (R : Rfc3339) : (traffic R).Ordered Lock.rank where
  needs q k hk k' hk' := by
    obtain ⟨request, s⟩ := q
    change s.needs = some k at hk
    change k' ∈ s.holds at hk'
    cases s with
    | creating src op raw =>
      cases hk
      rw [show k' = .path op.kind by simpa [Point.holds] using hk']
      exact Nat.zero_lt_one
    | committing src op raw isNew => cases hk
    | _ => cases hk'
  done q hs := by
    obtain ⟨request, s⟩ := q
    change s.isEnded = true at hs
    cases s with
    | ended reply => rfl
    | _ => cases hs

/-- How many steps are left at most. -/
def Point.left : Point → Nat
  | viewing _ => 2
  | viewed .. => 1
  | calling .. => 7
  | owning .. => 6
  | asking .. => 5
  | undoing _ => 1
  | guarding .. => 5
  | entering .. => 4
  | creating .. => 3
  | committing .. => 2
  | stating .. => 1
  | ended _ => 0

/-- What is finished has one step left at most. -/
theorem finish_left (src : Source) (kind : FileKind) : (src.finish kind (.ok ())).left ≤ 1 := by
  rcases finish_ok src kind with ⟨_, h⟩ | ⟨_, reply, _, h⟩
  · rw [h]
    exact Nat.le_refl 1
  · rw [h]
    exact Nat.zero_le 1

/-- What has not ended has a step left. -/
theorem left_pos (hs : s.isEnded = false) : 0 < s.left := by
  cases s with
  | ended reply => cases hs
  | _ => exact Nat.succ_pos _

/-- Every step brings a process closer to its end. -/
theorem Move.left_lt (h : Move R w p io s w' s') (hs : s.isEnded = false) : s'.left < s.left := by
  cases h with
  | ends s reply plain => exact left_pos hs
  | removes src slug valid => exact Nat.lt_of_le_of_lt (finish_left src _) (by simp [Point.left])
  | writes src op raw isNew => exact Nat.lt_of_le_of_lt (finish_left src _) (by simp [Point.left])
  | prepares src op raw accepted write prepared =>
    split
    · simp [Point.left]
    · simp [Point.left]
  | _ => simp [Point.left]

/-! ## What others see -/

/-- A step leaves the disk, and what it writes down changes no file; or it removes a state file; or it writes a file. -/
theorem Move.effect (h : Move R w p io s w' s') :
    (w'.disk = w.disk ∧ ∃ new, (∀ o ∈ new, Obs.changed o = none ∧ Obs.changer o = none) ∧ w'.log = w.log ++ new) ∨
      (∃ src slug, s = .entering src (.deleteState slug) ∧ validateStateSlug slug = true ∧
        w' = ({ w with disk := w.disk.remove (.state slug) } : World).observe
          (.removed p src (.state slug) (w.disk.files.lookup (.state slug)))) ∨
      ∃ src op raw isNew, s = .committing src op raw isNew ∧
        w' = ({ w with disk := w.disk.put op.kind raw } : World).observe
          (.wrote p src op (w.disk.files.lookup op.kind) ⟨some raw, w.disk.writes + 1⟩) := by
  cases h with
  | removes src slug valid => exact .inr (.inl ⟨src, slug, rfl, valid, rfl⟩)
  | writes src op raw isNew => exact .inr (.inr ⟨src, op, raw, isNew, rfl, rfl⟩)
  | views kind body read => exact .inl ⟨rfl, _, by simp [Obs.changed, Obs.changer], rfl⟩
  | shows kind body => exact .inl ⟨rfl, _, by simp [Obs.changed, Obs.changer], rfl⟩
  | owns ex e slug there may => exact .inl ⟨rfl, _, by simp [Obs.changed, Obs.changer], rfl⟩
  | granted ex e op there left => exact .inl ⟨rfl, _, by simp [Obs.changed, Obs.changer], rfl⟩
  | conflicts src kind body expected o page read reply plain =>
    refine .inl ⟨rfl, [.opened p kind page, .shown p kind page (w.disk.currentMtime kind)], by simp [Obs.changed, Obs.changer], ?_⟩
    simp [World.observe]
  | passes src kind body token o same => exact .inl ⟨rfl, _, by simp [Obs.changed, Obs.changer], rfl⟩
  | _ => exact .inl ⟨rfl, [], by simp, by simp [World.setCount]⟩

/-- The log only grows. -/
theorem Move.mem_log (h : Move R w p io s w' s') {o : Obs} (ho : o ∈ w.log) : o ∈ w'.log := by
  rcases h.effect with ⟨_, new, _, hl⟩ | ⟨src, slug, _, _, rfl⟩ | ⟨src, op, raw, isNew, _, rfl⟩
  · rw [hl]
    exact List.mem_append_left _ ho
  · exact List.mem_append_left _ ho
  · exact List.mem_append_left _ ho

/-- A file whose lock a step neither has nor takes stays as it is. -/
theorem Move.lookup (h : Move R w p io s w' s') {kind : FileKind} (hh : .path kind ∉ s.holds)
    (hn : s.needs ≠ some (.path kind)) : w'.disk.files.lookup kind = w.disk.files.lookup kind := by
  rcases h.effect with ⟨hd, _⟩ | ⟨src, slug, rfl, hv, rfl⟩ | ⟨src, op, raw, isNew, rfl, rfl⟩
  · rw [hd]
  · have hne : kind ≠ .state slug := by
      rintro rfl
      exact hn (by simp [Point.needs, StoreOp.refusal, StoreOp.kind, hv])
    simp [World.observe, hne]
  · have hne : kind ≠ op.kind := by
      rintro rfl
      refine hh ?_
      simp only [Point.holds]
      split <;> simp
    simp [World.observe, hne]

/-! ## Outlines by moves -/

/-- An outline of a proof about the traffic, by moves. -/
theorem outline {okStart : Request → Prop} {okStep : World → Nat → Process → Io → Prop} {I : World → Prop}
    {A : World → Nat → Process → Prop} {F : World → Nat → Prop}
    (start : ∀ w p (request : Request), okStart request → I w → F w p → A w p ⟨request, request.start⟩)
    (own : ∀ w p request s io w' s', I w → A w p ⟨request, s⟩ → okStep w p ⟨request, s⟩ io → Move R w p io s w' s' →
      I w' ∧ A w' p ⟨request, s'⟩)
    (other : ∀ w p request s q t io w' t', I w → A w p ⟨request, s⟩ → A w q t → p ≠ q → okStep w q t io →
      Move R w q io t.point w' t' → (∀ k ∈ s.holds, k ∉ t.point.holds ∧ t.point.needs ≠ some k) → A w' p ⟨request, s⟩)
    (later : ∀ w p q t io w' t', I w → F w p → A w q t → p ≠ q → Move R w q io t.point w' t' → F w' p) :
    (traffic R).Outline okStart okStep I A F where
  start := start
  own w p q io hI hA hs hok := own w p q.request q.point io _ _ hI hA hok (move w p q.point io hs)
  other w p r q t io hI hA hA' hne ht hok hl :=
    other w p r.request r.point q t io _ _ hI hA hA' hne hok (move w q t.point io ht) hl
  later w p q t io hI hF hA hne ht := later w p q t io _ _ hI hF hA hne (move w q t.point io ht)

/-- No two processes of a pool without processes hold the same lock. -/
theorem exclusive_start (disk : Disk) (executors : List Executor) :
    Exclusive (traffic R) (Traffic.start disk executors) := by
  intro a b sa sb ha
  simp [Traffic.start] at ha

/-- What holds of the disk holds at the start. -/
theorem holds_start {I : World → Prop} {A : World → Nat → Process → Prop} {F : World → Nat → Prop} {disk : Disk}
    {executors : List Executor} (hI : I ⟨disk, executors, []⟩) (hF : ∀ p, F ⟨disk, executors, []⟩ p) :
    Pool.Holds I A F (Traffic.start disk executors) := by
  refine ⟨hI, fun p s hs => ?_, fun p _ => hF p⟩
  simp [Traffic.start] at hs

/-- What every move keeps of the shared state, every run keeps. -/
theorem run_keeps {Inv : World → Prop} (keeps : ∀ w p io s w' s', Inv w → Move R w p io s w' s' → Inv w')
    {v v' : Traffic} {es : List TrafficEvent} (hv : Inv v.1) (h : Machine.run (Traffic.step R) v es = some v') :
    Inv v'.1 := by
  suffices hstep : ∀ (v : Traffic) e v', Inv v.1 → Traffic.step R v e = some v' → Inv v'.1 from
    Machine.run_invariant hstep hv h
  intro v e v' hv hstep
  rcases step_cases hstep with ⟨request, _, rfl⟩ | ⟨p, io, q, _, _, hs, _, rfl⟩
  · exact hv
  · exact keeps v.1 p io q.point _ _ hv (move v.1 p q.point io hs)

end Twitch1337.Memory
