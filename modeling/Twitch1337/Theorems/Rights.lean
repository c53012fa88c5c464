import Twitch1337.Lemmas.Turns
import Twitch1337.Theorems.Saves

/-!
# What the tools of a turn may change

A turn changes only files that its speaker has a right to, each call at most one, and all its calls not more than the quota
allows, however they interleave with each other and with everything else. The slugs the tools take are slugs the store takes,
so that the store never has to turn one down.
-/

namespace Twitch1337.Memory

open Chronicle Pool Text

variable {R : Rfc3339} {w w' : World} {p : Nat} {io : Io} {request : Request} {s s' : Point}

/-! ## Calls on their way -/

/-- A process has not changed a file. -/
def Untouched (log : List Obs) (p : Nat) : Prop := ∀ o ∈ log, ∀ src, o.changer ≠ some (p, src)

/-- An operation that the speaker of a turn may do, and the store does not turn down. -/
def Allowed (executors : List Executor) (ex : Nat) (op : StoreOp) : Prop :=
  ∃ e, executors[ex]? = some e ∧ e.Permits op.kind ∧ op.refusal = none

/-- Where a process has not yet changed a file, and what its turn allows it there. -/
def AtWork (executors : List Executor) (w : World) (p : Nat) : Point → Prop
  | .owning _ slug => Untouched w.log p ∧ parseSlug slug = .ok slug
  | .asking ex op => Untouched w.log p ∧ Allowed executors ex op
  | .guarding src .. => Untouched w.log p ∧ ∀ ex, src ≠ .tool ex
  | .entering src op => Untouched w.log p ∧ ∀ ex, src = .tool ex → Allowed executors ex op ∧ .granted p ex ∈ w.log
  | .creating src op _ => Untouched w.log p ∧ ∀ ex, src = .tool ex → Allowed executors ex op ∧ .granted p ex ∈ w.log
  | .committing src op _ _ => Untouched w.log p ∧ ∀ ex, src = .tool ex → Allowed executors ex op ∧ .granted p ex ∈ w.log
  | .undoing _ => True
  | .stating .. => True
  | .ended reply => ∀ e, reply = .tool (.store e) → e = .full ∨ e = .stateFull ∨ e = .system
  | _ => Untouched w.log p

/-- A change is the first of its process, and one of a turn was granted, and is within the rights of its speaker. -/
def Obs.Rightful (executors : List Executor) (past : List Obs) (o : Obs) : Prop :=
  ∀ p src kind, o.changer = some (p, src) → o.changed = some kind →
    Untouched past p ∧ ∀ ex, src = .tool ex → .granted p ex ∈ past ∧ ∃ e, executors[ex]? = some e ∧ e.Permits kind

theorem Untouched.snoc {log : List Obs} {o : Obs} (h : Untouched log p) (ho : ∀ src, o.changer ≠ some (p, src)) :
    Untouched (log ++ [o]) p := by
  intro x hx
  rcases List.mem_append.mp hx with hx | hx
  · exact h x hx
  · exact List.mem_singleton.mp hx ▸ ho

/-- A step of another process changes no file for this one. -/
theorem Move.untouched {q : Nat} {t t' : Point} (h : Move R w q io t w' t') (hne : p ≠ q) (hu : Untouched w.log p) :
    Untouched w'.log p := by
  rcases h.effect with ⟨_, new, hnew, hl⟩ | ⟨src, slug, _, _, rfl⟩ | ⟨src, op, raw, isNew, _, rfl⟩
  · rw [hl]
    intro x hx src
    rcases List.mem_append.mp hx with hx | hx
    · exact hu x hx src
    · rw [(hnew x hx).2]
      intro hk
      cases hk
  · refine hu.snoc fun src' hk => hne ?_
    cases hk
    rfl
  · refine hu.snoc fun src' hk => hne ?_
    cases hk
    rfl

/-- What others do leaves a process at its work. -/
theorem Move.atWork_other {executors : List Executor} {q : Nat} {t t' : Point} (h : Move R w q io t w' t') (hne : p ≠ q)
    (hA : AtWork executors w p s) : AtWork executors w' p s := by
  cases s with
  | owning ex slug => exact ⟨h.untouched hne hA.1, hA.2⟩
  | asking ex op => exact ⟨h.untouched hne hA.1, hA.2⟩
  | guarding src kind body expected o => exact ⟨h.untouched hne hA.1, hA.2⟩
  | entering src op => exact ⟨h.untouched hne hA.1, fun ex he => (hA.2 ex he).imp_right h.mem_log⟩
  | creating src op raw => exact ⟨h.untouched hne hA.1, fun ex he => (hA.2 ex he).imp_right h.mem_log⟩
  | committing src op raw isNew => exact ⟨h.untouched hne hA.1, fun ex he => (hA.2 ex he).imp_right h.mem_log⟩
  | undoing ex => trivial
  | stating src kind => trivial
  | ended reply => exact hA
  | _ => exact h.untouched hne hA

/-- An operation that has come to its end is at its end. -/
theorem atWork_finish {executors : List Executor} (src : Source) (kind : FileKind) :
    AtWork executors w p (src.finish kind (.ok ())) := by
  rcases finish_ok src kind with ⟨_, h⟩ | ⟨_, reply, hplain, h⟩
  · rw [h]
    trivial
  · rw [h]
    exact hplain.2

/-- The reply of an operation that is turned down comes from the store for a tool only. -/
theorem source_of_reply {src : Source} {kind : FileKind} {e e' : WriteError}
    (h : src.finish kind (.error e) = .ended (.tool (.store e'))) : ∃ ex, src = .tool ex := by
  cases src with
  | tool ex => exact ⟨ex, rfl⟩
  | api guarded => cases guarded <;> cases h
  | _ => cases h

theorem Move.rightful {executors : List Executor} (h : Move R w p io s w' s') (hw : InOrder (Obs.Rightful executors) w.log)
    (hA : AtWork executors w p s) : InOrder (Obs.Rightful executors) w'.log := by
  rcases h.effect with ⟨_, new, hnew, hl⟩ | ⟨src, slug, rfl, _, rfl⟩ | ⟨src, op, raw, isNew, rfl, rfl⟩
  · rw [hl]
    refine hw.append fun o ho past q src kind hc => ?_
    rw [(hnew o ho).2] at hc
    cases hc
  · refine hw.snoc ?_
    intro q src' kind hc hk
    cases hc
    cases hk
    refine ⟨hA.1, fun ex he => ?_⟩
    obtain ⟨⟨e, hex, hperm, _⟩, hgr⟩ := hA.2 ex he
    exact ⟨hgr, e, hex, hperm⟩
  · refine hw.snoc ?_
    intro q src' kind hc hk
    cases hc
    cases hk
    refine ⟨hA.1, fun ex he => ?_⟩
    obtain ⟨⟨e, hex, hperm, _⟩, hgr⟩ := hA.2 ex he
    exact ⟨hgr, e, hex, hperm⟩

/-- What a process does at its work leads to what it does next. -/
theorem Move.atWork {executors : List Executor} (hst : Staffed executors w) (h : Move R w p io s w' s')
    (hA : AtWork executors w p s) : AtWork executors w' p s' := by
  cases h with
  | ends s reply plain => exact plain.2
  | refused src op e refusal reply finish written =>
    rintro e' rfl
    obtain ⟨ex, rfl⟩ := source_of_reply finish
    obtain ⟨⟨e₀, _, _, href⟩, _⟩ := hA.2 ex rfl
    rw [href] at refusal
    cases refusal
  | reports src kind outcome =>
    intro e he
    cases he
  | views kind body read => exact hA.snoc (by simp [Obs.changer])
  | shows kind body =>
    intro e he
    cases he
  | performs ex e call op there dispatch =>
    obtain ⟨e₀, he₀, hfresh⟩ := hst.origin there
    obtain ⟨hperm, href⟩ := dispatch_perform dispatch
    exact ⟨hA, e₀, he₀, permits_of_fresh hfresh hperm, href⟩
  | looks ex e call slug there dispatch => exact ⟨hA, dispatch_checkOwner dispatch⟩
  | owns ex e slug there may =>
    obtain ⟨e₀, he₀, _⟩ := hst.origin there
    have hv := validateStateSlug_of_parseSlug hA.2
    exact ⟨hA.1.snoc (by simp [Obs.changer]), e₀, he₀, ⟨hA.2, hv⟩, if_pos hv⟩
  | granted ex e op there left =>
    refine ⟨hA.1.snoc (by simp [Obs.changer]), fun ex' he => ?_⟩
    cases he
    exact ⟨hA.2, List.mem_append_right _ (List.mem_singleton_self _)⟩
  | denied ex e op there => trivial
  | undone ex e there reply plain => exact plain.2
  | unguarded src kind body o => exact ⟨hA.1, fun ex he => absurd he (hA.2 ex)⟩
  | conflicts src kind body expected o page read reply plain => exact plain.2
  | passes src kind body token o same => exact ⟨hA.1.snoc (by simp [Obs.changer]), fun ex he => absurd he (hA.2 ex)⟩
  | removes src slug valid => exact atWork_finish src _
  | prepares src op raw accepted write prepared => split <;> exact hA
  | counts src op raw room => exact hA
  | writes src op raw isNew => exact atWork_finish src _

theorem atWork_start {executors : List Executor} (hu : Untouched w.log p) (request : Request) :
    AtWork executors w p request.start := by
  cases request with
  | view kind => simp only [Request.start]; split <;> first | exact hu | exact fun e he => by cases he
  | save by_ kind body token o =>
    simp only [Request.start]
    split
    · exact ⟨hu, fun ex he => by cases he⟩
    · intro e he
      cases he
  | create by_ slug body =>
    simp only [Request.start]
    split
    · exact ⟨hu, fun ex he => by cases he⟩
    · intro e he
      cases he
  | delete by_ slug =>
    simp only [Request.start]
    split
    · exact ⟨hu, fun ex he => by cases he⟩
    · intro e he
      cases he
  | call ex call => exact hu
  | api op => exact ⟨hu, fun ex he => by cases he⟩
  | apiGuarded kind body expected o => exact ⟨hu, fun ex he => by cases he⟩

/-- The rights of the turns, in an outline. -/
theorem rights_outline (R : Rfc3339) (executors : List Executor) :
    (traffic R).Outline (fun _ => True) (fun _ _ _ _ => True)
      (fun w => Staffed executors w ∧ InOrder (Obs.Rightful executors) w.log)
      (fun w p q => AtWork executors w p q.point) fun w p => Untouched w.log p := by
  refine outline ?_ ?_ ?_ ?_
  · intro w p request _ _ hF
    exact atWork_start hF request
  · intro w p request s io w' s' hI hA _ hm
    exact ⟨⟨hm.staffed hI.1, hm.rightful hI.2 hA⟩, hm.atWork hI.1 hA⟩
  · intro w p request s q t io w' t' _ hA _ hne _ hm _
    exact hm.atWork_other hne hA
  · intro w p q t io w' t' _ hF _ hne hm
    exact hm.untouched hne hF

/-! ## The theorem -/

/-- A path of one of the three directories of the memory, whose stem has neither dots nor slashes. -/
def FileKind.Inside (kind : FileKind) : Prop :=
  ∃ dir ∈ ["".toList, "users/".toList, "state/".toList], ∃ stem : Text, stem ≠ [] ∧ stem.all isStemChar = true ∧
    kind.relativePath = dir ++ stem ++ ".md".toList

theorem inside_of_permits {e : Executor} {kind : FileKind} (h : e.Permits kind) : kind.Inside := by
  cases kind with
  | soul => exact ⟨_, List.mem_cons_self, "SOUL".toList, by decide, by decide +kernel, rfl⟩
  | lore => exact ⟨_, List.mem_cons_self, "LORE".toList, by decide, by decide +kernel, rfl⟩
  | user userId =>
    obtain ⟨_, hne, hdigits⟩ := h
    refine ⟨"users/".toList, by simp, userId, hne, ?_, rfl⟩
    rw [List.all_eq_true] at hdigits ⊢
    intro c hc
    exact isStemChar_of_isSlugStart (by simp [isSlugStart, hdigits c hc])
  | state slug =>
    obtain ⟨_, hne, _, hall, _⟩ := parseSlug_ok h.1
    exact ⟨"state/".toList, by simp, slug, hne, hall, rfl⟩

/-- Whether a turn changes a file with an entry. -/
def Obs.changedBy (ex : Nat) (o : Obs) : Bool := o.changer.any fun c => c.2 = .tool ex

/-- The process of an entry. -/
def Obs.process : Obs → Nat
  | opened p .. => p
  | shown p .. => p
  | judged p .. => p
  | granted p _ => p
  | checked p .. => p
  | wrote p .. => p
  | removed p .. => p

theorem changer_of_changedBy {ex : Nat} {o : Obs} (h : o.changedBy ex = true) :
    o.changer = some (o.process, .tool ex) ∧ ∃ kind, o.changed = some kind := by
  cases o with
  | wrote p src op before after =>
    have hsrc : src = .tool ex := by simpa [Obs.changedBy, Obs.changer] using h
    exact ⟨by rw [hsrc]; rfl, _, rfl⟩
  | removed p src kind before =>
    have hsrc : src = .tool ex := by simpa [Obs.changedBy, Obs.changer] using h
    exact ⟨by rw [hsrc]; rfl, _, rfl⟩
  | _ => cases h

/-- What the tool calls of all turns do. -/
structure WithinRights (disk : Disk) (executors : List Executor) (v : Traffic) : Prop where
  /-- Every file that is not as it was has been changed by an entry of the log. -/
  traced : ∀ kind, v.1.disk.files.lookup kind ≠ disk.files.lookup kind → ∃ o ∈ v.1.log, Obs.changed o = some kind
  /-- What a turn changes, its speaker may change, and it is a file of the memory. -/
  permitted : ∀ o ∈ v.1.log, ∀ ex kind, Obs.changedBy ex o = true → o.changed = some kind →
    kind.Inside ∧ ∃ e, executors[ex]? = some e ∧ e.Permits kind
  /-- A call changes at most one file. -/
  once : ∀ past o future ex, v.1.log = past ++ o :: future → Obs.changedBy ex o = true → ∀ x ∈ past,
    Obs.changedBy ex x = true → x.process ≠ o.process
  /-- The calls of a turn that change something are not more than its quota. -/
  quota : ∀ (ex : Nat) (e : Executor), executors[ex]? = some e → v.1.log.countP (Obs.changedBy ex) ≤ e.maxWritesPerTurn
  /-- The store never turns down the slug of a call. -/
  slugs : ∀ (p : Nat) request e, v.2[p]? = some ⟨request, .ended (.tool (.store e))⟩ →
    e = .full ∨ e = .stateFull ∨ e = .system

/-- In every run of tool calls of any turns, and of everything else that goes on around the store, the turns stay within the
rights of their speakers. -/
theorem tools_within_rights (R : Rfc3339) (disk : Disk) (executors : List Executor) (es : List TrafficEvent) (v : Traffic)
    (h : Machine.run (Traffic.step R) (Traffic.start disk executors) es = some v) : WithinRights disk executors v := by
  have hrec : Recorded R disk v.1 := recorded_of_run h
  have hstart : Staffed executors ⟨disk, executors, []⟩ := ⟨fun _ => rfl, fun ex e _ => ⟨Nat.zero_le _, Nat.zero_le _⟩⟩
  obtain ⟨_, ⟨hst, hright⟩, hproc, _⟩ := (rights_outline R executors).run (disciplined R)
    (exclusive_start disk executors) (holds_start ⟨hstart, inOrder_nil⟩ fun p o ho => by cases ho)
    (.of_forall allows_true _ es) h
  have honce : ∀ ex, InOrder (fun past o => Obs.changedBy ex o = true → ∀ x ∈ past, Obs.changedBy ex x = true →
      x.process ≠ o.process) v.1.log := by
    intro ex past o future hl ho x hx hx' heq
    obtain ⟨hc, kind, hk⟩ := changer_of_changedBy ho
    obtain ⟨hc', _⟩ := changer_of_changedBy hx'
    exact (hright past o future hl _ _ kind hc hk).1 x hx (.tool ex) (heq ▸ hc')
  refine ⟨fun kind hne => ?_, fun o ho ex kind hby hk => ?_, fun past o future ex hl => honce ex past o future hl, ?_, ?_⟩
  · by_cases hex : ∃ o ∈ v.1.log, Obs.changed o = some kind
    · exact hex
    · refine absurd ?_ hne
      rw [hrec.files kind, ← List.nil_append v.1.log]
      exact versionAfter_unchanged fun o ho hk => hex ⟨o, ho, hk⟩
  · obtain ⟨past, future, hl⟩ := List.append_of_mem ho
    obtain ⟨e, he, hperm⟩ := ((hright past o future hl _ _ kind (changer_of_changedBy hby).1 hk).2 ex rfl).2
    exact ⟨inside_of_permits hperm, e, he, hperm⟩
  · intro ex e he
    have hle : v.1.log.countP (Obs.changedBy ex) ≤ v.1.log.countP (Obs.grantedTo ex) := by
      refine countP_le _ _ Obs.process (honce ex) fun o ho hby => ?_
      obtain ⟨past, future, hl⟩ := List.append_of_mem ho
      obtain ⟨hc, kind, hk⟩ := changer_of_changedBy hby
      have hgr := ((hright past o future hl _ _ kind hc hk).2 ex rfl).1
      refine ⟨.granted o.process ex, ?_, by simp [Obs.grantedTo], rfl⟩
      rw [hl]
      exact List.mem_append_left _ hgr
    have hsame := hst.same ex
    rw [he, Option.map_some, Option.map_eq_some_iff] at hsame
    obtain ⟨e', he', hfresh⟩ := hsame
    have hmax : e'.maxWritesPerTurn = e.maxWritesPerTurn := by
      change e'.fresh.maxWritesPerTurn = e.fresh.maxWritesPerTurn
      rw [hfresh]
    exact Nat.le_trans hle (hmax ▸ (hst.quota ex e' he').2)
  · intro p request e hp
    exact hproc p _ hp e rfl

/-- A moderator's call writes the lore, within the rights and the quota. -/
theorem tools_within_rights_lore :
    ∃ v, Machine.run (Traffic.step .sample) (Traffic.start loreDisk [moderator]) lateSave = some v ∧
      WithinRights loreDisk [moderator] v := by
  obtain ⟨v, hv, _⟩ := Option.map_eq_some_iff.mp lateSave_runs
  exact ⟨v, hv, tools_within_rights .sample loreDisk [moderator] lateSave v hv⟩

end Twitch1337.Memory
