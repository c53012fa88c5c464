import Twitch1337.Lib.Guarded
import Twitch1337.Lib.Linear
import Twitch1337.Settings.Writers
import Twitch1337.Theorems.Settings

/-!
# No lost update of the settings

Writers of the settings beside each other do what they would do one after the other, in the order in which they publish, and one
who looks at the live handle sees what the writers before have left. The file is ahead of the handle only while a writer is under
way; when the program ends then, the next start reads what was saved. What is live after a start is what is read: a size of media
that was saved can come back rounded.
-/

namespace Twitch1337.Dashboard

open Linear Pool

variable {L : Libs} {channel : String} {opened st : SettingsStore} {g : StoreWorld} {p q : Nat} {s t : Writer} {io : Io}
  {actor : Actor} {c : Call} {commit : Commit}

/-! ## A call and its parts -/

/-- A call that cannot read the file fails. -/
theorem SettingsStore.call_loadError {e : SettingsError} (h : io.loadError = some e) :
    st.call L channel io actor c = (.error e, st) := by
  cases c <;> simp only [SettingsStore.call, SettingsStore.apply, SettingsStore.applyWith, SettingsStore.reset, h]

/-- A call whose settings are not valid is refused. -/
theorem SettingsStore.call_invalid {errs : List Schedules.FieldError} (h : io.loadError = none)
    (hcheck : c.check L channel (c.prepare (st.file.getD {})).resolved = .error errs) :
    st.call L channel io actor c = (.error (.validation errs), st) := by
  cases c with
  | apply patch =>
    simp only [Call.check, Call.prepare, Call.mutate] at hcheck
    simp only [SettingsStore.call, SettingsStore.apply, SettingsStore.applyWith, h, hcheck]
  | applyWith mutate =>
    simp only [Call.check, Call.prepare, Call.mutate] at hcheck
    simp only [SettingsStore.call, SettingsStore.applyWith, h, hcheck]
  | reset sec => cases hcheck

/-- A call whose settings are valid commits what it has prepared. -/
theorem SettingsStore.call_ok (h : io.loadError = none)
    (hcheck : c.check L channel (c.prepare (st.file.getD {})).resolved = .ok ()) :
    st.call L channel io actor c =
      st.commit L io (c.prepare (st.file.getD {})).current (c.prepare (st.file.getD {})).priorResolved
        (c.prepare (st.file.getD {})).resolved actor := by
  cases c with
  | apply patch =>
    simp only [Call.check, Call.prepare, Call.mutate] at hcheck
    simp only [SettingsStore.call, SettingsStore.apply, SettingsStore.applyWith, h, hcheck, Call.prepare, Call.mutate]
  | applyWith mutate =>
    simp only [Call.check, Call.prepare, Call.mutate] at hcheck
    simp only [SettingsStore.call, SettingsStore.applyWith, h, hcheck, Call.prepare, Call.mutate]
  | reset sec => simp only [SettingsStore.call, SettingsStore.reset, h, Call.prepare, Call.mutate]

/-! ## What holds -/

/-- The processes that have an entry in a log. -/
def logged (log : List (Option Nat × StoreOp × Except SettingsError Settings)) : List Nat := log.filterMap Prod.fst

/-- A call that is logged is the last one. -/
@[simp] theorem logged_snoc (log : List (Option Nat × StoreOp × Except SettingsError Settings)) (p : Nat)
    (e : StoreOp × Except SettingsError Settings) : logged (log ++ [(some p, e)]) = logged log ++ [p] := by
  rw [logged, List.filterMap_append]
  rfl

/-- A start is no call. -/
@[simp] theorem logged_reopen (log : List (Option Nat × StoreOp × Except SettingsError Settings))
    (e : StoreOp × Except SettingsError Settings) : logged (log ++ [(none, e)]) = logged log := by
  rw [logged, List.filterMap_append]
  exact List.append_nil _

/-- A process that has neither an entry in the log nor something saved. -/
def StoreWorld.Pending (g : StoreWorld) (p : Nat) : Prop := p ∉ logged g.log ∧ ∀ x ∈ g.unpublished, x.1 ≠ p

/-- What is saved and not yet published is what the call makes of the store. -/
structure Ahead (L : Libs) (channel : String) (st : SettingsStore) (g : StoreWorld) (p : Nat) (c : Call) (commit : Commit) :
    Prop where
  prepared : commit = c.prepare (st.file.getD {})
  checked : c.check L channel commit.resolved = .ok ()
  saved : g.store.file = some (commit.current.stored L)
  unlogged : p ∉ logged g.log

/-- The log explains the store, but for what is not yet published. -/
structure Explained (L : Libs) (channel : String) (opened : SettingsStore) (g : StoreWorld) (st : SettingsStore) : Prop where
  explained : Explains (storeStep L channel) opened (g.log.map Prod.snd) st
  once : (logged g.log).Nodup
  reopened : ∀ e ∈ g.log, e.1 = none ↔ e.2.1 = .reopen
  sound : st.Sound L channel
  handle : g.store.handle = st.handle
  audit : g.store.audit = st.audit
  published : g.unpublished = none → g.store.file = st.file
  ahead : ∀ p actor c commit, g.unpublished = some (p, actor, c, commit) → Ahead L channel st g p c commit

/-- What a process relies on at a point. -/
def Relies (L : Libs) (channel : String) (g : StoreWorld) (p : Nat) : Writer → Prop
  | .waiting _ _ => g.Pending p
  | .looking => g.Pending p
  | .loading _ _ => g.Pending p ∧ g.unpublished = none
  | .saving _ c commit => g.Pending p ∧ g.unpublished = none ∧ commit = c.prepare (g.store.file.getD {}) ∧
      c.check L channel commit.resolved = .ok ()
  | .publishing actor c commit => g.unpublished = some (p, actor, c, commit)
  | .ended request r => ∃ op, op.Asks request ∧ (some p, op, r) ∈ g.log
  | .killed => True

/-! ## The steps of others -/

/-- A step logs one call of its process, or none. -/
theorem StoreWorld.log_next (g : StoreWorld) (q : Nat) (t : Writer) (io : Io) :
    (g.next L channel q t io).1.log = g.log ∨ ∃ op r, (g.next L channel q t io).1.log = g.log ++ [(some q, op, r)] := by
  cases t with
  | loading actor c =>
    simp only [StoreWorld.next]
    split
    · exact .inr ⟨_, _, rfl⟩
    · split
      · exact .inr ⟨_, _, rfl⟩
      · exact .inl rfl
  | saving actor c commit =>
    simp only [StoreWorld.next]
    split
    · exact .inl rfl
    · exact .inr ⟨_, _, rfl⟩
  | publishing | looking => exact .inr ⟨_, _, rfl⟩
  | waiting | ended | killed => exact .inl rfl

/-- What is logged stays logged. -/
theorem StoreWorld.mem_next (t : Writer) (io : Io) {e : Option Nat × StoreOp × Except SettingsError Settings} (he : e ∈ g.log) :
    e ∈ (g.next L channel q t io).1.log := by
  rcases g.log_next q t io with h | ⟨op, r, h⟩ <;> rw [h]
  · exact he
  · exact List.mem_append_left _ he

/-- Only its own commit can become unpublished by a step. -/
theorem StoreWorld.unpublished_next (g : StoreWorld) (q : Nat) (t : Writer) (io : Io) :
    ∀ x ∈ (g.next L channel q t io).1.unpublished, x ∈ g.unpublished ∨ x.1 = q := by
  cases t with
  | loading actor c =>
    simp only [StoreWorld.next]
    split
    · exact fun x hx => .inl hx
    · split <;> exact fun x hx => .inl hx
  | saving actor c commit =>
    simp only [StoreWorld.next]
    split
    · intro x hx
      cases hx
      exact .inr rfl
    · exact fun x hx => .inl hx
  | publishing =>
    intro x hx
    cases hx
  | waiting | looking | ended | killed => exact fun x hx => .inl hx

/-- A process that has logged nothing has not after a step of another one. -/
theorem StoreWorld.Pending.other (h : g.Pending p) (hne : p ≠ q) (t : Writer) (io : Io) :
    (g.next L channel q t io).1.Pending p := by
  refine ⟨fun hmem => ?_, fun x hx => ?_⟩
  · rcases g.log_next q t io with hlog | ⟨op, r, hlog⟩ <;> rw [hlog] at hmem
    · exact h.1 hmem
    · rw [logged_snoc, List.mem_append] at hmem
      rcases hmem with hmem | hmem
      · exact h.1 hmem
      · exact hne (List.mem_singleton.mp hmem)
  · rcases g.unpublished_next q t io x hx with hx | rfl
    · exact h.2 x hx
    · exact Ne.symm hne

/-- A process that neither holds nor takes the lock only looks. -/
theorem eq_looking (hholds : () ∉ (writers L channel).holds t) (hneeds : (writers L channel).needs t ≠ some ())
    (hdone : (writers L channel).done t = false) : t = .looking := by
  cases t with
  | looking => rfl
  | waiting => exact absurd rfl hneeds
  | loading | saving | publishing => exact absurd (List.mem_singleton_self ()) hholds
  | ended | killed => cases hdone

/-- What a process relies on outlives the steps of others, which do not hold its lock. -/
theorem Relies.other (h : Relies L channel g p s) (hne : p ≠ q) (hdone : (writers L channel).done t = false)
    (hlocks : ∀ k ∈ (writers L channel).holds s, k ∉ (writers L channel).holds t ∧ (writers L channel).needs t ≠ some k) :
    Relies L channel (g.next L channel q t io).1 p s := by
  cases s with
  | waiting | looking => exact StoreWorld.Pending.other h hne t io
  | loading =>
    obtain ⟨hholds, hneeds⟩ := hlocks () (List.mem_singleton_self ())
    obtain rfl := eq_looking hholds hneeds hdone
    exact ⟨h.1.other hne _ io, h.2⟩
  | saving =>
    obtain ⟨hholds, hneeds⟩ := hlocks () (List.mem_singleton_self ())
    obtain rfl := eq_looking hholds hneeds hdone
    exact ⟨h.1.other hne _ io, h.2⟩
  | publishing =>
    obtain ⟨hholds, hneeds⟩ := hlocks () (List.mem_singleton_self ())
    obtain rfl := eq_looking hholds hneeds hdone
    exact h
  | ended request r =>
    obtain ⟨op, hop, hmem⟩ := h
    exact ⟨op, hop, StoreWorld.mem_next t io hmem⟩
  | killed => trivial

/-! ## The steps of a process -/

/-- A process that is not in the log may enter it. -/
theorem nodup_snoc {log : List (Option Nat × StoreOp × Except SettingsError Settings)} (h : (logged log).Nodup)
    (hp : p ∉ logged log) (e : StoreOp × Except SettingsError Settings) : (logged (log ++ [(some p, e)])).Nodup := by
  rw [logged_snoc]
  refine List.nodup_append.mpr ⟨h, List.nodup_singleton _, fun a ha b hb hab => ?_⟩
  obtain rfl := List.mem_singleton.mp hb
  exact hp (hab ▸ ha)

/-- The entry of a process is no start. -/
theorem reopened_snoc {log : List (Option Nat × StoreOp × Except SettingsError Settings)}
    (h : ∀ e ∈ log, e.1 = none ↔ e.2.1 = .reopen) {e : Option Nat × StoreOp × Except SettingsError Settings}
    (he : e.1 = none ↔ e.2.1 = .reopen) : ∀ e' ∈ log ++ [e], e'.1 = none ↔ e'.2.1 = .reopen := by
  intro e' he'
  rcases List.mem_append.mp he' with he' | he'
  · exact h e' he'
  · obtain rfl := List.mem_singleton.mp he'
    exact he

/-- A log goes on with an operation that has the effect it says. -/
theorem explains_snoc {log : List (Option Nat × StoreOp × Except SettingsError Settings)} {op : StoreOp}
    {result : SettingsStore × Except SettingsError Settings} (h : Explains (storeStep L channel) opened (log.map Prod.snd) st)
    (hop : storeStep L channel st op = result) (by_ : Option Nat) :
    Explains (storeStep L channel) opened ((log ++ [(by_, op, result.2)]).map Prod.snd) result.1 := by
  subst hop
  rw [List.map_append]
  exact h.snoc op

/-- An operation of a process that leaves the store as it is. -/
theorem Explained.record (h : Explained L channel opened g st) (hp : g.Pending p) {op : StoreOp}
    {r : Except SettingsError Settings} (hop : storeStep L channel st op = (st, r)) (hkind : op ≠ .reopen) :
    Explained L channel opened (g.record p op r) st := by
  refine ⟨explains_snoc h.explained hop _, nodup_snoc h.once hp.1 _, reopened_snoc h.reopened (by simp [hkind]), h.sound,
    h.handle, h.audit, h.published, ?_⟩
  intro p' actor c commit hahead
  obtain ⟨hprepared, hchecked, hsaved, hunlogged⟩ := h.ahead p' actor c commit hahead
  refine ⟨hprepared, hchecked, hsaved, fun hmem => ?_⟩
  rw [StoreWorld.record, logged_snoc, List.mem_append] at hmem
  rcases hmem with hmem | hmem
  · exact hunlogged hmem
  · exact hp.2 _ hahead (List.mem_singleton.mp hmem)

/-- A commit is a save and what is published after it. -/
theorem SettingsStore.commit_saved (h : io.saves = true) :
    st.commit L io commit.current commit.priorResolved commit.resolved actor =
      (.ok commit.resolved, { st with file := some (commit.current.stored L) }.publish io.append io.now actor commit) := by
  cases hentry : auditEntry io.now actor commit.priorResolved commit.resolved <;>
    simp only [SettingsStore.commit, SettingsStore.publish, hentry, h, if_true]

/-- A commit of what is saved: the store that the log explains then has it. -/
theorem Explained.publish (h : Explained L channel opened g st) (hahead : g.unpublished = some (p, actor, c, commit))
    (append : Append) (now : Chrono.Instant) :
    storeStep L channel st (.call ⟨⟨none, true, append, now⟩, actor, c⟩) =
      (g.store.publish append now actor commit, .ok commit.resolved) := by
  obtain ⟨hprepared, hchecked, hsaved, -⟩ := h.ahead p actor c commit hahead
  have hstore : g.store = { st with file := some (commit.current.stored L) } := by
    rw [← hsaved, ← h.handle, ← h.audit]
  rw [hprepared] at hchecked
  rw [storeStep, SettingsStore.call_ok rfl hchecked, ← hprepared, SettingsStore.commit_saved rfl, hstore]

/-- What is live after a start is valid. -/
theorem SettingsStore.Sound.reopen (h : st.Sound L channel) :
    SettingsStore.Sound L channel { st with handle := .resolve .compiledDefaults (st.file.getD {}) } :=
  ⟨rfl, Settings.validate_ok_iff.mpr h.validFile⟩

/-- Every operation keeps the store sound. -/
theorem sound_storeStep (hclock : L.parsesTime "04:00" = true) (h : st.Sound L channel) (op : StoreOp) :
    (storeStep L channel st op).1.Sound L channel := by
  cases op with
  | call e => exact h.call hclock e.io e.actor e.call
  | look => exact h
  | reopen => exact h.reopen

/-- A process that has ended relies on its entry. -/
theorem relies_ended {io' : Io} {r : Except SettingsError Settings} (hmem : (some p, .call ⟨io', actor, c⟩, r) ∈ g.log) :
    Relies L channel g p (.ended (.write actor c) r) :=
  ⟨.call ⟨io', actor, c⟩, ⟨rfl, rfl⟩, hmem⟩

/-- One step of a process keeps the log explained, and what the process relies on. -/
theorem Relies.own (hclock : L.parsesTime "04:00" = true) (hg : ∃ st, Explained L channel opened g st)
    (h : Relies L channel g p s) (hguard : (writers L channel).needs s = some () → g.unpublished = none) :
    (∃ st, Explained L channel opened (g.next L channel p s io).1 st) ∧
      Relies L channel (g.next L channel p s io).1 p (g.next L channel p s io).2 := by
  obtain ⟨st, hst⟩ := hg
  cases s with
  | waiting actor c => exact ⟨⟨st, hst⟩, h, hguard rfl⟩
  | loading actor c =>
    obtain ⟨hp, hnone⟩ := h
    simp only [StoreWorld.next]
    split
    · rename_i e he
      refine ⟨⟨st, hst.record hp ?_ (by simp)⟩, relies_ended (List.mem_append_right _ (List.mem_singleton_self _))⟩
      rw [storeStep, SettingsStore.call_loadError he]
    · rename_i he
      split
      · rename_i errs hcheck
        rw [hst.published hnone] at hcheck
        refine ⟨⟨st, hst.record hp ?_ (by simp)⟩, relies_ended (List.mem_append_right _ (List.mem_singleton_self _))⟩
        rw [storeStep, SettingsStore.call_invalid he hcheck]
      · rename_i hcheck
        exact ⟨⟨st, hst⟩, hp, hnone, rfl, hcheck⟩
  | saving actor c commit =>
    obtain ⟨hp, hnone, hprepared, hcheck⟩ := h
    rw [hst.published hnone] at hprepared
    simp only [StoreWorld.next]
    split
    · refine ⟨⟨st, hst.explained, hst.once, hst.reopened, hst.sound, hst.handle, hst.audit, (fun h => by cases h), ?_⟩, rfl⟩
      intro p' actor' c' commit' hahead
      cases hahead
      exact ⟨hprepared, hcheck, rfl, hp.1⟩
    · rename_i hsaves
      refine ⟨⟨st, hst.record hp ?_ (by simp)⟩, relies_ended (List.mem_append_right _ (List.mem_singleton_self _))⟩
      rw [hprepared] at hcheck
      rw [storeStep, SettingsStore.call_ok rfl hcheck, SettingsStore.commit, if_neg hsaves]
  | publishing actor c commit =>
    have hop := hst.publish h io.append io.now
    have hsound := sound_storeStep hclock hst.sound (.call ⟨⟨none, true, io.append, io.now⟩, actor, c⟩)
    rw [hop] at hsound
    exact ⟨⟨g.store.publish io.append io.now actor commit, explains_snoc hst.explained hop _,
      nodup_snoc hst.once (hst.ahead _ _ _ _ h).unlogged _, reopened_snoc hst.reopened (by simp), hsound, rfl, rfl, fun _ => rfl,
      (fun _ _ _ _ hahead => by cases hahead)⟩,
      relies_ended (List.mem_append_right _ (List.mem_singleton_self _))⟩
  | looking =>
    refine ⟨⟨st, hst.record h ?_ (by simp)⟩, .look, trivial, List.mem_append_right _ (List.mem_singleton_self _)⟩
    rw [storeStep, hst.handle]
  | ended | killed => exact ⟨⟨st, hst⟩, h⟩

/-! ## The pool -/

/-- What the lock guards: nothing is saved and not yet published. -/
def Settled : Unit → StoreWorld → Prop := fun _ g => g.unpublished = none

/-- Writers take the lock they need, and give it back. -/
theorem writers_disciplined : (writers L channel).Disciplined := by
  refine ⟨fun request => by cases request <;> rfl, fun g p s io k hk => ?_⟩
  cases s with
  | waiting => exact .inr rfl
  | loading | saving | publishing => exact .inl (List.mem_singleton_self _)
  | looking | ended | killed => cases hk

/-- The steps of writers among themselves. -/
theorem writers_outline (hclock : L.parsesTime "04:00" = true) (opened : SettingsStore) :
    (writers L channel).Outline (fun _ => True) (Finds (writers L channel) Settled fun _ _ _ _ => True)
      (fun g => ∃ st, Explained L channel opened g st) (Relies L channel) StoreWorld.Pending where
  start g p request _ _ hfree := by
    cases request <;> exact hfree
  own g p s io hg hs _ hfinds := hs.own hclock hg fun hneeds => hfinds.2 () hneeds
  other g p s q t io _ hs _ hne hdone _ hlocks := hs.other hne hdone hlocks
  later g p q t io _ hp _ hne _ := hp.other hne t io

/-- The lock guards what a writer has saved and not yet published. -/
theorem writers_guard (opened : SettingsStore) :
    (writers L channel).Guards (fun _ _ _ _ => True) (fun g => ∃ st, Explained L channel opened g st) (Relies L channel)
      Settled where
  restore g p s io _ hs hfinds k hk hlast := by
    change (g.next L channel p s io).1.unpublished = none
    change k ∉ (writers L channel).holds (g.next L channel p s io).2 at hlast
    cases s with
    | waiting => exact absurd (List.mem_singleton_self _) hlast
    | loading =>
      revert hlast
      simp only [StoreWorld.next]
      split
      · exact fun _ => hs.2
      · split <;> exact fun _ => hs.2
    | saving =>
      revert hlast
      simp only [StoreWorld.next]
      split
      · exact fun hlast => absurd (List.mem_singleton_self _) hlast
      · exact fun _ => hs.2.1
    | publishing => rfl
    | looking | ended | killed => rcases hk with hk | hk <;> cases hk
  leave g p s io k _ _ _ hholds hneeds hsettled := by
    cases s with
    | waiting => exact absurd rfl hneeds
    | loading | saving | publishing => exact absurd (List.mem_singleton_self _) hholds
    | looking | ended | killed => exact hsettled

/-! ## Runs -/

/-- The locks exclude, every process has what it relies on, and nothing is left behind unpublished. -/
def Orderly (L : Libs) (channel : String) (opened : SettingsStore) (w : StoreWorld × List Writer) : Prop :=
  Exclusive (writers L channel) w ∧ Holds (fun g => ∃ st, Explained L channel opened g st) (Relies L channel) StoreWorld.Pending w ∧
    Guarded (writers L channel) Settled w

variable {w w' : StoreWorld × List Writer}

/-- The store opens with what is read. -/
theorem SettingsStore.Sound.reopens (h : st.Sound L channel) (renames : Bool) :
    SettingsStore.open L channel (st.file.elim .absent .overrides) renames st.audit =
      some { st with handle := .resolve .compiledDefaults (st.file.getD {}) } := by
  have hvalid := h.reopen.valid
  dsimp only at hvalid
  unfold SettingsStore.open
  cases hfile : st.file with
  | none =>
    rw [hfile] at hvalid
    simp only [Option.elim_none, Option.bind_some]
    rw [hvalid]
  | some o =>
    rw [hfile] at hvalid
    simp only [Option.elim_some, Option.bind_some]
    rw [hvalid]

/-- A process that was ended holds nothing. -/
theorem holds_kill (s : Writer) : (writers L channel).holds s.kill = [] := by
  cases s <;> rfl

/-- The log when the program ends explains a store that has what is saved. -/
theorem Explained.closed (h : Explained L channel opened g st) (hclock : L.parsesTime "04:00" = true) (now : Chrono.Instant) :
    ∃ last : SettingsStore, Explains (storeStep L channel) opened ((g.closed now).map Prod.snd) last ∧ last.Sound L channel ∧
      last.file = g.store.file ∧ last.audit = g.store.audit ∧ (logged (g.closed now)).Nodup ∧
      ∀ e ∈ g.closed now, e.1 = none ↔ e.2.1 = .reopen := by
  unfold StoreWorld.closed
  split
  · rename_i hun
    exact ⟨st, h.explained, h.sound, (h.published hun).symm, h.audit.symm, h.once, h.reopened⟩
  · rename_i p actor c commit hun
    have hop := h.publish hun (.failed false) now
    have hsound := sound_storeStep hclock h.sound (.call ⟨⟨none, true, .failed false, now⟩, actor, c⟩)
    rw [hop] at hsound
    have haudit : (g.store.publish (.failed false) now actor commit).audit = g.store.audit := by
      rw [SettingsStore.publish]
      cases auditEntry now actor commit.priorResolved commit.resolved <;> rfl
    exact ⟨g.store.publish (.failed false) now actor commit, explains_snoc h.explained hop _, hsound, rfl, haudit,
      nodup_snoc h.once (h.ahead _ _ _ _ hun).unlogged _, reopened_snoc h.reopened (by simp)⟩

/-- The end of the program and its next start: what is saved has happened, and is live as it is read. -/
theorem Explained.restart (h : Explained L channel opened g st) (hclock : L.parsesTime "04:00" = true) (renames : Bool)
    (now : Chrono.Instant) :
    ∃ st', SettingsStore.open L channel (g.store.file.elim .absent .overrides) renames g.store.audit = some st' ∧
      Explained L channel opened ⟨st', g.closed now ++ [(none, .reopen, .ok st'.handle)], none⟩ st' := by
  obtain ⟨last, hexplained, hsound, hfile, haudit, honce, hreopened⟩ := h.closed hclock now
  refine ⟨{ last with handle := .resolve .compiledDefaults (last.file.getD {}) }, ?_, ?_⟩
  · rw [← hfile, ← haudit]
    exact hsound.reopens renames
  · have hop : storeStep L channel last .reopen = ({ last with handle := .resolve .compiledDefaults (last.file.getD {}) },
        .ok (.resolve .compiledDefaults (last.file.getD {}))) := rfl
    refine ⟨explains_snoc hexplained hop none, ?_, reopened_snoc hreopened (by simp), hsound.reopen, rfl, rfl, fun _ => rfl,
      (fun _ _ _ _ hahead => by cases hahead)⟩
    rwa [logged_reopen]

/-- A log that is only longer. -/
theorem StoreWorld.closed_log (g : StoreWorld) (now : Chrono.Instant) : g.log <+: g.closed now := by
  unfold StoreWorld.closed
  split
  · exact List.prefix_refl _
  · exact List.prefix_append _ _

/-- Every step keeps a store orderly, and its log grows. -/
theorem Orderly.step (hclock : L.parsesTime "04:00" = true) (h : Orderly L channel opened w) {e : WriterEvent}
    (hstep : writerStep L channel w e = some w') : Orderly L channel opened w' ∧ w.1.log <+: w'.1.log := by
  obtain ⟨hx, hw, hguard⟩ := h
  cases e with
  | pool e =>
    refine ⟨Program.Guards.step writers_disciplined (writers_outline hclock opened) (writers_guard opened) hx hw hguard
      (allows_true w e) hstep, ?_⟩
    rcases step_cases hstep with ⟨request, rfl, rfl⟩ | ⟨p, io, s, rfl, hs, -, -, rfl⟩
    · exact List.prefix_refl _
    · have hlog : (w.1.next L channel p s io).1.log = w.1.log ∨
          ∃ op r, (w.1.next L channel p s io).1.log = w.1.log ++ [(some p, op, r)] := w.1.log_next p s io
      rcases hlog with hlog | ⟨op, r, hlog⟩
      · exact hlog ▸ List.prefix_refl _
      · exact hlog ▸ List.prefix_append _ _
  | restart renames now =>
    obtain ⟨st, hst⟩ := hw.shared
    obtain ⟨st', hopens, hst'⟩ := hst.restart hclock renames now
    simp only [writerStep, hopens, Option.map_some, Option.some.injEq] at hstep
    subst hstep
    refine ⟨⟨fun p q s t hp _ _ k hk => ?_, ⟨⟨st', hst'⟩, fun p s hp => ?_, fun p hp => ⟨fun hmem => ?_, fun x hx => by cases hx⟩⟩,
      fun _ _ => rfl⟩, (w.1.closed_log now).trans (List.prefix_append _ _)⟩
    · obtain ⟨s', _, rfl⟩ := List.mem_map.mp (List.mem_of_getElem? hp)
      rw [holds_kill] at hk
      cases hk
    · rw [List.getElem?_map, Option.map_eq_some_iff] at hp
      obtain ⟨s', hs', rfl⟩ := hp
      cases s' with
      | ended request r =>
        obtain ⟨op, hop, hmem⟩ := hw.proc p _ hs'
        exact ⟨op, hop, List.mem_append_left _ ((w.1.closed_log now).subset hmem)⟩
      | waiting | loading | saving | publishing | looking | killed => trivial
    · rw [List.length_map] at hp
      obtain ⟨hlog, hun⟩ := hw.free p hp
      rw [logged_reopen] at hmem
      unfold StoreWorld.closed at hmem
      split at hmem
      · exact hlog hmem
      · rename_i p' actor c commit hahead
        rw [logged_snoc, List.mem_append] at hmem
        rcases hmem with hmem | hmem
        · exact hlog hmem
        · exact hun _ hahead (List.mem_singleton.mp hmem).symm

end Twitch1337.Dashboard
