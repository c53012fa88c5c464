import Twitch1337.Lemmas.Diff
import Twitch1337.Lemmas.Stored
import Twitch1337.Lib.Machine
import Twitch1337.Schedule.Orchestrator

/-!
# The settings store

The live handle is valid after every call of every run, and it is what the file resolves to: up to the sizes of media always, and
exactly as long as what is saved is read back. A call that fails changes nothing. A call that succeeds hands an entry to the audit
log exactly when it changes the settings, but the log has the entry only when its append succeeds, for a failed append is logged
and forgotten.
-/

namespace Twitch1337.Dashboard

open Schedules

variable {L : Libs} {channel : String} {st : SettingsStore}

/-! ## The invariant -/

/-- The live handle is valid, and what the file resolves to up to the sizes of media. -/
structure SettingsStore.Sound (L : Libs) (channel : String) (st : SettingsStore) : Prop where
  upToSizes : st.handle.SameUpToSizes (.resolve .compiledDefaults (st.file.getD {}))
  valid : st.handle.validate L channel = .ok ()

/-- The live handle is valid, and what the file resolves to. -/
structure SettingsStore.Consistent (L : Libs) (channel : String) (st : SettingsStore) : Prop where
  resolved : st.handle = Settings.resolve .compiledDefaults (st.file.getD {})
  valid : st.handle.validate L channel = .ok ()

theorem SettingsStore.Consistent.sound (h : st.Consistent L channel) : st.Sound L channel :=
  ⟨congrArg Settings.unsized h.resolved, h.valid⟩

theorem SettingsStore.Sound.validHandle (h : st.Sound L channel) : st.handle.Valid L channel :=
  Settings.validate_ok_iff.mp h.valid

/-- What the file resolves to is valid, too. -/
theorem SettingsStore.Sound.validFile (h : st.Sound L channel) :
    (Settings.resolve .compiledDefaults (st.file.getD {})).Valid L channel :=
  h.upToSizes.valid h.validHandle

/-- The store is consistent when it opens, also when it falls back to the defaults. -/
theorem SettingsStore.consistent_open (hclock : L.parsesTime "04:00" = true) {file : SettingsFile} {renames : Bool}
    {audit : List AuditEntry} (h : SettingsStore.open L channel file renames audit = some st) :
    st.Consistent L channel := by
  unfold SettingsStore.open at h
  rw [Option.bind_eq_some_iff] at h
  obtain ⟨overrides, -, h⟩ := h
  dsimp only at h
  split at h
  · rename_i hvalid
    obtain rfl := Option.some.inj h
    exact ⟨rfl, hvalid⟩
  · split at h
    · obtain rfl := Option.some.inj h
      exact ⟨rfl, Settings.validate_ok_iff.mpr (Settings.valid_compiledDefaults hclock)⟩
    · cases h

/-! ## One call -/

/-- What a call does: it fails and changes nothing, or it succeeds, and hands an entry to the audit log exactly when the
settings have changed, up to the order of the schedules. -/
structure Outcome (st : SettingsStore) (io : Io) (actor : Actor) (result : Except SettingsError Settings × SettingsStore) :
    Prop where
  failed : ∀ e, result.1 = .error e → result.2 = st
  stored : ∀ settings, result.1 = .ok settings → result.2.handle = settings
  unchanged : ∀ settings, result.1 = .ok settings → st.handle.SameUpToOrder settings → result.2.audit = st.audit
  changed : ∀ settings, result.1 = .ok settings → ¬ st.handle.SameUpToOrder settings →
    ∃ entry : AuditEntry, entry.actorId = actor.userId ∧ entry.actorLogin = actor.userLogin ∧ entry.changes ≠ [] ∧
      result.2.audit = appended io.append st.audit entry

/-- A call that fails early. -/
theorem Outcome.error (io : Io) (actor : Actor) (e : SettingsError) : Outcome st io actor (.error e, st) :=
  ⟨fun _ _ => rfl, (fun _ h => by cases h), (fun _ h => by cases h), (fun _ h => by cases h)⟩

/-- The entry of a commit: there is one exactly when the settings have changed. -/
theorem auditEntry_cases {prior resolved : Settings} (hprior : prior.Valid L channel) (hvalid : resolved.Valid L channel)
    (hversion : prior.schemaVersion = resolved.schemaVersion) (now : Chrono.Instant) (actor : Actor) :
    (prior.SameUpToOrder resolved → auditEntry now actor prior resolved = none) ∧
      (¬ prior.SameUpToOrder resolved → ∃ entry : AuditEntry, entry.actorId = actor.userId ∧
        entry.actorLogin = actor.userLogin ∧ entry.changes ≠ [] ∧
        auditEntry now actor prior resolved = some entry) := by
  have hdiff := diffChanges_eq_nil_iff hversion hprior.names hvalid.names
  constructor
  · intro hsame
    rw [auditEntry, if_pos (List.isEmpty_iff.mpr (hdiff.mpr hsame))]
  · intro hsame
    have hchanges := mt hdiff.mp hsame
    refine ⟨⟨now, actor.userId, actor.userLogin, diffChanges prior resolved⟩, rfl, rfl, hchanges, ?_⟩
    rw [auditEntry, if_neg (mt List.isEmpty_iff.mp hchanges)]

/-- A commit of valid settings to a consistent store has its outcome. -/
theorem SettingsStore.Consistent.commit (hc : st.Consistent L channel) {current : SettingsOverrides} (io : Io)
    (actor : Actor) (hvalid : (Settings.resolve .compiledDefaults current).Valid L channel)
    {result : Except SettingsError Settings × SettingsStore}
    (hresult : st.commit L io current (Settings.resolve .compiledDefaults (st.file.getD {}))
      (Settings.resolve .compiledDefaults current) actor = result) : Outcome st io actor result := by
  have hprior : st.handle.Valid L channel := Settings.validate_ok_iff.mp hc.valid
  have hversion : st.handle.schemaVersion = (Settings.resolve .compiledDefaults current).schemaVersion := by
    rw [hc.resolved]
    rfl
  obtain ⟨hsame, hchanged⟩ := auditEntry_cases hprior hvalid hversion io.now actor
  rw [← hc.resolved] at hresult
  unfold SettingsStore.commit at hresult
  by_cases hsaves : io.saves = true
  · rw [if_pos hsaves] at hresult
    subst hresult
    refine ⟨(fun _ h => by cases h), ?_, ?_, ?_⟩
    · intro settings h
      exact Except.ok.inj h
    · intro settings h hs
      obtain rfl := Except.ok.inj h
      rw [hsame hs]
    · intro settings h hs
      obtain rfl := Except.ok.inj h
      obtain ⟨entry, hid, hlogin, hchanges, hentry⟩ := hchanged hs
      refine ⟨entry, hid, hlogin, hchanges, ?_⟩
      rw [hentry]
  · rw [if_neg hsaves] at hresult
    subst hresult
    exact .error io actor .persist

/-- A change of the overrides is turned down, or is a commit of settings that are valid. -/
theorem SettingsStore.applyWith_cases (L : Libs) (channel : String) (st : SettingsStore) (io : Io)
    (mutate : SettingsOverrides → SettingsOverrides) (actor : Actor) :
    (∃ e, st.applyWith L channel io mutate actor = (.error e, st)) ∨
    ((Settings.resolve .compiledDefaults (mutate (st.file.getD {}))).Valid L channel ∧
      st.applyWith L channel io mutate actor = st.commit L io (mutate (st.file.getD {}))
        (Settings.resolve .compiledDefaults (st.file.getD {})) (Settings.resolve .compiledDefaults (mutate (st.file.getD {})))
        actor) := by
  unfold SettingsStore.applyWith
  split
  · exact .inl ⟨_, rfl⟩
  · dsimp only
    split
    · exact .inl ⟨_, rfl⟩
    · rename_i hvalid
      exact .inr ⟨Settings.validate_ok_iff.mp hvalid, rfl⟩

/-- A call that is not turned down is a commit of settings that are valid. -/
theorem SettingsStore.Sound.call_cases (hclock : L.parsesTime "04:00" = true) (hs : st.Sound L channel) (io : Io)
    (actor : Actor) (c : Call) :
    (∃ e, st.call L channel io actor c = (.error e, st)) ∨
    ((Settings.resolve .compiledDefaults (c.mutate (st.file.getD {}))).Valid L channel ∧
      st.call L channel io actor c = st.commit L io (c.mutate (st.file.getD {}))
        (Settings.resolve .compiledDefaults (st.file.getD {})) (Settings.resolve .compiledDefaults (c.mutate (st.file.getD {})))
        actor) := by
  cases c with
  | apply patch => exact SettingsStore.applyWith_cases L channel st io (fun current => mergeInto current patch) actor
  | applyWith mutate => exact SettingsStore.applyWith_cases L channel st io mutate actor
  | reset sec =>
    rw [SettingsStore.call, SettingsStore.reset]
    split
    · exact .inl ⟨_, rfl⟩
    · exact .inr ⟨valid_reset hclock hs.validFile sec, rfl⟩

/-- A commit of valid settings leaves a sound store, and a consistent one when what it saves is read back. -/
theorem SettingsStore.commit_keeps {current : SettingsOverrides} (io : Io) (prior : Settings) (actor : Actor)
    (hvalid : (Settings.resolve .compiledDefaults current).Valid L channel) :
    (st.Sound L channel → (st.commit L io current prior (.resolve .compiledDefaults current) actor).2.Sound L channel) ∧
      (st.Consistent L channel → current.ReadsBack L →
        (st.commit L io current prior (.resolve .compiledDefaults current) actor).2.Consistent L channel) := by
  unfold SettingsStore.commit
  split
  · have hok := Settings.validate_ok_iff.mpr hvalid
    refine ⟨fun _ => ⟨(resolve_stored L current).symm, hok⟩, fun _ hback => ⟨?_, hok⟩⟩
    rw [Option.getD_some, hback]
  · exact ⟨id, fun h _ => h⟩

/-- Every call leaves a sound store. -/
theorem SettingsStore.Sound.call (hclock : L.parsesTime "04:00" = true) (hs : st.Sound L channel) (io : Io) (actor : Actor)
    (c : Call) : (st.call L channel io actor c).2.Sound L channel := by
  rcases hs.call_cases hclock io actor c with ⟨e, heq⟩ | ⟨hvalid, heq⟩
  · rw [heq]
    exact hs
  · rw [heq]
    exact (SettingsStore.commit_keeps io _ actor hvalid).1 hs

/-- Every call of a consistent store has its outcome, and leaves a consistent store when what it saves is read back. -/
theorem SettingsStore.Consistent.call (hclock : L.parsesTime "04:00" = true) (hc : st.Consistent L channel) (io : Io)
    (actor : Actor) (c : Call) :
    ((c.mutate (st.file.getD {})).ReadsBack L → (st.call L channel io actor c).2.Consistent L channel) ∧
      Outcome st io actor (st.call L channel io actor c) := by
  rcases hc.sound.call_cases hclock io actor c with ⟨e, heq⟩ | ⟨hvalid, heq⟩
  · rw [heq]
    exact ⟨fun _ => hc, .error io actor e⟩
  · rw [heq]
    exact ⟨(SettingsStore.commit_keeps io _ actor hvalid).2 hc, hc.commit io actor hvalid rfl⟩

/-! ## Runs -/

/-- What a call would save is read back. -/
def CallEvent.ReadsBack (L : Libs) (st : SettingsStore) (e : CallEvent) : Prop := (e.call.mutate (st.file.getD {})).ReadsBack L

instance (L : Libs) (st : SettingsStore) (e : CallEvent) : Decidable (e.ReadsBack L st) :=
  inferInstanceAs (Decidable ((e.call.mutate (st.file.getD {})).ReadsBack L))

/-- After every run of calls from an open store that save what is read back, the live handle is valid and what the file resolves
to, and every call has its outcome. -/
theorem settings_store_invariant (hclock : L.parsesTime "04:00" = true) {file : SettingsFile} {renames : Bool}
    {audit : List AuditEntry} {opened : SettingsStore}
    (hopen : SettingsStore.open L channel file renames audit = some opened) {calls : List CallEvent}
    (hback : Machine.Meets (SettingsStore.step L channel) (fun s e => e.ReadsBack L s) opened calls)
    (hrun : Machine.run (SettingsStore.step L channel) opened calls = some st) :
    st.Consistent L channel ∧ ∀ e : CallEvent, Outcome st e.io e.actor (st.call L channel e.io e.actor e.call) := by
  have hc : st.Consistent L channel :=
    Machine.run_invariant_of_meets (fun s e s' hs hok h => Option.some.inj h ▸ (hs.call hclock e.io e.actor e.call).1 hok)
      (SettingsStore.consistent_open hclock hopen) hback hrun
  exact ⟨hc, fun e => (hc.call hclock e.io e.actor e.call).2⟩

/-- The schedules of a live handle are what the orchestrator takes for committed. -/
def Settings.committed (s : Settings) (h : s.Valid L channel) : Committed := ⟨s.schedules, h.names⟩

/-- A number of bytes to one decimal of its unit. -/
def roundedSize (n : ByteSize) : ByteSize :=
  let unit := 1024 ^ (n.bytes.toNat.log2 / 10)
  let tenths := (20 * n.bytes.toNat + unit) / (2 * unit)
  if unit = 1 then n else ⟨UInt64.ofNat (tenths * unit / 10)⟩

/-- Libraries that take every text for a URL, and five characters for a time of day. -/
def plainLibs : Libs where
  render := ⟨String.ofList, id⟩
  displayF64 _ := "0"
  parsesUrl _ := true
  parsesTime s := s.length == 5
  storedSize := roundedSize

/-- 25 MiB are kept, and 5 MB are read back as 4.8 MiB. -/
example : roundedSize ⟨26214400⟩ = ⟨26214400⟩ ∧ roundedSize ⟨5000000⟩ = ⟨5033164⟩ := by decide +kernel

/-- The file system does what it is asked, but for the append. -/
def ioWith (append : Append) : Io := ⟨none, true, append, 0⟩

def owner : Actor := ⟨"1", "owner"⟩

/-- The store of an empty directory. -/
def freshStore : SettingsStore := ⟨none, .compiledDefaults, []⟩

/-- A patch that gives the AI a cooldown of 31 seconds. -/
def slowerAi : SettingsOverrides := { cooldowns := { ai := some 31 } }

/-- A patch that limits images to 5 MB. -/
def smallImages : SettingsOverrides := { ai := { media := { maxImageSize := some ⟨5000000⟩ } } }

theorem fresh_open : SettingsStore.open plainLibs "chan" .absent true [] = some freshStore := by decide +kernel

/-- A patch, and a reset of another section. -/
def patchedRun : List CallEvent :=
  [⟨ioWith .ok, owner, .apply slowerAi⟩, ⟨ioWith .ok, owner, .reset .aiHistory⟩]

theorem readsBack_patchedRun :
    Machine.Meets (SettingsStore.step plainLibs "chan") (fun s e => e.ReadsBack plainLibs s) freshStore patchedRun := by
  decide +kernel

theorem patchedRun_isSome : (Machine.run (SettingsStore.step plainLibs "chan") freshStore patchedRun).isSome = true := rfl

/-- The patch stays, and only the patch is in the audit log. -/
theorem settings_store_patched :
    ∃ st, Machine.run (SettingsStore.step plainLibs "chan") freshStore patchedRun = some st ∧
      st.Consistent plainLibs "chan" ∧ st.handle.cooldowns.ai = 31 ∧ st.audit.length = 1 := by
  have hrun : Machine.run (SettingsStore.step plainLibs "chan") freshStore patchedRun =
      some (Option.get _ patchedRun_isSome) := (Option.some_get _).symm
  exact ⟨_, hrun, (settings_store_invariant (by decide +kernel) fresh_open readsBack_patchedRun hrun).1, by decide +kernel, by decide +kernel⟩

/-- A call returns Ok and changes the settings, and the audit log stays empty. -/
theorem audit_entry_lost :
    ∃ settings, (freshStore.call plainLibs "chan" (ioWith (.failed false)) owner (.apply slowerAi)).1 = .ok settings ∧
      ¬ freshStore.handle.SameUpToOrder settings ∧
      (freshStore.call plainLibs "chan" (ioWith (.failed false)) owner (.apply slowerAi)).2.audit = [] := by
  refine ⟨Settings.resolve .compiledDefaults slowerAi, by decide +kernel, fun h => ?_, by decide +kernel⟩
  have hai : freshStore.handle.cooldowns.ai = (Settings.resolve .compiledDefaults slowerAi).cooldowns.ai :=
    congrArg (fun s : Settings => s.cooldowns.ai) h.1
  revert hai
  decide

end Twitch1337.Dashboard
