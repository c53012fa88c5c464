import Twitch1337.Settings.Boot
import Twitch1337.Theorems.LostUpdates
import Twitch1337.Theorems.Patches

/-!
# Legacy keys are taken over once

However often the program is stopped before or fails at a step, the first start that gets through finds in `settings.ron` what was
there, with the legacy keys of `config.toml` merged in, each section once in the audit log at most, if the sizes of media among them
are read back as they are. From then on no start changes the settings: they are what the calls of the dashboard have left.
-/

namespace Twitch1337.Dashboard

variable {L : Libs} {R : TextReaders} {channel : String} {c : Configuration} {i i' : Installation} {b : Boot} {st : SettingsStore}

/-! ## What a start reads -/

/-- The overrides that a start finds in a file. -/
def SettingsFile.loaded (L : Libs) (channel : String) : SettingsFile → SettingsOverrides
  | .overrides o => if (Settings.resolve .compiledDefaults o).validate L channel = .ok () then o else {}
  | _ => {}

/-- The file of a store, as a start finds it. -/
def SettingsStore.asFile (st : SettingsStore) : SettingsFile := st.file.elim .absent .overrides

/-- Overrides that are valid are loaded as they are. -/
theorem SettingsFile.loaded_valid {o : SettingsOverrides} (h : (Settings.resolve .compiledDefaults o).validate L channel = .ok ()) :
    (SettingsFile.overrides o).loaded L channel = o := by
  rw [SettingsFile.loaded, if_pos h]

/-- Overrides that are not valid are left aside, and nothing is loaded from them. -/
theorem SettingsFile.loaded_invalid {o : SettingsOverrides} {errs : List Schedules.FieldError}
    (h : (Settings.resolve .compiledDefaults o).validate L channel = .error errs) :
    (SettingsFile.overrides o).loaded L channel = {} := by
  rw [SettingsFile.loaded, h, if_neg (by simp)]

/-- What is read of a file, and what a store makes of that. -/
theorem SettingsStore.open_cases {file : SettingsFile} {renames : Bool} {audit : List AuditEntry}
    (h : SettingsStore.open L channel file renames audit = some st) :
    st.audit = audit ∧ ((∃ o, file = .overrides o ∧ (Settings.resolve .compiledDefaults o).validate L channel = .ok () ∧
        st.file = some o) ∨
      (∃ o errs, file = .overrides o ∧ (Settings.resolve .compiledDefaults o).validate L channel = .error errs ∧
        st.file = none) ∨
      ((∀ o, file ≠ .overrides o) ∧ st.file = none)) := by
  unfold SettingsStore.open at h
  rw [Option.bind_eq_some_iff] at h
  obtain ⟨overrides, hread, h⟩ := h
  dsimp only at h
  split at h
  · rename_i hvalid
    obtain rfl := Option.some.inj h
    refine ⟨rfl, ?_⟩
    cases file with
    | overrides o =>
      obtain rfl := Option.some.inj hread
      exact .inl ⟨o, rfl, hvalid, rfl⟩
    | absent =>
      obtain rfl := Option.some.inj hread
      exact .inr (.inr ⟨(fun o ho => by cases ho), rfl⟩)
    | corrupt =>
      simp only [Option.ite_none_right_eq_some] at hread
      obtain rfl := Option.some.inj hread.2
      exact .inr (.inr ⟨(fun o ho => by cases ho), rfl⟩)
  · rename_i errs hinvalid
    rw [Option.ite_none_right_eq_some] at h
    obtain rfl := Option.some.inj h.2
    refine ⟨rfl, ?_⟩
    cases file with
    | overrides o =>
      obtain rfl := Option.some.inj hread
      exact .inr (.inl ⟨o, errs, rfl, hinvalid, rfl⟩)
    | absent | corrupt => exact .inr (.inr ⟨(fun o ho => by cases ho), rfl⟩)

/-- A store that is opened has what the file says, and the log as it was. -/
theorem SettingsStore.open_reads {file : SettingsFile} {renames : Bool} {audit : List AuditEntry}
    (h : SettingsStore.open L channel file renames audit = some st) :
    st.file.getD {} = file.loaded L channel ∧ st.audit = audit := by
  obtain ⟨haudit, ⟨o, rfl, hvalid, hst⟩ | ⟨o, errs, rfl, hinvalid, hst⟩ | ⟨hnone, hst⟩⟩ := SettingsStore.open_cases h <;>
    refine ⟨?_, haudit⟩ <;> rw [hst]
  · rw [SettingsFile.loaded_valid hvalid, Option.getD_some]
  · rw [SettingsFile.loaded_invalid hinvalid, Option.getD_none]
  · cases file with
    | absent | corrupt => rfl
    | overrides o => exact absurd rfl (hnone o)

/-- What a sound store has on disk, the next start reads. -/
theorem SettingsStore.Sound.loaded_asFile (h : st.Sound L channel) : st.asFile.loaded L channel = st.file.getD {} := by
  have hvalid := Settings.validate_ok_iff.mpr h.validFile
  unfold SettingsStore.asFile
  cases hfile : st.file with
  | none => rfl
  | some o =>
    rw [hfile, Option.getD_some] at hvalid
    exact SettingsFile.loaded_valid hvalid

/-! ## Calls -/

/-- A store that holds overrides. -/
def SettingsStore.holding (o : SettingsOverrides) : SettingsStore := ⟨some o, Settings.resolve .compiledDefaults o, []⟩

/-- What a call leaves of overrides. -/
def CallEvent.leaves (L : Libs) (channel : String) (o : SettingsOverrides) (e : CallEvent) : SettingsOverrides :=
  (((SettingsStore.holding o).call L channel e.io e.actor e.call).2.file.getD {})

/-- What calls leave of overrides, one after the other. -/
def replayCalls (L : Libs) (channel : String) (o : SettingsOverrides) (calls : List CallEvent) : SettingsOverrides :=
  calls.foldl (CallEvent.leaves L channel) o

/-- A commit writes what the overrides are stored as, or nothing. -/
theorem SettingsStore.file_commit {io : Io} {current : SettingsOverrides} {prior resolved : Settings} {actor : Actor} :
    (st.commit L io current prior resolved actor).2.file = if io.saves then some (current.stored L) else st.file := by
  unfold SettingsStore.commit
  split <;> rfl

/-- What a call leaves depends on what the store holds, and on nothing else of the store. -/
theorem SettingsStore.call_leaves (st : SettingsStore) (e : CallEvent) :
    (st.call L channel e.io e.actor e.call).2.file.getD {} = e.leaves L channel (st.file.getD {}) := by
  have hheld : (SettingsStore.holding (st.file.getD {})).file.getD {} = st.file.getD {} := rfl
  unfold CallEvent.leaves
  cases hload : e.io.loadError with
  | some err => rw [call_loadError hload, call_loadError hload, hheld]
  | none =>
    cases hcheck : e.call.check L channel (e.call.prepare (st.file.getD {})).resolved with
    | error errs => rw [call_invalid hload hcheck, call_invalid hload (hheld ▸ hcheck), hheld]
    | ok =>
      rw [call_ok hload hcheck, call_ok hload (hheld ▸ hcheck), file_commit, file_commit]
      split
      · rfl
      · exact hheld.symm

/-- A patch that is applied and read back is merged, and has an entry in the audit log at most. -/
theorem SettingsStore.apply_merges (hclock : L.parsesTime "04:00" = true) (hc : st.Consistent L channel) {io : Io}
    {patch : SettingsOverrides} {actor : Actor} {settings : Settings} {store : SettingsStore}
    (hback : (mergeInto (st.file.getD {}) patch).ReadsBack L) (h : st.apply L channel io patch actor = (.ok settings, store)) :
    store.file = some (mergeInto (st.file.getD {}) patch) ∧ store.Consistent L channel ∧
      (store.audit = st.audit ∨ ∃ entry : AuditEntry, entry.actorLogin = actor.userLogin ∧ store.audit = st.audit ++ [entry]) ∧
      (mergeInto (st.file.getD {}) patch = st.file.getD {} → store.audit = st.audit) := by
  obtain ⟨hconsistent, houtcome⟩ := hc.call hclock io actor (.apply patch)
  replace hconsistent := hconsistent hback
  rw [SettingsStore.call, h] at hconsistent houtcome
  have hfile : store.file = some (mergeInto (st.file.getD {}) patch) := by
    rw [SettingsStore.apply, SettingsStore.applyWith] at h
    split at h
    · cases h
    · dsimp only at h
      split at h
      · cases h
      · have hfile := congrArg (fun r => r.2.file) h
        rw [file_commit] at hfile
        split at hfile
        · rw [← hfile, hback]
        · rename_i hsaves
          rw [SettingsStore.commit, if_neg hsaves] at h
          cases h
  refine ⟨hfile, hconsistent, ?_, fun hsame => houtcome.unchanged settings rfl ?_⟩
  · by_cases hsame : st.handle.SameUpToOrder settings
    · exact .inl (houtcome.unchanged settings rfl hsame)
    · obtain ⟨entry, -, hlogin, -, haudit⟩ := houtcome.changed settings rfl hsame
      unfold appended at haudit
      split at haudit
      · exact .inr ⟨entry, hlogin, haudit⟩
      · split at haudit
        · exact .inr ⟨entry, hlogin, haudit⟩
        · exact .inl haudit
  -- what is merged is there already, so the settings stay
  · have hhandle : store.handle = settings := houtcome.stored settings rfl
    rw [← hhandle, hconsistent.resolved, hc.resolved, hfile, Option.getD_some, hsame]
    exact ⟨rfl, .rfl⟩

/-! ## Upgrades -/

/-- The keys of the second part are those of four sections. -/
theorem eq_empty_of_parts {root : Toml} (htwitch : (migrateLegacyConfig R root).twitch = {})
    (haviationstack : (migrateLegacyConfig R root).aviationstack = {}) (hsuspend : (migrateLegacyConfig R root).suspend = {})
    (hweb : (migrateLegacyConfig R root).web = {}) : migrateLegacyConfig R root = {} := by
  have heta : migrateLegacyConfig R root = {
      twitch := (migrateLegacyConfig R root).twitch, aviationstack := (migrateLegacyConfig R root).aviationstack,
      suspend := (migrateLegacyConfig R root).suspend, web := (migrateLegacyConfig R root).web } := rfl
  rw [heta, htwitch, haviationstack, hsuspend, hweb]

/-- What an upgrade starts from, and what it merges into that, in two steps. -/
structure Upgrade where
  base : SettingsOverrides
  aiPatch : SettingsOverrides
  configPatch : SettingsOverrides

/-- The overrides after the first part. -/
def Upgrade.ai (u : Upgrade) : SettingsOverrides := mergeInto u.base u.aiPatch

/-- The overrides after both. -/
def Upgrade.all (u : Upgrade) : SettingsOverrides := mergeInto u.ai u.configPatch

/-- A patch that is merged again changes nothing. -/
theorem mergeInto_twice (into patch : SettingsOverrides) : mergeInto (mergeInto into patch) patch = mergeInto into patch := by
  rw [mergeInto_assoc, mergeInto_self]

/-- The upgrade of an installation. Where the first marker is there, the keys of the AI were taken over before. -/
def Installation.upgrade (L : Libs) (R : TextReaders) (c : Configuration) (i : Installation) : Upgrade where
  base := i.file.loaded L c.channel
  aiPatch := if i.aiMarker then {} else { ai := migrateLegacyAi R c.rawToml }
  configPatch := migrateLegacyConfig R c.rawToml

/-- The overrides after the first part, or after the second, and whom the audit log can name for that. -/
def Upgrade.AtAi (u : Upgrade) (o : SettingsOverrides) (logins : List String) : Prop :=
  o = u.ai ∧ logins.Sublist ["migrate"]

def Upgrade.AtAll (u : Upgrade) (o : SettingsOverrides) (logins : List String) : Prop :=
  o = u.all ∧ logins.Sublist ["migrate", "v3-migration"]

/-- What an upgrade has reached before its end, by the first marker and by what the program does next. -/
def Upgrade.At (u : Upgrade) (o : SettingsOverrides) (logins : List String) : Bool → Option BootStage → Prop
  | false, none | false, some .aiMigration => (o = u.base ∧ logins = []) ∨ u.AtAi o logins
  | false, some .aiMarker => u.AtAi o logins
  | true, none | true, some .aiMigration | true, some .configMigration => u.AtAi o logins ∨ u.AtAll o logins
  | true, some .configMarker => u.AtAll o logins
  | _, _ => False

/-- What holds of an installation that is upgraded with a configuration, whose sizes are read back. -/
structure Upgrades (L : Libs) (R : TextReaders) (c : Configuration) (u : Upgrade) (audit : List AuditEntry) (i : Installation) :
    Prop where
  back : u.all.ReadsBack L
  aiPatch : i.aiMarker = false → u.aiPatch = { ai := migrateLegacyAi R c.rawToml }
  configPatch : u.configPatch = migrateLegacyConfig R c.rawToml
  live : ∀ b ∈ i.boot, b.config.channel = c.channel ∧ b.store.Sound L c.channel ∧ i.file = b.store.asFile ∧
    i.audit = b.store.audit ∧ (i.configMarker = false → b.config.rawToml = c.rawToml)
  unrounded : i.calls = [] → ∀ b ∈ i.boot, b.store.Consistent L c.channel
  under : i.configMarker = false → i.calls = [] ∧ ∃ entries, i.audit = audit ++ entries ∧
    u.At (i.file.loaded L c.channel) (entries.map (·.actorLogin)) i.aiMarker (i.boot.map (·.stage))
  done : i.configMarker = true → i.aiMarker = true ∧ i.file.loaded L c.channel = replayCalls L c.channel u.all i.calls ∧
    ∀ b ∈ i.boot, b.stage ≠ .aiMarker ∧ b.stage ≠ .configMarker

/-- The program is started with the configuration, until the upgrade is done; then with any of the same channel. -/
def Uses (c : Configuration) (i : Installation) : BootEvent → Prop
  | .start config _ => config.channel = c.channel ∧ (i.configMarker = false → config.rawToml = c.rawToml)
  | _ => True

variable {u : Upgrade} {audit : List AuditEntry}

/-- The first part changes nothing the second time. -/
theorem Upgrade.AtAi.again {o : SettingsOverrides} {logins : List String} (h : u.AtAi o logins) :
    mergeInto o u.aiPatch = o := by
  rw [h.1, Upgrade.ai, mergeInto_twice]

/-- The second part changes nothing the second time. -/
theorem Upgrade.AtAll.again {o : SettingsOverrides} {logins : List String} (h : u.AtAll o logins) :
    mergeInto o u.configPatch = o := by
  rw [h.1, Upgrade.all, mergeInto_twice]

/-- The keys of the second part have no sizes, so that what is merged first is read back when all is. -/
theorem Upgrades.backAi (h : Upgrades L R c u audit i) : u.ai.ReadsBack L := by
  have hback := readsBack_iff.mp h.back
  refine readsBack_iff.mpr fun l v hv => ?_
  by_cases hl : l.kind = .bytes
  · refine hback l v ?_
    have hnone : l.get u.configPatch = none := by
      rw [h.configPatch]
      cases l <;> first
        | rfl
        | cases hl
    rw [Upgrade.all, get_mergeInto_of_none hnone, hv]
  · exact stored_of_kind hl v

/-- The end of the program leaves what an upgrade has reached. -/
theorem Upgrade.At.stopped {o : SettingsOverrides} {logins : List String} {marker : Bool} {stage : Option BootStage}
    (h : u.At o logins marker stage) : u.At o logins marker none := by
  cases marker <;> cases stage with
  | none => exact h
  | some stage =>
    cases stage <;> first
      | exact h
      | exact Or.inr h
      | exact h.elim

/-- What is read, and whom the audit log names. -/
theorem Upgrade.At.reads {o : SettingsOverrides} {logins : List String} {marker : Bool} {stage : Option BootStage}
    (h : u.At o logins marker stage) : (o = u.base ∨ o = u.ai ∨ o = u.all) ∧ logins.Sublist ["migrate", "v3-migration"] := by
  have hai : u.AtAi o logins → (o = u.base ∨ o = u.ai ∨ o = u.all) ∧ logins.Sublist ["migrate", "v3-migration"] :=
    fun h => ⟨.inr (.inl h.1), h.2.trans (List.sublist_append_left ["migrate"] ["v3-migration"])⟩
  have hall : u.AtAll o logins → (o = u.base ∨ o = u.ai ∨ o = u.all) ∧ logins.Sublist ["migrate", "v3-migration"] :=
    fun h => ⟨.inr (.inr h.1), h.2⟩
  have hstopped := h.stopped
  cases marker with
  | false =>
    rcases hstopped with ⟨hbase, hlogins⟩ | h
    · exact ⟨.inl hbase, hlogins ▸ List.nil_sublist _⟩
    · exact hai h
  | true =>
    rcases hstopped with h | h
    · exact hai h
    · exact hall h

/-- The next start finds it. -/
theorem Upgrade.At.started {o : SettingsOverrides} {logins : List String} {marker : Bool}
    (h : u.At o logins marker none) : u.At o logins marker (some .aiMigration) := by
  cases marker <;> exact h

/-- The end of the program leaves an upgrade where it is. -/
theorem Upgrades.stop (h : Upgrades L R c u audit i) : Upgrades L R c u audit { i with boot := none } := by
  refine ⟨h.back, h.aiPatch, h.configPatch, (fun b hb => by cases hb), (fun _ b hb => by cases hb), fun hmarker => ?_,
    fun hdone => ?_⟩
  · obtain ⟨hcalls, entries, haudit, hreached⟩ := h.under hmarker
    exact ⟨hcalls, entries, haudit, hreached.stopped⟩
  · obtain ⟨hai, hreplay, -⟩ := h.done hdone
    exact ⟨hai, hreplay, fun b hb => by cases hb⟩

/-- A start goes on with it. -/
theorem Upgrades.start (hclock : L.parsesTime "04:00" = true) (h : Upgrades L R c u audit i) (hoff : i.boot = none)
    {config : Configuration} {renames : Bool} (hchannel : config.channel = c.channel)
    (hraw : i.configMarker = false → config.rawToml = c.rawToml)
    (hopen : SettingsStore.open L config.channel i.file renames i.audit = some st) :
    Upgrades L R c u audit (i.keep ⟨config, st, .aiMigration⟩ st) := by
  rw [hchannel] at hopen
  obtain ⟨hfile, haudit⟩ := SettingsStore.open_reads hopen
  have hconsistent := SettingsStore.consistent_open hclock hopen
  have hloaded : st.asFile.loaded L c.channel = i.file.loaded L c.channel := hconsistent.sound.loaded_asFile.trans hfile
  refine ⟨h.back, h.aiPatch, h.configPatch, fun b hb => ?_, fun _ b hb => ?_, fun hmarker => ?_, fun hmarker => ?_⟩
  · obtain rfl := Option.some.inj hb
    exact ⟨hchannel, hconsistent.sound, rfl, rfl, hraw⟩
  · obtain rfl := Option.some.inj hb
    exact hconsistent
  · obtain ⟨hcalls, entries, hentries, hat⟩ := h.under hmarker
    rw [hoff] at hat
    exact ⟨hcalls, entries, haudit.trans hentries, hloaded ▸ hat.started⟩
  · obtain ⟨hai, hreplay, -⟩ := h.done hmarker
    refine ⟨hai, hloaded.trans hreplay, fun b hb => ?_⟩
    obtain rfl := Option.some.inj hb
    exact ⟨(by simp), (by simp)⟩

/-! ## The steps of the program -/

/-- A store that the program has left to the disk. -/
theorem Upgrades.kept (h : Upgrades L R c u audit i) (entries : List AuditEntry) (hb : i.boot = some b)
    (hmarker : i.configMarker = false) {next : BootStage} {store : SettingsStore} (hconsistent : store.Consistent L c.channel)
    (haudit : store.audit = audit ++ entries)
    (hat : u.At (store.file.getD {}) (entries.map (·.actorLogin)) i.aiMarker (some next)) :
    Upgrades L R c u audit (i.keep { b with stage := next } store) := by
  obtain ⟨hchannel, -, -, -, hraw⟩ := h.live b hb
  refine ⟨h.back, h.aiPatch, h.configPatch, fun b' hb' => ?_, fun _ b' hb' => ?_, fun _ => ?_, fun hdone => ?_⟩
  · obtain rfl := Option.some.inj hb'
    exact ⟨hchannel, hconsistent.sound, rfl, rfl, hraw⟩
  · obtain rfl := Option.some.inj hb'
    exact hconsistent
  · exact ⟨(h.under hmarker).1, entries, haudit, hconsistent.sound.loaded_asFile.symm ▸ hat⟩
  · cases hmarker.symm.trans hdone

/-- A migration ends the program, or is merged with an entry in the audit log at most, and with none when it was there already. -/
theorem Upgrades.migrate_cases (hclock : L.parsesTime "04:00" = true) (h : Upgrades L R c u audit i) (hb : i.boot = some b)
    (hmarker : i.configMarker = false) (io : Io) (patch : SettingsOverrides) (userLogin : String) (next : BootStage)
    (hback : (mergeInto (i.file.loaded L c.channel) patch).ReadsBack L) :
    i.migrate L b io patch userLogin next = { i with boot := none } ∨
      ∃ store, i.migrate L b io patch userLogin next = i.keep { b with stage := next } store ∧
        store.Consistent L c.channel ∧ store.file.getD {} = mergeInto (i.file.loaded L c.channel) patch ∧
        (store.audit = i.audit ∨ ∃ entry : AuditEntry, entry.actorLogin = userLogin ∧ store.audit = i.audit ++ [entry]) ∧
        (mergeInto (i.file.loaded L c.channel) patch = i.file.loaded L c.channel → store.audit = i.audit) := by
  obtain ⟨hchannel, hsound, hfile, haudit, -⟩ := h.live b hb
  have hconsistent := h.unrounded (h.under hmarker).1 b hb
  rw [hfile, hsound.loaded_asFile] at hback
  unfold Installation.migrate
  rw [hchannel, hfile, hsound.loaded_asFile, haudit]
  split
  · rename_i store happly
    obtain ⟨hmerged, hstore, hentry, hagain⟩ := SettingsStore.apply_merges hclock hconsistent hback happly
    exact .inr ⟨store, rfl, hstore, by rw [hmerged, Option.getD_some], hentry, hagain⟩
  · exact .inl rfl

/-- Entering the next stage keeps the progress, when what was reached is what that stage expects. -/
theorem Upgrades.enter (h : Upgrades L R c u audit i) (hb : i.boot = some b) {next : BootStage}
    (hat : i.configMarker = false → ∀ o logins, u.At o logins i.aiMarker (some b.stage) → u.At o logins i.aiMarker (some next))
    (hnext : i.configMarker = true → next ≠ .aiMarker ∧ next ≠ .configMarker) :
    Upgrades L R c u audit (i.enter b next) := by
  refine ⟨h.back, h.aiPatch, h.configPatch, fun b' hb' => ?_, fun hcalls b' hb' => ?_, fun hmarker => ?_, fun hdone => ?_⟩
  · obtain rfl := Option.some.inj hb'
    exact h.live b hb
  · obtain rfl := Option.some.inj hb'
    exact h.unrounded hcalls b hb
  · obtain ⟨hcalls, entries, haudit, hreached⟩ := h.under hmarker
    rw [hb] at hreached
    exact ⟨hcalls, entries, haudit, hat hmarker _ _ hreached⟩
  · obtain ⟨hai, hreplay, -⟩ := h.done hdone
    refine ⟨hai, hreplay, fun b' hb' => ?_⟩
    obtain rfl := Option.some.inj hb'
    exact hnext hdone

/-- The first part is done, or is found to be done. -/
theorem Upgrades.aiMigration (hclock : L.parsesTime "04:00" = true) (h : Upgrades L R c u audit i) (hb : i.boot = some b)
    (hstage : b.stage = .aiMigration) (hnew : i.aiMarker = false) (io : Io) :
    Upgrades L R c u audit
      (if migrateLegacyAi R b.config.rawToml ≠ {} then
        i.migrate L b io { ai := migrateLegacyAi R b.config.rawToml } "migrate" .aiMarker
      else i.enter b .aiMarker) := by
  have hmarker : i.configMarker = false := by
    by_contra hdone
    rw [(h.done (eq_true_of_ne_false hdone)).1] at hnew
    cases hnew
  have hraw : b.config.rawToml = c.rawToml := (h.live b hb).2.2.2.2 hmarker
  have hpatch := h.aiPatch hnew
  rw [hraw]
  split
  · obtain ⟨-, entries, haudit, hreached⟩ := h.under hmarker
    rw [hb, hnew, Option.map_some, hstage] at hreached
    have hback : (mergeInto (i.file.loaded L c.channel) u.aiPatch).ReadsBack L := by
      rcases hreached with ⟨hbase, -⟩ | hai
      · rw [hbase]
        exact h.backAi
      · rw [hai.again, hai.1]
        exact h.backAi
    rw [← hpatch]
    rcases h.migrate_cases hclock hb hmarker io u.aiPatch "migrate" .aiMarker hback with
      hend | ⟨store, heq, hstore, hmerged, hentry, hagain⟩
    · rw [hend]
      exact h.stop
    rw [heq]
    rcases hreached with ⟨hbase, hnone⟩ | hai
    · rw [List.map_eq_nil_iff.mp hnone, List.append_nil] at haudit
      rw [hbase] at hmerged
      rcases hentry with hsame | ⟨entry, hlogin, hadded⟩
      · exact h.kept [] hb hmarker hstore (by rw [hsame, haudit, List.append_nil])
          (by rw [hnew]; exact ⟨hmerged, List.nil_sublist _⟩)
      · exact h.kept [entry] hb hmarker hstore (by rw [hadded, haudit])
          (by rw [hnew]; exact ⟨hmerged, by rw [List.map_singleton, hlogin]⟩)
    -- the patch was merged before, and the program was stopped before its marker
    · exact h.kept entries hb hmarker hstore ((hagain hai.again).trans haudit)
        (by rw [hnew]; exact ⟨hmerged.trans (hai.again.trans hai.1), hai.2⟩)
  · rename_i hempty
    rw [ne_eq, not_not] at hempty
    have hnone : u.aiPatch = {} := by rw [hpatch, hempty]
    refine h.enter hb (fun _ o logins hreached => ?_) fun hdone => ?_
    · rw [hnew, hstage] at hreached
      rw [hnew]
      rcases hreached with ⟨hbase, hlogins⟩ | hai
      · exact ⟨by rw [hbase, Upgrade.ai, hnone, mergeInto_empty], hlogins ▸ List.nil_sublist _⟩
      · exact hai
    · cases hmarker.symm.trans hdone

/-- The second part is done, or is found to be done. -/
theorem Upgrades.configMigration (hclock : L.parsesTime "04:00" = true) (h : Upgrades L R c u audit i) (hb : i.boot = some b)
    (hstage : b.stage = .configMigration) (hmarker : i.configMarker = false) (io : Io) :
    Upgrades L R c u audit
      (let patch := migrateLegacyConfig R b.config.rawToml
      if ¬(patch.twitch = {} ∧ patch.aviationstack = {} ∧ patch.suspend = {} ∧ patch.web = {}) then
        i.migrate L b io patch "v3-migration" .configMarker
      else i.enter b .configMarker) := by
  have hraw : b.config.rawToml = c.rawToml := (h.live b hb).2.2.2.2 hmarker
  obtain ⟨-, entries, haudit, hreached⟩ := h.under hmarker
  rw [hb, Option.map_some, hstage] at hreached
  cases hai : i.aiMarker with
  | false =>
    rw [hai] at hreached
    exact hreached.elim
  | true =>
    rw [hai] at hreached
    rw [hraw, ← h.configPatch]
    dsimp only
    split
    · have hback : (mergeInto (i.file.loaded L c.channel) u.configPatch).ReadsBack L := by
        rcases hreached with hreached | hreached
        · rw [hreached.1]
          exact h.back
        · rw [hreached.again, hreached.1]
          exact h.back
      rcases h.migrate_cases hclock hb hmarker io u.configPatch "v3-migration" .configMarker hback with
        hend | ⟨store, heq, hstore, hmerged, hentry, hagain⟩
      · rw [hend]
        exact h.stop
      rw [heq]
      rcases hreached with hreached | hreached
      · rw [hreached.1] at hmerged
        rcases hentry with hsame | ⟨entry, hlogin, hadded⟩
        · exact h.kept entries hb hmarker hstore (hsame.trans haudit)
            (by rw [hai]; exact ⟨hmerged, hreached.2.trans (List.sublist_append_left ["migrate"] ["v3-migration"])⟩)
        · refine h.kept (entries ++ [entry]) hb hmarker hstore (by rw [hadded, haudit, List.append_assoc]) ?_
          rw [hai, List.map_append, List.map_singleton, hlogin]
          exact ⟨hmerged, hreached.2.append (List.Sublist.refl ["v3-migration"])⟩
      · exact h.kept entries hb hmarker hstore ((hagain hreached.again).trans haudit)
          (by rw [hai]; exact ⟨hmerged.trans (hreached.again.trans hreached.1), hreached.2⟩)
    · rename_i hempty
      rw [not_not] at hempty
      have hnone : u.configPatch = {} := by
        rw [h.configPatch] at hempty ⊢
        obtain ⟨htwitch, haviationstack, hsuspend, hweb⟩ := hempty
        exact eq_empty_of_parts htwitch haviationstack hsuspend hweb
      refine h.enter hb (fun _ o logins hreached => ?_) fun hdone => ?_
      · rw [hai, hstage] at hreached
        rw [hai]
        rcases hreached with hreached | hreached
        · exact ⟨by rw [hreached.1, Upgrade.all, hnone, mergeInto_empty],
            hreached.2.trans (List.sublist_append_left ["migrate"] ["v3-migration"])⟩
        · exact hreached
      · cases hmarker.symm.trans hdone

/-- A marker is written only while the second one is not there. -/
theorem Upgrades.unmarked (h : Upgrades L R c u audit i) (hb : i.boot = some b)
    (hstage : b.stage = .aiMarker ∨ b.stage = .configMarker) : i.configMarker = false := by
  by_contra hdone
  obtain ⟨hfirst, hsecond⟩ := (h.done (eq_true_of_ne_false hdone)).2.2 b hb
  rcases hstage with hstage | hstage
  · exact hfirst hstage
  · exact hsecond hstage

/-- A program that serves has the second marker. -/
theorem Upgrades.marked (h : Upgrades L R c u audit i) (hb : i.boot = some b) (hstage : b.stage = .serving) :
    i.configMarker = true := by
  by_contra hmarker
  obtain ⟨-, entries, -, hreached⟩ := h.under (eq_false_of_ne_true hmarker)
  rw [hb, Option.map_some, hstage] at hreached
  cases hai : i.aiMarker <;> rw [hai] at hreached <;> exact hreached.elim

/-- The first marker is written, or is left there all the same, or is not. -/
theorem Upgrades.writeAiMarker (h : Upgrades L R c u audit i) (hb : i.boot = some b) (hstage : b.stage = .aiMarker)
    (marker : MarkerWrite) :
    Upgrades L R c u audit (match marker with
      | .written => { i with aiMarker := true, boot := some { b with stage := .configMigration } }
      | .failed created => { i with aiMarker := i.aiMarker || created, boot := none }) := by
  have hmarker := h.unmarked hb (.inl hstage)
  obtain ⟨hcalls, entries, haudit, hreached⟩ := h.under hmarker
  rw [hb, Option.map_some, hstage] at hreached
  cases hai : i.aiMarker with
  | true =>
    rw [hai] at hreached
    exact hreached.elim
  | false =>
    rw [hai] at hreached
    cases marker with
    | written =>
      refine ⟨h.back, (fun hfalse => by cases hfalse), h.configPatch, fun b' hb' => ?_, fun hnone b' hb' => ?_,
        fun _ => ⟨hcalls, entries, haudit, Or.inl hreached⟩, fun hdone => ?_⟩
      · obtain rfl := Option.some.inj hb'
        exact h.live b hb
      · obtain rfl := Option.some.inj hb'
        exact h.unrounded hnone b hb
      · cases hmarker.symm.trans hdone
    | failed created =>
      refine ⟨h.back, fun _ => h.aiPatch hai, h.configPatch, (fun b hb => by cases hb), (fun _ b hb => by cases hb),
        fun _ => ⟨hcalls, entries, haudit, ?_⟩, fun hdone => ?_⟩
      · cases created
        · exact Or.inr hreached
        · exact Or.inl hreached
      · cases hmarker.symm.trans hdone

/-- The second marker is written, or is left there all the same, or is not. With it the upgrade is done. -/
theorem Upgrades.writeConfigMarker (h : Upgrades L R c u audit i) (hb : i.boot = some b) (hstage : b.stage = .configMarker)
    (marker : MarkerWrite) :
    Upgrades L R c u audit (match marker with
      | .written => { i with configMarker := true, boot := some { b with stage := .serving } }
      | .failed created => { i with configMarker := i.configMarker || created, boot := none }) := by
  have hmarker := h.unmarked hb (.inr hstage)
  obtain ⟨hcalls, entries, haudit, hreached⟩ := h.under hmarker
  rw [hb, Option.map_some, hstage] at hreached
  cases hai : i.aiMarker with
  | false =>
    rw [hai] at hreached
    exact hreached.elim
  | true =>
    rw [hai] at hreached
    have hreplay : i.file.loaded L c.channel = replayCalls L c.channel u.all i.calls := by
      rw [hcalls]
      exact hreached.1
    cases marker with
    | written =>
      refine ⟨h.back, (fun hfalse => by cases hfalse), h.configPatch, fun b' hb' => ?_, fun hnone b' hb' => ?_,
        (fun hfalse => by cases hfalse), fun _ => ⟨rfl, hreplay, fun b' hb' => ?_⟩⟩
      · obtain rfl := Option.some.inj hb'
        obtain ⟨hchannel, hsound, hfile, hlog, -⟩ := h.live b hb
        exact ⟨hchannel, hsound, hfile, hlog, fun hfalse => by cases hfalse⟩
      · obtain rfl := Option.some.inj hb'
        exact h.unrounded hnone b hb
      · obtain rfl := Option.some.inj hb'
        exact ⟨by simp, by simp⟩
    | failed created =>
      refine ⟨h.back, (fun hfalse => by cases hfalse), h.configPatch, (fun b hb => by cases hb), (fun _ b hb => by cases hb),
        fun _ => ⟨hcalls, entries, haudit, Or.inr hreached⟩, fun _ => ⟨rfl, hreplay, fun b hb => by cases hb⟩⟩

/-- What the program does next keeps what holds of an upgrade. -/
theorem Upgrades.go (hclock : L.parsesTime "04:00" = true) (h : Upgrades L R c u audit i) (hb : i.boot = some b) (io : Io)
    (marker : MarkerWrite) : Upgrades L R c u audit (i.go L R b io marker) := by
  unfold Installation.go
  cases hstage : b.stage with
  | aiMigration =>
    dsimp only
    by_cases hdone : i.aiMarker = true
    · rw [if_pos hdone]
      refine h.enter hb (fun _ o logins hreached => ?_) fun _ => ⟨by simp, by simp⟩
      rw [hdone, hstage] at hreached
      rw [hdone]
      exact hreached
    · rw [if_neg hdone]
      exact h.aiMigration hclock hb hstage (eq_false_of_ne_true hdone) io
  | aiMarker => exact h.writeAiMarker hb hstage marker
  | configMigration =>
    dsimp only
    by_cases hdone : i.configMarker = true
    · rw [if_pos hdone]
      exact h.enter hb (fun hmarker => by cases hdone.symm.trans hmarker) fun _ => ⟨by simp, by simp⟩
    · rw [if_neg hdone]
      exact h.configMigration hclock hb hstage (eq_false_of_ne_true hdone) io
  | configMarker => exact h.writeConfigMarker hb hstage marker
  | serving => exact h

/-- A call is one more of those after the upgrade. -/
theorem Upgrades.call (hclock : L.parsesTime "04:00" = true) (h : Upgrades L R c u audit i) (hb : i.boot = some b)
    (hstage : b.stage = .serving) (e : CallEvent) :
    Upgrades L R c u audit
      { i.keep b (b.store.call L b.config.channel e.io e.actor e.call).2 with calls := i.calls ++ [e] } := by
  obtain ⟨hchannel, hsound, hfile, haudit, hraw⟩ := h.live b hb
  have hdone := h.marked hb hstage
  obtain ⟨hai, hreplay, hstages⟩ := h.done hdone
  rw [hchannel]
  have hstore := hsound.call hclock e.io e.actor e.call
  refine ⟨h.back, h.aiPatch, h.configPatch, fun b' hb' => ?_, fun hnone => ?_, fun hmarker => ?_,
    fun _ => ⟨hai, ?_, fun b' hb' => ?_⟩⟩
  · obtain rfl := Option.some.inj hb'
    exact ⟨hchannel, hstore, rfl, rfl, hraw⟩
  · exact absurd hnone (by simp)
  · cases hdone.symm.trans hmarker
  · have hleft : (b.store.call L c.channel e.io e.actor e.call).2.asFile.loaded L c.channel =
        e.leaves L c.channel (replayCalls L c.channel u.all i.calls) := by
      rw [hstore.loaded_asFile, SettingsStore.call_leaves, ← hreplay, hfile, hsound.loaded_asFile]
    rw [replayCalls, List.foldl_append]
    exact hleft
  · obtain rfl := Option.some.inj hb'
    exact hstages b hb

/-- Every event keeps what holds of an upgrade. -/
theorem Upgrades.step (hclock : L.parsesTime "04:00" = true) (h : Upgrades L R c u audit i) {e : BootEvent} (huses : Uses c i e)
    (hstep : bootStep L R i e = some i') : Upgrades L R c u audit i' := by
  cases e with
  | start config renames =>
    simp only [bootStep] at hstep
    split at hstep
    · cases hstep
    · rename_i hoff
      split at hstep
      · rename_i store hopen
        obtain rfl := Option.some.inj hstep
        exact h.start hclock hoff huses.1 huses.2 hopen
      · obtain rfl := Option.some.inj hstep
        exact h
  | go io marker =>
    obtain ⟨b, hb, rfl⟩ := Option.map_eq_some_iff.mp hstep
    exact h.go hclock hb io marker
  | call e =>
    simp only [bootStep] at hstep
    split at hstep
    · rename_i b hb
      rw [Option.ite_none_right_eq_some] at hstep
      obtain ⟨hstage, hstep⟩ := hstep
      obtain rfl := Option.some.inj hstep
      exact h.call hclock hb hstage e
    · cases hstep
  | stop =>
    obtain rfl := Option.some.inj hstep
    exact h.stop

/-! ## Runs -/

/-- It holds before the first start. -/
theorem upgrades_upgrade (hoff : i.boot = none) (hcalls : i.calls = []) (hnew : i.configMarker = false)
    (hback : (i.upgrade L R c).all.ReadsBack L) : Upgrades L R c (i.upgrade L R c) i.audit i := by
  refine ⟨hback, fun hai => ?_, rfl, fun b hb => ?_, fun _ b hb => ?_, fun _ => ⟨hcalls, [], (List.append_nil _).symm, ?_⟩,
    fun hdone => ?_⟩
  · rw [Installation.upgrade, hai]
    rfl
  · rw [hoff] at hb
    cases hb
  · rw [hoff] at hb
    cases hb
  · rw [hoff]
    cases hai : i.aiMarker with
    | false => exact Or.inl ⟨rfl, rfl⟩
    | true =>
      have hbase : (i.upgrade L R c).ai = i.file.loaded L c.channel := by
        rw [Upgrade.ai, Installation.upgrade, hai]
        exact mergeInto_empty _
      exact Or.inl ⟨hbase.symm, List.nil_sublist _⟩
  · cases hnew.symm.trans hdone

/-- In every run of starts, steps, failures and stops from a directory that was not upgraded, with one configuration until it is,
whose sizes are read back from `settings.ron` as they are: until the second marker is there no call was made, `settings.ron` is read
as it was, or with the first patch, or with both, and each patch is in the audit log once at most. Once the marker is there, it is
read as both patches and the calls since have left it, whatever `config.toml` holds; and when the program serves, the marker is
there and the live settings are what is read, up to the sizes that calls have saved. -/
theorem legacy_keys_taken_over_once (hclock : L.parsesTime "04:00" = true) {i₀ : Installation} {es : List BootEvent}
    (hoff : i₀.boot = none) (hcalls : i₀.calls = []) (hnew : i₀.configMarker = false)
    (hback : (i₀.upgrade L R c).all.ReadsBack L)
    (huses : Machine.Meets (bootStep L R) (Uses c) i₀ es) (hrun : Machine.run (bootStep L R) i₀ es = some i) :
    (i.configMarker = false → i.calls = [] ∧
        (i.file.loaded L c.channel = (i₀.upgrade L R c).base ∨ i.file.loaded L c.channel = (i₀.upgrade L R c).ai ∨
          i.file.loaded L c.channel = (i₀.upgrade L R c).all) ∧
        ∃ entries : List AuditEntry, i.audit = i₀.audit ++ entries ∧
          (entries.map (·.actorLogin)).Sublist ["migrate", "v3-migration"]) ∧
      (i.configMarker = true → i.file.loaded L c.channel = replayCalls L c.channel (i₀.upgrade L R c).all i.calls) ∧
      ∀ b ∈ i.boot, b.stage = .serving → i.configMarker = true ∧
        b.store.handle.SameUpToSizes (.resolve .compiledDefaults (i.file.loaded L c.channel)) ∧
        (i.calls = [] → b.store.handle = .resolve .compiledDefaults (i.file.loaded L c.channel)) := by
  have h : Upgrades L R c (i₀.upgrade L R c) i₀.audit i :=
    Machine.run_invariant_of_meets (fun _ _ _ h hok hstep => h.step hclock hok hstep) (upgrades_upgrade hoff hcalls hnew hback) huses
      hrun
  refine ⟨fun hmarker => ?_, fun hdone => (h.done hdone).2.1, fun b hb hstage => ?_⟩
  · obtain ⟨hnone, entries, haudit, hreached⟩ := h.under hmarker
    obtain ⟨hread, hlogins⟩ := hreached.reads
    exact ⟨hnone, hread, entries, haudit, hlogins⟩
  · obtain ⟨-, hsound, hfile, -, -⟩ := h.live b hb
    rw [hfile, hsound.loaded_asFile]
    exact ⟨h.marked hb hstage, hsound.upToSizes, fun hnone => (h.unrounded hnone b hb).resolved⟩

/-- A directory without settings, and a configuration that has some. -/
def emptyDirectory : Installation := ⟨.absent, [], false, false, none, []⟩

/-- A configuration with keys of both kinds. -/
def oldConfig : Configuration where
  channel := "chan"
  rawToml := .table [("ai", .table [("backend", .string "ollama"), ("media", .table [("max_image_size", .string "8 MiB")])]),
    ("suspend", .table [("default_duration_secs", .integer 600)])]

/-- Readers of the two sizes that the configurations here have. -/
def fewReaders : TextReaders where
  byteSize s := if s = "8 MiB" then some (.mib 8) else if s = "10 MB" then some ⟨10000000⟩ else none
  durationSecs _ := none

/-- The program is stopped between the first patch and its marker; the second start gets through, and a call is made. -/
def stoppedUpgrade : List BootEvent :=
  [.start oldConfig true, .go (ioWith .ok) .written, .stop,
    .start oldConfig true, .go (ioWith .ok) .written, .go (ioWith .ok) .written, .go (ioWith .ok) .written,
    .go (ioWith .ok) .written, .call ⟨ioWith .ok, owner, .apply slowerAi⟩]

theorem stoppedUpgrade_isSome :
    (Machine.run (bootStep plainLibs fewReaders) emptyDirectory stoppedUpgrade).isSome = true := by
  decide +kernel

theorem uses_oldConfig : Machine.Meets (bootStep plainLibs fewReaders) (Uses oldConfig) emptyDirectory stoppedUpgrade := by
  have hstarts : ∀ e ∈ stoppedUpgrade, ∀ i : Installation, Uses oldConfig i e := by
    intro e he i
    simp only [stoppedUpgrade, List.mem_cons, List.not_mem_nil, or_false] at he
    rcases he with rfl | rfl | rfl | rfl | rfl | rfl | rfl | rfl | rfl <;> simp [Uses]
  exact Machine.Meets.mono (fun i e h => h i) (Machine.Meets.of_mem hstarts emptyDirectory)

theorem legacy_keys_taken_over_once_stopped :
    ∃ i, Machine.run (bootStep plainLibs fewReaders) emptyDirectory stoppedUpgrade = some i ∧ i.calls.length = 1 ∧
      i.file.loaded plainLibs oldConfig.channel =
        replayCalls plainLibs oldConfig.channel (emptyDirectory.upgrade plainLibs fewReaders oldConfig).all i.calls ∧
      (i.file.loaded plainLibs oldConfig.channel).ai.media.maxImageSize = some ⟨8388608⟩ := by
  have hrun : Machine.run (bootStep plainLibs fewReaders) emptyDirectory stoppedUpgrade =
      some (Option.get _ stoppedUpgrade_isSome) := (Option.some_get _).symm
  have hback : (emptyDirectory.upgrade plainLibs fewReaders oldConfig).all.ReadsBack plainLibs := by decide +kernel
  exact ⟨_, hrun, by decide +kernel,
    (legacy_keys_taken_over_once (c := oldConfig) (by decide +kernel) rfl rfl rfl hback uses_oldConfig hrun).2.1
      (by decide +kernel), by decide +kernel⟩

/-- A size that comes back rounded is taken over again by the start after a stop, which has a second entry in the audit log. -/
example :
    let config : Configuration := ⟨"chan", .table [("ai", .table [("media", .table [("max_image_size", .string "10 MB")])])]⟩
    ((Machine.run (bootStep plainLibs fewReaders) emptyDirectory
      [.start config true, .go (ioWith .ok) .written, .stop, .start config true, .go (ioWith .ok) .written]).map
        fun i => i.audit.map (·.actorLogin)) = some ["migrate", "migrate"] := by
  decide +kernel

end Twitch1337.Dashboard
