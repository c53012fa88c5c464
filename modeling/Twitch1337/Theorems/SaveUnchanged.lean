import Twitch1337.Lemmas.SettingsPage
import Twitch1337.Theorems.Patches
import Twitch1337.Theorems.Settings

/-!
# Saving the page unchanged

In every run of saves and resets the overrides are tidy, and the threshold of a prefill is a number. So the page submits what the
settings are, and a save of it asks for the settings as they are. It leaves the audit log as it is exactly where the sizes of media
that the file sets are live as they are read back: what is live is what was saved, and the diff starts from what is read.
-/

namespace Twitch1337.Web

open Dashboard RustStr

variable {T : FormTexts} {L : Libs} {channel : String} {s : Settings} {st : SettingsStore}

/-! ## Runs -/

/-- What a store has saved last: tidy overrides, which the live settings are resolved from, and which the file is read back as. -/
structure Saved (L : Libs) (st : SettingsStore) (current : SettingsOverrides) : Prop where
  live : st.handle = .resolve .compiledDefaults current
  read : st.file.getD {} = current.stored L
  tidy : ∀ (l : Leaf) (v : l.Val), l.get current = some v → Tidy l v

/-- A store that is sound, and has saved tidy overrides. -/
structure Kept (L : Libs) (channel : String) (st : SettingsStore) : Prop where
  sound : st.Sound L channel
  saved : ∃ current, Saved L st current

theorem kept_fresh (hclock : L.parsesTime "04:00" = true) (audit : List AuditEntry) :
    Kept L channel ⟨none, .compiledDefaults, audit⟩ where
  sound := ⟨rfl, Settings.validate_ok_iff.mpr (Settings.valid_compiledDefaults hclock)⟩
  saved := by
    refine ⟨{}, rfl, rfl, fun l v h => ?_⟩
    rw [get_empty] at h
    cases h

theorem isFinite_of_le_one {x : F64} (h : (F64.zero.le x && x.le .one) = true) : x.isFinite = true := by
  rw [Bool.and_eq_true] at h
  have hlow : (0 : Int) ≤ x.key := by
    have := h.1
    simp only [F64.le, Bool.and_eq_true, decide_eq_true_eq] at this
    exact this.2
  have hhigh : x.key ≤ F64.one.key := by
    have := h.2
    simp only [F64.le, Bool.and_eq_true, decide_eq_true_eq] at this
    exact this.2
  have hone : F64.one.key = 0x3FF0000000000000 := by decide +kernel
  rw [hone] at hhigh
  rw [F64.isFinite, decide_eq_true_eq, F64.infinity]
  cases hneg : x.bits.msb with
  | false =>
    rw [F64.key, hneg, if_neg Bool.false_ne_true] at hhigh
    omega
  | true =>
    rw [F64.key, hneg, if_pos rfl] at hlow
    omega

/-- The threshold of settings that are valid is a number. -/
theorem isFinite_of_valid (h : s.Valid L channel) (p : AiPrefill) (hp : s.ai.prefill = some p) :
    p.threshold.isFinite = true := by
  have hprefill := h.prefill
  rw [hp] at hprefill
  simp only [validatePrefill, List.append_eq_nil_iff, errorIf_eq_nil_iff] at hprefill
  exact isFinite_of_le_one (by simpa using hprefill.1.2)

theorem Kept.finite (h : Kept L channel st) (p : AiPrefill) (hp : st.handle.ai.prefill = some p) :
    p.threshold.isFinite = true :=
  isFinite_of_valid h.sound.validHandle p hp

/-- What comes back of tidy overrides is tidy. -/
theorem tidy_stored {o : SettingsOverrides} (h : ∀ (l : Leaf) (v : l.Val), l.get o = some v → Tidy l v) {l : Leaf} {v : l.Val}
    (hv : l.get (o.stored L) = some v) : Tidy l v := by
  rw [get_stored] at hv
  obtain ⟨w, hw, rfl⟩ := Option.map_eq_some_iff.mp hv
  by_cases hl : l.kind = .bytes
  · cases l <;> trivial
  · rw [stored_of_kind hl]
    exact h l w hw

theorem Kept.tidyFile (h : Kept L channel st) (l : Leaf) (v : l.Val) (hv : l.get (st.file.getD {}) = some v) : Tidy l v := by
  obtain ⟨current, hsaved⟩ := h.saved
  rw [hsaved.read] at hv
  exact tidy_stored hsaved.tidy hv

/-- A call that applies a patch fails and changes nothing, or it leaves what the patch resolves to. -/
theorem apply_cases (L : Libs) (channel : String) (st : SettingsStore) (io : Io) (patch : SettingsOverrides) (actor : Actor) :
    (∃ e, st.apply L channel io patch actor = (.error e, st)) ∨
    ((Settings.resolve .compiledDefaults (mergeInto (st.file.getD {}) patch)).Valid L channel ∧
      (st.apply L channel io patch actor).1 = .ok (.resolve .compiledDefaults (mergeInto (st.file.getD {}) patch)) ∧
      (st.apply L channel io patch actor).2.handle = .resolve .compiledDefaults (mergeInto (st.file.getD {}) patch)) := by
  rcases SettingsStore.applyWith_cases L channel st io (fun current => mergeInto current patch) actor with
    ⟨e, heq⟩ | ⟨hvalid, heq⟩
  · exact .inl ⟨e, heq⟩
  · rw [SettingsStore.apply, heq, SettingsStore.commit]
    split
    · exact .inr ⟨hvalid, rfl, rfl⟩
    · exact .inl ⟨_, rfl⟩

/-- A commit of tidy overrides that are valid. -/
theorem Kept.commit (h : Kept L channel st) {current : SettingsOverrides}
    (hvalid : (Settings.resolve .compiledDefaults current).Valid L channel)
    (htidy : ∀ (l : Leaf) (v : l.Val), l.get current = some v → Tidy l v) (io : Io) (prior : Settings) (actor : Actor) :
    Kept L channel (st.commit L io current prior (.resolve .compiledDefaults current) actor).2 := by
  refine ⟨(SettingsStore.commit_keeps io prior actor hvalid).1 h.sound, ?_⟩
  rw [SettingsStore.commit]
  split
  · exact ⟨current, rfl, rfl, htidy⟩
  · exact h.saved

theorem Kept.apply (h : Kept L channel st) (io : Io) (form : SaveForm) (actor : Actor) :
    Kept L channel (st.apply L channel io (overridesFromSaveForm T form) actor).2 := by
  rw [SettingsStore.apply]
  rcases SettingsStore.applyWith_cases L channel st io (fun current => mergeInto current (overridesFromSaveForm T form)) actor with
    ⟨e, heq⟩ | ⟨hvalid, heq⟩
  · rw [heq]
    exact h
  · rw [heq]
    refine h.commit hvalid (fun l v hv => ?_) io _ actor
    rw [get_mergeInto] at hv
    rcases Option.or_eq_some_iff.mp hv with hv | ⟨-, hv⟩
    · exact tidy_patch form hv
    · exact h.tidyFile l v hv

/-- What a save leaves. -/
theorem save_snd {r : SaveRequest} {form : SaveForm} (hform : SaveForm.extract T r.sub = some form) :
    (save T L channel st r).2 =
      if r.verified then (st.apply L channel r.io (overridesFromSaveForm T form) r.actor).2 else st := by
  unfold save
  rw [hform]
  dsimp only
  split <;> rfl

theorem Kept.save (h : Kept L channel st) (r : SaveRequest) : Kept L channel (Web.save T L channel st r).2 := by
  cases hform : SaveForm.extract T r.sub with
  | none =>
    unfold Web.save
    rw [hform]
    exact h
  | some form =>
    rw [save_snd hform]
    split
    · exact h.apply r.io form r.actor
    · exact h

/-- A reset of the page leaves a leaf as it is, or clears it. -/
theorem get_reset {section_ : String} {sec : SettingsSection} (hsec : resetSection section_ = some sec) (o : SettingsOverrides)
    (l : Leaf) : l.get (o.reset sec) = none ∨ l.get (o.reset sec) = l.get o := by
  unfold resetSection at hsec
  split_ifs at hsec <;> cases hsec <;> cases l <;> first
    | exact .inr rfl
    | exact .inl rfl

theorem Kept.reset (hclock : L.parsesTime "04:00" = true) (h : Kept L channel st) {section_ : String} {sec : SettingsSection}
    (hsec : resetSection section_ = some sec) (io : Io) (actor : Actor) : Kept L channel (st.reset L io sec actor).2 := by
  unfold SettingsStore.reset
  split
  · exact h
  · refine h.commit (valid_reset hclock h.sound.validFile sec) (fun l v hv => ?_) io _ actor
    rcases get_reset hsec (st.file.getD {}) l with hget | hget
    · rw [hget] at hv
      cases hv
    · rw [hget] at hv
      exact h.tidyFile l v hv

theorem Kept.step (hclock : L.parsesTime "04:00" = true) (h : Kept L channel st) (visit : Visit) {st' : SettingsStore}
    (hstep : visit.step T L channel st = some st') : Kept L channel st' := by
  cases visit with
  | save r => exact Option.some.inj hstep ▸ h.save r
  | reset section_ verified actor io =>
    rw [← Option.some.inj hstep, resetHandler]
    split
    · cases hsec : resetSection section_ with
      | some sec => exact h.reset hclock hsec io actor
      | none => exact h
    · exact h

/-! ## Sizes that come back -/

/-- Every size of media that the file sets is live as what its text is read back as. -/
def SizesReadBack (L : Libs) (st : SettingsStore) : Prop :=
  ∀ (l : Leaf) (v : l.Val), l.kind = .bytes → (l.get (st.file.getD {})).isSome = true → l.read st.handle = some v →
    l.stored L v = v

/-- The live settings are what the file resolves to where the sizes come back. -/
theorem resolved_iff (h : Kept L channel st) :
    st.handle = .resolve .compiledDefaults (st.file.getD {}) ↔ SizesReadBack L st := by
  obtain ⟨current, hsaved⟩ := h.saved
  have hlive : ∀ l : Leaf, l.kind = .bytes → l.read st.handle = (l.get current).or (l.read .compiledDefaults) := by
    intro l hl
    rw [hsaved.live, read_size hl]
  have hread : ∀ l : Leaf, l.kind = .bytes → l.read (.resolve .compiledDefaults (st.file.getD {})) =
      ((l.get current).map (l.stored L)).or (l.read .compiledDefaults) := by
    intro l hl
    rw [read_size hl, hsaved.read, get_stored]
  constructor
  · intro heq l v hl hset hv
    rw [hsaved.read, get_stored, Option.isSome_map] at hset
    obtain ⟨w, hw⟩ := Option.isSome_iff_exists.mp hset
    have hboth := hv
    rw [heq, hread l hl, hw, Option.map_some, Option.some_or] at hboth
    rw [hlive l hl, hw, Option.some_or] at hv
    obtain rfl := Option.some.inj hv
    exact Option.some.inj hboth
  · intro hback
    refine Settings.ext_read (by rw [hsaved.live]; rfl) fun l => ?_
    by_cases hl : l.kind = .bytes
    · rw [hread l hl, hlive l hl]
      cases hw : l.get current with
      | none => rfl
      | some w =>
        have hset : (l.get (st.file.getD {})).isSome = true := by
          rw [hsaved.read, get_stored, hw]
          rfl
        have hstored := hback l w hl hset (by rw [hlive l hl, hw, Option.some_or])
        rw [Option.map_some, hstored]
    · exact h.sound.upToSizes.read hl

/-! ## Saving the page -/

/-- The audit log is the same after a call that leaves the settings as they are. -/
theorem audit_apply_same (st : SettingsStore) (io : Io) (patch : SettingsOverrides) (actor : Actor)
    (h : Settings.resolve .compiledDefaults (mergeInto (st.file.getD {}) patch) =
      .resolve .compiledDefaults (st.file.getD {})) : (st.apply L channel io patch actor).2.audit = st.audit := by
  unfold SettingsStore.apply SettingsStore.applyWith
  split
  · rfl
  · dsimp only
    rw [h]
    split
    · rfl
    · unfold SettingsStore.commit
      rw [auditEntry, diffChanges_self]
      split <;> rfl

/-- A save of a form that asks for the settings as they are leaves them, and the audit log, as they are. -/
theorem save_same (hresolved : st.handle = .resolve .compiledDefaults (st.file.getD {})) {r : SaveRequest} {form : SaveForm}
    (hform : SaveForm.extract T r.sub = some form)
    (hsame : Settings.resolve .compiledDefaults (mergeInto (st.file.getD {}) (overridesFromSaveForm T form)) = st.handle) :
    (save T L channel st r).2.handle = st.handle ∧ (save T L channel st r).2.audit = st.audit := by
  rw [save_snd hform]
  split
  · refine ⟨?_, audit_apply_same st r.io _ r.actor (hsame.trans hresolved)⟩
    rcases apply_cases L channel st r.io (overridesFromSaveForm T form) r.actor with ⟨e, heq⟩ | ⟨-, -, hhandle⟩
    · rw [heq]
    · exact hhandle.trans hsame
  · exact ⟨rfl, rfl⟩

/-- The page asks for the sizes that it shows. -/
theorem isSome_onPage_size {l : Leaf} (hl : l.kind = .bytes) (s : Settings) :
    onPage s l = true ∧ l.shown s = true ∧ (l.read s).isSome = true ∧ l ≠ .schedules := by
  cases l <;> first
    | exact ⟨rfl, rfl, rfl, by simp⟩
    | cases hl

/-- The page of a store that visits lead to is a form, and its patch resolves to the settings that are live. -/
theorem Kept.page (h : Kept L channel st) :
    ∃ form, SaveForm.extract T (page T st.handle) = some form ∧
      Settings.resolve .compiledDefaults (mergeInto (st.file.getD {}) (overridesFromSaveForm T form)) = st.handle := by
  obtain ⟨current, hsaved⟩ := h.saved
  obtain ⟨form, hform⟩ := exists_form (T := T) st.handle h.finite
  have htidy : ∀ (l : Leaf) (v : l.Val), l.read st.handle = some v → Tidy l v := by
    rw [hsaved.live]
    exact fun l v => tidy_read hsaved.tidy
  have hget : ∀ l : Leaf, l ≠ .schedules → l.shown st.handle = true →
      l.get (overridesFromSaveForm T form) = if onPage st.handle l then l.read st.handle else none := by
    intro l hl hshown
    obtain ⟨f, hf⟩ := exists_field l hl
    exact get_page (extract_eq_some_iff.mp hform) htidy h.finite hf hshown
  -- the page has all sizes, so that it does not matter what they are read back as
  have hmerge : mergeInto (current.stored L) (overridesFromSaveForm T form) = mergeInto current (overridesFromSaveForm T form) := by
    refine SettingsOverrides.ext_get rfl fun l => ?_
    rw [get_mergeInto, get_mergeInto, get_stored]
    by_cases hl : l.kind = .bytes
    · obtain ⟨hpage, hshown, hsome, hschedules⟩ := isSome_onPage_size hl st.handle
      obtain ⟨v, hv⟩ := Option.isSome_iff_exists.mp hsome
      rw [hget l hschedules hshown, if_pos hpage, hv, Option.some_or, Option.some_or]
    · cases l.get current with
      | none => rfl
      | some v => rw [Option.map_some, stored_of_kind hl]
  refine ⟨form, hform, ?_⟩
  rw [hsaved.read, hmerge, hsaved.live]
  refine resolve_same _ fun l hshown => ?_
  rw [← hsaved.live] at hshown ⊢
  by_cases hl : l = .schedules
  · rw [hl]
    exact .inl rfl
  · rw [hget l hl hshown]
    split
    · exact .inr rfl
    · exact .inl rfl

/-- The schedules of the file are live, so that a change that is only one of their order is none. -/
theorem eq_of_sameUpToOrder (hs : st.Sound L channel)
    (h : (Settings.resolve .compiledDefaults (st.file.getD {})).SameUpToOrder st.handle) :
    st.handle = .resolve .compiledDefaults (st.file.getD {}) := by
  have hrest : { Settings.resolve .compiledDefaults (st.file.getD {}) with schedules := st.handle.schedules } = st.handle :=
    congrArg (fun s : Settings => { s with schedules := st.handle.schedules }) h.1
  rw [hs.upToSizes.schedules] at hrest
  exact hrest.symm

/-- A save of the page that is accepted is in the audit log unless the live settings are what the file resolves to. -/
theorem audit_save_page (hs : st.Sound L channel) {form : SaveForm} (hform : SaveForm.extract T (page T st.handle) = some form)
    (hsame : Settings.resolve .compiledDefaults (mergeInto (st.file.getD {}) (overridesFromSaveForm T form)) = st.handle)
    (hne : st.handle ≠ .resolve .compiledDefaults (st.file.getD {})) (actor : Actor) (now : Chrono.Instant) :
    (save T L channel st ⟨page T st.handle, true, actor, ⟨none, true, .ok, now⟩⟩).2.audit ≠ st.audit := by
  have hversion : (Settings.resolve .compiledDefaults (st.file.getD {})).schemaVersion = st.handle.schemaVersion := by
    rw [← hsame]
    rfl
  obtain ⟨entry, -, -, -, hentry⟩ := (auditEntry_cases hs.validFile hs.validHandle hversion now actor).2
    fun horder => hne (eq_of_sameUpToOrder hs horder)
  have hsave : (save T L channel st ⟨page T st.handle, true, actor, ⟨none, true, .ok, now⟩⟩).2.audit = st.audit ++ [entry] := by
    rw [save_snd hform, if_pos rfl]
    unfold SettingsStore.apply SettingsStore.applyWith
    dsimp only
    rw [hsame, hs.valid]
    simp only [SettingsStore.commit, hentry, appended, if_true]
  rw [hsave]
  exact fun h => List.cons_ne_nil entry [] (List.append_right_eq_self.mp h)

/-- The page of settings that visits lead to, submitted as it is, is a form whose patch resolves to the same settings. A save of it
leaves the settings and the audit log as they are, whatever the file system does, exactly when every size that the file sets is read
back as it is live. -/
theorem save_unchanged_iff (hclock : L.parsesTime "04:00" = true) {audit : List AuditEntry} {visits : List Visit}
    (hrun : Machine.run (Visit.step T L channel) ⟨none, .compiledDefaults, audit⟩ visits = some st) :
    (∃ form, SaveForm.extract T (page T st.handle) = some form ∧
      Settings.resolve .compiledDefaults (mergeInto (st.file.getD {}) (overridesFromSaveForm T form)) = st.handle) ∧
    ((∀ (verified : Bool) (actor : Actor) (io : Io),
        (save T L channel st ⟨page T st.handle, verified, actor, io⟩).2.handle = st.handle ∧
          (save T L channel st ⟨page T st.handle, verified, actor, io⟩).2.audit = st.audit) ↔ SizesReadBack L st) := by
  have hkept : Kept L channel st :=
    Machine.run_invariant (fun s visit s' hs h => hs.step hclock visit h) (kept_fresh hclock audit) hrun
  obtain ⟨form, hform, hsame⟩ := hkept.page (T := T)
  refine ⟨⟨form, hform, hsame⟩, ?_⟩
  rw [← resolved_iff hkept]
  constructor
  · intro hall
    by_contra hne
    exact audit_save_page hkept.sound hform hsame hne ⟨"", ""⟩ 0 (hall true ⟨"", ""⟩ ⟨none, true, .ok, 0⟩).2
  · exact fun hresolved verified actor io => save_same hresolved hform hsame

/-- Doubles are read and written as their bits, but for the one that the page shows of a prefill that is off. -/
def plainTexts : FormTexts where
  readF64 s := if s = "0.5" then some ⟨0x3FE0000000000000⟩ else (readU64 s).map fun n => ⟨n.toBitVec⟩
  showF64 x := if x = ⟨0x3FE0000000000000⟩ then "0.5" else toString (UInt64.ofBitVec x.bits).toNat
  readSize := readU64
  readF64_showF64 x _ := by
    by_cases hx : x = ⟨0x3FE0000000000000⟩
    · rw [if_pos hx, if_pos rfl, hx]
    · have hne : toString (UInt64.ofBitVec x.bits).toNat ≠ "0.5" := by
        intro he
        have hread := readU64_toString (UInt64.ofBitVec x.bits)
        rw [he, show readU64 "0.5" = none by decide +kernel] at hread
        cases hread
      rw [if_neg hx, if_neg hne, readU64_toString, Option.map_some]
  readSize_toString := readU64_toString

/-- The page of the defaults with some emotes pinned and an effort chosen. -/
def pinning : Submission := fun f =>
  match f with
  | .aiEmotesEnabled => some "1"
  | .aiEmotesPinnedEmotes => some " Kappa\r\n\r\nPepeLa"
  | .aiConnectionReasoningEffort => some "high"
  | .pingCooldown => some "60"
  | f => page plainTexts .compiledDefaults f

/-- A save of it, and a reset of the pings. -/
def pinningRun : List Visit :=
  [.save ⟨pinning, true, owner, ioWith .ok⟩, .reset "pings" true owner (ioWith .ok)]

theorem pinningRun_isSome :
    (Machine.run (Visit.step plainTexts plainLibs "chan") ⟨none, .compiledDefaults, []⟩ pinningRun).isSome = true := rfl

/-- The settings it leads to, whose page can be saved as it is: the sizes in the file are the defaults. -/
theorem save_unchanged_pinned :
    ∃ st, Machine.run (Visit.step plainTexts plainLibs "chan") ⟨none, .compiledDefaults, []⟩ pinningRun = some st ∧
      st.handle.ai.emotes.map (·.pinnedEmotes) = some ["Kappa", "PepeLa"] ∧
      st.handle.ai.connection.reasoningEffort = some "high" ∧ (st.file.getD {}).ai.media.maxPdfSize = some ⟨26214400⟩ ∧
      (∃ form, SaveForm.extract plainTexts (page plainTexts st.handle) = some form ∧
        Settings.resolve .compiledDefaults (mergeInto (st.file.getD {}) (overridesFromSaveForm plainTexts form)) = st.handle) ∧
      ∀ (verified : Bool) (actor : Actor) (io : Io),
        (save plainTexts plainLibs "chan" st ⟨page plainTexts st.handle, verified, actor, io⟩).2.handle = st.handle ∧
          (save plainTexts plainLibs "chan" st ⟨page plainTexts st.handle, verified, actor, io⟩).2.audit = st.audit := by
  have hrun : Machine.run (Visit.step plainTexts plainLibs "chan") ⟨none, .compiledDefaults, []⟩ pinningRun =
      some (Option.get _ pinningRun_isSome) := (Option.some_get _).symm
  have hmedia : (Option.get _ pinningRun_isSome).handle.ai.media = {} := by decide +kernel
  have hsizes : SizesReadBack plainLibs (Option.get _ pinningRun_isSome) := by
    generalize Option.get _ pinningRun_isSome = st at hmedia
    intro l v hl _ hv
    cases l with
    | mediaMaxImageSize | mediaMaxPdfSize | mediaMaxAudioSize | mediaMaxVideoSize | mediaMaxTextSize =>
      obtain rfl := Option.some.inj hv
      change roundedSize _ = _
      rw [hmedia]
      decide +kernel
    | _ => cases hl
  obtain ⟨hpage, hsave⟩ := save_unchanged_iff (by decide +kernel) hrun
  exact ⟨_, hrun, by decide +kernel, by decide +kernel, by decide +kernel, hpage, hsave.mpr hsizes⟩

/-- The page of the defaults with 5 MB for images. -/
def smallerImages : Submission := fun f =>
  match f with
  | .aiMediaMaxImageSize => some "5000000"
  | f => page plainTexts .compiledDefaults f

theorem smallerImages_isSome :
    (Machine.run (Visit.step plainTexts plainLibs "chan") ⟨none, .compiledDefaults, []⟩
      [.save ⟨smallerImages, true, owner, ioWith .ok⟩]).isSome = true := rfl

/-- A size of 5 MB is saved as 4.8 MiB, which is read back as something else: the page of the live settings, submitted as it is, has an
entry in the audit log. -/
theorem rounded_size_is_audited :
    ∃ st, Machine.run (Visit.step plainTexts plainLibs "chan") ⟨none, .compiledDefaults, []⟩
        [.save ⟨smallerImages, true, owner, ioWith .ok⟩] = some st ∧
      st.handle.ai.media.maxImageSize = ⟨5000000⟩ ∧ (st.file.getD {}).ai.media.maxImageSize = some ⟨5033164⟩ ∧
      (save plainTexts plainLibs "chan" st ⟨page plainTexts st.handle, true, owner, ioWith .ok⟩).2.audit.length =
        st.audit.length + 1 :=
  ⟨_, (Option.some_get smallerImages_isSome).symm, by decide +kernel, by decide +kernel, by decide +kernel⟩

end Twitch1337.Web
