import Twitch1337.Bot.Dispatcher
import Twitch1337.Theorems.Settings

/-!
# The channels of the settings

A check of the settings compares the channels without the spaces around them, and asks for no more. The start of the bot
and the dispatcher take them as they are stored. The two agree exactly on settings whose channels are logins.
-/

namespace Twitch1337.Dispatch

open Dashboard RustStr

/-! ## Logins -/

/-- The characters of a login are no blanks. -/
theorem isWhitespace_of_loginChar {c : Char} (h : (c.isLower || c.isDigit || c == '_') = true) : isWhitespace c = false := by
  have hlt : c.toNat < 128 := by
    simp only [Bool.or_eq_true, beq_iff_eq] at h
    rcases h with (h | h) | h
    · exact ascii_of_isAlphanum (isAlphanum_of_isLower h)
    · exact ascii_of_isAlphanum (isAlphanum_of_isDigit h)
    · subst h
      decide
  revert h
  exact ascii_induction (P := fun c => (c.isLower || c.isDigit || c == '_') = true → isWhitespace c = false)
    (by decide +kernel) hlt

/-- A login has no spaces around it. -/
theorem trim_of_isLogin {name : String} (h : isLogin name = true) : trim name = name := by
  simp only [isLogin, Bool.and_eq_true, List.all_eq_true] at h
  have hall : ∀ c ∈ name.toList, isWhitespace c = false := fun c hc => isWhitespace_of_loginChar (h.2 c hc)
  exact trim_eq_self_iff.mpr
    ⟨fun c hc => hall c (List.mem_of_mem_head? hc), fun c hc => hall c (List.mem_of_mem_getLast? hc)⟩

/-- A login is not empty. -/
theorem isEmpty_of_isLogin {name : String} (h : isLogin name = true) : name.isEmpty = false := by
  cases hname : name.isEmpty with
  | false => rfl
  | true =>
    rw [String.isEmpty_iff] at hname
    subst hname
    exact absurd h (by decide)

/-- A login is not blank. -/
theorem isBlank_of_isLogin {name : String} (h : isLogin name = true) : isBlank name = false := by
  rw [isBlank, trim_of_isLogin h]
  exact isEmpty_of_isLogin h

/-! ## The channels that are joined -/

/-- The channels that are joined. -/
theorem mem_wantedChannels {channel name : String} {extras : List String} :
    name ∈ wantedChannels channel extras ↔ name = channel ∨ name ∈ extras ∧ name.isEmpty = false := by
  unfold wantedChannels
  suffices h : ∀ acc : List String,
      name ∈ extras.foldl (fun channels extra => if extra.isEmpty then channels else channels.insert extra) acc ↔
        name ∈ acc ∨ name ∈ extras ∧ name.isEmpty = false by
    rw [h [channel], List.mem_singleton]
  induction extras with
  | nil => simp
  | cons extra rest ih =>
    intro acc
    rw [List.foldl_cons, ih]
    by_cases hempty : extra.isEmpty = true
    · rw [if_pos hempty]
      by_cases hname : name = extra
      · subst hname
        simp [hempty]
      · simp [hname]
    · rw [if_neg hempty, List.mem_insert_iff]
      by_cases hname : name = extra
      · subst hname
        simp [hempty]
      · simp [hname]

/-- The bot starts when each of them is a login. -/
theorem boots_iff {irc : Irc} {channel : String} {t : TwitchRuntime} :
    boots irc channel t = true ↔ isLogin channel = true ∧ ∀ name ∈ extraChannels t, name.isEmpty = false → isLogin name = true := by
  unfold boots
  rw [irc.accepts_iff]
  constructor
  · intro h
    refine ⟨h channel (mem_wantedChannels.mpr (.inl rfl)), ?_⟩
    intro name hname hempty
    exact h name (mem_wantedChannels.mpr (.inr ⟨hname, hempty⟩))
  · intro ⟨hchannel, hextras⟩ name hname
    rcases mem_wantedChannels.mp hname with rfl | ⟨hmem, hempty⟩
    · exact hchannel
    · exact hextras name hmem hempty

/-! ## What the check of the settings says -/

/-- A channel passes when it is neither blank nor the bot's own. -/
theorem channelField_eq_nil_iff {L : Libs} {channel field name : String} :
    channelField L channel field (some name) = [] ↔ isBlank name = false ∧ trim name ≠ channel := by
  cases hblank : isBlank name with
  | true => simp [channelField, hblank]
  | false => simp [channelField, hblank, errorIf_eq_nil_iff]

/-- Channels that pass the check and are logins differ from each other and from the one of the bot. -/
theorem nodup_of_validateChannels {L : Libs} {channel : String} {t : TwitchRuntime}
    (hvalid : validateChannels L channel t.adminChannel t.aiChannel = [])
    (hlogin : ∀ name ∈ extraChannels t, isLogin name = true) : (channel :: extraChannels t).Nodup := by
  obtain ⟨latency, hidden, viewers, admin, ai⟩ := t
  unfold validateChannels at hvalid
  simp only [List.append_eq_nil_iff] at hvalid
  obtain ⟨⟨hadmin, hai⟩, hboth⟩ := hvalid
  cases admin with
  | none =>
    cases ai with
    | none => simp [extraChannels]
    | some ai =>
      have hlogin : isLogin ai = true := hlogin ai (by simp [extraChannels])
      have hne := (channelField_eq_nil_iff.mp hai).2
      rw [trim_of_isLogin hlogin] at hne
      simp [extraChannels, hne.symm]
  | some admin =>
    have hadminLogin : isLogin admin = true := hlogin admin (by simp [extraChannels])
    have hadminNe := (channelField_eq_nil_iff.mp hadmin).2
    rw [trim_of_isLogin hadminLogin] at hadminNe
    cases ai with
    | none => simp [extraChannels, hadminNe.symm]
    | some ai =>
      have haiLogin : isLogin ai = true := hlogin ai (by simp [extraChannels])
      have haiNe := (channelField_eq_nil_iff.mp hai).2
      rw [trim_of_isLogin haiLogin] at haiNe
      have hne : admin ≠ ai := by
        intro h
        subst h
        simp [errorIf_eq_nil_iff, isBlank_of_isLogin hadminLogin] at hboth
      simp [extraChannels, hadminNe.symm, haiNe.symm, hne]

/-! ## What the dispatcher does with a message -/

namespace Dispatcher

/-- Every message of a run is handled on its own. -/
theorem mem_run {d : Dispatcher} {received : List Received} {h : Handled} (hmem : h ∈ d.runCommandDispatcher received) :
    ∃ m commands suspended, .privmsg m commands suspended ∈ received ∧ h = d.handle commands suspended m := by
  induction received with
  | nil => simp [runCommandDispatcher] at hmem
  | cons r rest ih =>
    cases r with
    | privmsg m commands suspended =>
      rw [runCommandDispatcher, List.mem_cons] at hmem
      rcases hmem with hhead | htail
      · exact ⟨m, commands, suspended, by simp, hhead⟩
      · obtain ⟨m', commands', suspended', hin, hh⟩ := ih htail
        exact ⟨m', commands', suspended', by simp [hin], hh⟩
    | other =>
      obtain ⟨m', commands', suspended', hin, hh⟩ := ih hmem
      exact ⟨m', commands', suspended', by simp [hin], hh⟩
    | lagged skipped =>
      obtain ⟨m', commands', suspended', hin, hh⟩ := ih hmem
      exact ⟨m', commands', suspended', by simp [hin], hh⟩

/-- A message is handled as it is. -/
@[simp] theorem handle_message (d : Dispatcher) (commands : List Command) (suspended : String → Bool) (m : Privmsg) :
    (d.handle commands suspended m).message = m := by
  unfold handle
  split <;> rfl

/-- Nothing of the admin channel is recorded, and only the broadcaster runs a command there. -/
theorem handle_admin {d : Dispatcher} {m : Privmsg} (hm : d.isAdminChannel m = true) (commands : List Command)
    (suspended : String → Bool) :
    (d.handle commands suspended m).recorded = none ∧
      ((d.handle commands suspended m).executed.isSome = true → m.isBroadcaster = true) := by
  unfold handle
  by_cases hb : m.isBroadcaster = true
  · simp [hm, hb, targetBuffer]
  · simp [hm, hb]

/-- A message of another channel is recorded and may be a command. -/
theorem handle_of_not_admin {d : Dispatcher} {m : Privmsg} (hm : d.isAdminChannel m = false) (commands : List Command)
    (suspended : String → Bool) :
    d.handle commands suspended m =
      { message := m, recorded := (d.targetBuffer m).map (push m), executed := d.execution commands suspended m } := by
  simp [handle, hm]

/-- Outside the admin channel, what is recorded goes to the buffer of the channel. -/
theorem handle_recorded {d : Dispatcher} {m : Privmsg} (hm : d.isAdminChannel m = false) (commands : List Command)
    (suspended : String → Bool) :
    (d.handle commands suspended m).recorded.map (·.buffer) =
      if d.isAiChannel m then if d.hasAiChannelHistory then some .aiChannel else none
      else if d.hasPrimaryHistory then some .primary else none := by
  rw [handle_of_not_admin hm]
  simp only [targetBuffer, hm, Bool.false_eq_true, if_false, Option.map_map]
  by_cases hai : d.isAiChannel m = true
  · by_cases hbuf : d.hasAiChannelHistory = true <;> simp [hai, hbuf, push]
  · by_cases hbuf : d.hasPrimaryHistory = true <;> simp [hai, hbuf, push]

/-- In the AI channel, only the AI is reached. -/
theorem execution_ai {d : Dispatcher} {m : Privmsg} {commands : List Command} {suspended : String → Bool} {e : Execution}
    (hm : d.isAiChannel m = true) (he : d.execution commands suspended m = some e) :
    isAiTrigger e.invocation.trigger = true := by
  unfold execution at he
  cases hinv : commandInvocation m.messageText with
  | none => simp [hinv] at he
  | some invocation =>
    by_cases htrig : isAiTrigger invocation.trigger = true
    · cases hcmd : commands.find? fun c => c.enabled && c.accepts invocation.trigger with
      | none => simp [hinv, hcmd] at he
      | some command =>
        simp only [hinv, hm, htrig, hcmd, Bool.not_true, Bool.and_false, Bool.false_eq_true, if_false] at he
        by_cases hsus : suspended (command.suspendKey invocation.trigger) = true
        · simp [hsus] at he
        · simp only [hsus, Bool.false_eq_true, if_false, Option.some.injEq] at he
          subst he
          exact htrig
    · simp [hinv, hm, htrig] at he

end Dispatcher

/-! ## Settings that pass the check -/

/-- The channels of the settings are ones the bot starts with, and the dispatcher tells them apart in every run. -/
structure GatesCorrectly (irc : Irc) (channel : String) (t : TwitchRuntime) : Prop where
  boots : boots irc channel t = true
  joined : ∀ name, name ∈ wantedChannels channel (extraChannels t) ↔ name = channel ∨ name ∈ extraChannels t
  logins : ∀ name ∈ extraChannels t, isLogin name = true
  distinct : (channel :: extraChannels t).Nodup
  primary : ∀ hasPrimary hasAi received,
    ∀ h ∈ (Dispatcher.ofSettings t hasPrimary hasAi).runCommandDispatcher received, h.message.channelLogin = channel →
      h.recorded.map (·.buffer) = if hasPrimary then some .primary else none
  admin : ∀ hasPrimary hasAi received,
    ∀ h ∈ (Dispatcher.ofSettings t hasPrimary hasAi).runCommandDispatcher received,
      t.adminChannel = some h.message.channelLogin →
        h.recorded = none ∧ (h.executed.isSome = true → h.message.isBroadcaster = true)
  ai : ∀ hasPrimary hasAi received,
    ∀ h ∈ (Dispatcher.ofSettings t hasPrimary hasAi).runCommandDispatcher received,
      t.aiChannel = some h.message.channelLogin →
        (h.recorded.map (·.buffer) = if hasAi then some .aiChannel else none) ∧
          ∀ e ∈ h.executed, isAiTrigger e.invocation.trigger = true

variable {irc : Irc} {channel : String} {t : TwitchRuntime}

/-- The channel for the administration is the one that is set. -/
theorem isAdminChannel_ofSettings {hasPrimary hasAi : Bool} {m : Privmsg} :
    (Dispatcher.ofSettings t hasPrimary hasAi).isAdminChannel m = true ↔ t.adminChannel = some m.channelLogin := by
  cases ht : t.adminChannel with
  | none => simp [Dispatcher.isAdminChannel, Dispatcher.ofSettings, ht]
  | some admin =>
    simp only [Dispatcher.isAdminChannel, Dispatcher.ofSettings, ht, Option.any_some, beq_iff_eq, Option.some.injEq]
    exact eq_comm

/-- The channel of the AI is the one that is set. -/
theorem isAiChannel_ofSettings {hasPrimary hasAi : Bool} {m : Privmsg} :
    (Dispatcher.ofSettings t hasPrimary hasAi).isAiChannel m = true ↔ t.aiChannel = some m.channelLogin := by
  cases ht : t.aiChannel with
  | none => simp [Dispatcher.isAiChannel, Dispatcher.ofSettings, ht]
  | some ai =>
    simp only [Dispatcher.isAiChannel, Dispatcher.ofSettings, ht, Option.any_some, beq_iff_eq, Option.some.injEq]
    exact eq_comm

/-- A message of the channel of the bot is one of neither of the others. -/
theorem primary_of_nodup (h : (channel :: extraChannels t).Nodup) (hasPrimary hasAi : Bool) {m : Privmsg}
    (hm : m.channelLogin = channel) :
    (Dispatcher.ofSettings t hasPrimary hasAi).isAdminChannel m = false ∧
      (Dispatcher.ofSettings t hasPrimary hasAi).isAiChannel m = false := by
  have hnot : channel ∉ extraChannels t := (List.nodup_cons.mp h).1
  constructor
  · refine Bool.eq_false_iff.mpr fun hadmin => hnot ?_
    rw [isAdminChannel_ofSettings, hm] at hadmin
    simp [extraChannels, hadmin]
  · refine Bool.eq_false_iff.mpr fun hai => hnot ?_
    rw [isAiChannel_ofSettings, hm] at hai
    simp [extraChannels, hai]

/-- A message of the AI channel is not one of the admin channel. -/
theorem ai_of_nodup (h : (channel :: extraChannels t).Nodup) (hasPrimary hasAi : Bool) {m : Privmsg}
    (hm : t.aiChannel = some m.channelLogin) : (Dispatcher.ofSettings t hasPrimary hasAi).isAdminChannel m = false := by
  refine Bool.eq_false_iff.mpr fun hadmin => ?_
  rw [isAdminChannel_ofSettings] at hadmin
  simp [extraChannels, hm, hadmin] at h

/-- Settings that pass the check start a bot that tells its channels apart exactly when their channels, as they are stored,
are logins. -/
theorem accepted_settings_boot_iff (irc : Irc) (L : Libs) (channel : String) (s : Settings)
    (hchannel : isLogin channel = true) (hvalid : s.validate L channel = .ok ()) :
    GatesCorrectly irc channel s.twitch ↔ ∀ name ∈ extraChannels s.twitch, isLogin name = true := by
  constructor
  · intro h
    exact h.logins
  · intro hlogins
    have hdistinct := nodup_of_validateChannels (Settings.validate_ok_iff.mp hvalid).channels hlogins
    refine ⟨boots_iff.mpr ⟨hchannel, fun name hname _ => hlogins name hname⟩, ?_, hlogins, hdistinct, ?_, ?_, ?_⟩
    · intro name
      rw [mem_wantedChannels]
      exact or_congr_right (and_iff_left_of_imp fun hname => isEmpty_of_isLogin (hlogins name hname))
    · intro hasPrimary hasAi received h hmem hm
      obtain ⟨m, commands, suspended, -, rfl⟩ := Dispatcher.mem_run hmem
      obtain ⟨hadmin, hai⟩ := primary_of_nodup hdistinct hasPrimary hasAi hm
      rw [Dispatcher.handle_message] at hadmin hai
      rw [Dispatcher.handle_recorded hadmin, hai]
      rfl
    · intro hasPrimary hasAi received h hmem hm
      obtain ⟨m, commands, suspended, -, rfl⟩ := Dispatcher.mem_run hmem
      rw [Dispatcher.handle_message] at hm ⊢
      exact Dispatcher.handle_admin (isAdminChannel_ofSettings.mpr hm) commands suspended
    · intro hasPrimary hasAi received h hmem hm
      obtain ⟨m, commands, suspended, -, rfl⟩ := Dispatcher.mem_run hmem
      rw [Dispatcher.handle_message] at hm
      have hadmin := ai_of_nodup hdistinct hasPrimary hasAi hm
      have hai : (Dispatcher.ofSettings s.twitch hasPrimary hasAi).isAiChannel m = true := isAiChannel_ofSettings.mpr hm
      constructor
      · rw [Dispatcher.handle_recorded hadmin, hai]
        rfl
      · intro e he
        rw [Dispatcher.handle_of_not_admin hadmin] at he
        exact Dispatcher.execution_ai hai he

/-! ## Two saves -/

/-- The chat library, as it checks the names. -/
def checkedIrc : Irc where
  setWantedChannels channels := channels.all isLogin
  accepts_iff _ := List.all_eq_true

/-- The defaults with these channels. -/
def withChannels (adminChannel aiChannel : Option String) : Settings :=
  { Settings.compiledDefaults with twitch := { Settings.compiledDefaults.twitch with adminChannel, aiChannel } }

/-- Settings with channels that pass are valid. -/
theorem validate_withChannels {channel : String} {adminChannel aiChannel : Option String}
    (h : validateChannels plainLibs channel adminChannel aiChannel = []) :
    (withChannels adminChannel aiChannel).validate plainLibs channel = .ok () :=
  have hdefaults : Settings.compiledDefaults.Valid plainLibs channel := Settings.valid_compiledDefaults (by decide)
  Settings.validate_ok_iff.mpr { hdefaults with channels := h }

/-- Two channels that are logins are accepted, and the bot tells them apart. -/
theorem accepted_settings_boot_logins :
    GatesCorrectly checkedIrc "chat" (withChannels (some "admins") (some "ai_room")).twitch ∧
      boots checkedIrc "chat" (withChannels (some "admins") (some "ai_room")).twitch = true := by
  have hvalid : (withChannels (some "admins") (some "ai_room")).validate plainLibs "chat" = .ok () :=
    validate_withChannels (by decide +kernel)
  have h := (accepted_settings_boot_iff checkedIrc plainLibs "chat" _ (by decide) hvalid).mpr (by decide)
  exact ⟨h, h.boots⟩

/-- A channel that is written with its hash sign, as the form shows it, is accepted, and the bot does not start again. -/
theorem hash_sign_stops_the_start :
    isLogin "chat" = true ∧ (withChannels (some "#admins") none).validate plainLibs "chat" = .ok () ∧
      ∀ irc : Irc, boots irc "chat" (withChannels (some "#admins") none).twitch = false ∧
        ¬ GatesCorrectly irc "chat" (withChannels (some "#admins") none).twitch := by
  refine ⟨by decide +kernel, validate_withChannels (by decide +kernel), fun irc => ?_⟩
  have hfalse : boots irc "chat" (withChannels (some "#admins") none).twitch = false := by
    rw [Bool.eq_false_iff]
    intro hboots
    have hlogin : isLogin "#admins" = true := (boots_iff.mp hboots).2 "#admins" (by decide) (by decide)
    exact absurd hlogin (by decide)
  refine ⟨hfalse, fun h => ?_⟩
  rw [h.boots] at hfalse
  cases hfalse

end Twitch1337.Dispatch
