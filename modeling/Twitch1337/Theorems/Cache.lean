import Twitch1337.Theorems.Scope

/-!
# The prefix for the cache

The durable part of the context, and the system message with it, is meant to be the same in every turn. It is exactly when no user
file is ever packed: when for every login the latest file is beyond the budget, beside SOUL and LORE.
-/

namespace Twitch1337.Memory.Inject

open Chrono Schedules Text

variable {R : Rfc3339} {Z : Zone} {d : Disk} {now now' : Instant}

/-! ## Turns of one configuration -/

/-- What does not change from turn to turn. -/
structure TurnConfig where
  injectByteBudget : Nat
  nonce : Text
  primaryLogin : Text
  aiChannelLogin : Option Text
  botLogin : Text
  personaName : Text

/-- What a turn brings: its speaker, its channel, and what was said before it. -/
structure Turn where
  speakerLogin : Text
  invocationChannel : InvocationChannel
  primaryHistory : Option (List ChatHistoryEntry)
  aiChannelHistory : Option (List ChatHistoryEntry)

def TurnConfig.opts (cfg : TurnConfig) (turn : Turn) : BuildOpts where
  injectByteBudget := cfg.injectByteBudget
  nonce := cfg.nonce
  primaryHistory := turn.primaryHistory
  primaryLogin := cfg.primaryLogin
  aiChannelHistory := turn.aiChannelHistory
  aiChannelLogin := cfg.aiChannelLogin
  invocationChannel := turn.invocationChannel
  botLogin := cfg.botLogin
  personaName := cfg.personaName
  speakerLogin := turn.speakerLogin

/-- Any two turns of the chat are given the same durable memory, and with it the same system message. -/
def PrefixStable (R : Rfc3339) (Z : Zone) (d : Disk) (cfg : TurnConfig) : Prop :=
  ∀ now now' turn turn' c c', (cfg.opts turn).isChatTurn = true → (cfg.opts turn').isChatTurn = true →
    buildChatTurnContext R Z d now (cfg.opts turn) = some c → buildChatTurnContext R Z d now' (cfg.opts turn') = some c' →
      c.durableMemory = c'.durableMemory ∧
        ∀ head appendices, SystemParts.system ⟨head, appendices, c.durableMemory⟩ =
          SystemParts.system ⟨head, appendices, c'.durableMemory⟩

/-- The blocks of SOUL and LORE. -/
def ReadFiles.head (nonce : Text) (files : ReadFiles) : List Text :=
  [fenceBlock .soul nonce files.soul.body, fenceBlock .lore nonce files.lore.body]

/-- The latest file of every login is beyond the budget, beside SOUL and LORE. -/
def NoneFits (R : Rfc3339) (d : Disk) (cfg : TurnConfig) : Prop :=
  ∀ now files, readFiles R d now = some files → ∀ login f block, files.users.find? (hasLogin login) = some f →
    userBlock cfg.nonce f = some block →
      cfg.injectByteBudget < ((files.head cfg.nonce).map utf8Len).sum + utf8Len block + 1

/-! ## What is read -/

theorem readFiles_eq {files : ReadFiles} (h : readFiles R d now = some files) :
    d.readKind R .soul now = some files.soul ∧ d.readKind R .lore now = some files.lore ∧
      d.listUsers R now = some files.users ∧ d.listState R now = some files.states := by
  unfold readFiles at h
  split at h
  · rename_i hsoul hlore husers hstates
    cases h
    exact ⟨hsoul, hlore, husers, hstates⟩
  · cases h

/-- Every user file that was read has a block. -/
theorem userBlock_of_mem {files : ReadFiles} (h : readFiles R d now = some files) (nonce : Text) {f : MemoryFile}
    (hf : f ∈ files.users) : ∃ block, userBlock nonce f = some block := by
  obtain ⟨_, hsub, _⟩ := mem_listInSubdir (readFiles_eq h).2.2.1 f hf
  unfold userBlock
  cases hk : f.kind with
  | user userId => exact ⟨_, rfl⟩
  | soul => rw [hk] at hsub; cases hsub
  | lore => rw [hk] at hsub; cases hsub
  | state slug => rw [hk] at hsub; cases hsub

/-- SOUL and LORE read the same at all times. -/
theorem head_now {files files' : ReadFiles} (h : readFiles R d now = some files) (h' : readFiles R d now' = some files')
    (nonce : Text) : files.head nonce = files'.head nonce := by
  obtain ⟨hsoul, hlore, _, _⟩ := readFiles_eq h
  obtain ⟨hsoul', hlore', _, _⟩ := readFiles_eq h'
  have hbody : files.soul.body = files'.soul.body ∧ files.lore.body = files'.lore.body := by
    have h1 := readKind_body (R := R) d .soul now
    have h2 := readKind_body (R := R) d .lore now
    rw [← readKind_body d .soul now', hsoul, hsoul'] at h1
    rw [← readKind_body d .lore now', hlore, hlore'] at h2
    exact ⟨Option.some.inj h1, Option.some.inj h2⟩
  rw [ReadFiles.head, ReadFiles.head, hbody.1, hbody.2]

/-- The context of a turn, over the files that were read. -/
theorem context_of_read (Z : Zone) (opts : BuildOpts) {files : ReadFiles} (hread : readFiles R d now = some files) :
    ∃ c, buildChatTurnContext R Z d now opts = some c ∧
      c.durableMemory = ['\n'].intercalate (opts.blocks Z files).durable ∧
      c.volatileState = ['\n'].intercalate (opts.blocks Z files).state :=
  ⟨_, by rw [buildChatTurnContext, hread]; rfl, rfl, rfl⟩

/-! ## What is packed -/

/-- The durable blocks of a turn: SOUL, LORE, and what is packed of the user files. -/
theorem durable_eq (cfg : TurnConfig) (turn : Turn) (files : ReadFiles) : ((cfg.opts turn).blocks Z files).durable =
    files.head cfg.nonce ++ (packBlocks cfg.injectByteBudget ((files.head cfg.nonce).map utf8Len).sum
      (((cfg.opts turn).retained Z files.users).filterMap (userBlock cfg.nonce))).1 := rfl

/-- The first file that a turn packs is the latest of its login. -/
theorem find_of_head {opts : BuildOpts} {users rest : List MemoryFile} {f : MemoryFile}
    (hsorted : users.Pairwise MemoryFile.Newer) (hturn : opts.isChatTurn = true)
    (h : opts.retained Z users = f :: rest) :
    ∃ login, f.frontmatter.username = some login ∧ users.find? (hasLogin login) = some f := by
  have hmem : f ∈ users.filter (opts.inScope Z) := by
    have hf : f ∈ opts.retained Z users := h ▸ List.mem_cons_self
    unfold BuildOpts.retained at hf
    rwa [hturn, if_pos rfl, List.mem_insertionSort] at hf
  have hscope := (List.mem_filter.mp hmem).2
  unfold BuildOpts.inScope at hscope
  split at hscope
  · cases hscope
  rename_i login hlogin
  refine ⟨login, hlogin, ?_⟩
  -- the files of that login are all in scope, and packed in the order in which they are listed
  have hin : ∀ g, hasLogin login g = true → opts.inScope Z g = true := by
    intro g hg
    obtain ⟨n, hn, heq⟩ := hasLogin_iff.mp hg
    rw [BuildOpts.inScope, hn]
    dsimp only
    rw [heq]
    exact hscope
  have hall : (users.filter (opts.inScope Z)).filter (hasLogin login) = users.filter (hasLogin login) := by
    rw [List.filter_filter]
    refine List.filter_congr fun g _ => ?_
    cases hg : hasLogin login g with
    | false => rfl
    | true => rw [hin g hg, Bool.and_self]
  have hstay : (opts.retained Z users).filter (hasLogin login) = users.filter (hasLogin login) := by
    unfold BuildOpts.retained
    rw [hturn, if_pos rfl, Stable.filter_insertionSort, hall]
    rw [hall]
    exact pairwise_hasLogin hsorted login _
  have hself : hasLogin login f = true := hasLogin_iff.mpr ⟨login, hlogin, rfl⟩
  rw [← List.head?_filter, ← hstay, h, List.filter_cons_of_pos hself, List.head?_cons]

/-- Where none fits, a turn of the chat packs no user file. -/
theorem durable_of_noneFits {cfg : TurnConfig} (h : NoneFits R d cfg) {turn : Turn} {files : ReadFiles}
    (hturn : (cfg.opts turn).isChatTurn = true) (hread : readFiles R d now = some files) :
    ((cfg.opts turn).blocks Z files).durable = files.head cfg.nonce := by
  rw [durable_eq, packBlocks_nil_iff.mpr, List.append_nil]
  · intro block hblock
    cases hret : (cfg.opts turn).retained Z files.users with
    | nil =>
      rw [hret] at hblock
      cases hblock
    | cons f rest =>
      obtain ⟨login, hlogin, hfind⟩ := find_of_head (pairwise_listInSubdir (readFiles_eq hread).2.2.1) hturn hret
      obtain ⟨first, hfirst⟩ := userBlock_of_mem hread cfg.nonce (List.mem_of_find?_eq_some hfind)
      rw [hret, List.filterMap_cons_some hfirst, List.head?_cons, Option.mem_def, Option.some.injEq] at hblock
      subst hblock
      exact h now files hread login f first hfind hfirst

/-! ## Two turns -/

/-- A turn without a speaker, in which nothing was said. -/
def quietTurn : Turn := ⟨[], .primary, some [], none⟩

/-- A turn in which nothing was said before. -/
def turnBy (login : Text) : Turn := ⟨login, .primary, none, none⟩

/-- The scope of a turn in which nothing was said is its speaker. -/
theorem scope_turnBy (cfg : TurnConfig) {login : Text} (h : login ≠ []) :
    (cfg.opts (turnBy login)).isChatTurn = true ∧ (cfg.opts (turnBy login)).inScope Z = hasLogin login := by
  have hlc : toAsciiLowercase login ≠ [] := by simpa [toAsciiLowercase] using h
  have hsections : (cfg.opts (turnBy login)).sections Z = [] := by
    unfold BuildOpts.sections turnBy TurnConfig.opts
    cases cfg.aiChannelLogin <;> rfl
  have hscope : (cfg.opts (turnBy login)).scope Z = [toAsciiLowercase login] := by
    unfold BuildOpts.scope
    rw [hsections]
    simp [BuildOpts.speakerLc, TurnConfig.opts, turnBy, hlc]
  refine ⟨by simp [BuildOpts.isChatTurn, BuildOpts.speakerLc, TurnConfig.opts, turnBy, hlc], ?_⟩
  funext f
  unfold BuildOpts.inScope hasLogin
  rw [hscope]
  cases f.frontmatter.username with
  | none => rfl
  | some n => simp [eqIgnoreAsciiCase, Bool.beq_eq_decide_eq]

/-- The scope of a quiet turn is empty. -/
theorem retained_quietTurn (cfg : TurnConfig) (users : List MemoryFile) :
    (cfg.opts quietTurn).isChatTurn = true ∧ (cfg.opts quietTurn).retained Z users = [] := by
  have hscope : (cfg.opts quietTurn).scope Z = [] := by
    unfold BuildOpts.scope BuildOpts.sections quietTurn TurnConfig.opts
    cases cfg.aiChannelLogin <;> rfl
  have hnone : (users.filter ((cfg.opts quietTurn).inScope Z)) = [] := by
    refine List.filter_eq_nil_iff.mpr fun f _ => ?_
    unfold BuildOpts.inScope
    rw [hscope]
    cases f.frontmatter.username <;> simp
  refine ⟨rfl, ?_⟩
  unfold BuildOpts.retained
  rw [show (cfg.opts quietTurn).isChatTurn = true from rfl, if_pos rfl, hnone]
  rfl

/-- The files of a turn in which nothing was said are those of its speaker. -/
theorem retained_turnBy (cfg : TurnConfig) {login : Text} (h : login ≠ []) {users : List MemoryFile}
    (hsorted : users.Pairwise MemoryFile.Newer) :
    (cfg.opts (turnBy login)).retained Z users = users.filter (hasLogin login) := by
  unfold BuildOpts.retained
  rw [(scope_turnBy (Z := Z) cfg h).1, if_pos rfl, (scope_turnBy cfg h).2]
  exact (pairwise_hasLogin hsorted login _).insertionSort_eq

/-! ## The theorem -/

/-- The durable memory is the same in any two turns of the chat exactly when the latest file of every login is beyond the budget,
beside SOUL and LORE. -/
theorem prefix_stable_iff (R : Rfc3339) (Z : Zone) (d : Disk) (cfg : TurnConfig) :
    PrefixStable R Z d cfg ↔ NoneFits R d cfg := by
  constructor
  · intro h now files hread login f block hfind hblock
    refine Nat.lt_of_not_le fun hfits => ?_
    obtain ⟨n, hn, hsame⟩ := hasLogin_iff.mp (List.find?_some hfind)
    have hf := List.mem_of_find?_eq_some hfind
    obtain ⟨_, _, hkind⟩ := mem_listInSubdir (readFiles_eq hread).2.2.1 f hf
    have hne : n ≠ [] := (readKind_username hkind n hn).2
    have hlogin : hasLogin login = hasLogin n := by
      funext g
      simp only [hasLogin, eqIgnoreAsciiCase, hsame]
    rw [hlogin] at hfind
    -- in a turn of the owner that file is packed, in a quiet one it is not
    have hsorted := pairwise_listInSubdir (readFiles_eq hread).2.2.1
    obtain ⟨rest, hrest⟩ : ∃ rest, (cfg.opts (turnBy n)).retained Z files.users = f :: rest := by
      rw [retained_turnBy cfg hne hsorted]
      rw [← List.head?_filter, List.head?_eq_some_iff] at hfind
      exact hfind
    have hspeaks : ((cfg.opts (turnBy n)).blocks Z files).durable = files.head cfg.nonce ++
        block :: (packBlocks cfg.injectByteBudget (((files.head cfg.nonce).map utf8Len).sum + utf8Len block + 1)
          (rest.filterMap (userBlock cfg.nonce))).1 := by
      rw [durable_eq, hrest, List.filterMap_cons_some hblock, packBlocks_cons hfits]
    have hquiet : ((cfg.opts quietTurn).blocks Z files).durable = files.head cfg.nonce := by
      rw [durable_eq, (retained_quietTurn cfg files.users).2]
      rfl
    obtain ⟨c, hc, hdurable, -⟩ := context_of_read Z (cfg.opts (turnBy n)) hread
    obtain ⟨c', hc', hdurable', -⟩ := context_of_read Z (cfg.opts quietTurn) hread
    have heq := (h now now _ _ c c' (scope_turnBy (Z := Z) cfg hne).1 rfl hc hc').1
    rw [hdurable, hdurable', hspeaks, hquiet] at heq
    have hlen := congrArg List.length heq
    simp [ReadFiles.head, List.intercalate] at hlen
  · intro h now now' turn turn' c c' hturn hturn' hc hc'
    obtain ⟨files, hread, rfl⟩ := Option.map_eq_some_iff.mp hc
    obtain ⟨files', hread', rfl⟩ := Option.map_eq_some_iff.mp hc'
    have heq : ((cfg.opts turn).blocks Z files).durable = ((cfg.opts turn').blocks Z files').durable := by
      rw [durable_of_noneFits h hturn hread, durable_of_noneFits h hturn' hread', head_now hread hread']
    dsimp only
    rw [heq]
    exact ⟨rfl, fun _ _ => rfl⟩

/-! ### Alice and Bob speak -/

def sampleConfig : TurnConfig where
  injectByteBudget := 24576
  nonce := freshNonce [0, 17, 34, 51, 68, 85, 102, 119]
  primaryLogin := "main".toList
  aiChannelLogin := none
  botLogin := "bot".toList
  personaName := "Aurora".toList

/-- When Alice speaks the durable memory has her file, and when Bob does it has his. -/
theorem speaker_changes_prefix : ¬ PrefixStable .sample (.fixed 7200) aliceAndBob sampleConfig := by
  intro h
  have hsome : (buildChatTurnContext .sample (.fixed 7200) aliceAndBob evening
        (sampleConfig.opts (turnBy "alice".toList))).isSome = true ∧
      (buildChatTurnContext .sample (.fixed 7200) aliceAndBob evening
        (sampleConfig.opts (turnBy "bob".toList))).isSome = true ∧
      (buildChatTurnContext .sample (.fixed 7200) aliceAndBob evening
        (sampleConfig.opts (turnBy "alice".toList))).map (·.durableMemory) ≠
      (buildChatTurnContext .sample (.fixed 7200) aliceAndBob evening
        (sampleConfig.opts (turnBy "bob".toList))).map (·.durableMemory) := by
    decide +kernel
  obtain ⟨c, hc⟩ := Option.isSome_iff_exists.mp hsome.1
  obtain ⟨c', hc'⟩ := Option.isSome_iff_exists.mp hsome.2.1
  have hne := hsome.2.2
  rw [hc, hc'] at hne
  exact hne (congrArg some (h evening evening _ _ c c' (by decide +kernel) (by decide +kernel) hc hc').1)

end Twitch1337.Memory.Inject
