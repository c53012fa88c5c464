import Twitch1337.Lemmas.Settings
import Twitch1337.Lib.Lowercase
import Twitch1337.Theorems.Cache
import Twitch1337.Theorems.Capacity
import Twitch1337.Theorems.Fences
import Twitch1337.Theorems.Settings

/-!
# The budget of the context

The memory of a turn is within its budget unless SOUL and LORE are beyond it, or the first user blocks fill it to the last byte: the
newline between SOUL and LORE is not counted. The speaker's file is in the memory when it fits beside SOUL, LORE and the speaker's
later files.
-/

namespace Twitch1337.Memory

open Chrono Dashboard Schedules Text

/-- The caps that settings give. -/
def Caps.fromSettings (s : Settings) : Caps where
  soulBytes := s.ai.memory.soulBytes.toNat
  loreBytes := s.ai.memory.loreBytes.toNat
  userBytes := s.ai.memory.userBytes.toNat
  stateBytes := s.ai.memory.stateBytes.toNat
  maxStateFiles := s.ai.memory.maxStateFiles.toNat

namespace Inject

variable {R : Rfc3339} {Z : Zone} {d : Disk} {now : Instant} {opts : BuildOpts} {files : ReadFiles}

/-- The bytes of SOUL and LORE. -/
def headBytes (opts : BuildOpts) (files : ReadFiles) : Nat := ((files.head opts.nonce).map utf8Len).sum

/-- The blocks of the user files, in the order in which they are packed. -/
def userBlocks (Z : Zone) (opts : BuildOpts) (files : ReadFiles) : List Text :=
  (opts.retained Z files.users).filterMap (userBlock opts.nonce)

/-- The blocks of the state files, in the order in which they are packed. -/
def stateBlocks (opts : BuildOpts) (files : ReadFiles) : List Text :=
  (files.states.insertionSort MemoryFile.Newer).filterMap (stateBlock opts.nonce)

/-- The user blocks that are packed, and the bytes with them. -/
def packedUsers (Z : Zone) (opts : BuildOpts) (files : ReadFiles) : List Text × Nat :=
  packBlocks opts.injectByteBudget (headBytes opts files) (userBlocks Z opts files)

theorem blocks_eq : opts.blocks Z files =
    ⟨files.head opts.nonce ++ (packedUsers Z opts files).1,
      (packBlocks opts.injectByteBudget (packedUsers Z opts files).2 (stateBlocks opts files)).1⟩ := rfl

/-! ## The bytes of the context -/

theorem utf8Len_append (a b : Text) : utf8Len (a ++ b) = utf8Len a + utf8Len b := by
  simp [utf8Len]

/-- Blocks that are joined have one newline less than blocks. -/
theorem utf8Len_intercalate {blocks : List Text} (h : blocks ≠ []) : utf8Len (['\n'].intercalate blocks) + 1 = cost blocks := by
  induction blocks with
  | nil => exact absurd rfl h
  | cons block blocks ih =>
    cases blocks with
    | nil => simp [List.intercalate]
    | cons next blocks =>
      have hjoin : ['\n'].intercalate (block :: next :: blocks) =
          block ++ '\n' :: ['\n'].intercalate (next :: blocks) := by
        simp [List.intercalate]
      have hrest := ih (List.cons_ne_nil next blocks)
      have hnewline : utf8Len ('\n' :: ['\n'].intercalate (next :: blocks)) =
          1 + utf8Len (['\n'].intercalate (next :: blocks)) := by
        simp [utf8Len]
        decide
      rw [hjoin, utf8Len_append, hnewline, cost_cons, ← hrest]
      omega

theorem cost_head : cost (files.head opts.nonce) = headBytes opts files + 2 := by
  simp only [ReadFiles.head, headBytes, cost, List.map_cons, List.map_nil, List.sum_cons, List.sum_nil]
  omega

/-- The memory of a turn is within its budget. -/
def WithinBudget (R : Rfc3339) (Z : Zone) (d : Disk) (now : Instant) (opts : BuildOpts) : Prop :=
  ∀ c, buildChatTurnContext R Z d now opts = some c →
    utf8Len c.durableMemory + utf8Len c.volatileState ≤ opts.injectByteBudget

/-- SOUL and LORE are within the budget, and do not fill it to the last byte, alone or with the first user blocks. -/
structure Roomy (Z : Zone) (opts : BuildOpts) (files : ReadFiles) : Prop where
  head : headBytes opts files ≤ opts.injectByteBudget
  users : ∀ blocks, blocks <+: userBlocks Z opts files → headBytes opts files + cost blocks ≠ opts.injectByteBudget

/-- A context without state blocks has one byte more than was counted. -/
theorem contextBytes_le_iff :
    utf8Len (['\n'].intercalate (opts.blocks Z files).durable) + utf8Len (['\n'].intercalate (opts.blocks Z files).state) ≤
      opts.injectByteBudget ↔
    (opts.blocks Z files).state ≠ [] ∨ (packedUsers Z opts files).2 < opts.injectByteBudget := by
  obtain ⟨_, -, htotal, -, -⟩ := packBlocks_spec opts.injectByteBudget (headBytes opts files) (userBlocks Z opts files)
  obtain ⟨_, -, hstates, hfits, -⟩ :=
    packBlocks_spec opts.injectByteBudget (packedUsers Z opts files).2 (stateBlocks opts files)
  have hused : (packedUsers Z opts files).2 = headBytes opts files + cost (packedUsers Z opts files).1 := htotal
  have hnonempty : files.head opts.nonce ++ (packedUsers Z opts files).1 ≠ [] := by simp [ReadFiles.head]
  have hdurable := utf8Len_intercalate hnonempty
  rw [cost_append, cost_head] at hdurable
  rw [blocks_eq]
  dsimp only
  by_cases hnone : (packBlocks opts.injectByteBudget (packedUsers Z opts files).2 (stateBlocks opts files)).1 = []
  · have hempty : utf8Len (['\n'].intercalate ([] : List Text)) = 0 := rfl
    rw [hnone, hempty]
    constructor
    · intro h
      exact .inr (by omega)
    · rintro (h | h)
      · exact absurd rfl h
      · omega
  · have hvolatile := utf8Len_intercalate hnone
    have hwithin := hfits.resolve_left hnone
    exact iff_of_true (by omega) (.inl hnone)

/-- Where the first user blocks fill the budget to the last byte, or SOUL and LORE alone are beyond it, nothing else is packed. -/
theorem full_of_prefix {blocks rest : List Text} (hsplit : userBlocks Z opts files = blocks ++ rest)
    (hfull : headBytes opts files + cost blocks = opts.injectByteBudget) :
    (opts.blocks Z files).state = [] ∧ (packedUsers Z opts files).2 = opts.injectByteBudget := by
  have hused : (packedUsers Z opts files).2 = opts.injectByteBudget := by
    rw [packedUsers, hsplit, packBlocks_append hfull.le, packBlocks_full hfull.ge]
    exact hfull
  refine ⟨?_, hused⟩
  rw [blocks_eq, hused, packBlocks_full (Nat.le_refl _)]

/-- The memory of a turn is within its budget exactly when SOUL and LORE are, and no first user blocks fill it to the last byte. -/
theorem budget_kept_iff (R : Rfc3339) (Z : Zone) (d : Disk) (now : Instant) (opts : BuildOpts) :
    WithinBudget R Z d now opts ↔ ∀ files, readFiles R d now = some files → Roomy Z opts files := by
  constructor
  · intro h files hread
    obtain ⟨c, hc, hdurable, hvolatile⟩ := context_of_read Z opts hread
    have hbytes := h c hc
    rw [hdurable, hvolatile, contextBytes_le_iff] at hbytes
    refine ⟨Nat.le_of_not_lt fun hover => ?_, ?_⟩
    · have hused : packedUsers Z opts files = ([], headBytes opts files) := packBlocks_full hover.le _
      rw [blocks_eq, hused, packBlocks_full hover.le] at hbytes
      rcases hbytes with hstate | hroom
      · exact hstate rfl
      · exact Nat.lt_asymm hover hroom
    · rintro blocks ⟨rest, hrest⟩ hfull
      obtain ⟨hstate, hused⟩ := full_of_prefix hrest.symm hfull
      rcases hbytes with hne | hroom
      · exact hne hstate
      · omega
  · intro h c hc
    obtain ⟨files, hread, rfl⟩ := Option.map_eq_some_iff.mp hc
    have hroomy := h files hread
    refine contextBytes_le_iff.mpr (.inr ?_)
    obtain ⟨rest, hrest, htotal, hfits, -⟩ :=
      packBlocks_spec opts.injectByteBudget (headBytes opts files) (userBlocks Z opts files)
    have hne := hroomy.users _ ⟨rest, hrest.symm⟩
    have hhead := hroomy.head
    rw [packedUsers]
    rcases hfits with hnone | hfits
    · rw [hnone, cost_nil] at htotal hne
      omega
    · omega

/-! ### Full notes -/

/-- A budget for SOUL and LORE, and nothing else. -/
def tightSettings : Settings :=
  { Settings.compiledDefaults with ai := { memory := { soulBytes := 100, loreBytes := 100, injectByteBudget := 200 } } }

theorem validate_tightSettings : tightSettings.validate plainLibs "chat" = .ok () := by
  have hdefaults : Settings.compiledDefaults.Valid plainLibs "chat" := Settings.valid_compiledDefaults (by decide)
  exact Settings.validate_ok_iff.mpr { hdefaults with memory := by rfl }

/-- A note of 55 letters, in a file of a hundred bytes. -/
def note (c : Char) (mtime : Mtime) : File :=
  ⟨some (emit .sample ⟨evening, none, none, none⟩ (List.replicate 55 c)), mtime⟩

/-- SOUL and LORE are as large as they may be, and Alice has a file. -/
def fullNotes : Disk :=
  ⟨AList.insert .soul (note 's' 1) (AList.insert .lore (note 'l' 2)
    (AList.insert alice (userFile "alice" "Alice" "likes trains" 3) ∅)), 3⟩

theorem withinCaps_fullNotes : WithinCaps (Caps.fromSettings tightSettings) fullNotes := by
  refine ⟨by decide, fun kind file raw hlookup hraw => ?_⟩
  rw [fullNotes, Table.lookup_insert, Table.lookup_insert, Table.lookup_insert] at hlookup
  have hsizes : (note 's' 1).content.all (utf8Len · ≤ 100) = true ∧ (note 'l' 2).content.all (utf8Len · ≤ 100) = true ∧
      (userFile "alice" "Alice" "likes trains" 3).content.all (utf8Len · ≤ 4096) = true := by
    decide
  split at hlookup
  · rename_i hkind
    obtain rfl := Option.some.inj hlookup
    rw [hraw] at hsizes
    rw [hkind]
    exact of_decide_eq_true hsizes.1
  · split at hlookup
    · rename_i hkind
      obtain rfl := Option.some.inj hlookup
      rw [hraw] at hsizes
      rw [hkind]
      exact of_decide_eq_true hsizes.2.1
    · split at hlookup
      · rename_i hkind
        obtain rfl := Option.some.inj hlookup
        rw [hraw] at hsizes
        rw [hkind]
        exact of_decide_eq_true hsizes.2.2
      · cases hlookup

/-- A turn under the tight budget. -/
def tightTurn (speaker : String) : BuildOpts :=
  { turnOf speaker [] with injectByteBudget := tightSettings.ai.memory.injectByteBudget.toNat }

/-- Full notes are beyond the budget, as their fences are longer than the headers of their files. -/
theorem full_notes_over_budget : tightSettings.validate plainLibs "chat" = .ok () ∧
    WithinCaps (Caps.fromSettings tightSettings) fullNotes ∧
    ¬ WithinBudget .sample (.fixed 7200) fullNotes evening (tightTurn "alice") := by
  refine ⟨validate_tightSettings, withinCaps_fullNotes, fun h => ?_⟩
  have hover : (buildChatTurnContext .sample (.fixed 7200) fullNotes evening (tightTurn "alice")).any
      (fun c => (tightTurn "alice").injectByteBudget < utf8Len c.durableMemory + utf8Len c.volatileState) = true := by
    decide +kernel
  obtain ⟨c, hc, hlt⟩ := (Option.any_eq_true _ _).mp hover
  exact absurd (h c hc) (Nat.not_le_of_lt (of_decide_eq_true hlt))

/-! ## The speaker's files -/

/-- The blocks of the speaker's files, the latest first. -/
def speakerBlocks (opts : BuildOpts) (files : ReadFiles) : List Text :=
  (files.users.filter (isSpeaker opts.speakerLc)).filterMap (userBlock opts.nonce)

/-- The speaker's files are those of a login. -/
theorem isSpeaker_eq_hasLogin {speakerLc : Text} (h : speakerLc ≠ []) : isSpeaker speakerLc = hasLogin speakerLc := by
  funext f
  cases speakerLc with
  | nil => exact absurd rfl h
  | cons c t => rfl

theorem toAsciiLowercase_speakerLc (opts : BuildOpts) : toAsciiLowercase opts.speakerLc = opts.speakerLc := by
  simp only [BuildOpts.speakerLc, toAsciiLowercase, List.map_map]
  exact List.map_congr_left fun c _ => RustStr.toLower_toLower c

/-- The speaker's files are in scope. -/
theorem inScope_of_isSpeaker {f : MemoryFile} (h : isSpeaker opts.speakerLc f = true) : opts.inScope Z f = true := by
  have hne : opts.speakerLc ≠ [] := by
    intro hnil
    rw [hnil] at h
    cases h
  rw [isSpeaker_eq_hasLogin hne, hasLogin_iff, toAsciiLowercase_speakerLc] at h
  obtain ⟨n, hn, hlogin⟩ := h
  simp [BuildOpts.inScope, hn, hlogin, BuildOpts.scope, hne]

/-- The speaker's files are packed first, the latest of them before the others. -/
theorem userBlocks_eq (hread : readFiles R d now = some files) {f : MemoryFile} (hspeaker : isSpeaker opts.speakerLc f = true) :
    ∃ others, userBlocks Z opts files = speakerBlocks opts files ++ others := by
  have hne : opts.speakerLc ≠ [] := by
    intro hnil
    rw [hnil] at hspeaker
    cases hspeaker
  have hturn : opts.isChatTurn = true := by
    simp [BuildOpts.isChatTurn, hne]
  have hsorted := pairwise_listInSubdir (readFiles_eq hread).2.2.1
  have hmine : (files.users.filter (opts.inScope Z)).filter (isSpeaker opts.speakerLc) =
      files.users.filter (isSpeaker opts.speakerLc) := by
    rw [List.filter_filter]
    refine List.filter_congr fun g _ => ?_
    cases hg : isSpeaker opts.speakerLc g with
    | false => rfl
    | true => rw [inScope_of_isSpeaker hg, Bool.and_self]
  have horder : ((files.users.filter (opts.inScope Z)).filter (isSpeaker opts.speakerLc)).Pairwise
      (SpeakerFirst opts.speakerLc) := by
    rw [hmine, isSpeaker_eq_hasLogin hne]
    exact pairwise_hasLogin hsorted opts.speakerLc opts.speakerLc
  have hfirst : (opts.retained Z files.users).Pairwise fun a b =>
      isSpeaker opts.speakerLc b = true → isSpeaker opts.speakerLc a = true := by
    refine (List.pairwise_insertionSort _ _).imp fun {a b} hab hb => ?_
    rcases hab with hlt | ⟨heq, -⟩
    · exact (Bool.lt_iff.mp hlt).2
    · rw [heq, hb]
  have hkept : (opts.retained Z files.users).filter (isSpeaker opts.speakerLc) =
      files.users.filter (isSpeaker opts.speakerLc) := by
    rw [BuildOpts.retained, hturn, if_pos rfl, Stable.filter_insertionSort horder, hmine]
  have hsplit := Stable.eq_filter_append_filter hfirst
  rw [hkept] at hsplit
  exact ⟨_, (congrArg (List.filterMap (userBlock opts.nonce)) hsplit).trans List.filterMap_append⟩

/-- Blocks are the same only when their headers begin with the same. -/
theorem attrs_of_fenceBlock {label label' : FenceLabel} {nonce body body' : Text}
    (h : fenceBlock label nonce body = fenceBlock label' nonce body') :
    ∃ t t', renderLabelAttrs label ++ t = renderLabelAttrs label' ++ t' := by
  rw [fenceBlock_eq, fenceBlock_eq, beforeMarker, beforeMarker] at h
  simp only [List.append_assoc, List.cons_append] at h
  exact ⟨_, _, (List.cons.inj (List.append_cancel_left h)).2⟩

theorem attrs_ne (t t' : Text) (id : Text) (login displayName : Option Text) :
    renderLabelAttrs .soul ++ t ≠ renderLabelAttrs (.user id login displayName) ++ t' ∧
      renderLabelAttrs .lore ++ t ≠ renderLabelAttrs (.user id login displayName) ++ t' := by
  have hlits : "kind=soul".toList = ['k', 'i', 'n', 'd', '=', 's', 'o', 'u', 'l'] ∧
      "kind=lore".toList = ['k', 'i', 'n', 'd', '=', 'l', 'o', 'r', 'e'] ∧
      "kind=user id=".toList = ['k', 'i', 'n', 'd', '=', 'u', 's', 'e', 'r', ' ', 'i', 'd', '='] := by
    simp
  obtain ⟨hsoul, hlore, huser⟩ := hlits
  change "kind=soul".toList ++ t ≠ "kind=user id=".toList ++ id ++ loginAttr login ++ nameAttr displayName ++ t' ∧
    "kind=lore".toList ++ t ≠ "kind=user id=".toList ++ id ++ loginAttr login ++ nameAttr displayName ++ t'
  rw [hsoul, hlore, huser]
  generalize loginAttr login = loginText
  generalize nameAttr displayName = nameText
  simp

/-- A user block is neither that of SOUL nor that of LORE. -/
theorem not_mem_head {nonce block : Text} {f : MemoryFile} (hblock : userBlock nonce f = some block) :
    block ∉ files.head nonce := by
  intro hmem
  unfold userBlock at hblock
  split at hblock
  · rw [← Option.some.inj hblock] at hmem
    rcases List.mem_cons.mp hmem with heq | hmem
    · obtain ⟨t, t', h⟩ := attrs_of_fenceBlock heq
      exact (attrs_ne t' t _ _ _).1 h.symm
    · obtain ⟨t, t', h⟩ := attrs_of_fenceBlock (List.mem_singleton.mp hmem)
      exact (attrs_ne t' t _ _ _).2 h.symm
  · cases hblock

/-- The speaker's file is among the blocks of the durable memory. -/
def Survives (R : Rfc3339) (Z : Zone) (d : Disk) (now : Instant) (opts : BuildOpts) (files : ReadFiles) (f : MemoryFile) : Prop :=
  ∃ c block, buildChatTurnContext R Z d now opts = some c ∧
    c.durableMemory = ['\n'].intercalate (opts.blocks Z files).durable ∧
    userBlock opts.nonce f = some block ∧ block ∈ (opts.blocks Z files).durable

/-- The speaker's file fits beside SOUL, LORE and the speaker's later files. -/
def Fits (opts : BuildOpts) (files : ReadFiles) (f : MemoryFile) : Prop :=
  ∃ block before after, userBlock opts.nonce f = some block ∧ speakerBlocks opts files = before ++ block :: after ∧
    headBytes opts files + cost before + utf8Len block + 1 ≤ opts.injectByteBudget

/-- The speaker's file is in the durable memory exactly when it fits beside SOUL, LORE and the speaker's later files. -/
theorem speaker_survives_iff (hread : readFiles R d now = some files) {f : MemoryFile} (hf : f ∈ files.users)
    (hspeaker : isSpeaker opts.speakerLc f = true) : Survives R Z d now opts files f ↔ Fits opts files f := by
  obtain ⟨c, hc, hdurable, -⟩ := context_of_read Z opts hread
  obtain ⟨others, hothers⟩ := userBlocks_eq (Z := Z) hread hspeaker
  have hpacked : ∀ block, userBlock opts.nonce f = some block → (block ∈ (opts.blocks Z files).durable ↔
      ∃ before after, speakerBlocks opts files ++ others = before ++ block :: after ∧
        headBytes opts files + cost before + utf8Len block + 1 ≤ opts.injectByteBudget) := by
    intro block hblock
    rw [blocks_eq, List.mem_append, or_iff_right (not_mem_head hblock), packedUsers, mem_packBlocks_iff, hothers]
  constructor
  · rintro ⟨-, block, -, -, hblock, hmem⟩
    obtain ⟨before, after, hsplit, hfits⟩ := (hpacked block hblock).mp hmem
    have hmine : block ∈ speakerBlocks opts files :=
      List.mem_filterMap.mpr ⟨f, List.mem_filter.mpr ⟨hf, hspeaker⟩, hblock⟩
    -- it was packed as one of the speaker's files, or all of these were packed before
    rcases List.append_eq_append_iff.mp hsplit with ⟨between, hbefore, -⟩ | ⟨between, hspeakerBlocks, hafter⟩
    · obtain ⟨first, last, hfirst⟩ := List.append_of_mem hmine
      refine ⟨block, first, last, hblock, hfirst, ?_⟩
      rw [hbefore, hfirst, cost_append, cost_append, cost_cons] at hfits
      omega
    · cases between with
      | nil =>
        rw [List.append_nil] at hspeakerBlocks
        obtain ⟨first, last, hfirst⟩ := List.append_of_mem hmine
        refine ⟨block, first, last, hblock, hfirst, ?_⟩
        rw [← hspeakerBlocks, hfirst, cost_append, cost_cons] at hfits
        omega
      | cons next between =>
        rw [List.cons_append, List.cons.injEq] at hafter
        exact ⟨block, before, between, hblock, by rw [hspeakerBlocks, ← hafter.1], hfits⟩
  · rintro ⟨block, before, after, hblock, hsplit, hfits⟩
    refine ⟨c, block, hc, hdurable, hblock, (hpacked block hblock).mpr ⟨before, after ++ others, ?_, hfits⟩⟩
    rw [hsplit, List.append_assoc, List.cons_append]

/-! ### Alice speaks -/

/-- Alice's file is in the memory of her turn, under the default budget. -/
theorem speaker_survives_alice : ∃ files f, readFiles .sample aliceAndBob evening = some files ∧ f ∈ files.users ∧
    Survives .sample (.fixed 7200) aliceAndBob evening (turnOf "Alice" []) files f := by
  have hfits : (readFiles .sample aliceAndBob evening).any (fun files => files.users.any fun f =>
      isSpeaker (turnOf "Alice" []).speakerLc f &&
        (userBlock (turnOf "Alice" []).nonce f).any fun block =>
          decide ((speakerBlocks (turnOf "Alice" []) files).head? = some block) &&
          decide (headBytes (turnOf "Alice" []) files + utf8Len block + 1 ≤ (turnOf "Alice" []).injectByteBudget)) = true := by
    rfl
  obtain ⟨files, hread, h⟩ := (Option.any_eq_true _ _).mp hfits
  obtain ⟨f, hf, h⟩ := List.any_eq_true.mp h
  rw [Bool.and_eq_true] at h
  obtain ⟨block, hblock, hroom⟩ := (Option.any_eq_true _ _).mp h.2
  rw [Bool.and_eq_true, decide_eq_true_eq, decide_eq_true_eq] at hroom
  obtain ⟨rest, hrest⟩ := List.head?_eq_some_iff.mp hroom.1
  have hfit : Fits (turnOf "Alice" []) files f := by
    refine ⟨block, [], rest, hblock, hrest, ?_⟩
    simpa only [cost_nil, Nat.add_zero] using hroom.2
  exact ⟨files, f, hread, hf, (speaker_survives_iff hread hf h.1).mpr hfit⟩

/-- Beside full notes there is no room for the file of the speaker. -/
theorem speaker_dropped : tightSettings.validate plainLibs "chat" = .ok () ∧
    WithinCaps (Caps.fromSettings tightSettings) fullNotes ∧
    ∃ files f, readFiles .sample fullNotes evening = some files ∧ f ∈ files.users ∧
      isSpeaker (tightTurn "Alice").speakerLc f = true ∧
      ¬ Survives .sample (.fixed 7200) fullNotes evening (tightTurn "Alice") files f := by
  refine ⟨validate_tightSettings, withinCaps_fullNotes, ?_⟩
  have hdropped : (readFiles .sample fullNotes evening).any (fun files => files.users.any fun f =>
      isSpeaker (tightTurn "Alice").speakerLc f &&
        (userBlock (tightTurn "Alice").nonce f).all fun block =>
          decide (block ∉ ((tightTurn "Alice").blocks (.fixed 7200) files).durable)) = true := by
    decide +kernel
  obtain ⟨files, hread, h⟩ := (Option.any_eq_true _ _).mp hdropped
  obtain ⟨f, hf, h⟩ := List.any_eq_true.mp h
  rw [Bool.and_eq_true] at h
  refine ⟨files, f, hread, hf, h.1, ?_⟩
  rintro ⟨-, block, -, -, hblock, hmem⟩
  have hnot := (Option.all_eq_true _ _).mp h.2 block hblock
  exact (decide_eq_true_iff.mp hnot) hmem

end Inject

end Twitch1337.Memory
