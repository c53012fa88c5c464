import Mathlib.Logic.Function.Basic
import Twitch1337.Bot.SevenTv

/-!
# Emotes of a channel

The catalogues depend on the channel and the cache does not: a call that does not refresh it reads the emotes of the channel
that did last. What a call offers is of its own channel when that was the same one.
-/

namespace Twitch1337.SevenTv

open Dashboard RustStr

/-! ## What a choice is made from -/

/-- What is picked was, or is the new one. -/
theorem mem_pick {room : Nat} {picked : List Indexed} {entry e : Indexed} (h : e ∈ pick room picked entry) :
    e ∈ picked ∨ e = entry := by
  unfold pick at h
  by_cases hfull : (room ≤ picked.length || picked.any (·.2 == entry.2)) = true
  · rw [if_pos hfull] at h
    exact .inl h
  · rw [if_neg hfull] at h
    simpa using h

/-- What is picked of some was, or is one of them. -/
theorem mem_foldl_pick {room : Nat} {entries picked : List Indexed} {e : Indexed}
    (h : e ∈ entries.foldl (pick room) picked) : e ∈ picked ∨ e ∈ entries := by
  induction entries generalizing picked with
  | nil => exact .inl h
  | cons entry rest ih =>
    rw [List.foldl_cons] at h
    rcases ih h with hpicked | hrest
    · rcases mem_pick hpicked with hold | hnew
      · exact .inl hold
      · exact .inr (by simp [hnew])
    · exact .inr (List.mem_cons_of_mem entry hrest)

theorem mem_of_mem_zipIdx {emotes : List PromptEmote} {e : Indexed} (h : e ∈ emotes.zipIdx) : e.1 ∈ emotes :=
  (List.mem_zipIdx' h).2 ▸ List.getElem_mem _

/-- A turn is offered emotes of the list only. -/
theorem mem_of_mem_selectPromptEmotes {U : Unicode} {emotes : List PromptEmote} {maxPromptEmotes minBaselineEmotes : Nat}
    {pinnedEmotes : List String} {instruction recentChat : String} {e : PromptEmote}
    (h : e ∈ selectPromptEmotes U emotes maxPromptEmotes minBaselineEmotes pinnedEmotes instruction recentChat) :
    e ∈ emotes := by
  unfold selectPromptEmotes at h
  by_cases hzero : maxPromptEmotes = 0
  · simp [hzero] at h
  · rw [if_neg hzero] at h
    obtain ⟨entry, hentry, rfl⟩ := List.mem_map.mp h
    apply mem_of_mem_zipIdx
    rcases mem_foldl_pick hentry with hpicked | hbaseline
    · rcases mem_foldl_pick hpicked with hpinned | hscored
      · rcases mem_foldl_pick hpinned with hnone | hpin
        · cases hnone
        · obtain ⟨name, -, hfind⟩ := List.mem_filterMap.mp hpin
          exact List.mem_of_find?_eq_some hfind
      · obtain ⟨s, hs, rfl⟩ := List.mem_map.mp hscored
        rw [List.mem_insertionSort, List.mem_filter, List.mem_map] at hs
        obtain ⟨⟨e, he, rfl⟩, -⟩ := hs
        exact he
    · exact hbaseline

/-- A search finds emotes of the list only. -/
theorem mem_of_mem_selectSearchEmotes {U : Unicode} {emotes : List PromptEmote} {query : String} {limit : Nat}
    {e : PromptEmote} (h : e ∈ selectSearchEmotes U emotes query limit) : e ∈ emotes := by
  unfold selectSearchEmotes at h
  obtain ⟨s, hs, rfl⟩ := List.mem_map.mp h
  have hmem := List.mem_of_mem_take hs
  rw [List.mem_insertionSort, List.mem_filter, List.mem_map] at hmem
  obtain ⟨⟨entry, hentry, rfl⟩, -⟩ := hmem
  exact mem_of_mem_zipIdx hentry

/-- A call offers emotes that it has read, whatever it asks for. -/
theorem mem_of_mem_reply {U : Unicode} {caps : EmotesLiveCaps} {emotes : Option (List PromptEmote)} {query : Query}
    {e : PromptEmote} (h : e ∈ (query.reply U caps emotes).offered) : ∃ es, emotes = some es ∧ e ∈ es := by
  cases query with
  | turn instruction recentChat =>
    cases emotes with
    | none => cases h
    | some es => exact ⟨es, rfl, mem_of_mem_selectPromptEmotes h⟩
  | search query =>
    cases emotes with
    | none => cases h
    | some es => exact ⟨es, rfl, mem_of_mem_selectSearchEmotes h⟩

/-! ## What a refresh brings -/

/-- The entries that are available have available names. -/
theorem mem_availableEntries {available seen : List String} {glossary : List GlossaryEmote} {e : PromptEmote}
    (h : e ∈ availableEntries available seen glossary) : e.name ∈ available := by
  induction glossary generalizing seen with
  | nil => cases h
  | cons emote rest ih =>
    unfold availableEntries at h
    by_cases hskip : ((trim emote.name).isEmpty || seen.contains (trim emote.name)) = true
    · simp only [hskip, if_true] at h
      exact ih h
    · by_cases hmissing : (!available.contains (trim emote.name) || (normalizePromptField emote.meaning).isEmpty) = true
      · simp only [hskip, hmissing, Bool.false_eq_true, if_false, if_true] at h
        exact ih h
      · simp only [hskip, hmissing, Bool.false_eq_true, if_false, List.mem_cons] at h
        rcases h with rfl | hrest
        · simp only [Bool.or_eq_true, Bool.not_eq_true', not_or, Bool.not_eq_false] at hmissing
          exact List.contains_iff_mem.mp hmissing.1
        · exact ih hrest

/-- A merged name is one of the two sets'. -/
theorem mem_mergeEmoteSets {global channel : List String} {name : String} (h : name ∈ mergeEmoteSets global channel) :
    name ∈ global ∨ name ∈ channel :=
  List.mem_append.mp (List.mem_of_mem_filter h)

/-- What is available is merged of both sets. -/
theorem eq_of_fetchAvailableEmotes {caps : EmotesLiveCaps} {f : Fetched} {available : List String}
    (h : fetchAvailableEmotes caps f = some available) : available = mergeEmoteSets (f.globalNames caps) f.channelNames := by
  simp only [fetchAvailableEmotes] at h
  split at h
  · cases h
  · exact (Option.some.inj h).symm

/-- The emotes of a refresh are in the catalogues it has fetched. -/
theorem mem_refreshPromptEmotes {p : Provider} {caps : EmotesLiveCaps} {f : Fetched} {es : List PromptEmote}
    (h : p.refreshPromptEmotes caps f = some (some es)) {e : PromptEmote} (he : e ∈ es) :
    e.name ∈ f.globalNames caps ∨ e.name ∈ f.channelNames := by
  unfold Provider.refreshPromptEmotes at h
  by_cases hglossary : p.glossary.isEmpty = true
  · simp [hglossary] at h
  · rw [if_neg hglossary, Option.map_eq_some_iff] at h
    obtain ⟨available, havailable, hbuild⟩ := h
    unfold buildAvailablePromptEmotes at hbuild
    by_cases hempty : (availableEntries available [] p.glossary).isEmpty = true
    · simp [hempty] at hbuild
    · rw [if_neg hempty, Option.some.injEq] at hbuild
      subst hbuild
      have hname := mem_availableEntries he
      rw [eq_of_fetchAvailableEmotes havailable] at hname
      exact mem_mergeEmoteSets hname

/-! ## Runs -/

/-- The cache, and what the last successful refresh has fetched: the global catalogue, the catalogue of its channel, and for
each other channel that of its own last one. -/
structure World where
  cache : PromptCache := {}
  global : List String := []
  own : String → List String := fun _ => []
  source : Option String := none

/-- Whether a call refreshes the cache, and succeeds. -/
def Provider.refreshes (p : Provider) (cache : PromptCache) (c : Call) : Bool :=
  cache.due (liveCaps c.settings) c.now && (p.refreshPromptEmotes (liveCaps c.settings) c.fetched).isSome

/-- One call. -/
def World.step (U : Unicode) (p : Provider) (w : World) (c : Call) : World :=
  let cache := (p.call U w.cache c).1
  if p.refreshes w.cache c then
    { cache
      global := c.fetched.globalNames (liveCaps c.settings)
      own := Function.update w.own c.twitchChannelId c.fetched.channelNames
      source := some c.twitchChannelId }
  else { w with cache }

/-- A call in a run, and the world it is made in. -/
structure Step where
  before : World
  call : Call

/-- The calls of a run, each with the world it is made in. -/
def steps (U : Unicode) (p : Provider) (w : World) : List Call → List Step
  | [] => []
  | c :: rest => ⟨w, c⟩ :: steps U p (w.step U p c) rest

/-- The emotes that a call offers are in the global catalogue or in that of its channel. -/
def Step.OffersOwn (U : Unicode) (p : Provider) (s : Step) : Prop :=
  ∀ e ∈ (p.call U s.before.cache s.call).2.offered,
    e.name ∈ (s.before.step U p s.call).global ∨ e.name ∈ (s.before.step U p s.call).own s.call.twitchChannelId

/-- The list that a call reads is its own, from its refresh or from the last one, or it is all global. -/
def Step.ReadsOwn (p : Provider) (s : Step) : Prop :=
  p.refreshes s.before.cache s.call = true ∨ s.before.source = some s.call.twitchChannelId ∨
    ∀ es, s.before.cache.emotes = some es → ∀ e ∈ es, e.name ∈ s.before.global

/-- The emotes in the cache are of the catalogues of the last successful refresh. -/
def World.Sound (w : World) : Prop :=
  ∀ es, w.cache.emotes = some es → ∃ ch, w.source = some ch ∧ ∀ e ∈ es, e.name ∈ w.global ∨ e.name ∈ w.own ch

/-- At the start nothing is cached. -/
theorem sound_start : World.Sound {} := by
  intro es h
  cases h

variable {U : Unicode} {p : Provider} {w : World} {c : Call}

/-- A successful refresh leaves the emotes of the catalogues it has fetched. -/
theorem step_of_refreshes (h : p.refreshes w.cache c = true) {es : List PromptEmote}
    (hes : (p.call U w.cache c).1.emotes = some es) {e : PromptEmote} (he : e ∈ es) :
    e.name ∈ (w.step U p c).global ∨ e.name ∈ (w.step U p c).own c.twitchChannelId := by
  rw [World.step, if_pos h]
  obtain ⟨hdue, hok⟩ := (Bool.and_eq_true _ _).mp h
  obtain ⟨emotes, hemotes⟩ := Option.isSome_iff_exists.mp hok
  simp only [Provider.call, Provider.promptEmotes, hdue, if_true, hemotes] at hes
  subst hes
  simpa using mem_refreshPromptEmotes hemotes he

/-- Without one, the emotes stay as they were. -/
theorem step_of_not_refreshes (h : p.refreshes w.cache c = false) :
    (w.step U p c) = { w with cache := (p.call U w.cache c).1 } ∧ (p.call U w.cache c).1.emotes = w.cache.emotes := by
  refine ⟨by simp [World.step, h], ?_⟩
  simp only [Provider.call, Provider.promptEmotes]
  by_cases hdue : w.cache.due (liveCaps c.settings) c.now = true
  · have hfail : p.refreshPromptEmotes (liveCaps c.settings) c.fetched = none := by
      simpa [Provider.refreshes, hdue] using h
    simp [hdue, hfail]
  · simp [hdue]

/-- One call keeps the cache sound. -/
theorem World.Sound.step (hw : w.Sound) : (w.step U p c).Sound := by
  intro es hes
  cases h : p.refreshes w.cache c with
  | true =>
    have hcache : (w.step U p c).cache = (p.call U w.cache c).1 := by simp [World.step, h]
    have hsource : (w.step U p c).source = some c.twitchChannelId := by simp [World.step, h]
    rw [hcache] at hes
    exact ⟨c.twitchChannelId, hsource, fun e he => step_of_refreshes h hes he⟩
  | false =>
    obtain ⟨hstep, hemotes⟩ := step_of_not_refreshes h (U := U)
    rw [hstep] at hes ⊢
    exact hw es (hemotes ▸ hes)

/-- The cache is sound before every call of a run. -/
theorem sound_of_mem_steps {calls : List Call} (hw : w.Sound) {s : Step} (hs : s ∈ steps U p w calls) : s.before.Sound := by
  induction calls generalizing w with
  | nil => cases hs
  | cons c rest ih =>
    rw [steps, List.mem_cons] at hs
    rcases hs with rfl | hrest
    · exact hw
    · exact ih hw.step hrest

/-- In every run, a call that reads a list of its own offers no emote of another channel only. -/
theorem offered_emotes_are_own (U : Unicode) (p : Provider) (calls : List Call) :
    ∀ s ∈ steps U p {} calls, s.ReadsOwn p → s.OffersOwn U p := by
  intro s hs hown e he
  have hsound := sound_of_mem_steps sound_start hs
  obtain ⟨es, hes, hmem⟩ := mem_of_mem_reply he
  cases h : p.refreshes s.before.cache s.call with
  | true => exact step_of_refreshes h hes hmem
  | false =>
    obtain ⟨hstep, hemotes⟩ := step_of_not_refreshes h (U := U)
    have hold : s.before.cache.emotes = some es := hemotes ▸ hes
    rw [hstep]
    rcases hown with hrefresh | hsource | hglobal
    · rw [h] at hrefresh
      cases hrefresh
    · obtain ⟨ch, hch, hin⟩ := hsound es hold
      rw [hsource, Option.some.injEq] at hch
      subst hch
      exact hin e hmem
    · exact .inl (hglobal es hold e hmem)

/-! ## Two channels -/

instance (s : Step) : Decidable (s.OffersOwn U p) := by
  unfold Step.OffersOwn
  infer_instance

/-- Unicode, as far as it is ASCII. -/
def asciiUnicode : Unicode := ⟨Char.isAlphanum, fun s => String.ofList (s.toList.map Char.toLower), id⟩

def smallGlossary : Provider :=
  ⟨defaultBaseUrl, [⟨"okjj", "alles klar", none, none⟩, ⟨"Pog", "begeistert", none, none⟩, ⟨"Sadge", "traurig", none, none⟩]⟩

/-- A turn at a number of seconds, when the catalogue of the channel has one emote. -/
def turnAt (twitchChannelId : String) (seconds : Nat) (emote : String) : Call :=
  ⟨twitchChannelId, .turn "hallo" "", seconds * 1000000000, some {}, ⟨some ["okjj"], some [emote]⟩⟩

/-- A channel that asks again within the hour is offered its own emotes. -/
theorem offered_emotes_are_own_alone :
    ∃ s ∈ steps asciiUnicode smallGlossary {} [turnAt "22" 0 "Pog", turnAt "22" 60 "Pog"],
      s.call = turnAt "22" 60 "Pog" ∧ s.OffersOwn asciiUnicode smallGlossary := by
  refine ⟨_, .tail _ (.head _), rfl, ?_⟩
  refine offered_emotes_are_own asciiUnicode smallGlossary [turnAt "22" 0 "Pog", turnAt "22" 60 "Pog"] _ (.tail _ (.head _)) ?_
  exact .inr (.inl (by rfl))

/-- After the turn of another channel, it is offered an emote that only that channel has. -/
theorem offered_an_emote_of_another_channel :
    ∃ s ∈ steps asciiUnicode smallGlossary {} [turnAt "22" 0 "Pog", turnAt "11" 3600 "Sadge", turnAt "22" 3660 "Pog"],
      s.call = turnAt "22" 3660 "Pog" ∧
        ((smallGlossary.call asciiUnicode s.before.cache s.call).2.offered.map PromptEmote.name) = ["okjj", "Sadge"] ∧
        (s.before.step asciiUnicode smallGlossary s.call).own "22" = ["Pog"] ∧ ¬ s.OffersOwn asciiUnicode smallGlossary := by
  refine ⟨_, .tail _ (.tail _ (.head _)), rfl, ?_, ?_, ?_⟩
  · decide +kernel
  · rfl
  · decide +kernel

end Twitch1337.SevenTv
