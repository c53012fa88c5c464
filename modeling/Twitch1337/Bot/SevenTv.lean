import Mathlib.Data.List.Sort
import Twitch1337.Lib.Str
import Twitch1337.Settings.Types

/-!
# Emotes

`twitch/seventv.rs`: the emotes of a glossary that the catalogues have, kept in one cache for all channels, and the choice of
those that a turn is offered. What the catalogues answer is part of a call. Unicode is a parameter.
-/

namespace Twitch1337.SevenTv

open Dashboard RustStr

/-- What is used of the Unicode tables. -/
structure Unicode where
  isAlphanumeric : Char → Bool
  toLowercase : String → String
  /-- The `Debug` text of a string. -/
  debugStr : String → String

def defaultBaseUrl : String := "https://7tv.io/v3"

def searchEmotesLimit : Nat := 20

/-- An emote of the glossary, as its file describes it. -/
structure GlossaryEmote where
  name : String
  meaning : String
  usage : Option String
  avoid : Option String
  deriving DecidableEq

/-- An emote as a prompt describes it. -/
structure PromptEmote where
  name : String
  meaning : String
  usage : Option String
  avoid : Option String
  deriving DecidableEq

/-! ## Options -/

/-- The options that are read on each use. -/
structure EmotesLiveCaps where
  includeGlobal : Bool
  refreshInterval : UInt64
  maxPromptEmotes : UInt64
  minBaselineEmotes : UInt64
  pinnedEmotes : List String
  deriving DecidableEq

/-- The defaults stand in when the emotes are switched off. -/
def liveCaps (emotes : Option AiEmotes) : EmotesLiveCaps :=
  let cfg := emotes.getD {}
  { includeGlobal := cfg.includeGlobal
    refreshInterval := cfg.refreshIntervalSecs
    maxPromptEmotes := cfg.maxPromptEmotes
    minBaselineEmotes := min cfg.minBaselineEmotes cfg.maxPromptEmotes
    pinnedEmotes := cfg.pinnedEmotes }

/-- Where the emotes come from: the service, and the glossary. -/
structure Provider where
  baseUrl : String
  glossary : List GlossaryEmote
  deriving DecidableEq

/-- The base URL is resolved once. -/
def baseUrlOf (cfg : AiEmotes) : String := trimEndMatches (· == '/') (cfg.baseUrl.getD defaultBaseUrl)

def Provider.new (cfg : AiEmotes) (glossary : List GlossaryEmote) : Provider := ⟨baseUrlOf cfg, glossary⟩

/-! ## Terms -/

/-- A word that says nothing about what a chat is about. -/
def isContextStopword (term : String) : Bool :=
  ["eine", "einer", "einem", "einen", "etwas", "wenn", "oder", "nicht", "bitte", "reply", "message", "author", "parent",
    "user", "chat", "channel"].contains term

/-- The words of a text that are long enough to be searched for, once each. -/
def searchableTerms (U : Unicode) (text : String) : List String :=
  (((text.toList.splitOnP fun c => !U.isAlphanumeric c).map fun w => U.toLowercase (String.ofList w)).filter
    fun term => 4 ≤ term.utf8ByteSize && !isContextStopword term).eraseDups

/-- Two words are the same, or one is the beginning of the other and neither is short. -/
def termsMatch (query term : String) : Bool :=
  query == term ||
    (5 ≤ query.utf8ByteSize && 5 ≤ term.utf8ByteSize && (startsWith query term || startsWith term query))

/-- How many of the terms match one of a text. -/
def matchingTerms (U : Unicode) (terms : List String) (fields : String) : Nat :=
  terms.countP fun query => (searchableTerms U fields).any (termsMatch query)

/-- The fields of an emote, with its usage when it has one. -/
def withUsage (fields : String) (emote : PromptEmote) : String :=
  match emote.usage with
  | some usage => fields ++ " " ++ usage
  | none => fields

/-- How many of the words of a context an emote is described with. -/
def contextMatchScore (U : Unicode) (emote : PromptEmote) (contextTerms : List String) : Nat :=
  if contextTerms.isEmpty then 0 else matchingTerms U contextTerms (withUsage emote.meaning emote)

/-- The same of a query, whose text may also be in the name. -/
def searchMatchScore (U : Unicode) (emote : PromptEmote) (queryTerms : List String) (queryLc : String) : Nat :=
  (if 2 ≤ queryLc.utf8ByteSize && containsText queryLc (U.toLowercase emote.name) then 10 else 0) +
    if queryTerms.isEmpty then 0
    else matchingTerms U queryTerms (withUsage (emote.name ++ " " ++ emote.meaning) emote)

def isWrappingPunctuation (c : Char) : Bool :=
  [',', '.', '!', ';', '"', '\'', '(', ')', '[', ']', '{', '}'].contains c

/-- A word of the chat is an emote, with punctuation around it or without. -/
def tokenMatchesEmote (token emoteName : String) : Bool :=
  token == emoteName || trimMatches isWrappingPunctuation token == emoteName

/-- How often an emote stands in the chat. -/
def recentEmoteCount (recentChat emoteName : String) : Nat :=
  (splitWhitespace recentChat).countP fun token => tokenMatchesEmote token emoteName

/-! ## Choice -/

/-- An emote with its place in the list. -/
abbrev Indexed := PromptEmote × Nat

/-- Picks an emote that is not picked yet, as long as there is room. -/
def pick (room : Nat) (picked : List Indexed) (entry : Indexed) : List Indexed :=
  if room ≤ picked.length || picked.any (·.2 == entry.2) then picked else picked ++ [entry]

/-- An emote with its two scores. -/
structure Scored where
  recentCount : Nat
  contextScore : Nat
  entry : Indexed

/-- The emotes that chat used most come first, then those that fit the instruction best. -/
def Scored.Before (a b : Scored) : Prop :=
  b.recentCount < a.recentCount ∨ a.recentCount = b.recentCount ∧
    (b.contextScore < a.contextScore ∨ a.contextScore = b.contextScore ∧ a.entry.2 ≤ b.entry.2)

instance (a b : Scored) : Decidable (a.Before b) := by
  unfold Scored.Before
  infer_instance

/-- The pinned emotes, then those with a score, then a baseline. From 2^60 emotes on there is no room for as many, and the source
panics: settings are valid up to 200. -/
def selectPromptEmotes (U : Unicode) (emotes : List PromptEmote) (maxPromptEmotes minBaselineEmotes : Nat)
    (pinnedEmotes : List String) (instruction recentChat : String) : List PromptEmote :=
  if maxPromptEmotes = 0 then []
  else
    let indexed := emotes.zipIdx
    let pinned := (pinnedEmotes.filterMap fun name => indexed.find? (·.1.name == name)).foldl (pick maxPromptEmotes) []
    let contextTerms := searchableTerms U instruction
    let scored := indexed.map fun e =>
      Scored.mk (recentEmoteCount recentChat e.1.name) (contextMatchScore U e.1 contextTerms) e
    let scoring := (scored.filter fun s => 0 < s.recentCount || 0 < s.contextScore).insertionSort Scored.Before
    let picked := (scoring.map Scored.entry).foldl (pick maxPromptEmotes) pinned
    (indexed.foldl (pick (min minBaselineEmotes maxPromptEmotes)) picked).map Prod.fst

/-- The better match comes first. -/
def BetterMatch (a b : Nat × Indexed) : Prop := b.1 < a.1 ∨ a.1 = b.1 ∧ a.2.2 ≤ b.2.2

instance (a b : Nat × Indexed) : Decidable (BetterMatch a b) := by
  unfold BetterMatch
  infer_instance

/-- The emotes that a query finds, the best first. -/
def selectSearchEmotes (U : Unicode) (emotes : List PromptEmote) (query : String) (limit : Nat) : List PromptEmote :=
  let terms := searchableTerms U query
  let queryLc := U.toLowercase (trim query)
  let scored := (emotes.zipIdx.map fun e => (searchMatchScore U e.1 terms queryLc, e)).filter fun s => 0 < s.1
  ((scored.insertionSort BetterMatch).take limit).map fun s => s.2.1

/-! ## Texts -/

/-- The line of an emote in a prompt. -/
def formatPromptEmoteLine (emote : PromptEmote) : String :=
  "- " ++ emote.name ++ ": meaning=" ++ emote.meaning ++
    (match emote.usage with
      | some usage => "; use=" ++ usage
      | none => "") ++
    match emote.avoid with
    | some avoid => "; avoid=" ++ avoid
    | none => ""

def linesOf (emotes : List PromptEmote) : String := "\n".intercalate (emotes.map formatPromptEmoteLine)

/-- The block of the emotes of a turn. -/
def promptBlock (emotes : List PromptEmote) : Option String :=
  if emotes.isEmpty then none
  else some ("\n\n7TV emotes available in this channel:\nIn normal casual Twitch-chat replies, include exactly one " ++
    "fitting emote by default. Use zero emotes only for extremely serious, administrative, fact-sensitive, or clearly " ++
    "unsuitable topics. Use two emotes only when the chat moment is obviously hype, chaotic, or spammy. Prefer emotes " ++
    "recently used by chat when they fit. Use only the exact emote codes listed below or returned by the search_emotes " ++
    "tool; if you want an emote for a feeling that is not shown, call search_emotes to find one. Never invent or alter " ++
    "emote codes.\n" ++ linesOf emotes)

/-- The result of the search tool. -/
def searchBlock (U : Unicode) (query : String) (emotes : List PromptEmote) : String :=
  if emotes.isEmpty then
    "No emotes matched " ++ U.debugStr query ++
      ". Use only the emote codes already provided in this turn's context; do not invent codes."
  else
    "7TV emotes matching " ++ U.debugStr query ++ " (" ++ toString emotes.length ++ " shown). Use the exact codes:\n" ++
      linesOf emotes

def unavailable : String :=
  "Emote catalog is unavailable right now; use only the emote codes already provided in this turn's context."

/-! ## Catalogues -/

/-- What the catalogues answer, each with the names it has. -/
structure Fetched where
  global : Option (List String)
  channel : Option (List String)

/-- The names of both catalogues, without the blank ones. -/
def mergeEmoteSets (global channel : List String) : List String := (global ++ channel).filter fun name => !(trim name).isEmpty

/-- The names of the global catalogue, when it is asked for. -/
def Fetched.globalNames (f : Fetched) (caps : EmotesLiveCaps) : List String :=
  if caps.includeGlobal then f.global.getD [] else []

/-- The emotes of the channel, or none when they could not be fetched. -/
def Fetched.channelNames (f : Fetched) : List String := f.channel.getD []

/-- It fails when there is nothing and a catalogue has failed. -/
def fetchAvailableEmotes (caps : EmotesLiveCaps) (f : Fetched) : Option (List String) :=
  let hadError := caps.includeGlobal && f.global.isNone || f.channel.isNone
  if (f.globalNames caps).isEmpty && f.channelNames.isEmpty && hadError then none
  else some (mergeEmoteSets (f.globalNames caps) f.channelNames)

/-- A text in one line, with single blanks. -/
def normalizePromptField (value : String) : String := " ".intercalate (splitWhitespace value)

def normalizeOptional (value : Option String) : Option String :=
  (value.map normalizePromptField).filter fun s => !s.isEmpty

/-- The entries of the glossary that a catalogue has, the first one of each name. -/
def availableEntries (available : List String) (seen : List String) : List GlossaryEmote → List PromptEmote
  | [] => []
  | emote :: rest =>
    let name := trim emote.name
    let meaning := normalizePromptField emote.meaning
    if name.isEmpty || seen.contains name then availableEntries available seen rest
    else if !available.contains name || meaning.isEmpty then availableEntries available (name :: seen) rest
    else
      { name, meaning, usage := normalizeOptional emote.usage, avoid := normalizeOptional emote.avoid } ::
        availableEntries available (name :: seen) rest

/-- The emotes of the glossary that are available, when there are any. -/
def buildAvailablePromptEmotes (glossary : List GlossaryEmote) (available : List String) : Option (List PromptEmote) :=
  let emotes := availableEntries available [] glossary
  if emotes.isEmpty then none else some emotes

/-! ## Cache -/

/-- One cache, for all channels. The clock counts nanoseconds. -/
structure PromptCache where
  lastRefresh : Option Nat := none
  emotes : Option (List PromptEmote) := none

/-- Whether a call asks the catalogues. -/
def PromptCache.due (cache : PromptCache) (caps : EmotesLiveCaps) (now : Nat) : Bool :=
  !cache.lastRefresh.any fun last => now - last < caps.refreshInterval.toNat * 1000000000

namespace Provider

/-- Nothing when all catalogues failed. Without a glossary, no catalogue is asked. -/
def refreshPromptEmotes (p : Provider) (caps : EmotesLiveCaps) (f : Fetched) : Option (Option (List PromptEmote)) :=
  if p.glossary.isEmpty then some none
  else (fetchAvailableEmotes caps f).map (buildAvailablePromptEmotes p.glossary)

/-- The emotes that a call reads are those in the cache after it. -/
def promptEmotes (p : Provider) (caps : EmotesLiveCaps) (now : Nat) (f : Fetched) (cache : PromptCache) : PromptCache :=
  if cache.due caps now then
    match p.refreshPromptEmotes caps f with
    | some emotes => ⟨some now, emotes⟩
    | none => { cache with lastRefresh := some now }
  else cache

end Provider

/-! ## Calls -/

/-- What the provider is asked for: emotes for a turn, or those that a model searches for. -/
inductive Query where
  | turn (instruction recentChat : String)
  | search (query : String)

/-- A call for a channel, with the settings and the answers of the catalogues at the time. -/
structure Call where
  twitchChannelId : String
  query : Query
  now : Nat
  settings : Option AiEmotes
  fetched : Fetched

/-- The emotes that a call offers, and the text it returns. -/
structure Reply where
  offered : List PromptEmote
  text : Option String

/-- What it answers with the emotes that there are. -/
def Query.reply (U : Unicode) (caps : EmotesLiveCaps) (emotes : Option (List PromptEmote)) : Query → Reply
  | turn instruction recentChat =>
    match emotes with
    | some emotes =>
      let offered := selectPromptEmotes U emotes caps.maxPromptEmotes.toNat caps.minBaselineEmotes.toNat caps.pinnedEmotes
        instruction recentChat
      ⟨offered, promptBlock offered⟩
    | none => ⟨[], none⟩
  | search query =>
    match emotes with
    | some emotes =>
      let offered := selectSearchEmotes U emotes query searchEmotesLimit
      ⟨offered, some (searchBlock U query offered)⟩
    | none => ⟨[], some unavailable⟩

/-- `prompt_block_for_turn` and `search_emotes`. -/
def Provider.call (U : Unicode) (p : Provider) (cache : PromptCache) (c : Call) : PromptCache × Reply :=
  let caps := liveCaps c.settings
  let cache' := p.promptEmotes caps c.now c.fetched cache
  (cache', c.query.reply U caps cache'.emotes)

end Twitch1337.SevenTv
