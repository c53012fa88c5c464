import Twitch1337.Lemmas.Diff
import Twitch1337.Lib.Division

/-!
# What the audit log shows

The values of a change as JSON, and how the new values are applied to settings. A schedule is written exactly. A double that is
not finite is written as null, and a number of bytes as a text, which may be rounded.
-/

namespace Twitch1337.Dashboard

open Schedules

/-! ## JSON -/

/-- What a change holds. The threshold of a prefill is null when it is not finite. -/
inductive Json where
  | null
  | bool (b : Bool)
  | number (n : Nat)
  | float (x : F64)
  | string (s : String)
  | strings (l : List String)
  | prefill (baseUrl : String) (threshold : Option F64)
  | web (w : AiWeb)
  | emotes (e : AiEmotes)
  | schedule (s : Schedule)
  deriving DecidableEq

/-- How numbers of bytes are written and read. -/
structure SizeText where
  display : UInt64 → String
  parse : String → Option UInt64

def AiBackendKind.text : AiBackendKind → String
  | .openAi => "openai"
  | .ollama => "ollama"

/-- The double as a number, if it can be one. -/
def finite (x : F64) : Option F64 := if x.isFinite then some x else none

def Value.encode (S : SizeText) : Value → Json
  | .u64 n => .number n.toNat
  | .u32 n => .number n.toNat
  | .bool b => .bool b
  | .float x => ((finite x).map .float).getD .null
  | .text s => .string s
  | .optText s => (s.map .string).getD .null
  | .texts l => .strings l
  | .backend k => .string k.text
  | .bytes n => .string (S.display n.bytes)
  | .prefill p => (p.map fun p => .prefill p.baseUrl (finite p.threshold)).getD .null
  | .web w => (w.map .web).getD .null
  | .emotes e => (e.map .emotes).getD .null
  | .schedule s => (s.map .schedule).getD .null

/-- A value of a kind. A card is read as whether it is on. -/
def Kind.decode (S : SizeText) : (k : Kind) → Json → Option k.Val
  | .u64, .number n => some (UInt64.ofNat n)
  | .u32, .number n => some (UInt32.ofNat n)
  | .bool, .bool b => some b
  | .bool, .null => some false
  | .bool, .prefill _ _ => some true
  | .bool, .web _ => some true
  | .bool, .emotes _ => some true
  | .float, .float x => some x
  | .text, .string s => some s
  | .optText, .null => some none
  | .optText, .string s => some (some s)
  | .texts, .strings l => some l
  | .backend, .string s =>
    if s = AiBackendKind.openAi.text then some .openAi
    else if s = AiBackendKind.ollama.text then some .ollama
    else none
  | .bytes, .string s => (S.parse s).map .mk
  | _, _ => none

/-- A field of a card. -/
def Json.field : (l : Leaf) → Json → Option l.Val
  | .prefillBaseUrl, .prefill baseUrl _ => some baseUrl
  | .prefillThreshold, .prefill _ threshold => threshold
  | .aiWebBaseUrl, .web w => some w.baseUrl
  | .aiWebTimeout, .web w => some w.timeout
  | .aiWebMaxResults, .web w => some w.maxResults
  | .aiWebMaxRounds, .web w => some w.maxRounds
  | .aiWebCacheTtlSecs, .web w => some w.cacheTtlSecs
  | .aiWebCacheCapacity, .web w => some w.cacheCapacity
  | .emotesIncludeGlobal, .emotes e => some e.includeGlobal
  | .emotesRefreshIntervalSecs, .emotes e => some e.refreshIntervalSecs
  | .emotesMaxPromptEmotes, .emotes e => some e.maxPromptEmotes
  | .emotesMinBaselineEmotes, .emotes e => some e.minBaselineEmotes
  | .emotesPinnedEmotes, .emotes e => some e.pinnedEmotes
  | .emotesBaseUrl, .emotes e => some e.baseUrl
  | _, _ => none

/-- The schedule that a value is. -/
def Json.schedule? : Json → Option Schedule
  | .schedule s => some s
  | _ => none

/-! ## Applying changes -/

/-- The new value under a key. -/
def newValue (S : SizeText) (changes : List AuditChange) (key : String) : Option Json :=
  (changes.find? fun c => c.key = key).map fun c => c.new.encode S

/-- What changes set a leaf to: under its own key, or in its card. -/
def Leaf.patch (S : SizeText) (changes : List AuditChange) (l : Leaf) : Option l.Val :=
  ((newValue S changes l.key).bind (l.kind.decode S)).or
    (l.card.bind fun card => (newValue S changes card.toggle.key).bind (Json.field l))

/-- The schedules that no change names, and those that changes hold. -/
def patchSchedules (S : SizeText) (changes : List AuditChange) (schedules : List Schedule) : List Schedule :=
  (schedules.filter fun s => (newValue S changes (scheduleKey s.name)).isNone) ++
  changes.filterMap fun c => (c.new.encode S).schedule?

/-- The overrides that changes make. -/
def patchOverrides (S : SizeText) (prior : Settings) (changes : List AuditChange) : SettingsOverrides :=
  { SettingsOverrides.ofLeaves schemaVersion (fun l => l.patch S changes) with
    schedules := some (patchSchedules S changes prior.schedules) }

/-- The new values, as a patch of the settings. -/
def applyChanges (S : SizeText) (prior : Settings) (changes : List AuditChange) : Settings :=
  .resolve prior (patchOverrides S prior changes)

end Twitch1337.Dashboard
