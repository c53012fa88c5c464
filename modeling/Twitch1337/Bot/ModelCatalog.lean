import Twitch1337.Bot.AiCommand
import Twitch1337.Lib.Json
import Twitch1337.Lib.Keyed
import Twitch1337.Lib.Pool
import Twitch1337.Lib.Text

/-!
# The model catalogue

`ai/model_catalog.rs`: the names of the models of OpenRouter, which are fetched and kept for a while. Those who ask for the
catalogue are processes beside each other. The cache is locked for each access to it, and not while the catalogue is fetched, so
others go on between any two steps. Instants are nanoseconds of one clock. The order of the list for the dashboard is left out.
The ghosts of the world are the log and the time of the last step.
-/

namespace Twitch1337.ModelCatalog

open Json RustStr

/-- The models by their ids, with their names. -/
abbrev Names := Table String String

def cacheTtl : Nat := 300 * 10 ^ 9

def failureBackoff : Nat := 60 * 10 ^ 9

/-- A catalogue, and when it was received. -/
structure CachedCatalog where
  fetchedAt : Nat
  byId : Names

/-- The last catalogue, and until when no other is fetched. -/
structure CatalogCache where
  entry : Option CachedCatalog
  fetchFailedUntil : Option Nat

/-! ## The accesses to the cache -/

/-- The catalogue that is not too old. -/
def CatalogCache.freshCatalog (cache : CatalogCache) (now : Nat) : Option Names :=
  match cache.entry with
  | some entry => if now - entry.fetchedAt > cacheTtl then none else some entry.byId
  | none => none

/-- The catalogue, however old. -/
def CatalogCache.staleCatalog (cache : CatalogCache) : Option Names := cache.entry.map (·.byId)

/-- A fetch has failed a short time ago. -/
def CatalogCache.inFetchBackoff (cache : CatalogCache) (now : Nat) : Bool :=
  cache.fetchFailedUntil.any fun until_ => now < until_

/-! ## The reply -/

/-- A model with an id and a name. -/
def insertModel (map : Names) (entry : Value) : Names :=
  match entry.step (.entry "id"), entry.step (.entry "name") with
  | some (.string id), some (.string name) => map.insert id name
  | _, _ => map

/-- The models of a reply that has a list of them. -/
def parseOpenrouterModels (resp : Value) : Option Names :=
  match resp.step (.entry "data") with
  | some (.array data) => some (data.foldl insertModel ∅)
  | _ => none

/-- The name of a model as it is shown. -/
def normalizeName (raw : String) : String :=
  let trimmed := (trim raw).toList
  String.ofList (Text.replace ": ".toList " ".toList ((Text.stripSuffix " (free)".toList trimmed).getD trimmed))

/-! ## Processes -/

/-- What the catalogue is loaded for. -/
inductive Request where
  | displayName (conn : Dashboard.AiConnection) (modelId : String)
  /-- `openrouter_model_entries` -/
  | entries

/-- A process in `load_openrouter_catalog`. What has ended has a catalogue, or an error. -/
inductive Point where
  | asking (request : Request)
  | checkingBackoff (request : Request)
  | readingStale (request : Request)
  | fetching (request : Request)
  | storing (request : Request) (fetched : Option Names)
  | ended (request : Request) (loaded : Option Names)
  /-- Other backends have no catalogue. -/
  | skipped (request : Request)

/-- Names are loaded for one backend only. -/
def Request.start : Request → Point
  | displayName conn modelId =>
    if Assistant.isOpenrouter conn then .asking (.displayName conn modelId) else .skipped (.displayName conn modelId)
  | entries => .asking .entries

/-- What `display_name` returns. -/
def displayName (modelId : String) (loaded : Option Names) : String :=
  match loaded.bind fun map => map.lookup modelId with
  | some name => normalizeName name
  | none => modelId

def Point.isEnded : Point → Bool
  | ended _ _ => true
  | skipped _ => true
  | _ => false

/-- What is noted: a fetch that begins or is held off, its end, and what a process has loaded. -/
inductive Obs where
  | began (p now : Nat)
  | heldOff (p now : Nat)
  | stored (now : Nat) (names : Names)
  | failed (now : Nat)
  | loaded (p now : Nat) (fresh : Bool) (names : Option Names)

/-- The cache, what was noted, and the time of the last step. -/
structure World where
  cache : CatalogCache
  log : List Obs
  clock : Nat

/-- The time, and the reply to a fetch, when it is one and is JSON. -/
structure Io where
  now : Nat
  reply : Option Value

/-- One more note. -/
def World.note (g : World) (o : Obs) : World := { g with log := g.log ++ [o] }

/-- A process has loaded a catalogue, or nothing. -/
def World.finish (g : World) (p now : Nat) (fresh : Bool) (request : Request) (names : Option Names) : World × Point :=
  (g.note (.loaded p now fresh names), .ended request names)

/-- One step: an access to the cache, or a fetch. -/
def World.act (g : World) (p : Nat) (s : Point) (io : Io) : World × Point :=
  match s with
  | .asking request =>
    match g.cache.freshCatalog io.now with
    | some names => g.finish p io.now true request (some names)
    | none => (g, .checkingBackoff request)
  | .checkingBackoff request =>
    if g.cache.inFetchBackoff io.now then (g.note (.heldOff p io.now), .readingStale request)
    else (g.note (.began p io.now), .fetching request)
  | .readingStale request => g.finish p io.now false request g.cache.staleCatalog
  | .fetching request => (g, .storing request (io.reply.bind parseOpenrouterModels))
  | .storing request (some names) =>
    ({ g with cache := ⟨some ⟨io.now, names⟩, none⟩ }.note (.stored io.now names)).finish p io.now false request (some names)
  | .storing request none =>
    ({ g with cache := { g.cache with fetchFailedUntil := some (io.now + failureBackoff) } }.note (.failed io.now)).finish p io.now
      false request g.cache.staleCatalog
  | s => (g, s)

/-- A step at its time. -/
def World.next (g : World) (p : Nat) (s : Point) (io : Io) : World × Point := { g with clock := io.now }.act p s io

/-- The loads. The lock of the cache is taken for one step only. -/
def loads : Pool.Program World Point Io Request Unit where
  start := Request.start
  holds _ := []
  needs _ := none
  done := Point.isEnded
  next := World.next

/-- It starts with an empty cache. -/
def World.new (now : Nat) : World := ⟨⟨none, none⟩, [], now⟩

end Twitch1337.ModelCatalog
