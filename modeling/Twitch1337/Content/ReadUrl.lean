import Twitch1337.Content.Cache

/-!
# Reading a page

`ai/content/executor.rs`: what a URL says is fetched, analysed and kept for a while. The fetch and the analysis are an event of their
own, and a call that fails keeps nothing. Calls run side by side.
-/

namespace Twitch1337.Content

open RustStr Text

structure ReadUrlArgs where
  url : Text
  instruction : Option Text
  deriving DecidableEq

structure ReadCacheEntry where
  contentType : Text
  answer : Text
  deriving DecidableEq

/-- The fields of an answer. -/
structure ReadResponse where
  cached : Bool
  url : Text
  contentType : Text
  answer : Text

def normalizeUrl (url : Text) : Text := toAsciiLowercase (trimChars url)

/-- The instruction that is analysed with. -/
def ReadUrlArgs.trimmedInstruction (args : ReadUrlArgs) : Option Text := (args.instruction.map trimChars).filter fun t => !t.isEmpty

def ReadUrlArgs.cacheKey (args : ReadUrlArgs) : Text :=
  normalizeUrl args.url ++ "::".toList ++ toAsciiLowercase (args.trimmedInstruction.getD [])

/-- The cache, its clock, and the calls that are on their way to an answer. -/
structure ReadState where
  cache : TtlCache ReadCacheEntry
  clock : Nat
  pending : List ReadUrlArgs

def ReadState.start (ttl capacity now : Nat) : ReadState where
  cache := .new ttl capacity
  clock := now
  pending := []

inductive ReadEvent where
  /-- A call looks into the cache. -/
  | lookup (now : Nat) (args : ReadUrlArgs)
  /-- A call has its answer and keeps it. -/
  | finish (args : ReadUrlArgs) (now insertedAt : Nat) (entry : ReadCacheEntry)
  /-- A fetch or an analysis fails. -/
  | fail (args : ReadUrlArgs)

/-- The answer from the cache. -/
def ReadState.cached (s : ReadState) (now : Nat) (args : ReadUrlArgs) : Option ReadResponse :=
  (s.cache.get now args.cacheKey).1.map fun cached => ⟨true, args.url, cached.contentType, cached.answer⟩

def ReadState.step (s : ReadState) : ReadEvent → Option ReadState
  | .lookup now args =>
    if s.clock ≤ now then
      let (cached, cache) := s.cache.get now args.cacheKey
      some ⟨cache, now, if cached.isSome then s.pending else args :: s.pending⟩
    else none
  | .finish args now insertedAt entry =>
    if args ∈ s.pending ∧ s.clock ≤ now ∧ now ≤ insertedAt then
      some ⟨s.cache.insert now insertedAt args.cacheKey entry, insertedAt, s.pending.erase args⟩
    else none
  | .fail args => if args ∈ s.pending then some { s with pending := s.pending.erase args } else none

end Twitch1337.Content
