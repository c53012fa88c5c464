import Twitch1337.Lib.Keyed
import Twitch1337.Lib.Least
import Twitch1337.Lib.Text

/-!
# The avatar cache

`helix.rs`: the avatars of users, kept for a while. Times are numbers of one clock in nanoseconds. A hash map is iterated in any order.
-/

namespace Twitch1337.Helix

/-- An avatar, or that there is none, and when that was found out. -/
structure AvatarEntry where
  url : Option Text
  fetchedAt : Int
  deriving DecidableEq

/-- A user, as the service gives it. -/
structure HelixUser where
  id : Text
  profileImageUrl : Option Text

/-- The cache, with its bound and how long an entry is young. -/
structure AvatarCache where
  entries : Table Text AvatarEntry
  ttl : Int
  maxEntries : Nat

/-- What a lookup has found, and the ids it has not. -/
structure AvatarLookup where
  cached : Table Text Text
  missing : List Text

/-- The order in which a hash map is iterated. -/
structure Iteration where
  order : Table Text AvatarEntry → List (Text × AvatarEntry)
  perm : ∀ m, (order m).Perm (m.entries.map fun e => (e.1, e.2))

/-- A duration as `chrono` has it, or an hour when it is out of range. -/
def chronoTtl (ttl : Nat) : Int := if ttl ≤ 9223372036854775807000000 then ttl else 3600000000000

/-- An entry is young. -/
def isFresh (now ttl : Int) (e : AvatarEntry) : Bool := now - e.fetchedAt < ttl

def byAge : Text × AvatarEntry → Text × AvatarEntry → Ordering := compareOn fun e => e.2.fetchedAt

/-- Drops the oldest entries until there is room for one more. -/
def evictOldest (it : Iteration) (cap : Nat) : Nat → Table Text AvatarEntry → Table Text AvatarEntry
  | 0, entries => entries
  | n + 1, entries =>
    if cap ≤ entries.keys.length then
      match Least.minBy byAge (it.order entries) with
      | none => entries
      | some oldest => evictOldest it cap n (entries.erase oldest.1)
    else entries

/-- Room for one entry: first the old ones go, then the oldest. -/
def evictIfNeeded (it : Iteration) (entries : Table Text AvatarEntry) (now ttl : Int) (cap : Nat) : Table Text AvatarEntry :=
  if entries.keys.length < cap then entries
  else
    let fresh := entries.retain fun _ e => isFresh now ttl e
    evictOldest it cap fresh.keys.length fresh

namespace AvatarCache

/-- An empty cache. It has room for one entry at least. -/
def withCapacity (ttl maxEntries : Nat) : AvatarCache where
  entries := ∅
  ttl := chronoTtl ttl
  maxEntries := max maxEntries 1

/-- One id of a lookup. -/
def lookupId (c : AvatarCache) (now : Int) (found : AvatarLookup) (id : Text) : AvatarLookup :=
  match c.entries.lookup id with
  | none => { found with missing := found.missing ++ [id] }
  | some e =>
    if isFresh now c.ttl e then
      match e.url with
      | some url => { found with cached := found.cached.insert id url }
      | none => found
    else { found with missing := found.missing ++ [id] }

/-- The ids of a lookup, one after the other. -/
def lookup (c : AvatarCache) (ids : List Text) (now : Int) : AvatarLookup := ids.foldl (c.lookupId now) ⟨∅, []⟩

/-- One entry that is known. -/
def prime (it : Iteration) (c : AvatarCache) (userId : Text) (url : Option Text) (now : Int) : AvatarCache :=
  { c with entries := (evictIfNeeded it c.entries now c.ttl c.maxEntries).insert userId ⟨url, now⟩ }

/-- What Helix says of an id, the last time it does. -/
def urlOf (users : List HelixUser) (id : Text) : Option Text :=
  let byId : Table Text (Option Text) := users.foldl (fun m u => m.insert u.id u.profileImageUrl) ∅
  (byId.lookup id).join

/-- The answer of the service to a batch of ids. -/
def insert (it : Iteration) (c : AvatarCache) (queried : List Text) (users : List HelixUser) (now : Int) : AvatarCache :=
  { c with
    entries := queried.foldl (fun m id => m.insert id ⟨urlOf users id, now⟩)
      (evictIfNeeded it c.entries now c.ttl c.maxEntries) }

end AvatarCache

/-- A call of the cache. -/
inductive AvatarCall where
  | lookup (ids : List Text) (now : Int)
  | prime (it : Iteration) (userId : Text) (url : Option Text) (now : Int)
  | insert (it : Iteration) (queried : List Text) (users : List HelixUser) (now : Int)

/-- One call. -/
def AvatarCall.run (c : AvatarCache) : AvatarCall → AvatarCache
  | .lookup .. => c
  | .prime it userId url now => c.prime it userId url now
  | .insert it queried users now => c.insert it queried users now

end Twitch1337.Helix
