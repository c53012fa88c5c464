import Twitch1337.Lib.Keyed
import Twitch1337.Lib.Text

/-!
# The cache of the tools

`ai/content/cache.rs`. Times are numbers of one clock, and every reading of it is an argument.
-/

namespace Twitch1337.Content

structure CacheEntry (V : Type) where
  value : V
  insertedAt : Nat

structure TtlCache (V : Type) where
  ttl : Nat
  capacity : Nat
  entries : Table Text (CacheEntry V)
  order : List Text

namespace TtlCache

variable {V : Type}

def new (ttl capacity : Nat) : TtlCache V where
  ttl := ttl
  capacity := capacity
  entries := ∅
  order := []

/-- A key leaves the map and the queue. -/
def remove (c : TtlCache V) (key : Text) : TtlCache V :=
  { c with
    entries := c.entries.erase key
    order := c.order.filter fun k => decide (k ≠ key) }

def isExpired (c : TtlCache V) (now : Nat) (entry : CacheEntry V) : Bool := c.ttl < now - entry.insertedAt

def purgeExpired (c : TtlCache V) (now : Nat) : TtlCache V :=
  let expired := c.entries.keys.filter fun key => (c.entries.lookup key).any (c.isExpired now)
  expired.foldl remove c

/-- The map and the queue after the oldest keys are gone. -/
def evict (capacity : Nat) : Table Text (CacheEntry V) → List Text → Table Text (CacheEntry V) × List Text
  | entries, [] => (entries, [])
  | entries, oldestKey :: order =>
    if capacity < entries.keys.length then evict capacity (entries.erase oldestKey) order else (entries, oldestKey :: order)

def evictOldest (c : TtlCache V) : TtlCache V :=
  { c with
    entries := (evict c.capacity c.entries c.order).1
    order := (evict c.capacity c.entries c.order).2 }

def get (c : TtlCache V) (now : Nat) (key : Text) : Option V × TtlCache V :=
  let c := c.purgeExpired now
  ((c.entries.lookup key).map CacheEntry.value, c)

/-- The clock is read for the purge and for the entry. -/
def insert (c : TtlCache V) (now insertedAt : Nat) (key : Text) (value : V) : TtlCache V :=
  let c := c.purgeExpired now
  let c := if key ∈ c.entries then c.remove key else c
  evictOldest { c with
    entries := c.entries.insert key ⟨value, insertedAt⟩
    order := c.order ++ [key] }

end TtlCache

/-- A call of the cache, with its readings of the clock. -/
inductive CacheCall (V : Type) where
  | get (now : Nat) (key : Text)
  | insert (now insertedAt : Nat) (key : Text) (value : V)

/-- A cache and the last reading of its clock. A call reads a clock that does not run backwards. -/
def CacheCall.step {V : Type} (s : TtlCache V × Nat) : CacheCall V → Option (TtlCache V × Nat)
  | .get now key => if s.2 ≤ now then some ((s.1.get now key).2, now) else none
  | .insert now insertedAt key value =>
    if s.2 ≤ now ∧ now ≤ insertedAt then some (s.1.insert now insertedAt key value, insertedAt) else none

end Twitch1337.Content
