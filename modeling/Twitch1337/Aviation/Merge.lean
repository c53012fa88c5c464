import Twitch1337.Lib.Division
import Twitch1337.Lib.Keyed
import Twitch1337.Lib.Least
import Twitch1337.Tracker.Types

/-!
# The merge of the backends

`aviation/client/adsb.rs`: the aircraft that several backends see, one of each, and of each the copy with the best position.
-/

namespace Twitch1337.Backends

open RustStr

/-- An aircraft of a backend: what the tracker reads of it, its registration, and the age and the strength of its signal. -/
structure NearbyAircraft extends Tracker.NearbyAircraft where
  r : Option String := none
  rssi : Option F64 := none
  seenPos : Option F64 := none

/-- `FRESH_WINDOW`: `5.0`. -/
def freshWindow : F64 := ⟨0x4014000000000000⟩

/-- `f64::MIN`. -/
def leastFinite : F64 := ⟨0xFFEFFFFFFFFFFFFF⟩

/-- `freshness_bucket`: lower is fresher. -/
def freshnessBucket : Option F64 → UInt64
  | some s => if s.isFinite && F64.zero.le s then (s.div freshWindow).floor.toU64 else 0xFFFFFFFFFFFFFFFF
  | none => 0xFFFFFFFFFFFFFFFF

/-- The comparison of two copies: by their buckets, then by the strength of the signal, the strongest first. -/
def compareCopies (a b : NearbyAircraft) : Ordering :=
  (compare (freshnessBucket a.seenPos) (freshnessBucket b.seenPos)).then
    ((b.rssi.getD leastFinite).totalCmp (a.rssi.getD leastFinite))

/-- `pick_winner`. An empty group has none, and is a panic. -/
def pickWinner (group : List NearbyAircraft) : Option NearbyAircraft := Least.minBy compareCopies group

/-- What the merge has gathered so far. -/
structure Gathered where
  groups : Table (List Char) (List NearbyAircraft)
  order : List (List Char)
  hexless : List NearbyAircraft

def Gathered.empty : Gathered := ⟨∅, [], []⟩

/-- The body of the loop over the aircraft of a backend. -/
def Gathered.add (g : Gathered) (aircraft : NearbyAircraft) : Gathered :=
  match aircraft.hex with
  | some hex =>
    if hex.isEmpty then { g with hexless := g.hexless ++ [aircraft] }
    else
      let key := asciiFold hex
      { g with
        order := if key ∈ g.groups then g.order else g.order ++ [key]
        groups := AList.insert key ((AList.lookup key g.groups).getD [] ++ [aircraft]) g.groups }
  | none => { g with hexless := g.hexless ++ [aircraft] }

/-- The winners of the groups, each of which is taken out of the table. A key without a group is a panic. -/
def takeWinners (groups : Table (List Char) (List NearbyAircraft)) : List (List Char) → Option (List NearbyAircraft)
  | [] => some []
  | key :: order => do
    let group ← AList.lookup key groups
    let winner ← pickWinner group
    let merged ← takeWinners (AList.erase key groups) order
    return winner :: merged

/-- `merge_aircraft`. -/
def mergeAircraft (perBackend : List (List NearbyAircraft)) : Option (List NearbyAircraft) := do
  let g := perBackend.foldl (fun g backend => backend.foldl Gathered.add g) Gathered.empty
  let merged ← takeWinners g.groups g.order
  return merged ++ g.hexless

end Twitch1337.Backends
