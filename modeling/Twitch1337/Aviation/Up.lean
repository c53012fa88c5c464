import Mathlib.Data.List.Sort
import Twitch1337.Aviation.Merge

/-!
# Aircraft above a place

`aviation/commands/up.rs`, from the list of the aircraft nearby to the reply. The geometry is a parameter. A lookup of a route ends
in any order with the others, and a task ends with its entry whatever comes of its lookup. Nothing is a panic, of a position that
is missing.
-/

namespace Twitch1337.Up

open RustStr
open Backends (NearbyAircraft)
open Tracker (AltBaro FlightRoute)

/-- The geometry of the sky. Distances are compared as floating-point numbers that are not NaN. -/
structure Sky where
  Distance : Type
  le : Distance → Distance → Bool
  le_total : ∀ a b, le a b = true ∨ le b a = true
  le_trans : ∀ a b c, le a b = true → le b c = true → le a c = true
  haversineDistanceNm : F64 → F64 → F64 → F64 → Distance
  /-- How far away an aircraft of an altitude is visible: `alt_ft * UP_SEARCH_RADIUS_NM / UP_CONE_REFERENCE_ALT_FT`. -/
  maxDistance : Int64 → Distance
  /-- The cardinal direction of the initial bearing. -/
  cardinalDirection : F64 → F64 → F64 → F64 → String
  /-- A distance with one decimal. -/
  display : Distance → String

def upMaxCandidates : Nat := 10

def upMaxResults : Nat := 5

variable (S : Sky) (lat lon : F64)

/-- How far away an aircraft is that can be seen. -/
def coneDistanceNm (ac : NearbyAircraft) : Option S.Distance :=
  match ac.lat, ac.lon, ac.altBaro with
  | some acLat, some acLon, some (.feet ft) =>
    if 0 < ft then
      let distance := S.haversineDistanceNm lat lon acLat acLon
      if S.le distance (S.maxDistance ft) then some distance else none
    else none
  | _, _, _ => none

/-! ## Candidates -/

/-- An aircraft that can be seen and has a name. -/
structure Candidate where
  id : String
  callsign : Option String
  aircraft : NearbyAircraft
  distanceNm : S.Distance

/-- A field without the blanks around it, unless it is blank. -/
def identifier (field : Option String) : Option String := (field.map trim).filter fun s => !s.isEmpty

/-- An aircraft that is visible and has an identifier. -/
def candidate (ac : NearbyAircraft) : Option (Candidate S) :=
  (coneDistanceNm S lat lon ac).bind fun distanceNm =>
    (((identifier ac.flight).or (identifier ac.r)).or (identifier ac.hex)).map fun id =>
      { id, callsign := identifier ac.flight, aircraft := ac, distanceNm }

/-- The first of them. -/
def candidates (aircraft : List NearbyAircraft) : List (Candidate S) :=
  (aircraft.filterMap (candidate S lat lon)).take upMaxCandidates

/-! ## Tasks -/

/-- What becomes of the lookup of a route. -/
inductive Lookup where
  | ok (route : Option FlightRoute)
  | failed
  | timedOut

/-- An aircraft of the reply. -/
structure Entry where
  id : String
  icaoType : Option String
  alt : Option AltBaro
  route : Option FlightRoute
  dist : S.Distance
  direction : String

def arrow (cardinal : String) : String :=
  match cardinal with
  | "N" => "⬆️"
  | "NE" => "↗️"
  | "E" => "➡️"
  | "SE" => "↘️"
  | "S" => "⬇️"
  | "SW" => "↙️"
  | "W" => "⬅️"
  | "NW" => "↖️"
  | _ => "?"

/-- The direction of an aircraft. -/
def direction (ac : NearbyAircraft) : Option String :=
  match ac.lat, ac.lon with
  | some acLat, some acLon => some (arrow (S.cardinalDirection lat lon acLat acLon))
  | _, _ => none

/-- The route of an aircraft with a callsign. -/
def routeOf (callsign : Option String) (lookup : Lookup) : Option FlightRoute :=
  match callsign, lookup with
  | some _, .ok route => route
  | _, _ => none

variable {S} in
/-- What the task of a candidate ends with. -/
def Candidate.entry (c : Candidate S) (lookup : Lookup) (direction : String) : Entry S :=
  { id := c.id, icaoType := c.aircraft.t, alt := c.aircraft.altBaro, route := routeOf c.callsign lookup, dist := c.distanceNm,
    direction }

/-- The entries of the tasks, in the order in which they are completed. -/
def entries (completed : List (Candidate S × Lookup)) : Option (List (Entry S)) :=
  completed.mapM fun task => (direction S lat lon task.1.aircraft).map (task.1.entry task.2)

/-! ## The reply -/

/-- What is replied. -/
inductive UpReply where
  | nothing
  | aircraft (total : Nat) (listed : List (Entry S))

/-- `sort_by`, which is stable. -/
def sorted (results : List (Entry S)) : List (Entry S) := results.insertionSort fun a b => S.le a.dist b.dist = true

/-- `up_command`, from the completed tasks on. -/
def upReply (completed : List (Candidate S × Lookup)) : Option (UpReply S) :=
  (entries S lat lon completed).map fun results =>
    if (sorted S results).isEmpty then .nothing
    else .aircraft (sorted S results).length ((sorted S results).take upMaxResults)

/-- A height as a flight level, or in feet. -/
def formatAltitude : Option AltBaro → String
  | some (.feet ft) => if 1000 ≤ ft then s!"FL{ft / 100}" else s!"{ft}ft"
  | some .ground => "GND"
  | none => "?"

variable {S}

/-- An aircraft with its route, when there is one. -/
def Entry.text (e : Entry S) : String :=
  let typ := e.icaoType.getD "?"
  match e.route with
  | some r => s!"{e.id} ({typ}) {r.origin}→{r.destination} {formatAltitude e.alt} {S.display e.dist}nm {e.direction}"
  | none => s!"{e.id} ({typ}) {formatAltitude e.alt} {S.display e.dist}nm {e.direction}"

/-- The text of a reply. -/
def UpReply.text (displayName : String) : UpReply S → String
  | nothing => s!"Nix los über {displayName}"
  | aircraft total listed => s!"✈ {total} Flieger über {displayName}: " ++ " | ".intercalate (listed.map Entry.text)

end Twitch1337.Up
