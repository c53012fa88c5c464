import Twitch1337.Lib.Decimal
import Twitch1337.Lib.Lowercase

/-!
# Schedules of an earlier version

`settings/migrate.rs`, as far as it is about `settings.ron`: rows of schedules that hold an interval as a text get a trigger. Of
the values of the file there are those that the migration looks into. The fields of a map are in no particular order.
-/

namespace Twitch1337.Dashboard

open Decimal RustStr Text

/-! ## Intervals -/

/-- The seconds of a unit. -/
def unitSecs : Char → Option Int
  | 'h' => some 3600
  | 'm' => some 60
  | 's' => some 1
  | _ => none

/-- The loop over the characters: the digits since the last unit, and the total so far. -/
def accumulate (b : Build) (cur : Text) (total : Int) : Text → Except Overflow (Option Int)
  | [] => .ok (some total)
  | ch :: chars =>
    if ch.isDigit then accumulate b (cur ++ [ch]) total chars
    else
      match readI64 cur, unitSecs ch with
      | some n, some secs => do
        let product ← b.i64 (n * secs)
        let total ← b.i64 (total + product)
        accumulate b [] total chars
      | _, _ => .ok none

/-- `parse_interval_legacy`: hours and minutes, or numbers with units. -/
def parseIntervalLegacy (b : Build) (T : LowerTable) (s : String) : Except Overflow (Option Int) :=
  match splitOnce [':'] (trim s).toList with
  | some (h, m) =>
    match readI64 h, readI64 m with
    | some h, some m => do
      let hours ← b.i64 (h * 3600)
      let minutes ← b.i64 (m * 60)
      let total ← b.i64 (hours + minutes)
      return if total ≤ 0 then none else some total
    | _, _ => .ok none
  | none => do
    let total ← accumulate b [] 0 (T.toLowercase (trim s)).toList
    return total.filter fun total => total ≠ 0

/-! ## Rows -/

/-- A value of the file. -/
inductive Ron where
  | string (s : String)
  | option (v : Option Ron)
  | seq (items : List Ron)
  | map (fields : List (String × Ron))
  /-- Numbers, booleans and the like. -/
  | other (text : String)

/-- `map_get`. -/
def Ron.get (v : Ron) (key : String) : Option Ron :=
  match v with
  | .map fields => fields.lookup key
  | _ => none

/-- `map_remove`. -/
def Ron.remove (v : Ron) (key : String) : Ron :=
  match v with
  | .map fields => .map (fields.filter fun field => field.1 ≠ key)
  | v => v

/-- `map_insert`. -/
def Ron.insert (v : Ron) (key : String) (value : Ron) : Ron :=
  match v with
  | .map fields => .map ((key, value) :: fields.filter fun field => field.1 ≠ key)
  | v => v

/-- `value_as_str`. -/
def Ron.asStr : Ron → Option String
  | .string s => some s
  | _ => none

def Ron.takeOptionalString (row : Ron) (key : String) : Option String :=
  match row.get key with
  | some (.option (some (.string s))) => some s
  | _ => none

def optionalStringToValue (v : Option String) : Ron := .option (v.map .string)

/-- The date of a text of date and time. -/
def Ron.convertDateField (row : Ron) (key : String) : Ron :=
  match row.get key with
  | some (.option (some (.string s))) =>
    row.insert key (.option (some (.string (String.ofList (s.toList.takeWhile fun c => c ≠ 'T')))))
  | some (.option (some _)) => row.insert key (.option none)
  | _ => row

/-- The interval of a row without a trigger. -/
def legacyInterval (b : Build) (T : LowerTable) (row : Ron) : Except Overflow (Option Int) :=
  match (row.get "interval").bind Ron.asStr with
  | some s => parseIntervalLegacy b T s
  | none => .ok none

/-- A row with a trigger instead of an interval. -/
def Ron.withTrigger (row : Ron) (intervalSecs : Int) : Ron :=
  let trigger : Ron := .map [
    ("kind", .string "interval"),
    ("every", .string s!"{intervalSecs}s"),
    ("days", .seq []),
    ("active_from", optionalStringToValue (row.takeOptionalString "active_time_start")),
    ("active_to", optionalStringToValue (row.takeOptionalString "active_time_end"))]
  ((((row.convertDateField "start_date").convertDateField "end_date").insert "trigger" trigger).remove "interval"
    |>.remove "active_time_start").remove "active_time_end"

/-- The row, and whether it was changed. -/
def migrateOneRow (b : Build) (T : LowerTable) (row : Ron) : Except Overflow (Ron × Bool) :=
  if (row.get "trigger").isSome then .ok (row, false)
  else (legacyInterval b T row).map fun interval => (row.withTrigger (interval.getD 60), true)

/-- `migrate_schedules_v3_to_v4`. -/
def migrateSchedules (b : Build) (T : LowerTable) (root : Ron) : Except Overflow (Ron × Bool) :=
  match root.get "schedules" with
  | some (.option (some (.seq rows))) =>
    (rows.mapM (migrateOneRow b T)).map fun rows =>
      (root.insert "schedules" (.option (some (.seq (rows.map (·.1))))), rows.any (·.2))
  | _ => .ok (root, false)

end Twitch1337.Dashboard
