import Twitch1337.Lib.Bytes
import Twitch1337.Lib.Json
import Twitch1337.Lib.Lowercase

/-!
# What the debug journal keeps of a payload

The sanitizing of `aviation/tracker/debug_journal.rs`. A text is searched in lower case and sliced as it is, at the same positions
in bytes; to slice inside a character panics. The entries of an object are in the order of their keys, in which they are collected
again.
-/

namespace Twitch1337.Tracker.DebugJournal

open Cursor Json Text

def isSensitiveKey (key : String) : Bool :=
  ["access_key", "api_key", "authorization", "token", "raw_body", "body"].any fun sensitive =>
    RustStr.eqIgnoreAsciiCase key sensitive

/-- A slice, which panics when it is none. -/
def orPanic {α : Type} : Option α → Except Stop α
  | some a => .ok a
  | none => .error .panic

/-- `&value[start..stop]` -/
def slice (value : Text) (start stop : Nat) : Option Text :=
  if stop < start then none else (dropBytes start value).bind (takeBytes (stop - start))

/-- The loop of `redact_query_value`, with what it has written. -/
def redactFrom (value haystack needle : Text) : (fuel pos : Nat) → (out : Text) → Except Stop Text
  | 0, _, _ => .error .fuel
  | fuel + 1, pos, out => do
    let rest ← orPanic (dropBytes pos haystack)
    match find needle rest with
    | some rel =>
      let keyEnd := pos + rel + utf8Len needle
      let kept ← orPanic (slice value pos keyEnd)
      let out := out ++ kept ++ "<redacted>".toList
      let dropped ← orPanic (dropBytes keyEnd value)
      match find ['&'] dropped with
      | some amp => redactFrom value haystack needle fuel (keyEnd + amp) out
      | none => return out
    | none =>
      let rest ← orPanic (dropBytes pos value)
      return out ++ rest

/-- Every turn of the loop goes on behind a needle, so it makes no more turns than there are bytes. -/
def redactQueryValue (value key : String) : Except Stop String := do
  let needle := key.toList ++ ['=']
  let haystack := toAsciiLowercase value.toList
  let out ← redactFrom value.toList haystack needle (utf8Len value.toList + 1) 0 []
  return .ofList out

def sanitizeString (value : String) : Except Stop String :=
  ["access_key", "api_key", "token", "authorization"].foldlM redactQueryValue value

mutual

def sanitizeValue : Value → Except Stop Value
  | .object entries => return .object (← sanitizeMap entries)
  | .array items => return .array (← sanitizeItems items)
  | .string text => return .string (← sanitizeString text)
  | other => return other

def sanitizeItems : List Value → Except Stop (List Value)
  | [] => return []
  | v :: items => return (← sanitizeValue v) :: (← sanitizeItems items)

def sanitizeMap : List (String × Value) → Except Stop (List (String × Value))
  | [] => return []
  | (key, v) :: entries =>
    if isSensitiveKey key then sanitizeMap entries
    else return (key, ← sanitizeValue v) :: (← sanitizeMap entries)

end

/-- An entry put into a map, which is in the order of its keys. -/
def insert (key : String) (v : Value) : List (String × Value) → List (String × Value)
  | [] => [(key, v)]
  | (k, w) :: entries =>
    if key < k then (key, v) :: (k, w) :: entries
    else if key = k then (key, v) :: entries
    else (k, w) :: insert key v entries

/-- `FlightTrackerDebugEvent::payload`, of the payload of the event. -/
def payload (held : List (String × Value)) (value : Value) : Except Stop (List (String × Value)) := do
  match ← sanitizeValue value with
  | .object map => return map.foldl (fun held e => insert e.1 e.2 held) held
  | _ => return held

end Twitch1337.Tracker.DebugJournal
