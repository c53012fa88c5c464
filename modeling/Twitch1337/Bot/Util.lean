import Twitch1337.Lib.Cursor
import Twitch1337.Lib.Decimal
import Twitch1337.Lib.Words

/-!
# Texts and durations

`util/mod.rs`: texts that are cut to a length, and durations such as `2h30m`.
-/

namespace Twitch1337.Util

open Text Cursor Decimal

/-! ## Responses -/

/-- `truncate_response`. Nothing is a panic, of a slice that ends inside a character. -/
def truncateResponse (text : Text) (maxChars : Nat) : Option Text :=
  let collapsed := [' '].intercalate (Words.words RustStr.isWhitespace text)
  if maxChars = 0 then some []
  else
    let suffix := "...".toList
    let contentLimit := maxChars - suffix.length
    if contentLimit = 0 then some (collapsed.take maxChars)
    else match (charIndices collapsed)[maxChars]? with
      | none => some collapsed
      | some (byteLimit, _) =>
        let contentByteLimit := match (charIndices collapsed)[contentLimit]? with
          | some (byteIdx, _) => byteIdx
          | none => utf8Len collapsed
        (takeBytes (min contentByteLimit byteLimit) collapsed).bind fun truncated =>
          match rfind ' ' truncated with
          | some lastSpace =>
            (takeBytes lastSpace truncated).map fun before =>
              if before.isEmpty then truncated ++ suffix else before ++ suffix
          | none => some (truncated ++ suffix)

/-! ## Durations -/

/-- The seconds of a unit. -/
def unitSecs (unit : Char) : Option Nat :=
  match unit.toLower with
  | 'h' => some 3600
  | 'm' => some 60
  | _ => none

/-- The loop over the characters, with `total_secs` and `current_num`. -/
def durationLoop (b : Build) : (totalSecs : Nat) → (currentNum : Text) → Text → Except Overflow (Option Nat)
  | totalSecs, currentNum, [] => .ok (if !currentNum.isEmpty || totalSecs == 0 then none else some totalSecs)
  | totalSecs, currentNum, ch :: rest =>
    if ch.isDigit then durationLoop b totalSecs (currentNum ++ [ch]) rest
    else match unitSecs ch with
      | none => .ok none
      | some secs =>
        match readU64 currentNum with
        | none => .ok none
        | some number => do
          let product ← b.u64 (number * secs)
          let totalSecs ← b.u64 (totalSecs + product)
          durationLoop b totalSecs [] rest

/-- `parse_flight_duration`, in seconds. -/
def parseFlightDuration (b : Build) (s : Text) : Except Overflow (Option Nat) :=
  let s := RustStr.trimChars s
  if s.isEmpty then .ok none else durationLoop b 0 [] s

end Twitch1337.Util
