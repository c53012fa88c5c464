import Twitch1337.Bot.Suspension
import Twitch1337.Lib.Bytes
import Twitch1337.Lib.Decimal

/-!
# Parsing a duration

`parse_duration` of `suspend.rs`, by the bytes of its input. It looks at the last byte and cuts it off, which panics when that byte
is not a character.
-/

namespace Twitch1337.Suspend

open Dispatch RustStr Text

/-- `u64::checked_mul`. -/
def checkedMul (a b : Nat) : Option Nat := if a * b < 18446744073709551616 then some (a * b) else none

/-- `&s[..s.len() - 1]`. Nothing, when the subtraction or the slice panics. -/
def withoutLast (s : Text) : Option Text := if utf8Len s = 0 then none else Cursor.takeBytes (utf8Len s - 1) s

/-- The number part and the multiplier. Nothing, when a slice panics. -/
def numPart (s : Text) : Option (Except ParseDurationError (Text × Nat)) :=
  match (bytes s).getLast? with
  | some b =>
    if isAsciiDigit b then some (.ok (s, 1))
    else if b = 's'.toUInt8 then (withoutLast s).map fun digits => .ok (digits, 1)
    else if b = 'm'.toUInt8 then (withoutLast s).map fun digits => .ok (digits, 60)
    else if b = 'h'.toUInt8 then (withoutLast s).map fun digits => .ok (digits, 3600)
    else if b = 'd'.toUInt8 then (withoutLast s).map fun digits => .ok (digits, 86400)
    else some (.error .unknownUnit)
  | none => some (.error .empty)

/-- What is made of the number part and the multiplier. -/
def duration (digits : Text) (multiplier : Nat) : Except ParseDurationError Nat :=
  if digits.isEmpty || !(bytes digits).all isAsciiDigit then .error .invalidNumber
  else
    match Decimal.readU64 digits with
    | none => .error .invalidNumber
    | some n =>
      match checkedMul n multiplier with
      | none => .error .invalidNumber
      | some secs =>
        if secs = 0 then .error .zero
        else if maxSuspendDuration < fromSecs secs then .error .tooLong
        else .ok (fromSecs secs)

/-- Nothing, when it panics. -/
def parseDuration (input : String) : Option (Except ParseDurationError Nat) :=
  let s := trimChars input.toList
  if s.isEmpty then some (.error .empty)
  else
    match numPart s with
    | none => none
    | some (.error err) => some (.error err)
    | some (.ok (digits, multiplier)) => some (duration digits multiplier)

end Twitch1337.Suspend
