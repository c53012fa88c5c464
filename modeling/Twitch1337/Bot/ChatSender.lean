import Twitch1337.Lib.Cursor
import Twitch1337.Lib.Words

/-!
# Outbound chat

`twitch/chat_sender.rs`: every message is cleaned before it is sent. Nothing is a panic, of a slice that ends inside a character.
-/

namespace Twitch1337.ChatSender

open Text

def maxOutboundBytes : Nat := 480

def ellipsis : Char := '…'

def isSpace (ch : Char) : Bool := RustStr.isWhitespace ch || isControl ch

/-- The loop over the characters. `prev_space` is what it keeps. -/
def collapsed (input : Text) : Text := Words.squeeze isSpace ' ' false input

/-- The loop that looks for the end of what fits. It stands at `idx`, and what is before fits. -/
def endWithin (budget : Nat) : (idx : Nat) → Text → Nat
  | idx, [] => idx
  | idx, ch :: rest => if budget < idx + ch.utf8Size then idx else endWithin budget (idx + ch.utf8Size) rest

def sanitizeOutbound (input : Text) : Option Text :=
  if utf8Len (collapsed input) ≤ maxOutboundBytes then some (collapsed input)
  else
    let budget := maxOutboundBytes - ellipsis.utf8Size
    (Cursor.takeBytes (endWithin budget 0 (collapsed input)) (collapsed input)).map (· ++ [ellipsis])

/-- What `say` and `reply` hand to the connection: an empty text is dropped. -/
def outgoing (message : Text) : Option (Option Text) :=
  (sanitizeOutbound message).map fun cleaned => if cleaned.isEmpty then none else some cleaned

end Twitch1337.ChatSender
