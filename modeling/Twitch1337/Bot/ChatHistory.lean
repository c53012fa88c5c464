import Twitch1337.Memory.Inject

/-!
# The history of the chat

`ai/chat_history.rs`: the last messages of a channel, and the pages that a turn reads of them. The capacity is read from the
settings at each push, so that it is part of the push. Sequence numbers have 64 bits, and the last one repeats.
-/

namespace Twitch1337.ChatHistory

open Chrono RustStr Text

def maxToolResultMessages : Nat := 200

def defaultToolResultMessages : Nat := 50

/-- `u64::MAX`. -/
def maxSeq : Nat := 2 ^ 64 - 1

/-- What is pushed. -/
structure Message extends Memory.Inject.ChatHistoryEntry where
  userId : Option Text
  deriving DecidableEq

structure ChatHistoryEntry extends Message where
  seq : Nat
  deriving DecidableEq

structure ChatHistoryBuffer where
  nextSeq : Nat
  entries : List ChatHistoryEntry
  deriving DecidableEq

def ChatHistoryBuffer.new : ChatHistoryBuffer := ⟨1, []⟩

/-! ## Pushes -/

/-- A message, and the capacity in the settings when it is pushed. -/
structure Push where
  capacity : Nat
  message : Message
  deriving DecidableEq

/-- The loop that makes room for one entry. -/
def makeRoom (cap : Nat) : List ChatHistoryEntry → List ChatHistoryEntry
  | [] => []
  | e :: rest => if cap ≤ (e :: rest).length then makeRoom cap rest else e :: rest

def ChatHistoryBuffer.push (b : ChatHistoryBuffer) (p : Push) : ChatHistoryBuffer :=
  if p.capacity = 0 then b
  else
    { nextSeq := min (b.nextSeq + 1) maxSeq
      entries := makeRoom p.capacity b.entries ++ [⟨p.message, b.nextSeq⟩] }

/-- Pushes, one after the other. -/
def ChatHistoryBuffer.pushAll (b : ChatHistoryBuffer) (pushes : List Push) : ChatHistoryBuffer :=
  pushes.foldl ChatHistoryBuffer.push b

/-- The push of a message that has no more than a login, a text and a time. -/
def userPush (cap : Nat) (username text : Text) (timestamp : Instant) : Push :=
  ⟨cap, ⟨⟨username, none, text, .user, timestamp⟩, none⟩⟩

/-- `from_prefill`: the latest messages that fit into the capacity, each with the capacity that its push finds. -/
def ChatHistoryBuffer.fromPrefill (cap : Nat) (messages : List (Nat × Text × Text × Instant)) : ChatHistoryBuffer :=
  ChatHistoryBuffer.new.pushAll
    ((messages.drop (messages.length - cap)).map fun (live, username, text, timestamp) => userPush live username text timestamp)

/-! ## Pages -/

structure ChatHistoryQuery where
  limit : Option Nat
  user : Option Text
  contains : Option Text
  beforeSeq : Option Nat
  deriving DecidableEq

structure ChatHistoryPage where
  messages : List ChatHistoryEntry
  hasMore : Bool
  nextBeforeSeq : Option Nat
  deriving DecidableEq

/-- A filter without blanks around it and in lower case. A blank one is none. -/
def filterText (filter : Option Text) : Option Text :=
  ((filter.map trimChars).filter fun s => !s.isEmpty).map toAsciiLowercase

def ChatHistoryQuery.pageSize (q : ChatHistoryQuery) : Nat :=
  min (max (q.limit.getD defaultToolResultMessages) 1) maxToolResultMessages

/-- The filters for the user and the text. -/
def ChatHistoryQuery.selects (q : ChatHistoryQuery) (e : ChatHistoryEntry) : Bool :=
  ((filterText q.user).all fun user => toAsciiLowercase e.username == user) &&
    (filterText q.contains).all fun needle => Text.contains needle (toAsciiLowercase e.text)

/-- Whether the scan takes an entry. -/
def ChatHistoryQuery.takes (q : ChatHistoryQuery) (e : ChatHistoryEntry) : Bool :=
  !(q.beforeSeq.any fun seq => seq ≤ e.seq) && q.selects e

/-- The scan, from the newest entry on: it ends with the first entry beyond the limit. -/
def scan (takes : ChatHistoryEntry → Bool) (limit : Nat) (newestFirst : List ChatHistoryEntry) :
    List ChatHistoryEntry → List ChatHistoryEntry
  | [] => newestFirst
  | e :: older =>
    if !takes e then scan takes limit newestFirst older
    else if limit < (newestFirst ++ [e]).length then newestFirst ++ [e]
    else scan takes limit (newestFirst ++ [e]) older

def ChatHistoryBuffer.query (b : ChatHistoryBuffer) (q : ChatHistoryQuery) : ChatHistoryPage :=
  let limit := q.pageSize
  let newestFirst := scan q.takes limit [] b.entries.reverse
  let hasMore := decide (limit < newestFirst.length)
  let messages := (if hasMore then newestFirst.take limit else newestFirst).reverse
  { messages
    hasMore
    nextBeforeSeq := if hasMore then messages.head?.map (·.seq) else none }

end Twitch1337.ChatHistory
