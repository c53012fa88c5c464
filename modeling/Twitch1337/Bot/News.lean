import Twitch1337.Bot.ChatHistory
import Twitch1337.Bot.Suspension

/-!
# News

`commands/news.rs`: what of the chat the model is asked to sum up for a user. The prompts of the system are left out.
-/

namespace Twitch1337.News

open Text ChatHistory

/-- The two commands. -/
inductive NewsMode where
  | news
  | tldr
  deriving DecidableEq

def emptyHistoryMessage : Text := "Ich habe noch keine Chat-Historie für eine Zusammenfassung FDM".toList

def noNewMessagesMessage : Text := "Seit deiner letzten Nachricht ist noch nichts Neues passiert FDM".toList

def noTldrMessagesMessage : Text := "chat dead no tldr Deadge".toList

def recentUserContextMessages : Nat := 20

def tldrWindowHours : Int := 24

/-- The reply when there is nothing to tell. -/
def NewsMode.emptyMessage : NewsMode → Text
  | news => emptyHistoryMessage
  | tldr => noTldrMessagesMessage

/-! ## The history of a request -/

/-- An entry is of a user. -/
def byUser (user : Text) (entry : ChatHistoryEntry) : Bool := toAsciiLowercase entry.username == toAsciiLowercase user

/-- `Iterator::rposition`. -/
def rposition {α : Type} (p : α → Bool) (l : List α) : Option Nat := (l.reverse.findIdx? p).map fun i => l.length - 1 - i

/-- The message that asks is no part of what it asks for. -/
def withoutTrigger (user currentMessage : Text) (snapshot : List ChatHistoryEntry) : List ChatHistoryEntry :=
  if snapshot.getLast?.any fun entry => byUser user entry && entry.text == currentMessage then snapshot.dropLast else snapshot

/-- An entry in one line. -/
def line (entry : ChatHistoryEntry) : Text := entry.username ++ ": ".toList ++ entry.text

/-- `relevant_history`. There is no history where there is no chat context. -/
def relevantHistory (mode : NewsMode) (history : Option ChatHistoryBuffer) (user currentMessage : Text) (now : Chrono.Instant) :
    Option (List Text) :=
  history.bind fun buf =>
    let snapshot := withoutTrigger user currentMessage buf.entries
    if snapshot.isEmpty then none
    else
      match mode with
      | .news =>
        let recentStart := snapshot.length - recentUserContextMessages
        let start := (((rposition (byUser user) snapshot).filter fun idx => idx < recentStart).map (· + 1)).getD 0
        some ((snapshot.drop start).map line)
      | .tldr =>
        let cutoff := now - Chrono.seconds (tldrWindowHours * 3600)
        some ((snapshot.filter fun entry => cutoff ≤ entry.timestamp).map line)

/-! ## The command -/

/-- What a command leads to. -/
inductive Reaction where
  | reply (text : Text)
  /-- The model is asked. -/
  | ask (userMessage : Text)
  deriving DecidableEq

/-- What the model is asked. -/
def userMessage (mode : NewsMode) (user : Text) (historyLines : List Text) : Text :=
  (match mode with
    | .news =>
      "Fasse diesen Twitch-Chat für ".toList ++ user ++ " zusammen. Wenn eine ältere Nachricht von ".toList ++ user ++
        " als Kontextgrenze genutzt wurde, beginnt der Verlauf danach; neuere Nachrichten von ".toList ++ user ++
        " sind Teil des Verlaufs.".toList
    | .tldr => "Erstelle ein TLDR der verfügbaren Chat-Historie aus den letzten 24 Stunden.".toList) ++
    '\n' :: ['\n'].intercalate historyLines

/-- `execute`, up to the request. `remaining` is what is left of the user's cooldown, in nanoseconds. -/
def execute (mode : NewsMode) (remaining : Option Nat) (history : Option ChatHistoryBuffer) (user messageText : Text)
    (now : Chrono.Instant) : Reaction :=
  match remaining with
  | some remaining =>
    .reply ("Bitte warte noch ".toList ++ (Dispatch.formatCooldownRemaining remaining).toList ++ " Waiting".toList)
  | none =>
    match relevantHistory mode history user messageText now with
    | none => .reply mode.emptyMessage
    | some historyLines =>
      if historyLines.isEmpty then
        .reply (match mode with
          | .news => noNewMessagesMessage
          | .tldr => noTldrMessagesMessage)
      else .ask (userMessage mode user historyLines)

end Twitch1337.News
