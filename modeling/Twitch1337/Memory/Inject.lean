import Twitch1337.Memory.Store
import Twitch1337.Schedule.Trigger

/-!
# The prompt

`ai/memory/inject.rs`: the files of the memory between fences, the chat of the last minutes, and how both are packed into the
context of a turn. The time zone of the chat is a parameter.
-/

namespace Twitch1337.Memory.Inject

open Chrono Schedules Text

/-! ## Fences -/

/-- `FENCE_OPEN`. -/
def fenceOpen : Text := "<<<FILE".toList

/-- `FENCE_CLOSE`. -/
def fenceClose : Text := "<<<ENDFILE".toList

/-- What a block is about. -/
inductive FenceLabel where
  | soul
  | lore
  | user (id : Text) (login displayName : Option Text)
  | state (slug : Text)
  | transcript (date : Text)

/-- Bytes are written as numerals. -/
instance neZeroByte : NeZero 256 := ⟨by decide⟩

/-- `fresh_nonce`: the random bytes in hexadecimal. -/
def freshNonce (bytes : List (Fin 256)) : Text :=
  bytes.flatMap fun b : Fin 256 => [Nat.digitChar (b.val / 16), Nat.digitChar (b.val % 16)]

/-- A value without what could end it or its line. -/
def sanitizeAttrValue (s : Text) : Text := s.filter fun c => !Text.isControl c && c != '"' && c != '>' && c != '<'

/-- The login in a header, unless it is empty. -/
def loginAttr (login : Option Text) : Text :=
  match nonempty login with
  | some l => " login=".toList ++ l
  | none => []

/-- The name in a header, unless it is empty. -/
def nameAttr (displayName : Option Text) : Text :=
  match nonempty displayName with
  | some n => " name=\"".toList ++ sanitizeAttrValue n ++ ['"']
  | none => []

/-- What a label says of its file. -/
def renderLabelAttrs : FenceLabel → Text
  | .soul => "kind=soul".toList
  | .lore => "kind=lore".toList
  | .state slug => "kind=state slug=".toList ++ slug
  | .transcript date => "kind=transcript date=".toList ++ date
  | .user id login displayName => "kind=user id=".toList ++ id ++ loginAttr login ++ nameAttr displayName

/-- `scrub_for_inject`: a body with a sentinel in it is replaced as a whole. -/
def scrubForInject (body : Text) : Text :=
  if contains fenceOpen body || contains fenceClose body then "<corrupt: rejected>".toList else body

/-- A file between its fences, with its label before it. -/
def fenceBlock (label : FenceLabel) (nonce body : Text) : Text :=
  "<<<FILE ".toList ++ renderLabelAttrs label ++ " nonce=".toList ++ nonce ++ ">>>\n".toList ++ scrubForInject body ++
    "\n<<<ENDFILE nonce=".toList ++ nonce ++ ">>>".toList

/-! ## Recent chat -/

/-- The bytes that the lines of a section may have. -/
def recentChatPrimaryBytes : Nat := 2048

def recentChatAiChannelBytes : Nat := 1024

/-- Who has said an entry. -/
inductive ChatHistorySource where
  | user
  | bot
  deriving DecidableEq

/-- An entry of the chat. -/
structure ChatHistoryEntry where
  username : Text
  displayName : Option Text
  text : Text
  source : ChatHistorySource
  timestamp : Instant
  deriving DecidableEq

/-- Where the command was given. -/
inductive InvocationChannel where
  | primary
  | aiChannel
  deriving DecidableEq

/-- What a turn is built from. -/
structure BuildOpts where
  injectByteBudget : Nat
  nonce : Text
  primaryHistory : Option (List ChatHistoryEntry)
  primaryLogin : Text
  aiChannelHistory : Option (List ChatHistoryEntry)
  aiChannelLogin : Option Text
  invocationChannel : InvocationChannel
  botLogin : Text
  personaName : Text
  /-- The login of the speaker. Nothing, for the ritual. -/
  speakerLogin : Text

/-- Whether two texts are the same but for the case of ASCII letters. -/
def eqIgnoreAsciiCase (a b : Text) : Bool := toAsciiLowercase a == toAsciiLowercase b

/-- `HH:MM`. -/
def hourMinute (t : NaiveTime) : Text :=
  (Civil.pad 2 (t.secs / 3600)).toList ++ [':'] ++ (Civil.pad 2 (t.secs / 60 % 60)).toList

/-- An entry in one line. The bot goes by its persona. -/
def formatEntryLine (Z : Zone) (entry : ChatHistoryEntry) (botLogin personaName : Text) : Text :=
  let isSelf := entry.source = .bot ∨ eqIgnoreAsciiCase entry.username botLogin
  let name := if isSelf then personaName ++ " (self)".toList else (nonempty entry.displayName).getD entry.username
  ['['] ++ hourMinute (Z.time entry.timestamp) ++ "] ".toList ++ name ++ ": ".toList ++ entry.text

/-- The loop over the entries, the latest first: their lines and the names of their users, up to a number of bytes. -/
def chooseLines (line : ChatHistoryEntry → Text) (cap : Nat) : Nat → List ChatHistoryEntry → List (Text × Text)
  | _, [] => []
  | bytes, entry :: rest =>
    let lineBytes := utf8Len (line entry) + 1
    if cap < bytes + lineBytes then []
    else (line entry, toAsciiLowercase entry.username) :: chooseLines line cap (bytes + lineBytes) rest

/-- The recent chat of a channel, and who is in it. -/
structure RenderedRecentSection where
  body : Text
  usernames : List Text

/-- The latest lines of a channel that fit, in the order in which they were said. -/
def renderRecentSection (Z : Zone) (buf : Option (List ChatHistoryEntry)) (login : Text) (cap : Nat)
    (botLogin personaName : Text) : Option RenderedRecentSection :=
  match buf with
  | none => none
  | some snapshot =>
    let chosen := chooseLines (fun entry => formatEntryLine Z entry botLogin personaName) cap 0 snapshot.reverse
    if chosen.isEmpty then none
    else some {
      body := "## Recent chat (#".toList ++ login ++ ")\n".toList ++ ['\n'].intercalate (chosen.map (·.1)).reverse
      usernames := chosen.map (·.2) }

/-- The sections of the chat, in their order. -/
def BuildOpts.sections (Z : Zone) (opts : BuildOpts) : List RenderedRecentSection :=
  let primaryRendered :=
    renderRecentSection Z opts.primaryHistory opts.primaryLogin recentChatPrimaryBytes opts.botLogin opts.personaName
  let aiRendered :=
    match opts.aiChannelLogin with
    | some login =>
      renderRecentSection Z opts.aiChannelHistory login recentChatAiChannelBytes opts.botLogin opts.personaName
    | none => none
  match opts.invocationChannel with
  | .aiChannel => aiRendered.toList ++ primaryRendered.toList
  | .primary => primaryRendered.toList ++ aiRendered.toList

/-! ## The context of a turn -/

/-- The speaker in lower case. -/
def BuildOpts.speakerLc (opts : BuildOpts) : Text := toAsciiLowercase opts.speakerLogin

/-- Whether this is a turn of the chat, and not the ritual. -/
def BuildOpts.isChatTurn (opts : BuildOpts) : Bool :=
  opts.primaryHistory.isSome || opts.aiChannelHistory.isSome || !opts.speakerLc.isEmpty

/-- The logins whose files a turn of the chat is given: those in its sections, and the speaker's. -/
def BuildOpts.scope (Z : Zone) (opts : BuildOpts) : List Text :=
  (opts.sections Z).flatMap (·.usernames) ++ if opts.speakerLc.isEmpty then [] else [opts.speakerLc]

/-- The test of `retain`. -/
def BuildOpts.inScope (Z : Zone) (opts : BuildOpts) (f : MemoryFile) : Bool :=
  match f.frontmatter.username with
  | none => false
  | some login => (opts.scope Z).contains (toAsciiLowercase login)

/-- A file is the speaker's when its name is. -/
def isSpeaker (speakerLc : Text) (f : MemoryFile) : Bool :=
  !speakerLc.isEmpty && f.frontmatter.username.any fun n => eqIgnoreAsciiCase n speakerLc

/-- The speaker's files first, and the latest first. -/
def SpeakerFirst (speakerLc : Text) (a b : MemoryFile) : Prop :=
  (isSpeaker speakerLc b < isSpeaker speakerLc a) ∨ (isSpeaker speakerLc a = isSpeaker speakerLc b ∧ a.Newer b)

instance (speakerLc : Text) : DecidableRel (SpeakerFirst speakerLc) := fun _ _ => inferInstanceAs (Decidable (_ ∨ _))

/-- The block of a user file. Other files are skipped. -/
def userBlock (nonce : Text) (f : MemoryFile) : Option Text :=
  match f.kind with
  | .user userId => some (fenceBlock (.user userId f.frontmatter.username f.frontmatter.displayName) nonce f.body)
  | _ => none

/-- The block of a state file. Other files are skipped. -/
def stateBlock (nonce : Text) (f : MemoryFile) : Option Text :=
  match f.kind with
  | .state slug => some (fenceBlock (.state slug) nonce f.body)
  | _ => none

/-- The blocks up to the first that is beyond the budget, and the bytes with them. -/
def packBlocks (budget : Nat) : Nat → List Text → List Text × Nat
  | total, [] => ([], total)
  | total, block :: rest =>
    if budget < total + utf8Len block + 1 then ([], total)
    else
      let (blocks, total) := packBlocks budget (total + utf8Len block + 1) rest
      (block :: blocks, total)

/-- The files that a turn reads: SOUL, LORE, the user files and the state files. -/
structure ReadFiles where
  soul : MemoryFile
  lore : MemoryFile
  users : List MemoryFile
  states : List MemoryFile

/-- All files, or none when one of them cannot be read. -/
def readFiles (R : Rfc3339) (d : Disk) (now : Instant) : Option ReadFiles :=
  match d.readKind R .soul now, d.readKind R .lore now, d.listUsers R now, d.listState R now with
  | some soul, some lore, some users, some states => some ⟨soul, lore, users, states⟩
  | _, _, _, _ => none

/-- The blocks that go into the context. -/
structure ContextBlocks where
  durable : List Text
  state : List Text

/-- The user files that a turn is given, in the order in which they are packed. -/
def BuildOpts.retained (Z : Zone) (opts : BuildOpts) (users : List MemoryFile) : List MemoryFile :=
  (if opts.isChatTurn then users.filter (opts.inScope Z) else users).insertionSort (SpeakerFirst opts.speakerLc)

/-- The blocks of a turn, over the files that were read. -/
def BuildOpts.blocks (Z : Zone) (opts : BuildOpts) (files : ReadFiles) : ContextBlocks :=
  let durable := [fenceBlock .soul opts.nonce files.soul.body, fenceBlock .lore opts.nonce files.lore.body]
  let users := opts.retained Z files.users
  let states := files.states.insertionSort MemoryFile.Newer
  let (userBlocks, total) :=
    packBlocks opts.injectByteBudget (durable.map utf8Len).sum (users.filterMap (userBlock opts.nonce))
  let (stateBlocks, _) := packBlocks opts.injectByteBudget total (states.filterMap (stateBlock opts.nonce))
  ⟨durable ++ userBlocks, stateBlocks⟩

/-- The three parts of a turn. -/
structure ChatTurnContext where
  recentChat : Text
  durableMemory : Text
  volatileState : Text
  deriving DecidableEq

/-- The context of a turn. Nothing, when a file cannot be read. -/
def buildChatTurnContext (R : Rfc3339) (Z : Zone) (d : Disk) (now : Instant) (opts : BuildOpts) : Option ChatTurnContext :=
  (readFiles R d now).map fun files =>
    let blocks := opts.blocks Z files
    { recentChat := ['\n', '\n'].intercalate ((opts.sections Z).map (·.body))
      durableMemory := ['\n'].intercalate blocks.durable
      volatileState := ['\n'].intercalate blocks.state }

/-! ## The messages -/

/-- The parts of the system message. -/
structure SystemParts where
  head : Text
  appendices : List Text
  durableMemory : Text

/-- `build_chat_turn_messages`: the system message. -/
def SystemParts.system (sys : SystemParts) : Text := sys.head ++ sys.appendices.flatten ++ ['\n', '\n'] ++ sys.durableMemory

end Twitch1337.Memory.Inject
