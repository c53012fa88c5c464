import Twitch1337.Memory.Store

/-!
# The tools of a turn

`ai/memory/tools.rs`: who may call what. A call is taken apart up to the point where it touches the quota or the store.
-/

namespace Twitch1337.Memory

open Text

/-- The id of a user, or of the dreamer: letters and digits. -/
structure UserId where
  text : Text
  valid : text ≠ [] ∧ text.all Char.isAlphanum = true
  deriving DecidableEq

def UserId.dreamer : UserId := ⟨"dreamer".toList, by decide⟩

/-- The executor of one turn. -/
structure Executor where
  speakerUserId : UserId
  speakerLogin : Text
  speakerDisplayName : Text
  speakerRole : Role
  maxWritesPerTurn : Nat
  /-- An `AtomicUsize`. It does not come near its largest value. -/
  writeCount : Nat
  deriving DecidableEq

/-- `DreamerExecutor::new`. -/
def Executor.dreamer (maxWritesPerTurn : Nat) : Executor := ⟨.dreamer, [], [], .dreamer, maxWritesPerTurn, 0⟩

/-- A call of the model: the name of a tool, and the fields of the arguments that are texts. -/
structure ToolCall where
  name : Text
  arguments : Table Text Text

inductive ToolReply where
  | ok
  | unknownTool
  | invalidArguments
  | invalidPath
  | permissionDenied
  | invalidBody
  | writeQuotaExhausted
  | datedSlug
  | slug (e : SlugError)
  | store (e : WriteError)
  deriving DecidableEq

/-- What the model is told. -/
def ToolReply.text : ToolReply → Text
  | ok => "ok".toList
  | unknownTool => "unknown_tool".toList
  | invalidArguments => "invalid_arguments".toList
  | invalidPath => "invalid_path".toList
  | permissionDenied => "permission_denied".toList
  | invalidBody => "invalid_body".toList
  | writeQuotaExhausted => "write_quota_exhausted".toList
  | datedSlug => "dated_slug".toList
  | slug e => e.text
  | store (.io message) => "io_error: ".toList ++ message
  | store e => e.text

/-- Whether the speaker may write a path. -/
def Executor.permittedWritePath (ex : Executor) : WritePath → Bool
  | .soul => ex.speakerRole = .dreamer
  | .lore => ex.speakerRole ≠ .regular
  | .user userId => ex.speakerRole ≠ .regular || userId = ex.speakerUserId.text

/-- How a call goes on: it is answered, it asks for a place in the quota for an operation, or it looks for the owner of a state
file first. -/
inductive Dispatch where
  | reply (r : ToolReply)
  | perform (op : StoreOp)
  | checkOwner (slug : Text)
  deriving DecidableEq

/-- The identity goes along with the own file of the speaker only. -/
def Executor.writeOf (ex : Executor) (kind : FileKind) (body : Text) : StoreOp :=
  if kind = .user ex.speakerUserId.text then .write kind body (some ex.speakerLogin) (some ex.speakerDisplayName)
  else .write kind body none none

def Executor.handleWriteFile (ex : Executor) (call : ToolCall) : Dispatch :=
  match call.arguments.lookup "path".toList, call.arguments.lookup "body".toList with
  | some path, some body =>
    match parseWritePath path with
    | none => .reply .invalidPath
    | some path =>
      if !ex.permittedWritePath path then .reply .permissionDenied
      else if !checkBody body then .reply .invalidBody
      else .perform (ex.writeOf path.toKind body)
  | _, _ => .reply .invalidArguments

def Executor.handleWriteState (ex : Executor) (call : ToolCall) : Dispatch :=
  match call.arguments.lookup "slug".toList, call.arguments.lookup "body".toList with
  | some slug, some body =>
    match parseSlug slug with
    | .error e => .reply (.slug e)
    | .ok slug =>
      if hasTrailingIsoDate slug then .reply .datedSlug
      else if !checkBody body then .reply .invalidBody
      else .perform (.writeState (.state slug) body (some ex.speakerUserId.text) none)
  | _, _ => .reply .invalidArguments

def Executor.handleDeleteState (call : ToolCall) : Dispatch :=
  match call.arguments.lookup "slug".toList with
  | some slug =>
    match parseSlug slug with
    | .error e => .reply (.slug e)
    | .ok slug => .checkOwner slug
  | none => .reply .invalidArguments

/-- `execute`, up to the quota. -/
def Executor.dispatch (ex : Executor) (call : ToolCall) : Dispatch :=
  if call.name = "write_file".toList then ex.handleWriteFile call
  else if call.name = "write_state".toList then ex.handleWriteState call
  else if call.name = "delete_state".toList then handleDeleteState call
  else .reply .unknownTool

/-- Whether the speaker may delete a state file with that owner. -/
def Executor.mayDelete (ex : Executor) (owner : Option Text) : Bool :=
  ex.speakerRole ≠ .regular || owner = some ex.speakerUserId.text

end Twitch1337.Memory
