import Mathlib.Data.List.Sort
import Twitch1337.Lib.Keyed
import Twitch1337.Memory.Frontmatter
import Twitch1337.Memory.Sanitize

/-!
# The store

`ai/memory/store.rs`. The files are a table, by kind. What the operations do between taking a lock and giving it back is a
function here: what a write puts together from the file there is (`prepare`), and what it leaves behind (`commit`).
-/

namespace Twitch1337.Memory

open Chrono

/-! ## The disk -/

/-- A modification time. Writes are numbered, so that no two have the same. -/
abbrev Mtime : Type := Nat

/-- A version of a file. Its content is nothing when it is no text. -/
structure File where
  content : Option Text
  mtime : Mtime
  deriving DecidableEq

/-- The files of the memory. -/
structure Disk where
  files : Table FileKind File
  /-- How many writes there were. -/
  writes : Nat

/-- What an operation reads from outside, and which of its accesses to the disk the operating system lets through. -/
structure Io where
  now : Instant
  /-- The caps in the settings of that moment. -/
  caps : Caps
  stats : Bool
  lists : Bool
  writes : Bool

/-- Why a write fails. -/
inductive WriteError where
  | full
  | stateFull
  | invalidSlug
  | io (message : Text)
  deriving DecidableEq

/-- What is said of it. -/
def WriteError.text : WriteError → Text
  | full => "file_full".toList
  | stateFull => "state_full".toList
  | invalidSlug => "invalid_slug".toList
  | io message => "io: ".toList ++ message

/-- An error of the operating system. -/
def WriteError.system : WriteError := .io "input/output error".toList

/-- `read_to_string`, for a file that is there and is a text. -/
def Disk.read (d : Disk) (kind : FileKind) : Option Text := (d.files.lookup kind).bind (·.content)

/-- The number of state files. -/
def Disk.stateCount (d : Disk) : Nat := d.files.keys.countP FileKind.isState

/-- The modification time of a file. A missing file has zero. -/
def Disk.currentMtime (d : Disk) (kind : FileKind) : Mtime :=
  match d.files.lookup kind with
  | none => 0
  | some file => file.mtime

/-- A file replaced as a whole. -/
def Disk.put (d : Disk) (kind : FileKind) (raw : Text) : Disk :=
  ⟨d.files.insert kind ⟨some raw, d.writes + 1⟩, d.writes + 1⟩

/-- A file is gone. -/
def Disk.remove (d : Disk) (kind : FileKind) : Disk := { d with files := d.files.erase kind }

/-! ## Reading -/

/-- The frontmatter of a text that can be parsed. -/
def frontmatter? (R : Rfc3339) (raw : Option Text) : Option Frontmatter :=
  match raw with
  | none => none
  | some raw =>
    match parse R raw with
    | .ok (fm, _) => some fm
    | .error _ => none

/-- `read_kind`. A file that is missing reads as an empty one; one that is no text, or cannot be parsed, is an error. -/
def Disk.readKind (R : Rfc3339) (d : Disk) (kind : FileKind) (now : Instant) : Option MemoryFile :=
  match d.files.lookup kind with
  | none => some ⟨kind, ⟨now, none, none, none⟩, []⟩
  | some file =>
    match file.content with
    | none => none
    | some raw =>
      match parse R raw with
      | .ok (fm, body) => some ⟨kind, fm, body⟩
      | .error _ => none

/-! ## Listing -/

/-- What can be the stem of a file's name. -/
def isStem (s : Text) : Bool := !s.isEmpty && !decide ('/' ∈ s)

/-- The files of the directory `users`. -/
def FileKind.inUsers : FileKind → Bool
  | user userId => isStem userId
  | _ => false

/-- The files of the directory `state`. -/
def FileKind.inState : FileKind → Bool
  | state slug => isStem slug
  | _ => false

/-- Files in the order of their updates, the latest first. -/
def MemoryFile.Newer (a b : MemoryFile) : Prop := b.frontmatter.updatedAt ≤ a.frontmatter.updatedAt

instance : DecidableRel MemoryFile.Newer := fun a b => Int.decLe b.frontmatter.updatedAt a.frontmatter.updatedAt

/-- The files of a directory as it is read, which is in the order of the table. One that cannot be read is an error. -/
def Disk.readDir (R : Rfc3339) (d : Disk) (sub : FileKind → Bool) (now : Instant) : Option (List MemoryFile) :=
  (d.files.keys.filter sub).mapM fun kind => d.readKind R kind now

/-- `list_in_subdir`: the files of a directory, the latest first. -/
def Disk.listInSubdir (R : Rfc3339) (d : Disk) (sub : FileKind → Bool) (now : Instant) : Option (List MemoryFile) :=
  (d.readDir R sub now).map fun files => files.insertionSort MemoryFile.Newer

/-- The files of users, the newest first. -/
def Disk.listUsers (R : Rfc3339) (d : Disk) (now : Instant) : Option (List MemoryFile) :=
  d.listInSubdir R FileKind.inUsers now

/-- The notes, the newest first. -/
def Disk.listState (R : Rfc3339) (d : Disk) (now : Instant) : Option (List MemoryFile) :=
  d.listInSubdir R FileKind.inState now

/-! ## Writing -/

/-- The operations that change a file. -/
inductive StoreOp where
  | write (kind : FileKind) (body : Text) (username displayName : Option Text)
  | writeState (kind : FileKind) (body : Text) (creator override_ : Option Text)
  | deleteState (slug : Text)
  deriving DecidableEq

/-- The file of an operation. -/
def StoreOp.kind : StoreOp → FileKind
  | write kind .. => kind
  | writeState kind .. => kind
  | deleteState slug => .state slug

/-- What is turned down before a lock is taken. -/
def StoreOp.refusal : StoreOp → Option WriteError
  | write .. => none
  | writeState (.state slug) .. => if validateStateSlug slug then none else some .invalidSlug
  | writeState .. => some (.io "write_state called on non-state kind".toList)
  | deleteState slug => if validateStateSlug slug then none else some (.io "delete_state: invalid_slug".toList)

/-- The login and the name that `write` puts into a file: on user files those it is given, unless they are empty, and else
those there are. -/
def identity (R : Rfc3339) (kind : FileKind) (username displayName prior : Option Text) : Option Text × Option Text :=
  match kind with
  | .user _ =>
    let username := nonempty username
    let displayName := nonempty (displayName.map normalizeDisplayName)
    if username.isSome && displayName.isSome then (username, displayName)
    else
      let prior := frontmatter? R prior
      (username.or (prior.bind (·.username)), displayName.or (prior.bind (·.displayName)))
  | _ => (none, none)

/-- The creator that `write_state_inner` puts into a file: an override that is not empty, else the one there is, else the one
who writes. -/
def creatorOf (R : Rfc3339) (creator override_ prior : Option Text) : Option Text :=
  match nonempty override_ with
  | some s => some s
  | none => ((frontmatter? R prior).bind (·.createdBy)).or creator

/-- The frontmatter of a write, over the text of the file there is. -/
def StoreOp.frontmatter (R : Rfc3339) (now : Instant) (prior : Option Text) : StoreOp → Frontmatter
  | write kind _ username displayName =>
    let (username, displayName) := identity R kind username displayName prior
    ⟨now, username, displayName, none⟩
  | writeState _ _ creator override_ => ⟨now, none, none, creatorOf R creator override_ prior⟩
  | deleteState _ => ⟨now, none, none, none⟩

/-- What it writes. -/
def StoreOp.body : StoreOp → Text
  | write _ body .. => body
  | writeState _ body .. => body
  | deleteState _ => []

/-- The whole file that a write is to leave behind, if it is within the cap. -/
def StoreOp.prepare (R : Rfc3339) (caps : Caps) (now : Instant) (prior : Option Text) (op : StoreOp) :
    Except WriteError Text :=
  let raw := emit R (op.frontmatter R now prior) op.body
  if caps.limitFor op.kind < Text.utf8Len raw then .error .full else .ok raw

/-- Whether a write is under the lock for new state files: a state file that could not be read is taken for new. -/
def StoreOp.isNew (prior : Option Text) : StoreOp → Bool
  | writeState .. => prior.isNone
  | _ => false

/-- The count of the state files before a new one, under the lock for them. -/
def Disk.checkCount (d : Disk) (io : Io) : Except WriteError Unit :=
  if !io.lists then .error .system else if io.caps.maxStateFiles ≤ d.stateCount then .error .stateFull else .ok ()

/-- A write goes through, or nothing is written. -/
def Disk.commit (d : Disk) (io : Io) (kind : FileKind) (raw : Text) : Disk × Except WriteError Unit :=
  if io.writes then (d.put kind raw, .ok ()) else (d, .error .system)

/-- `remove_file`. That there was no file is no error. -/
def Disk.unlink (d : Disk) (io : Io) (kind : FileKind) : Disk × Except WriteError Unit :=
  if io.writes then (d.remove kind, .ok ()) else (d, .error .system)

/-! ## Operations that nothing interrupts -/

/-- `write`, `write_state` and `delete_state` from start to end. -/
def StoreOp.run (R : Rfc3339) (d : Disk) (io : Io) (op : StoreOp) : Disk × Except WriteError Unit :=
  match op.refusal with
  | some e => (d, .error e)
  | none =>
    match op with
    | .deleteState slug => d.unlink io (.state slug)
    | op =>
      match op.prepare R io.caps io.now (d.read op.kind) with
      | .error e => (d, .error e)
      | .ok raw =>
        if op.isNew (d.read op.kind) then
          match d.checkCount io with
          | .error e => (d, .error e)
          | .ok () => d.commit io op.kind raw
        else d.commit io op.kind raw

/-- The values that the dashboard puts in the place of those of the file. -/
structure FrontmatterOverride where
  username : Option Text
  displayName : Option Text
  createdBy : Option Text
  deriving DecidableEq

/-- The write inside `write_with_guard`. -/
def guardedOp (kind : FileKind) (body : Text) (o : FrontmatterOverride) : StoreOp :=
  match kind with
  | .state slug => .writeState (.state slug) body none o.createdBy
  | .user userId => .write (.user userId) body o.username o.displayName
  | kind => .write kind body none none

/-- What a guarded write comes to. -/
inductive WriteOutcome where
  | written (newMtime : Mtime)
  | conflict (currentBody : Text) (currentMtime : Mtime)
  deriving DecidableEq

/-- The check of the token. Nothing, when the write may go on. -/
def Disk.checkToken (R : Rfc3339) (d : Disk) (io : Io) (kind : FileKind) (expected : Option Mtime) :
    Option (Except WriteError WriteOutcome) :=
  match expected with
  | none => none
  | some exp =>
    if !io.stats then some (.error .system)
    else if d.currentMtime kind ≠ exp then
      some (.ok (.conflict (((d.readKind R kind io.now).map (·.body)).getD []) (d.currentMtime kind)))
    else none

/-- `write_with_guard` from start to end. -/
def writeWithGuard (R : Rfc3339) (d : Disk) (io : Io) (kind : FileKind) (body : Text) (expected : Option Mtime)
    (o : FrontmatterOverride) : Disk × Except WriteError WriteOutcome :=
  match d.checkToken R io kind expected with
  | some outcome => (d, outcome)
  | none =>
    match (guardedOp kind body o).run R d io with
    | (d', .error e) => (d', .error e)
    | (d', .ok ()) => (d', if io.stats then .ok (.written (d'.currentMtime kind)) else .error .system)

end Twitch1337.Memory
