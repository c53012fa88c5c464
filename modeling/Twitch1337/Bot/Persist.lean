import Twitch1337.Lib.Files
import Twitch1337.Lib.Pool
import Twitch1337.Lib.Text

/-!
# Atomic saves

`util/persist.rs`. A save writes beside its path and renames. The functions take no lock: their callers hold one for the path over
the whole call (`SessionTable::persist`, `SettingsStore::apply_with`, `MemoryStore::write`). Saves and readers of the files are the
processes of a pool, whose steps are the accesses to the disk. The log is not in the code: it keeps what was put and read.
-/

namespace Twitch1337.Persist

open Files

/-! ## Paths -/

/-- A path, its last part apart. -/
structure FilePath where
  dir : Text
  name : Text
  deriving DecidableEq

/-- `Path::file_stem`: what stands before the last dot, unless that is nothing. -/
def fileStem (name : Text) : Text :=
  match name.reverse.dropWhile (· ≠ '.') with
  | [] => name
  | _ :: before => if before.isEmpty then name else before.reverse

/-- A path with another extension. -/
def FilePath.withExtension (p : FilePath) (ext : Text) : FilePath := { p with name := fileStem p.name ++ '.' :: ext }

/-- Whether a path has a file name with something before an extension. -/
def FilePath.HasExtension (p : FilePath) (ext : Text) : Prop := fileStem p.name ≠ [] ∧ p.name = fileStem p.name ++ '.' :: ext

instance (p : FilePath) (ext : Text) : Decidable (p.HasExtension ext) := inferInstanceAs (Decidable (_ ∧ _))

def ron : Text := ['r', 'o', 'n']

def md : Text := ['m', 'd']

/-- A memory file: `x.ron.md` would have the same file beside it as `x.ron`, but no name of a memory file has a second dot. -/
def FilePath.IsMemory (p : FilePath) : Prop := p.HasExtension md ∧ '.' ∉ fileStem p.name

instance (p : FilePath) : Decidable p.IsMemory := inferInstanceAs (Decidable (_ ∧ _))

/-- The paths that are saved. -/
def FilePath.Savable (p : FilePath) : Prop := p.HasExtension ron ∨ p.IsMemory

instance (p : FilePath) : Decidable p.Savable := inferInstanceAs (Decidable (_ ∨ _))

/-- The file beside a RON file. -/
def ronTmp (path : FilePath) : FilePath := path.withExtension ['r', 'o', 'n', '.', 't', 'm', 'p']

/-- The file beside a file of bytes. -/
def bytesTmp (path : FilePath) : FilePath := path.withExtension ['t', 'm', 'p']

/-! ## Calls -/

/-- Why a save fails. -/
inductive AtomicPersistError where
  | serialization
  | writeTmp (path : FilePath)
  | rename (src dst : FilePath)
  deriving DecidableEq

/-- What a call returns. -/
inductive Outcome where
  | saved (path : FilePath) (bytes : List UInt8)
  | failed (e : AtomicPersistError)
  | got (path : FilePath) (content : Option (List UInt8))
  | unreadable
  /-- The program has ended before. -/
  | killed
  deriving DecidableEq

/-- What is called. Data that cannot be serialized has no bytes. -/
inductive Request where
  | saveRon (data : Option (List UInt8)) (path : FilePath)
  | writeBytes (bytes : List UInt8) (path : FilePath)
  | read (path : FilePath)

/-- Where a call stands. -/
inductive Point where
  /-- About to take the lock and open the file beside the path, writing what is left, and about to rename. -/
  | saving (tmp path : FilePath) (bytes : List UInt8)
  | writing (tmp path : FilePath) (bytes : List UInt8) (file : Nat) (rest : List UInt8)
  | moving (tmp path : FilePath) (bytes : List UInt8)
  | opening (path : FilePath)
  | reading (path : FilePath) (file : Nat) (got : List UInt8)
  | ended (outcome : Outcome)
  deriving DecidableEq

/-- A call begins with the file beside its path, and a reader with the path. -/
def Request.start : Request → Point
  | saveRon (some bytes) path => .saving (ronTmp path) path bytes
  | saveRon none _ => .ended (.failed .serialization)
  | writeBytes bytes path => .saving (bytesTmp path) path bytes
  | read path => .opening path

/-- Each function is for the files of its kind. -/
def Request.Proper : Request → Prop
  | saveRon _ path => path.HasExtension ron
  | writeBytes _ path => path.IsMemory
  | read path => path.Savable

instance : DecidablePred Request.Proper
  | .saveRon _ path => inferInstanceAs (Decidable (path.HasExtension ron))
  | .writeBytes _ path => inferInstanceAs (Decidable path.IsMemory)
  | .read path => inferInstanceAs (Decidable path.Savable)

/-! ## The files as one sees them -/

/-- What is done to a file as a whole. -/
inductive FileOp where
  | put (path : FilePath) (bytes : List UInt8)
  | get (path : FilePath)
  deriving DecidableEq

/-- What is under each path, as an object on which a save or a read is one operation. -/
def fileStep (files : FilePath → Option (List UInt8)) :
    FileOp → (FilePath → Option (List UInt8)) × Option (List UInt8)
  | .put path bytes => (Function.update files path (some bytes), none)
  | .get path => (files, files path)

/-- The disk, and the log of what was done to files as a whole. -/
structure World where
  disk : Disk FilePath UInt8
  log : List (Nat × FileOp × Option (List UInt8))

/-- What the operating system does to an access: whether it lets it through, and after how many more bytes it stops. -/
structure Io where
  ok : Bool
  more : Nat

/-- The step of a process. To move a file to its path and to return is one step: the program does not end between them. -/
def World.next (g : World) (p : Nat) (s : Point) (io : Io) : World × Point :=
  match s with
  | .saving tmp path bytes =>
    if io.ok then
      let (disk, file) := g.disk.create tmp
      ({ g with disk }, .writing tmp path bytes file bytes)
    else (g, .ended (.failed (.writeTmp tmp)))
  | .writing tmp path bytes file rest =>
    if rest.isEmpty then (g, .moving tmp path bytes)
    else if io.ok then
      ({ g with disk := g.disk.append file (rest.take (io.more + 1)) }, .writing tmp path bytes file (rest.drop (io.more + 1)))
    else (g, .ended (.failed (.writeTmp tmp)))
  | .moving tmp path bytes =>
    if io.ok && (g.disk.names tmp).isSome then
      (⟨g.disk.rename tmp path, g.log ++ [(p, .put path bytes, none)]⟩, .ended (.saved path bytes))
    else (g, .ended (.failed (.rename tmp path)))
  | .opening path =>
    match g.disk.names path with
    | none => ({ g with log := g.log ++ [(p, .get path, none)] }, .ended (.got path none))
    | some file =>
      if io.ok then ({ g with log := g.log ++ [(p, .get path, some (g.disk.bytes file))] }, .reading path file [])
      else (g, .ended .unreadable)
  | .reading path file got =>
    if io.ok then
      let chunk := ((g.disk.bytes file).drop got.length).take (io.more + 1)
      if chunk.isEmpty then (g, .ended (.got path (some got))) else (g, .reading path file (got ++ chunk))
    else (g, .ended .unreadable)
  | .ended outcome => (g, .ended outcome)

def Point.isEnded : Point → Bool
  | ended _ => true
  | _ => false

/-- The calls, each under the lock of its path when they are guarded. -/
def saves (guarded : Bool) : Pool.Program World Point Io Request FilePath where
  start := Request.start
  holds
    | .writing _ path _ _ _ => if guarded then [path] else []
    | .moving _ path _ => if guarded then [path] else []
    | _ => []
  needs
    | .saving _ path _ => if guarded then some path else none
    | _ => none
  done := Point.isEnded
  next := World.next

/-- What happens: something of the pool, or the end of the program and another start of it. -/
inductive SaveEvent where
  | pool (e : Pool.Event Io Request)
  | crash

/-- The end of the program ends every call that has not returned. -/
def Point.kill : Point → Point
  | ended outcome => .ended outcome
  | _ => .ended .killed

/-- One event. -/
def saveStep (guarded : Bool) (w : World × List Point) : SaveEvent → Option (World × List Point)
  | .pool e => (saves guarded).step w e
  | .crash => some (w.1, w.2.map Point.kill)

/-- Every call is of the function for its file. -/
def SaveEvent.Proper : SaveEvent → Prop
  | pool (.spawn request) => request.Proper
  | _ => True

instance : DecidablePred SaveEvent.Proper
  | .pool (.spawn request) => inferInstanceAs (Decidable request.Proper)
  | .pool (.step _ _) => .isTrue trivial
  | .crash => .isTrue trivial

/-- It starts with a disk and an empty log. -/
def saveStart (disk : Disk FilePath UInt8) : World × List Point := (⟨disk, []⟩, [])

end Twitch1337.Persist
