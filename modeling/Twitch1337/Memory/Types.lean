import Twitch1337.Lib.Chrono
import Twitch1337.Lib.Text

/-!
# The files of the memory

`ai/memory/types.rs`.
-/

namespace Twitch1337.Memory

open Chrono

/-- The role of a speaker. `dreamer` is the model of the ritual, never a user. -/
inductive Role where
  | regular | moderator | broadcaster | dreamer
  deriving DecidableEq

/-- One file of the memory. -/
inductive FileKind where
  | soul
  | lore
  | user (userId : Text)
  | state (slug : Text)
  deriving DecidableEq

def FileKind.relativePath : FileKind → Text
  | soul => "SOUL.md".toList
  | lore => "LORE.md".toList
  | user userId => "users/".toList ++ userId ++ ".md".toList
  | state slug => "state/".toList ++ slug ++ ".md".toList

def FileKind.isState : FileKind → Bool
  | state _ => true
  | _ => false

structure Frontmatter where
  updatedAt : Instant
  /-- The login. Set on user files. -/
  username : Option Text
  /-- The name with its case. Set on user files. -/
  displayName : Option Text
  /-- The user who created the file. Set on state files. -/
  createdBy : Option Text
  deriving DecidableEq

structure MemoryFile where
  kind : FileKind
  frontmatter : Frontmatter
  body : Text
  deriving DecidableEq

/-- Byte caps of whole files, frontmatter included, and how many state files there may be. -/
structure Caps where
  soulBytes : Nat
  loreBytes : Nat
  userBytes : Nat
  stateBytes : Nat
  maxStateFiles : Nat
  deriving DecidableEq

def Caps.default : Caps := ⟨4096, 12288, 4096, 2048, 16⟩

def Caps.limitFor (caps : Caps) : FileKind → Nat
  | .soul => caps.soulBytes
  | .lore => caps.loreBytes
  | .user _ => caps.userBytes
  | .state _ => caps.stateBytes

/-! ## Values that are not empty -/

/-- A value that is not empty. -/
def nonempty (v : Option Text) : Option Text := v.filter fun s => s ≠ []

@[simp] theorem nonempty_none : nonempty none = none := rfl

@[simp] theorem nonempty_nil : nonempty (some []) = none := rfl

theorem nonempty_some {v : Text} (h : v ≠ []) : nonempty (some v) = some v := by
  cases v with
  | nil => exact absurd rfl h
  | cons c v => rfl

theorem mem_nonempty {v : Text} {o : Option Text} : v ∈ nonempty o ↔ o = some v ∧ v ≠ [] := by
  unfold nonempty
  rw [Option.mem_def, Option.filter_eq_some_iff]
  simp

end Twitch1337.Memory
