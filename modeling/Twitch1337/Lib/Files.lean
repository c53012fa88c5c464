import Mathlib.Data.List.Basic
import Mathlib.Logic.Function.Basic

/-!
# Files

A disk binds names to files, and a file that is open stays what it is when its name is taken away or bound to another one. Here
are what the operating system does for a program that creates, appends to, renames and opens files, and the disks on which no
two names are bound to one file.
-/

namespace Files

/-- The names, the bytes of each file, and the number of the next file. -/
structure Disk (ν β : Type*) where
  names : ν → Option Nat
  bytes : Nat → List β
  fresh : Nat

namespace Disk

variable {ν β : Type*}

/-- The bytes under a name. -/
def content (d : Disk ν β) (n : ν) : Option (List β) := (d.names n).map d.bytes

/-- Writes at the end of an open file. -/
def append (d : Disk ν β) (i : Nat) (bs : List β) : Disk ν β :=
  { d with bytes := Function.update d.bytes i (d.bytes i ++ bs) }

/-- No two names are bound to one file, and the next file is not there yet. -/
structure Sound (d : Disk ν β) : Prop where
  inj : ∀ n m i, d.names n = some i → d.names m = some i → n = m
  fresh : ∀ n i, d.names n = some i → i < d.fresh

variable {d : Disk ν β}

theorem Sound.append (h : d.Sound) (i : Nat) (bs : List β) : (d.append i bs).Sound := ⟨h.inj, h.fresh⟩

@[simp] theorem names_append (i : Nat) (bs : List β) (n : ν) : (d.append i bs).names n = d.names n := rfl

@[simp] theorem fresh_append (i : Nat) (bs : List β) : (d.append i bs).fresh = d.fresh := rfl

@[simp] theorem bytes_append_self (i : Nat) (bs : List β) : (d.append i bs).bytes i = d.bytes i ++ bs :=
  Function.update_self _ _ _

theorem bytes_append_of_ne {i j : Nat} (hj : j ≠ i) (bs : List β) : (d.append i bs).bytes j = d.bytes j :=
  Function.update_of_ne hj _ _

variable [DecidableEq ν]

/-- Opens a file for writing: the one of that name, without its bytes, or a new one. -/
def create (d : Disk ν β) (n : ν) : Disk ν β × Nat :=
  match d.names n with
  | some i => ({ d with bytes := Function.update d.bytes i [] }, i)
  | none => (⟨Function.update d.names n (some d.fresh), Function.update d.bytes d.fresh [], d.fresh + 1⟩, d.fresh)

/-- Binds a name to the file of another name, which goes. -/
def rename (d : Disk ν β) (src dst : ν) : Disk ν β :=
  { d with names := Function.update (Function.update d.names dst (d.names src)) src none }

/-- What creating a file does: it has no bytes, no other file changes its bytes, and no other name its file. -/
structure Created (d : Disk ν β) (n : ν) (d' : Disk ν β) (i : Nat) : Prop where
  sound : d'.Sound
  bound : d'.names n = some i
  empty : d'.bytes i = []
  bytes : ∀ j, j ≠ i → d'.bytes j = d.bytes j
  names : ∀ m, m ≠ n → d'.names m = d.names m
  source : d.names n = some i ∨ (i = d.fresh ∧ d.names n = none)
  later : d.fresh ≤ d'.fresh

theorem Sound.created (h : d.Sound) (n : ν) : Created d n (d.create n).1 (d.create n).2 := by
  unfold create
  cases hn : d.names n with
  | some i =>
    refine ⟨⟨h.inj, h.fresh⟩, hn, by simp, fun j hj => ?_, fun m _ => rfl, .inl hn, Nat.le_refl _⟩
    exact Function.update_of_ne hj _ _
  | none =>
    refine ⟨⟨fun a b i ha hb => ?_, fun a i ha => ?_⟩, by simp, by simp, fun j hj => ?_, fun m hm => ?_, .inr ⟨rfl, hn⟩,
      Nat.le_succ _⟩
    · -- the new file has one name, the others keep theirs
      simp only [Function.update_apply] at ha hb
      split at ha <;> split at hb
      · rename_i hna hnb
        rw [hna, hnb]
      · cases ha
        exact absurd (h.fresh b _ hb) (Nat.lt_irrefl _)
      · cases hb
        exact absurd (h.fresh a _ ha) (Nat.lt_irrefl _)
      · exact h.inj a b i ha hb
    · simp only [Function.update_apply] at ha
      split at ha
      · cases ha
        exact Nat.lt_succ_self _
      · exact Nat.lt_succ_of_lt (h.fresh a i ha)
    · exact Function.update_of_ne hj _ _
    · exact Function.update_of_ne hm _ _

@[simp] theorem bytes_rename (src dst : ν) : (d.rename src dst).bytes = d.bytes := rfl

@[simp] theorem fresh_rename (src dst : ν) : (d.rename src dst).fresh = d.fresh := rfl

theorem names_rename (src dst n : ν) :
    (d.rename src dst).names n = if n = src then none else if n = dst then d.names src else d.names n := by
  simp only [rename, Function.update_apply]

theorem Sound.rename (h : d.Sound) (src dst : ν) : (d.rename src dst).Sound := by
  refine ⟨fun a b i ha hb => ?_, fun a i ha => ?_⟩
  · simp only [names_rename] at ha hb
    split at ha
    · cases ha
    split at hb
    · cases hb
    rename_i hasrc hbsrc
    split at ha <;> split at hb
    · rename_i hadst hbdst
      rw [hadst, hbdst]
    · exact absurd (h.inj b src i hb ha) hbsrc
    · exact absurd (h.inj a src i ha hb) hasrc
    · exact h.inj a b i ha hb
  · simp only [names_rename] at ha
    split at ha
    · cases ha
    split at ha
    · exact h.fresh src i ha
    · exact h.fresh a i ha

end Disk

end Files
