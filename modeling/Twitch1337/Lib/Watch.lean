import Mathlib.Data.Option.Basic

/-!
# Watched values

A published value and the one who watches it. A publisher stores a new value, and then notifies those who wait. A notification
wakes the future of a waiter that exists at that moment, and no other. What the watcher knows is fresh as long as no
publication is under way and no wakeup is pending. Here is what keeps it so.
-/

namespace Watch

variable {α β : Type*}

/-- A value, whether a publication of it has yet to notify, and the future of the watcher: none, or one that is woken or not. -/
structure Cell (α : Type*) where
  value : α
  publishing : Bool
  woken : Option Bool
  deriving DecidableEq

/-- The store of a new value. A publication waits for the one before. -/
def Cell.store (c : Cell α) (value : α) : Option (Cell α) :=
  if c.publishing then none else some { c with value := value, publishing := true }

/-- The notification that ends a publication. -/
def Cell.notifyWaiters (c : Cell α) : Option (Cell α) :=
  if c.publishing then some { c with publishing := false, woken := c.woken.map fun _ => true } else none

/-- The watcher creates its next future. -/
def Cell.arm (c : Cell α) : Cell α := { c with woken := some false }

/-- The watcher takes the wakeup of its future, when there is one. -/
def Cell.wake (c : Cell α) : Option (Cell α) :=
  if c.woken = some true then some { c with woken := none } else none

/-- What the watcher knows is what is published, unless a notification is on its way to it. -/
def Fresh (view : α → β) (c : Cell α) (known : Option β) : Prop :=
  c.publishing = false → c.woken ≠ some true → ∀ k ∈ known, k = view c.value

variable {view : α → β} {c c' : Cell α} {known : Option β}

/-! ## Futures -/

/-- A store leaves the future of the watcher as it is. -/
theorem Cell.woken_store {value : α} (h : c.store value = some c') : c'.woken = c.woken := by
  unfold Cell.store at h
  split at h
  · cases h
  · rw [← Option.some.inj h]

/-- A notification creates no future. -/
theorem Cell.woken_notify (h : c.notifyWaiters = some c') (hw : c.woken = Option.none) : c'.woken = Option.none := by
  unfold Cell.notifyWaiters at h
  split at h
  · rw [← Option.some.inj h, hw]
    rfl
  · cases h

/-- A wakeup uses up the future. -/
theorem Cell.woken_wake (h : c.wake = some c') : c'.woken = Option.none := by
  unfold Cell.wake at h
  split at h
  · rw [← Option.some.inj h]
  · cases h

/-! ## Freshness -/

/-- Nothing has to be fresh when nothing is known. -/
theorem Fresh.none : Fresh view c none := fun _ _ _ hk => by cases hk

/-- What is read is fresh. -/
theorem Fresh.load : Fresh view c (some (view c.value)) := fun _ _ _ hk => (Option.mem_some.mp hk).symm

/-- A store needs no care, for a notification follows. -/
theorem Fresh.store {value : α} (h : c.store value = some c') : Fresh view c' known := by
  unfold Cell.store at h
  split at h
  · cases h
  · obtain rfl := Option.some.inj h
    intro hp
    cases hp

/-- A notification wakes the future there is. When there is none, the watcher has to know what is published already. -/
theorem Fresh.notify (h : c.notifyWaiters = some c') (hlost : c.woken = Option.none → ∀ k ∈ known, k = view c.value) :
    Fresh view c' known := by
  unfold Cell.notifyWaiters at h
  split at h
  · obtain rfl := Option.some.inj h
    intro _ hw
    cases hc : c.woken with
    | none => exact hlost hc
    | some b => exact absurd (by rw [hc]; rfl) hw
  · cases h

/-- A new future is as good as the one it replaces, when that was not woken. -/
theorem Fresh.arm (h : Fresh view c known) (hw : c.woken ≠ some true) : Fresh view c.arm known := fun hp _ => h hp hw

/-- A cell is quiet when no publication is under way, and the watcher waits with a future that is not woken. -/
structure Cell.Quiet (c : Cell α) : Prop where
  notPublishing : c.publishing = false
  armed : c.woken = some false

/-- What the watcher of a quiet cell knows is what is published. -/
theorem Fresh.eq_of_quiet {k : β} (h : Fresh view c (some k)) (hq : c.Quiet) : k = view c.value :=
  h hq.notPublishing (by rw [hq.armed]; decide) k rfl

end Watch
