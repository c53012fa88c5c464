import Twitch1337.Lemmas.Settings
import Twitch1337.Settings.Leaves

/-!
# Reading back what was saved

What `settings.ron` is read as differs from what was saved in the sizes of media alone: the leaves of the other kinds come back as
they were, the settings are the same up to the sizes, and no check of theirs looks at a size.
-/

namespace Twitch1337.Dashboard

variable {L : Libs} {channel : String} {a b c : Settings} {o : SettingsOverrides}

/-! ## Overrides -/

/-- Overrides that are read back as they were saved. -/
def SettingsOverrides.ReadsBack (L : Libs) (o : SettingsOverrides) : Prop := o.stored L = o

instance (L : Libs) (o : SettingsOverrides) : Decidable (o.ReadsBack L) := inferInstanceAs (Decidable (o.stored L = o))

def Kind.stored (L : Libs) : (k : Kind) → k.Val → k.Val
  | .bytes, v => L.storedSize v
  | _, v => v

/-- What the value of a leaf is read back as. -/
def Leaf.stored (L : Libs) (l : Leaf) (v : l.Val) : l.Val := l.kind.stored L v

theorem stored_of_kind {l : Leaf} (h : l.kind ≠ .bytes) (v : l.Val) : l.stored L v = v := by
  unfold Leaf.stored Kind.stored
  cases l <;> first
    | rfl
    | exact absurd rfl h

theorem get_stored (L : Libs) (o : SettingsOverrides) (l : Leaf) : l.get (o.stored L) = (l.get o).map (l.stored L) := by
  by_cases hl : l.kind = .bytes
  · cases l <;> first
      | rfl
      | cases hl
  · have hmap : (l.get o).map (l.stored L) = l.get o := by
      cases l.get o with
      | none => rfl
      | some v => rw [Option.map_some, stored_of_kind hl]
    rw [hmap]
    cases l <;> first
      | rfl
      | exact absurd rfl hl

/-- Overrides are read back as they are when each of their leaves is. -/
theorem readsBack_iff : o.ReadsBack L ↔ ∀ (l : Leaf) (v : l.Val), l.get o = some v → l.stored L v = v := by
  constructor
  · intro h l v hv
    have hget := get_stored L o l
    rw [h, hv, Option.map_some] at hget
    exact (Option.some.inj hget).symm
  · intro h
    refine SettingsOverrides.ext_get rfl fun l => ?_
    rw [get_stored]
    cases hv : l.get o with
    | none => rfl
    | some v => rw [Option.map_some, h l v hv]

/-! ## Settings -/

/-- Settings with the default sizes of media. -/
def Settings.unsized (s : Settings) : Settings :=
  { s with ai := { s.ai with media := { model := s.ai.media.model, timeout := s.ai.media.timeout } } }

/-- The same settings, but for the sizes of media. -/
def Settings.SameUpToSizes (a b : Settings) : Prop := a.unsized = b.unsized

theorem Settings.SameUpToSizes.symm (h : a.SameUpToSizes b) : b.SameUpToSizes a := Eq.symm h

theorem Settings.SameUpToSizes.trans (h : a.SameUpToSizes b) (h' : b.SameUpToSizes c) : a.SameUpToSizes c := Eq.trans h h'

theorem Settings.SameUpToSizes.schedules (h : a.SameUpToSizes b) : a.schedules = b.schedules := by
  have hschedules : a.unsized.schedules = b.unsized.schedules := by rw [h]
  exact hschedules

theorem read_unsized {l : Leaf} (h : l.kind ≠ .bytes) (s : Settings) : l.read s.unsized = l.read s := by
  cases l <;> first
    | rfl
    | exact absurd rfl h

theorem Settings.SameUpToSizes.read (h : a.SameUpToSizes b) {l : Leaf} (hl : l.kind ≠ .bytes) : l.read a = l.read b := by
  have hsame : a.unsized = b.unsized := h
  rw [← read_unsized hl a, hsame, read_unsized hl]

/-- A size is what the overrides set it to, or the default. -/
theorem read_size {l : Leaf} (h : l.kind = .bytes) (o : SettingsOverrides) :
    l.read (.resolve .compiledDefaults o) = (l.get o).or (l.read .compiledDefaults) := by
  have hor : ∀ x : Option ByteSize, ∀ y : ByteSize, some (x.getD y) = x.or (some y) := by
    intro x y
    cases x <;> rfl
  cases l <;> first
    | exact hor _ _
    | cases h

/-- What is saved and what is read resolve to the same settings up to the sizes. -/
theorem resolve_stored (L : Libs) (o : SettingsOverrides) :
    (Settings.resolve .compiledDefaults (o.stored L)).SameUpToSizes (.resolve .compiledDefaults o) := rfl

theorem Settings.valid_unsized : a.unsized.Valid L channel ↔ a.Valid L channel :=
  ⟨fun h => { h with }, fun h => { h with }⟩

/-- No check looks at a size. -/
theorem Settings.SameUpToSizes.valid (h : a.SameUpToSizes b) (hvalid : a.Valid L channel) : b.Valid L channel := by
  rw [← Settings.valid_unsized] at hvalid ⊢
  rwa [← h]

end Twitch1337.Dashboard
