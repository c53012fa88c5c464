import Twitch1337.Settings.Leaves

/-!
# Patches

A patch sets the leaves that it names, and leaves the others as they are: in the overrides, and in the settings that these
resolve to, but for the fields of a card that the patch turns on or off.
-/

namespace Twitch1337.Dashboard

open Schedules

/-! ## Merge -/

/-- What a patch sets wins, and the rest stays. -/
theorem get_mergeInto (l : Leaf) (into patch : SettingsOverrides) :
    l.get (mergeInto into patch) = (l.get patch).or (l.get into) := by
  cases l <;> rfl

theorem get_empty (l : Leaf) : l.get {} = none := by
  cases l <;> rfl

theorem mergeInto_empty (into : SettingsOverrides) : mergeInto into {} = into := by
  refine SettingsOverrides.ext_get rfl fun l => ?_
  rw [get_mergeInto, get_empty, Option.none_or]

theorem mergeInto_self (into : SettingsOverrides) : mergeInto into into = into := by
  refine SettingsOverrides.ext_get rfl fun l => ?_
  rw [get_mergeInto, Option.or_self]

theorem mergeInto_assoc (into patch patch' : SettingsOverrides) :
    mergeInto (mergeInto into patch) patch' = mergeInto into (mergeInto patch patch') := by
  refine SettingsOverrides.ext_get rfl fun l => ?_
  rw [get_mergeInto, get_mergeInto, get_mergeInto, get_mergeInto, Option.or_assoc]

/-! ## Resolve -/

/-- A leaf that a patch does not set is what it was. -/
theorem get_mergeInto_of_none {l : Leaf} {patch : SettingsOverrides} (h : l.get patch = none) (into : SettingsOverrides) :
    l.get (mergeInto into patch) = l.get into := by
  rw [get_mergeInto, h, Option.none_or]

/-- A setting changes only where the patch sets it, or turns its card on or off. -/
theorem named_of_read_ne {defaults : Settings} {into patch : SettingsOverrides} {l : Leaf}
    (h : l.read (.resolve defaults (mergeInto into patch)) ≠ l.read (.resolve defaults into)) :
    (l.get patch).isSome = true ∨ ∃ card, l.card = some card ∧ (card.toggle.get patch).isSome = true := by
  by_contra hnot
  rw [not_or, not_exists, Bool.not_eq_true, Option.isSome_eq_false_iff, Option.isNone_iff_eq_none] at hnot
  obtain ⟨hl, hcards⟩ := hnot
  refine h (read_resolve_congr defaults (get_mergeInto_of_none hl into) fun card hcard => ?_)
  refine get_mergeInto_of_none ?_ into
  cases htoggle : card.toggle.get patch with
  | none => rfl
  | some on => exact absurd ⟨hcard, by rw [htoggle]; rfl⟩ (hcards card)

/-- A patch that sets leaves to what they are changes nothing. -/
theorem resolve_same {o patch : SettingsOverrides} (defaults : Settings)
    (h : ∀ l : Leaf, l.shown (.resolve defaults o) = true → l.get patch = none ∨ l.get patch = l.read (.resolve defaults o)) :
    Settings.resolve defaults (mergeInto o patch) = .resolve defaults o := by
  have hread : ∀ l : Leaf, l.shown (.resolve defaults o) = true →
      ((l.get (mergeInto o patch)).or (l.read defaults)).or l.base = l.read (.resolve defaults o) := by
    intro l hshown
    have hnow := read_resolve defaults o l
    rw [if_pos hshown] at hnow
    rw [get_mergeInto]
    rcases h l hshown with hl | hl
    · rw [hl, Option.none_or, hnow]
    · obtain ⟨v, hv⟩ := Option.isSome_iff_exists.mp ((isSome_read (.resolve defaults o) l).trans hshown)
      rw [hl, hv, Option.some_or, Option.some_or, Option.some_or]
  have hcards : ∀ card : Card, card.isOn (.resolve defaults (mergeInto o patch)) = card.isOn (.resolve defaults o) := by
    intro card
    refine isOn_eq_of_read ?_
    rw [read_resolve, if_pos (shown_toggle _ card)]
    exact hread card.toggle (shown_toggle _ card)
  refine Settings.ext_read rfl fun l => ?_
  rw [read_resolve, shown_congr hcards]
  split
  · rename_i hshown
    exact hread l hshown
  · rename_i hshown
    rw [read_resolve, if_neg hshown]

/-- A patch sets the leaves it names, in the overrides and in the settings. -/
theorem patch_touches_named (into patch : SettingsOverrides) :
    (∀ l : Leaf, l.get (mergeInto into patch) = (l.get patch).or (l.get into)) ∧
    mergeInto into {} = into ∧
    mergeInto into into = into ∧ mergeInto (mergeInto into patch) patch = mergeInto into patch ∧
    (∀ patch' : SettingsOverrides, mergeInto (mergeInto into patch) patch' = mergeInto into (mergeInto patch patch')) ∧
    ∀ (defaults : Settings) (l : Leaf),
      l.read (.resolve defaults (mergeInto into patch)) ≠ l.read (.resolve defaults into) →
        (l.get patch).isSome = true ∨ ∃ card, l.card = some card ∧ (card.toggle.get patch).isSome = true := by
  refine ⟨fun l => get_mergeInto l into patch, mergeInto_empty into, mergeInto_self into, ?_, mergeInto_assoc into patch,
    fun defaults l => named_of_read_ne⟩
  rw [mergeInto_assoc, mergeInto_self]

end Twitch1337.Dashboard
