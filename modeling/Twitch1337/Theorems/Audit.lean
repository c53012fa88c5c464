import Twitch1337.Lemmas.Settings
import Twitch1337.Lib.Decimal
import Twitch1337.Settings.Encoding

/-!
# What a diff shows

The diff of two settings names every leaf and every schedule that differs, under keys of its own. It can be read, and applied to
the settings before, where every number of bytes that changes has a text of its own and every new threshold is finite.
-/

namespace Twitch1337.Dashboard

open Schedules

variable {S : SizeText} {prior next : Settings}

/-! ## Keys -/

/-- Where each element gives one change at most, the keys of all changes are in the order of the elements. -/
theorem sublist_keys {α : Type} {f : α → List AuditChange} {key : α → String}
    (h : ∀ a, (f a).map (·.key) = [] ∨ (f a).map (·.key) = [key a]) (l : List α) :
    ((l.flatMap f).map (·.key)).Sublist (l.map key) := by
  induction l with
  | nil => exact .slnil
  | cons a l ih =>
    rw [List.flatMap_cons, List.map_append, List.map_cons]
    rcases h a with ha | ha
    · rw [ha]
      exact ih.cons (key a)
    · rw [ha]
      exact ih.cons_cons (key a)

/-- A leaf has its own key, at most once. -/
theorem keys_change (l : Leaf) : (l.change prior next).map (·.key) = [] ∨ (l.change prior next).map (·.key) = [l.key] := by
  unfold Leaf.change
  split
  · split
    · exact .inr rfl
    · exact .inl rfl
  · exact .inl rfl

/-- The keys of a diff are distinct: they are those of leaves, and then those of schedules. -/
theorem nodup_diffChanges : ((diffChanges prior next).map (·.key)).Nodup := by
  rw [diffChanges_eq, List.map_append, List.nodup_append]
  refine ⟨nodup_keys.sublist (sublist_keys keys_change _), ?_, ?_⟩
  · refine (List.Nodup.map (fun _ _ => scheduleKey_inj) ?_).sublist (sublist_keys (fun name => ?_) _)
    · exact (List.mergeSort_perm _ _).nodup_iff.mpr (List.nodup_dedup _)
    · unfold cmp
      split
      · exact .inr rfl
      · exact .inl rfl
  · intro key hkey key' hkey' heq
    obtain ⟨l, hl, rfl⟩ := List.mem_map.mp ((sublist_keys keys_change _).subset hkey)
    obtain ⟨c, hc, rfl⟩ := List.mem_map.mp hkey'
    obtain ⟨name, -, rfl⟩ := mem_diffSchedules.mp hc
    exact key_ne_scheduleKey hl name heq

/-! ## What is listed -/

/-- What is listed under a key can be looked up there, since keys differ. -/
theorem newValue_of_mem {c : AuditChange} (hc : c ∈ diffChanges prior next) :
    newValue S (diffChanges prior next) c.key = some (c.new.encode S) := by
  rw [newValue, (Keyed.find?_eq_some_iff nodup_diffChanges).mpr ⟨hc, rfl⟩, Option.map_some]

/-- Nothing is found under a key that no change has. -/
theorem newValue_eq_none {key : String} (h : ∀ c ∈ diffChanges prior next, c.key ≠ key) :
    newValue S (diffChanges prior next) key = none := by
  rw [newValue, List.find?_eq_none.mpr (by simpa using h), Option.map_none]

/-- A change is one of a leaf, or one of a schedule. -/
theorem mem_diffChanges {c : AuditChange} : c ∈ diffChanges prior next ↔
    (∃ l ∈ Leaf.all, c ∈ l.change prior next) ∨ c ∈ diffSchedules prior.schedules next.schedules := by
  rw [diffChanges_eq, List.mem_append, List.mem_flatMap]

/-- A leaf that has changed is found with its new value. -/
theorem newValue_changed {l : Leaf} (hl : l ∈ Leaf.all) {v w : l.Val} (hv : l.read prior = some v)
    (hw : l.read next = some w) (hne : v ≠ w) :
    newValue S (diffChanges prior next) l.key = some ((l.value next w).encode S) := by
  have hmem : (⟨l.key, l.value prior v, l.value next w⟩ : AuditChange) ∈ diffChanges prior next :=
    mem_diffChanges.mpr (.inl ⟨l, hl, mem_change.mpr ⟨v, w, hv, hw, hne, rfl⟩⟩)
  have hnew : newValue S _ _ = _ := newValue_of_mem hmem
  exact hnew

/-- One that has not is not found. -/
theorem newValue_unchanged {l : Leaf} (hl : l ∈ Leaf.all) (h : l.change prior next = []) :
    newValue S (diffChanges prior next) l.key = none := by
  refine newValue_eq_none fun c hc hkey => ?_
  rcases mem_diffChanges.mp hc with ⟨l', hl', hmem⟩ | hmem
  · have hkey' : c.key = l'.key := by
      obtain ⟨v, w, -, -, -, rfl⟩ := mem_change.mp hmem
      rfl
    rw [key_inj hl' hl (hkey'.symm.trans hkey), h] at hmem
    exact absurd hmem List.not_mem_nil
  · obtain ⟨name, -, rfl⟩ := mem_diffSchedules.mp hmem
    exact key_ne_scheduleKey hl name hkey.symm

theorem toggle_mem_all (card : Card) : card.toggle ∈ Leaf.all := by
  cases card <;> decide

/-- A card is listed when it is turned on or off. -/
theorem newValue_card (card : Card) : newValue S (diffChanges prior next) card.toggle.key =
    if card.isOn prior = card.isOn next then none else some ((card.value next).encode S) := by
  split
  · rename_i h
    refine newValue_unchanged (toggle_mem_all card) (change_eq_nil_iff.mpr fun v w hv hw => ?_)
    cases card <;> exact (Option.some.inj hv).symm.trans (h.trans (Option.some.inj hw))
  · rename_i h
    cases card with
    | prefill => exact newValue_changed (toggle_mem_all .prefill) rfl rfl h
    | web => exact newValue_changed (toggle_mem_all .web) rfl rfl h
    | emotes => exact newValue_changed (toggle_mem_all .emotes) rfl rfl h

/-- A schedule is found when it has changed, with what it has become. -/
theorem newValue_schedule (name : String) : newValue S (diffChanges prior next) (scheduleKey name) =
    if byName prior.schedules name = byName next.schedules name then none
    else some ((Value.schedule (byName next.schedules name)).encode S) := by
  split
  · rename_i h
    refine newValue_eq_none fun c hc hkey => ?_
    rcases mem_diffChanges.mp hc with ⟨l, hl, hmem⟩ | hmem
    · obtain ⟨v, w, -, -, -, rfl⟩ := mem_change.mp hmem
      exact key_ne_scheduleKey hl name hkey
    · obtain ⟨name', hne, rfl⟩ := mem_diffSchedules.mp hmem
      rw [scheduleKey_inj hkey] at hne
      exact hne h
  · rename_i h
    have hmem : (⟨scheduleKey name, .schedule (byName prior.schedules name), .schedule (byName next.schedules name)⟩ :
        AuditChange) ∈ diffChanges prior next :=
      mem_diffChanges.mpr (.inr (mem_diffSchedules.mpr ⟨name, h, rfl⟩))
    have hnew : newValue S _ _ = _ := newValue_of_mem hmem
    exact hnew

/-! ## What can be read -/

/-- The leaf of a change is legible: its values are written differently, and the new one is read back. -/
def LegibleLeaf (S : SizeText) (l : Leaf) (v w : l.Val) : Prop :=
  (l.kind.value v).encode S ≠ (l.kind.value w).encode S ∧ l.kind.decode S ((l.kind.value w).encode S) = some w

/-- A value of a kind that is neither rounded nor a list of schedules is read back from its JSON. -/
theorem decode_value {k : Kind} (hbytes : k ≠ .bytes) (hfloat : k ≠ .float) (hschedules : k ≠ .schedules) (v : k.Val) :
    k.decode S ((k.value v).encode S) = some v := by
  cases k with
  | bytes => exact absurd rfl hbytes
  | float => exact absurd rfl hfloat
  | schedules => exact absurd rfl hschedules
  | u64 => exact congrArg some (UInt64.ofNat_toNat (x := v))
  | u32 => exact congrArg some (UInt32.ofNat_toNat (x := v))
  | optText => cases v <;> rfl
  | backend => cases v <;> rfl
  | bool => rfl
  | text => rfl
  | texts => rfl

/-- Of such a kind every change is legible. -/
theorem legible_of_exact {l : Leaf} (hbytes : l.kind ≠ .bytes) (hfloat : l.kind ≠ .float) (hschedules : l.kind ≠ .schedules)
    {v w : l.Val} (hne : v ≠ w) : LegibleLeaf S l v w := by
  refine ⟨fun heq => hne ?_, decode_value hbytes hfloat hschedules w⟩
  have hv := decode_value (S := S) hbytes hfloat hschedules v
  rw [heq, decode_value hbytes hfloat hschedules w] at hv
  exact (Option.some.inj hv).symm

/-- The sizes of media. -/
def mediaSizes : List (AiMedia → ByteSize) :=
  [(·.maxImageSize), (·.maxPdfSize), (·.maxAudioSize), (·.maxVideoSize), (·.maxTextSize)]

/-- Where a size changes, its texts differ and the new one is read back, and where a threshold is new, it is finite. -/
structure Legible (S : SizeText) (prior next : Settings) : Prop where
  sizes : ∀ size ∈ mediaSizes, size prior.ai.media ≠ size next.ai.media →
    S.display (size prior.ai.media).bytes ≠ S.display (size next.ai.media).bytes ∧
    S.parse (S.display (size next.ai.media).bytes) = some (size next.ai.media).bytes
  threshold : ∀ p, next.ai.prefill = some p → prior.ai.prefill.map (·.threshold) ≠ some p.threshold →
    p.threshold.isFinite = true

/-- Of a size, a change is legible when the two texts differ and the new one is read back as the new size. -/
theorem legible_bytes {v w : ByteSize} :
    ((Value.bytes v).encode S ≠ (Value.bytes w).encode S ∧ Kind.decode S .bytes ((Value.bytes w).encode S) = some w) ↔
      S.display v.bytes ≠ S.display w.bytes ∧ S.parse (S.display w.bytes) = some w.bytes := by
  refine and_congr (not_congr (Json.string.injEq _ _).to_iff) ?_
  have hdecode : Kind.decode S .bytes ((Value.bytes w).encode S) = (S.parse (S.display w.bytes)).map .mk := rfl
  rw [hdecode]
  constructor
  · intro h
    obtain ⟨n, hn, rfl⟩ := Option.map_eq_some_iff.mp h
    exact hn
  · intro h
    rw [h]
    rfl

/-- Of a number, when the new one is finite. -/
theorem legible_float {v w : F64} (hne : v ≠ w) :
    ((Value.float v).encode S ≠ (Value.float w).encode S ∧ Kind.decode S .float ((Value.float w).encode S) = some w) ↔
      w.isFinite = true := by
  by_cases hw : w.isFinite = true
  · have hdecode : Kind.decode S .float ((Value.float w).encode S) = some w := by
      rw [Value.encode, finite, if_pos hw]
      rfl
    refine iff_of_true ⟨?_, hdecode⟩ hw
    by_cases hv : v.isFinite = true <;> simp [Value.encode, finite, hv, hw, hne]
  · simp [Value.encode, finite, Kind.decode, hw]

/-- Legible leaf by leaf, and in the prefill when it is turned on. -/
structure LegibleLeaves (S : SizeText) (prior next : Settings) : Prop where
  leaf : ∀ l ∈ Leaf.all, l.toggles = none → ∀ v w, l.read prior = some v → l.read next = some w → v ≠ w →
    LegibleLeaf S l v w
  threshold : prior.ai.prefill = none → ∀ p, next.ai.prefill = some p → p.threshold.isFinite = true

/-- Legible changes are legible leaf by leaf. -/
theorem legible_iff : Legible S prior next ↔ LegibleLeaves S prior next := by
  constructor
  · intro h
    have hsize : ∀ size ∈ mediaSizes, ∀ v w, some (size prior.ai.media) = some v → some (size next.ai.media) = some w →
        v ≠ w → (Value.bytes v).encode S ≠ (Value.bytes w).encode S ∧
          Kind.decode S .bytes ((Value.bytes w).encode S) = some w := by
      intro size hmem v w hv hw hne
      obtain rfl := Option.some.inj hv
      obtain rfl := Option.some.inj hw
      exact legible_bytes.mpr (h.sizes size hmem hne)
    refine ⟨fun l hl htoggles v w hv hw hne => ?_, fun hprior p hp => h.threshold p hp (by simp [hprior])⟩
    cases l with
    | mediaMaxImageSize => exact hsize _ (by simp [mediaSizes]) v w hv hw hne
    | mediaMaxPdfSize => exact hsize _ (by simp [mediaSizes]) v w hv hw hne
    | mediaMaxAudioSize => exact hsize _ (by simp [mediaSizes]) v w hv hw hne
    | mediaMaxVideoSize => exact hsize _ (by simp [mediaSizes]) v w hv hw hne
    | mediaMaxTextSize => exact hsize _ (by simp [mediaSizes]) v w hv hw hne
    | prefillThreshold =>
      have hwp : next.ai.prefill.map (·.threshold) = some w := hw
      obtain ⟨p, hp, rfl⟩ := Option.map_eq_some_iff.mp hwp
      have hvp : prior.ai.prefill.map (·.threshold) = some v := hv
      refine (legible_float hne).mpr (h.threshold p hp ?_)
      rw [hvp]
      exact fun heq => hne (Option.some.inj heq)
    | schedules => exact absurd rfl (ne_schedules_of_mem_all hl)
    | _ => exact legible_of_exact (by decide) (by decide) (by decide) hne
  · intro h
    refine ⟨fun size hmem hne => ?_, fun p hp hne => ?_⟩
    · simp only [mediaSizes, List.mem_cons, List.not_mem_nil, or_false] at hmem
      rcases hmem with rfl | rfl | rfl | rfl | rfl
      · exact legible_bytes.mp (h.leaf .mediaMaxImageSize (by decide) rfl _ _ rfl rfl hne)
      · exact legible_bytes.mp (h.leaf .mediaMaxPdfSize (by decide) rfl _ _ rfl rfl hne)
      · exact legible_bytes.mp (h.leaf .mediaMaxAudioSize (by decide) rfl _ _ rfl rfl hne)
      · exact legible_bytes.mp (h.leaf .mediaMaxVideoSize (by decide) rfl _ _ rfl rfl hne)
      · exact legible_bytes.mp (h.leaf .mediaMaxTextSize (by decide) rfl _ _ rfl rfl hne)
    · cases hprior : prior.ai.prefill with
      | none => exact h.threshold hprior p hp
      | some q =>
        rw [hprior, Option.map_some] at hne
        have hvw : q.threshold ≠ p.threshold := fun heq => hne (congrArg some heq)
        refine (legible_float (S := S) hvw).mp (h.leaf .prefillThreshold (by decide) rfl _ _ ?_ ?_ hvw)
        · exact congrArg (Option.map (·.threshold)) hprior
        · exact congrArg (Option.map (·.threshold)) hp

/-! ## What the new values give -/

/-- The leaves that switch no card. -/
theorem toggles_eq_none_iff {l : Leaf} : l.toggles = none ↔ ∀ card : Card, l ≠ card.toggle := by
  constructor
  · rintro h card rfl
    cases card <;> cases h
  · intro h
    cases l <;> first
      | rfl
      | exact absurd rfl (h .prefill)
      | exact absurd rfl (h .web)
      | exact absurd rfl (h .emotes)

/-- A card is switched by its toggle only. -/
theorem eq_toggle_of_toggles {l : Leaf} {card : Card} (h : l.toggles = some card) : l = card.toggle := by
  cases l <;> cases h <;> rfl

/-- The toggle of a card belongs to the card. -/
theorem card_toggle (card : Card) : card.toggle.card = some card := by
  cases card <;> rfl

/-- The other leaves of a card are there when it is on. -/
theorem isSome_read_of_card {l : Leaf} {card : Card} (hcard : l.card = some card) (htoggles : l.toggles = none)
    (s : Settings) : (l.read s).isSome = card.isOn s := by
  rw [isSome_read, Leaf.shown, hcard]
  exact congrArg (· || card.isOn s) (decide_eq_false (toggles_eq_none_iff.mp htoggles card))

theorem field_toggle (card : Card) (j : Json) : Json.field card.toggle j = none := by
  cases card <;> cases j <;> rfl

/-- From the JSON of a card it is read whether the card is on. -/
theorem decode_card (card : Card) : card.toggle.kind.decode S ((card.value next).encode S) = card.toggle.read next := by
  cases card with
  | prefill =>
    rw [Card.value, Leaf.read.eq_def]
    cases next.ai.prefill <;> rfl
  | web =>
    rw [Card.value, Leaf.read.eq_def]
    cases next.ai.web <;> rfl
  | emotes =>
    rw [Card.value, Leaf.read.eq_def]
    cases next.ai.emotes <;> rfl

/-- The fields of a card that is turned on are read from the card. -/
theorem field_card {l : Leaf} {card : Card} (hcard : l.card = some card) (htoggles : l.toggles = none) {w : l.Val}
    (hw : l.read next = some w) (hfinite : card = .prefill → ∀ p, next.ai.prefill = some p → p.threshold.isFinite = true) :
    Json.field l ((card.value next).encode S) = some w := by
  cases l with
  | prefillBaseUrl =>
    obtain rfl : card = .prefill := (Option.some.inj hcard).symm
    obtain ⟨p, hp, rfl⟩ := Option.map_eq_some_iff.mp hw
    rw [Card.value, hp]
    rfl
  | prefillThreshold =>
    obtain rfl : card = .prefill := (Option.some.inj hcard).symm
    obtain ⟨p, hp, rfl⟩ := Option.map_eq_some_iff.mp hw
    rw [Card.value, hp]
    exact if_pos (hfinite rfl p hp)
  | aiWebBaseUrl | aiWebTimeout | aiWebMaxResults | aiWebMaxRounds | aiWebCacheTtlSecs | aiWebCacheCapacity =>
    obtain rfl : card = .web := (Option.some.inj hcard).symm
    obtain ⟨p, hp, rfl⟩ := Option.map_eq_some_iff.mp hw
    rw [Card.value, hp]
    rfl
  | emotesIncludeGlobal | emotesRefreshIntervalSecs | emotesMaxPromptEmotes | emotesMinBaselineEmotes | emotesPinnedEmotes
  | emotesBaseUrl =>
    obtain rfl : card = .emotes := (Option.some.inj hcard).symm
    obtain ⟨p, hp, rfl⟩ := Option.map_eq_some_iff.mp hw
    rw [Card.value, hp]
    rfl
  | prefillEnabled | aiWebEnabled | emotesEnabled => cases htoggles
  | _ => cases hcard

/-- A leaf that is there before and next is not patched by a card. -/
theorem card_not_listed {l : Leaf} (htoggles : l.toggles = none) {v w : l.Val} (hv : l.read prior = some v)
    (hw : l.read next = some w) :
    (l.card.bind fun card => (newValue S (diffChanges prior next) card.toggle.key).bind (Json.field l)) = none := by
  cases hcard : l.card with
  | none => rfl
  | some card =>
    have hp := isSome_read_of_card hcard htoggles prior
    have hn := isSome_read_of_card hcard htoggles next
    rw [hv, Option.isSome_some] at hp
    rw [hw, Option.isSome_some] at hn
    rw [Option.bind_some, newValue_card, if_pos (hp.symm.trans hn), Option.bind_none]

/-- A leaf that has changed is patched with what its JSON is read as. -/
theorem patch_changed {l : Leaf} (hl : l ∈ Leaf.all) (htoggles : l.toggles = none) {v w : l.Val}
    (hv : l.read prior = some v) (hw : l.read next = some w) (hne : v ≠ w) :
    l.patch S (diffChanges prior next) = l.kind.decode S ((l.kind.value w).encode S) := by
  have hvalue : l.value next w = l.kind.value w := by
    rw [Leaf.value, htoggles]
  rw [Leaf.patch, card_not_listed htoggles hv hw, newValue_changed hl hv hw hne, Option.or_none, Option.bind_some, hvalue]

/-- A leaf that has not is left out. -/
theorem patch_unchanged {l : Leaf} (hl : l ∈ Leaf.all) (htoggles : l.toggles = none) {v : l.Val}
    (hv : l.read prior = some v) (hw : l.read next = some v) : l.patch S (diffChanges prior next) = none := by
  have hunchanged : l.change prior next = [] := by
    refine change_eq_nil_iff.mpr fun v' w' hv' hw' => ?_
    rw [← Option.some.inj (hv.symm.trans hv'), ← Option.some.inj (hw.symm.trans hw')]
  rw [Leaf.patch, card_not_listed htoggles hv hw, newValue_unchanged hl hunchanged]
  rfl

/-- A leaf that is not there before is patched by its card, when that is turned on. -/
theorem patch_new {l : Leaf} (hl : l ∈ Leaf.all) (htoggles : l.toggles = none) {w : l.Val} (hv : l.read prior = none)
    (hw : l.read next = some w) :
    ∃ card, l.card = some card ∧ card.isOn prior = false ∧
      l.patch S (diffChanges prior next) = Json.field l ((card.value next).encode S) := by
  have hunchanged : l.change prior next = [] := by
    refine change_eq_nil_iff.mpr fun v' w' hv' _ => ?_
    rw [hv] at hv'
    cases hv'
  have hshown := isSome_read prior l
  rw [hv, Option.isSome_none] at hshown
  cases hcard : l.card with
  | none =>
    rw [Leaf.shown, hcard] at hshown
    cases hshown
  | some card =>
    have hp := isSome_read_of_card hcard htoggles prior
    have hn := isSome_read_of_card hcard htoggles next
    rw [hv, Option.isSome_none] at hp
    rw [hw, Option.isSome_some] at hn
    refine ⟨card, rfl, hp.symm, ?_⟩
    rw [Leaf.patch, newValue_unchanged hl hunchanged, Option.bind_none, Option.none_or, hcard, Option.bind_some, newValue_card,
      if_neg (by rw [← hp, ← hn]; decide), Option.bind_some]

/-- A leaf that is legible is patched to what it is next. -/
theorem patch_leaf (h : LegibleLeaves S prior next) {l : Leaf} (hl : l ∈ Leaf.all) (htoggles : l.toggles = none) {w : l.Val}
    (hw : l.read next = some w) : (l.patch S (diffChanges prior next)).or (l.read prior) = some w := by
  cases hv : l.read prior with
  | some v =>
    by_cases hne : v = w
    · rw [hne] at hv ⊢
      rw [patch_unchanged hl htoggles hv hw, Option.none_or]
    · rw [patch_changed hl htoggles hv hw hne, (h.leaf l hl htoggles v w hv hw hne).2, Option.some_or]
  | none =>
    obtain ⟨card, hcard, hoff, hpatch⟩ := patch_new (S := S) hl htoggles hv hw
    rw [hpatch, Option.or_none]
    refine field_card hcard htoggles hw fun hprefill p hnext => h.threshold ?_ p hnext
    rw [hprefill] at hoff
    exact Option.isNone_iff_eq_none.mp (Option.isSome_eq_false_iff.mp hoff)

/-- After the patch, a card is on exactly when it is on in the next settings. -/
theorem patch_toggle (card : Card) : (card.toggle.patch S (diffChanges prior next)).or (card.toggle.read prior) =
    card.toggle.read next := by
  rw [Leaf.patch, newValue_card, card_toggle, Option.bind_some, newValue_card]
  split
  · rename_i h
    rw [Option.bind_none, Option.bind_none, Option.none_or, Option.none_or]
    cases card <;> exact congrArg some h
  · rw [Option.bind_some, Option.bind_some, field_toggle, Option.or_none, decode_card]
    cases card <;> rfl

/-- The overrides of the changes hold the patch of each leaf. -/
theorem get_patchOverrides {l : Leaf} (hl : l ≠ .schedules) (changes : List AuditChange) :
    l.get (patchOverrides S prior changes) = l.patch S changes := by
  cases l <;> first
    | exact absurd rfl hl
    | rfl

/-- A leaf that is there becomes what it is patched to, else what it was, else what a new card has. -/
theorem read_applyChanges {l : Leaf} (hl : l ≠ .schedules) (changes : List AuditChange) :
    l.read (applyChanges S prior changes) =
      if l.shown (applyChanges S prior changes) then ((l.patch S changes).or (l.read prior)).or l.base else none := by
  rw [← get_patchOverrides hl]
  exact read_resolve prior (patchOverrides S prior changes) l

/-- What a leaf is after the changes is its patch, or what it was, or its base. -/
theorem applied_of_read {l : Leaf} (hl : l ≠ .schedules) {changes : List AuditChange} {w : l.Val}
    (h : l.read (applyChanges S prior changes) = some w) : ((l.patch S changes).or (l.read prior)).or l.base = some w := by
  rw [read_applyChanges hl] at h
  split at h
  · exact h
  · cases h

/-- The changes switch every card as it is next. -/
theorem isOn_applyChanges (card : Card) :
    card.isOn (applyChanges S prior (diffChanges prior next)) = card.isOn next := by
  refine isOn_eq_of_read ?_
  have hshown : card.toggle.shown (applyChanges S prior (diffChanges prior next)) = true := by
    cases card <;> rfl
  rw [read_applyChanges (ne_schedules_of_mem_all (toggle_mem_all card)), hshown, if_pos rfl, patch_toggle]
  cases card <;> rfl

/-- Once the changes are applied, the leaves shown are those of the next settings. -/
theorem shown_applyChanges (l : Leaf) : l.shown (applyChanges S prior (diffChanges prior next)) = l.shown next := by
  unfold Leaf.shown
  cases l.card with
  | none => rfl
  | some card => exact congrArg (decide (l = card.toggle) || ·) (isOn_applyChanges card)

/-- Changes of legible leaves give the leaves that are next. -/
theorem read_applyChanges_of_legible (h : LegibleLeaves S prior next) {l : Leaf} (hl : l ≠ .schedules) :
    l.read (applyChanges S prior (diffChanges prior next)) = l.read next := by
  rw [read_applyChanges hl, shown_applyChanges]
  split
  · rename_i hshown
    rw [← isSome_read, Option.isSome_iff_exists] at hshown
    obtain ⟨w, hw⟩ := hshown
    have hpatch : (l.patch S (diffChanges prior next)).or (l.read prior) = l.read next := by
      cases htoggles : l.toggles with
      | none => rw [patch_leaf h (mem_all hl) htoggles hw, hw]
      | some card =>
        rw [eq_toggle_of_toggles htoggles]
        exact patch_toggle card
    rw [hpatch, hw, Option.some_or]
  · rename_i hshown
    rw [← isSome_read, Option.not_isSome_iff_eq_none] at hshown
    exact hshown.symm

/-! ## Schedules -/

/-- The JSON of a leaf is not that of a schedule. -/
theorem encode_value_ne_schedule (k : Kind) (v : k.Val) (s : Schedule) : (k.value v).encode S ≠ .schedule s := by
  cases k with
  | float =>
    simp only [Kind.value, Value.encode, finite]
    split <;> exact Json.noConfusion
  | optText =>
    cases v <;> simp [Kind.value, Value.encode]
  | _ => simp [Kind.value, Value.encode]

/-- The JSON of a card is not that of a schedule. -/
theorem encode_card_ne_schedule (card : Card) (s : Schedule) : (card.value next).encode S ≠ .schedule s := by
  cases card with
  | prefill => cases h : next.ai.prefill <;> simp [Card.value, Value.encode, h]
  | web => cases h : next.ai.web <;> simp [Card.value, Value.encode, h]
  | emotes => cases h : next.ai.emotes <;> simp [Card.value, Value.encode, h]

theorem encode_leaf_ne_schedule (l : Leaf) (v : l.Val) (s : Schedule) : (l.value next v).encode S ≠ .schedule s := by
  unfold Leaf.value
  split
  · exact encode_card_ne_schedule _ s
  · exact encode_value_ne_schedule _ v s

/-- A schedule is read back from its JSON. -/
theorem encode_schedule_eq_iff {o : Option Schedule} {s : Schedule} :
    (Value.schedule o).encode S = .schedule s ↔ o = some s := by
  cases o <;> simp [Value.encode]

/-- A schedule is listed when it is next, and was not the same before. -/
theorem mem_listed {s : Schedule} : (∃ c ∈ diffChanges prior next, c.new.encode S = .schedule s) ↔
    ∃ name, byName prior.schedules name ≠ byName next.schedules name ∧ byName next.schedules name = some s := by
  constructor
  · rintro ⟨c, hc, hs⟩
    rcases mem_diffChanges.mp hc with ⟨l, -, hmem⟩ | hmem
    · obtain ⟨v, w, -, -, -, rfl⟩ := mem_change.mp hmem
      exact absurd hs (encode_leaf_ne_schedule l w s)
    · obtain ⟨name, hne, rfl⟩ := mem_diffSchedules.mp hmem
      exact ⟨name, hne, encode_schedule_eq_iff.mp hs⟩
  · rintro ⟨name, hne, hs⟩
    exact ⟨_, mem_diffChanges.mpr (.inr (mem_diffSchedules.mpr ⟨name, hne, rfl⟩)), encode_schedule_eq_iff.mpr hs⟩

theorem schedule?_eq_some_iff {j : Json} {s : Schedule} : j.schedule? = some s ↔ j = .schedule s := by
  cases j <;> simp [Json.schedule?]

/-- A change whose new value is a schedule is listed under the name of that schedule. -/
theorem key_of_listed (hn : (next.schedules.map (·.name)).Nodup) {c : AuditChange} (hc : c ∈ diffChanges prior next)
    {s : Schedule} (hs : (c.new.encode S).schedule? = some s) : c.key = scheduleKey s.name := by
  rw [schedule?_eq_some_iff] at hs
  rcases mem_diffChanges.mp hc with ⟨l, -, hmem⟩ | hmem
  · obtain ⟨v, w, -, -, -, rfl⟩ := mem_change.mp hmem
    exact absurd hs (encode_leaf_ne_schedule l w s)
  · obtain ⟨name, -, rfl⟩ := mem_diffSchedules.mp hmem
    have hname := ((byName_eq_some_iff hn).mp (encode_schedule_eq_iff.mp hs)).2
    rw [hname]

/-- The schedules that stay and those that are listed are the next ones. -/
theorem mem_patchSchedules (hp : (prior.schedules.map (·.name)).Nodup) (hn : (next.schedules.map (·.name)).Nodup)
    {s : Schedule} : s ∈ patchSchedules S (diffChanges prior next) prior.schedules ↔ s ∈ next.schedules := by
  have hnext : s ∈ next.schedules ↔ byName next.schedules s.name = some s := by
    rw [byName_eq_some_iff hn, and_iff_left rfl]
  have hprior : s ∈ prior.schedules ↔ byName prior.schedules s.name = some s := by
    rw [byName_eq_some_iff hp, and_iff_left rfl]
  rw [patchSchedules, List.mem_append, List.mem_filter, newValue_schedule, List.mem_filterMap, hnext, hprior]
  simp only [schedule?_eq_some_iff, mem_listed]
  constructor
  · rintro (⟨hs, hkept⟩ | ⟨name, -, hs⟩)
    · split at hkept
      · rename_i heq
        rw [← heq, hs]
      · cases hkept
    · rwa [((byName_eq_some_iff hn).mp hs).2]
  · intro hs
    by_cases heq : byName prior.schedules s.name = byName next.schedules s.name
    · exact .inl ⟨heq.trans hs, by rw [if_pos heq]; rfl⟩
    · exact .inr ⟨s.name, heq, hs⟩

/-- No schedule is patched twice. -/
theorem nodup_patchSchedules (hp : (prior.schedules.map (·.name)).Nodup) (hn : (next.schedules.map (·.name)).Nodup) :
    (patchSchedules S (diffChanges prior next) prior.schedules).Nodup := by
  refine List.nodup_append.mpr ⟨(List.Nodup.of_map _ hp).filter _, ?_, ?_⟩
  · refine List.pairwise_filterMap.mpr ?_
    have hkeys : ((diffChanges prior next).map (·.key)).Nodup := nodup_diffChanges
    refine (List.pairwise_map.mp hkeys).imp_of_mem ?_
    rintro c c' hc hc' hne s hs s' hs' rfl
    exact hne ((key_of_listed hn hc hs).trans (key_of_listed hn hc' hs').symm)
  · rintro s hs s' hs' rfl
    obtain ⟨c, hc, hcs⟩ := List.mem_filterMap.mp hs'
    have hnone := (List.mem_filter.mp hs).2
    rw [← key_of_listed hn hc hcs, newValue_of_mem hc] at hnone
    cases hnone

/-- The changes make of the schedules those that are next, but for their order. -/
theorem perm_patchSchedules (hp : (prior.schedules.map (·.name)).Nodup) (hn : (next.schedules.map (·.name)).Nodup) :
    (patchSchedules S (diffChanges prior next) prior.schedules).Perm next.schedules :=
  (List.perm_ext_iff_of_nodup (nodup_patchSchedules hp hn) (List.Nodup.of_map _ hn)).mpr fun _ => mem_patchSchedules hp hn

/-! ## The diff is exact -/

/-- Settings that are resolved from some defaults and overrides. -/
def Settings.Resolved (s : Settings) : Prop := ∃ defaults overrides, s = .resolve defaults overrides

theorem Settings.Resolved.version {s : Settings} (h : s.Resolved) : s.schemaVersion = Dashboard.schemaVersion := by
  obtain ⟨defaults, overrides, rfl⟩ := h
  rfl

/-- What the diff of two settings is: empty when nothing differs, of values that differ and under distinct keys, and it can be
applied. -/
structure DiffExact (S : SizeText) (prior next : Settings) : Prop where
  empty : diffChanges prior next = [] ↔ prior.SameUpToOrder next
  differ : ∀ c ∈ diffChanges prior next, c.old.encode S ≠ c.new.encode S
  keys : ((diffChanges prior next).map (·.key)).Nodup
  applied : (applyChanges S prior (diffChanges prior next)).SameUpToOrder next

/-- A card whose JSON has not changed is on before and after, or neither. -/
theorem encode_card_inj {card : Card} (h : (card.value prior).encode S = (card.value next).encode S) :
    card.toggle.read prior = card.toggle.read next := by
  rw [← decode_card (S := S), ← decode_card (S := S), h]

/-- Different schedules have different JSON. -/
theorem encode_schedule_inj {o o' : Option Schedule} (h : (Value.schedule o).encode S = (Value.schedule o').encode S) :
    o = o' := by
  refine Option.ext fun s => ?_
  rw [← encode_schedule_eq_iff (S := S), ← encode_schedule_eq_iff (S := S), h]

/-- The two values of a legible change can be told apart. -/
theorem differ_of_legible (h : LegibleLeaves S prior next) {c : AuditChange} (hc : c ∈ diffChanges prior next) :
    c.old.encode S ≠ c.new.encode S := by
  rcases mem_diffChanges.mp hc with ⟨l, hl, hmem⟩ | hmem
  · obtain ⟨v, w, hv, hw, hne, rfl⟩ := mem_change.mp hmem
    cases htoggles : l.toggles with
    | none =>
      simp only [Leaf.value, htoggles]
      exact (h.leaf l hl htoggles v w hv hw hne).1
    | some card =>
      simp only [Leaf.value, htoggles]
      intro heq
      obtain rfl := eq_toggle_of_toggles htoggles
      rw [encode_card_inj heq, hw] at hv
      exact hne (Option.some.inj hv).symm
  · obtain ⟨name, hne, rfl⟩ := mem_diffSchedules.mp hmem
    exact fun heq => hne (encode_schedule_inj heq)

/-- The diff of settings with unique names is exact precisely when what changes is legible. -/
theorem diff_exact_iff (hprior : prior.Resolved) (hnext : next.Resolved) (hp : (prior.schedules.map (·.name)).Nodup)
    (hn : (next.schedules.map (·.name)).Nodup) : DiffExact S prior next ↔ Legible S prior next := by
  rw [legible_iff]
  constructor
  · intro h
    have hread : ∀ l ∈ Leaf.all, l.read (applyChanges S prior (diffChanges prior next)) = l.read next := by
      intro l hl
      have hne := ne_schedules_of_mem_all hl
      rw [← read_schedules_nil _ hne, h.applied.1, read_schedules_nil next hne]
    refine ⟨fun l hl htoggles v w hv hw hne => ⟨?_, ?_⟩, fun hoff p hp => ?_⟩
    · have hdiffer := h.differ _ (mem_diffChanges.mpr (.inl ⟨l, hl, mem_change.mpr ⟨v, w, hv, hw, hne, rfl⟩⟩))
      simpa only [Leaf.value, htoggles] using hdiffer
    · have hpatched := applied_of_read (ne_schedules_of_mem_all hl) ((hread l hl).trans hw)
      rw [patch_changed hl htoggles hv hw hne, hv] at hpatched
      cases hdecode : l.kind.decode S ((l.kind.value w).encode S) with
      | none =>
        rw [hdecode] at hpatched
        exact absurd (Option.some.inj hpatched) hne
      | some u =>
        rw [hdecode] at hpatched
        exact hpatched
    · have hv : Leaf.prefillThreshold.read prior = none := congrArg (Option.map AiPrefill.threshold) hoff
      have hw : Leaf.prefillThreshold.read next = some p.threshold := congrArg (Option.map AiPrefill.threshold) hp
      have hmem : Leaf.prefillThreshold ∈ Leaf.all := by decide
      have hpatched := applied_of_read (ne_schedules_of_mem_all hmem) ((hread _ hmem).trans hw)
      obtain ⟨card, hcard, -, hpatch⟩ := patch_new (S := S) hmem rfl hv hw
      obtain rfl : card = .prefill := (Option.some.inj hcard).symm
      by_contra hinfinite
      have hfield : Json.field .prefillThreshold ((Card.value next .prefill).encode S) = none := by
        rw [Card.value, hp]
        exact if_neg hinfinite
      rw [hpatch, hv, hfield] at hpatched
      have hbase : p.threshold = ⟨0x3FE0000000000000⟩ := (Option.some.inj hpatched).symm
      rw [hbase] at hinfinite
      exact absurd hinfinite (by decide)
  · intro h
    refine ⟨diffChanges_eq_nil_iff (hprior.version.trans hnext.version.symm) hp hn, fun c => differ_of_legible h,
      nodup_diffChanges, ?_, perm_patchSchedules hp hn⟩
    exact ext_read_schedules hnext.version.symm fun l hl => read_applyChanges_of_legible h hl

/-! ## A size that is rounded -/

/-- Sizes are written in tenths of the largest unit that fits. -/
def iec : SizeText where
  display bytes :=
    let n := bytes.toNat
    let level := n.log2 / 10
    if level = 0 then s!"{n} B"
    else
      let tenths := (n * 10 + 2 ^ (10 * level) / 2) / 2 ^ (10 * level)
      let letter := ["K", "M", "G", "T", "P", "E"].getD (level - 1) ""
      s!"{tenths / 10}.{tenths % 10} {letter}iB"
  parse s :=
    match s.toList.splitOn ' ' with
    | [number, unit] =>
      match ["B", "KiB", "MiB", "GiB", "TiB", "PiB", "EiB"].findIdx? (·.toList = unit), number.splitOn '.' with
      | some level, [n] => (Decimal.readU64 n).map fun n => UInt64.ofNat (n * 2 ^ (10 * level))
      | some level, [n, tenth] => do
        let n ← Decimal.readU64 n
        let tenth ← Decimal.readU64 tenth
        return UInt64.ofNat ((n * 10 + tenth) * 2 ^ (10 * level) / 10)
      | _, _ => none
    | _ => none

example : iec.display 5000000 = "4.8 MiB" ∧ iec.parse "4.8 MiB" = some 5033164 := by decide +kernel

/-- Settings with a limit of images that is one byte above ten MiB. -/
def oddMedia : Settings :=
  .resolve .compiledDefaults { ai := { media := { maxImageSize := some ⟨10485761⟩ } } }

/-- When the limit goes back to its default, its entry shows the same text twice. -/
theorem odd_media_same_text : oddMedia.Resolved ∧ Settings.compiledDefaults.Resolved ∧
    (oddMedia.schedules.map (·.name)).Nodup ∧ (Settings.compiledDefaults.schedules.map (·.name)).Nodup ∧
    ¬ DiffExact iec oddMedia .compiledDefaults := by
  have hdefaults : Settings.compiledDefaults = .resolve .compiledDefaults {} := rfl
  refine ⟨⟨_, _, rfl⟩, ⟨_, _, hdefaults⟩, .nil, .nil, fun h => ?_⟩
  have hmem : (⟨"ai.media.max_image_size", .bytes ⟨10485761⟩, .bytes ⟨10485760⟩⟩ : AuditChange) ∈
      diffChanges oddMedia .compiledDefaults := by decide +kernel
  refine h.differ _ hmem ?_
  decide +kernel

/-- A schedule, in two versions. -/
def hourly (message : String) (enabled : Bool) : Schedule where
  name := "news"
  message := message
  trigger := .interval ⟨3600, 0⟩ ⟨∅⟩ none none
  startDate := none
  endDate := none
  enabled := enabled

/-- Settings with one schedule. -/
def earlySettings : Settings :=
  .resolve .compiledDefaults { schedules := some [hourly "News!" true] }

/-- Settings with a higher limit of turns, a lower one of images, and other schedules. -/
def longTurns : Settings :=
  .resolve .compiledDefaults {
    ai := { behavior := { maxTurnRounds := some 6 }, media := { maxImageSize := some ⟨8388608⟩ } }
    schedules := some [{ hourly "Quiz!" true with name := "quiz" }, hourly "No news." false] }

theorem long_turns_exact : DiffExact iec earlySettings longTurns := by
  have hprior : earlySettings.Resolved := ⟨_, _, rfl⟩
  have hnext : longTurns.Resolved := ⟨_, _, rfl⟩
  have htext : iec.display 10485760 ≠ iec.display 8388608 ∧ iec.parse (iec.display 8388608) = some 8388608 := by decide +kernel
  refine (diff_exact_iff hprior hnext (by decide) (by decide)).mpr ⟨fun size hmem hne => ?_, fun p hp => ?_⟩
  · simp only [mediaSizes, List.mem_cons, List.not_mem_nil, or_false] at hmem
    rcases hmem with rfl | rfl | rfl | rfl | rfl
    · exact htext
    all_goals exact absurd rfl hne
  · cases hp

end Twitch1337.Dashboard
