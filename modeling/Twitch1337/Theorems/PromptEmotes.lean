import Twitch1337.Bot.SevenTv
import Twitch1337.Lib.Pick

/-!
# The emotes of a turn

Pins, then the emotes with a score, then a baseline: three layers of one list, in which no place of the catalogue comes twice.
-/

namespace Twitch1337.SevenTv

open RustStr Pick

variable {U : Unicode} {emotes : List PromptEmote} {maxPromptEmotes minBaselineEmotes : Nat} {pinnedEmotes : List String}
  {instruction recentChat : String}

/-! ## The contract -/

/-- The emotes that pins name, the first of each name, in the order of the pins and each once. -/
def pinnedPresent (emotes : List PromptEmote) (pinnedEmotes : List String) : List Indexed :=
  fresh [] (pinnedEmotes.filterMap fun name => emotes.zipIdx.find? (·.1.name == name))

/-- The score of an emote: how often chat used it, and how well it fits the instruction. -/
def scoreOf (U : Unicode) (instruction recentChat : String) (e : Indexed) : Scored :=
  ⟨recentEmoteCount recentChat e.1.name, contextMatchScore U e.1 (searchableTerms U instruction), e⟩

/-- An emote that chat used, or that fits the instruction. -/
def Scored.Positive (s : Scored) : Prop := 0 < s.recentCount ∨ 0 < s.contextScore

/-- The higher score comes first, and of equal ones the earlier place in the catalogue. -/
def Scored.Outranks (a b : Scored) : Prop :=
  b.recentCount < a.recentCount ∨ a.recentCount = b.recentCount ∧
    (b.contextScore < a.contextScore ∨ a.contextScore = b.contextScore ∧ a.entry.2 < b.entry.2)

/-- The three layers of a choice of emotes. -/
structure Layers (U : Unicode) (emotes : List PromptEmote) (maxPromptEmotes minBaselineEmotes : Nat)
    (pinnedEmotes : List String) (instruction recentChat : String) (pinned scored fill : List Indexed) : Prop where
  room : (pinned ++ scored ++ fill).length ≤ maxPromptEmotes
  once : ((pinned ++ scored ++ fill).map (·.2)).Nodup
  listed : ∀ e ∈ pinned ++ scored ++ fill, emotes[e.2]? = some e.1
  pins : pinned = (pinnedPresent emotes pinnedEmotes).take maxPromptEmotes
  ranked : (scored.map (scoreOf U instruction recentChat)).Pairwise Scored.Outranks
  positive : ∀ e ∈ scored, (scoreOf U instruction recentChat e).Positive
  none_omitted : ∀ e ∈ emotes.zipIdx, (scoreOf U instruction recentChat e).Positive → e ∉ pinned ++ scored →
    (pinned ++ scored).length = maxPromptEmotes ∧
      ∀ s ∈ scored, (scoreOf U instruction recentChat s).Outranks (scoreOf U instruction recentChat e)
  floor : min (min minBaselineEmotes maxPromptEmotes) emotes.length ≤ (pinned ++ scored ++ fill).length

/-! ## Places in the catalogue -/

/-- The place of an emote of the catalogue tells which it is. -/
theorem eq_of_place {a b : Indexed} (ha : a ∈ emotes.zipIdx) (hb : b ∈ emotes.zipIdx) (h : a.2 = b.2) : a = b := by
  rw [List.mem_zipIdx_iff_getElem?] at ha hb
  rw [h, hb, Option.some.injEq] at ha
  exact Prod.ext ha.symm h

theorem nodup_zipIdx : emotes.zipIdx.Nodup := by
  refine List.Nodup.of_map Prod.snd ?_
  rw [List.zipIdx_map_snd]
  exact List.nodup_range'

/-- Over emotes of one catalogue a pick goes by the emote itself. -/
theorem foldl_pick_eq {room : Nat} {entries picked : List Indexed} (hp : ∀ e ∈ picked, e ∈ emotes.zipIdx)
    (he : ∀ e ∈ entries, e ∈ emotes.zipIdx) : entries.foldl (pick room) picked = entries.foldl (keep room) picked := by
  induction entries generalizing picked with
  | nil => rfl
  | cons e entries ih =>
    obtain ⟨hhead, htail⟩ := List.forall_mem_cons.mp he
    have hany : picked.any (fun x => x.2 == e.2) = true ↔ e ∈ picked := by
      rw [List.any_eq_true]
      constructor
      · rintro ⟨x, hx, hplace⟩
        exact eq_of_place (hp x hx) hhead (by simpa using hplace) ▸ hx
      · intro hmem
        exact ⟨e, hmem, by simp⟩
    have hstep : pick room picked e = keep room picked e := by
      unfold pick keep
      by_cases hkeep : room ≤ picked.length ∨ e ∈ picked
      · rw [if_pos hkeep, if_pos (by simpa only [Bool.or_eq_true, decide_eq_true_eq, hany] using hkeep)]
      · rw [if_neg hkeep, if_neg (by simpa only [Bool.or_eq_true, decide_eq_true_eq, hany] using hkeep)]
    rw [List.foldl_cons, List.foldl_cons, hstep]
    refine ih (fun x hx => ?_) htail
    unfold keep at hx
    split at hx
    · exact hp x hx
    · rcases List.mem_append.mp hx with hx | hx
      · exact hp x hx
      · rwa [List.mem_singleton.mp hx]

/-! ## The second layer -/

/-- The emotes with a score, the best first. -/
def ranking (U : Unicode) (emotes : List PromptEmote) (instruction recentChat : String) : List Scored :=
  ((emotes.zipIdx.map (scoreOf U instruction recentChat)).filter fun s => 0 < s.recentCount || 0 < s.contextScore).insertionSort
    Scored.Before

theorem mem_ranking {s : Scored} : s ∈ ranking U emotes instruction recentChat ↔
    ∃ e ∈ emotes.zipIdx, s = scoreOf U instruction recentChat e ∧ s.Positive := by
  have hpos : (decide (0 < s.recentCount) || decide (0 < s.contextScore)) = true ↔ s.Positive := by
    simp [Scored.Positive]
  rw [ranking, List.mem_insertionSort, List.mem_filter, List.mem_map, hpos]
  constructor
  · rintro ⟨⟨e, he, rfl⟩, h⟩
    exact ⟨e, he, rfl, h⟩
  · rintro ⟨e, he, rfl, h⟩
    exact ⟨⟨e, he, rfl⟩, h⟩

theorem Scored.before_total (a b : Scored) : a.Before b ∨ b.Before a := by
  unfold Scored.Before
  omega

theorem Scored.before_trans {a b c : Scored} (hab : a.Before b) (hbc : b.Before c) : a.Before c := by
  unfold Scored.Before at *
  omega

/-- The emotes of the ranking, each with its score. -/
theorem map_scoreOf_ranking :
    ((ranking U emotes instruction recentChat).map Scored.entry).map (scoreOf U instruction recentChat) =
      ranking U emotes instruction recentChat := by
  rw [List.map_map]
  refine (List.map_congr_left fun s hs => ?_).trans (List.map_id _)
  obtain ⟨e, -, rfl, -⟩ := mem_ranking.mp hs
  rfl

theorem nodup_ranking (U : Unicode) (emotes : List PromptEmote) (instruction recentChat : String) :
    ((ranking U emotes instruction recentChat).map Scored.entry).Nodup := by
  have hperm := (List.perm_insertionSort Scored.Before ((emotes.zipIdx.map (scoreOf U instruction recentChat)).filter
    fun s => 0 < s.recentCount || 0 < s.contextScore)).map Scored.entry
  refine hperm.nodup_iff.mpr ?_
  refine List.Nodup.sublist (List.filter_sublist.map _) ?_
  rw [List.map_map]
  exact (List.map_id emotes.zipIdx).symm ▸ nodup_zipIdx

/-- In the ranking each emote outranks those after it. -/
theorem pairwise_ranking (U : Unicode) (emotes : List PromptEmote) (instruction recentChat : String) :
    (ranking U emotes instruction recentChat).Pairwise Scored.Outranks := by
  have : Std.Total Scored.Before := ⟨Scored.before_total⟩
  have : IsTrans Scored Scored.Before := ⟨fun _ _ _ => Scored.before_trans⟩
  have hsorted : (ranking U emotes instruction recentChat).Pairwise Scored.Before := List.pairwise_insertionSort _ _
  have hnodup := nodup_ranking U emotes instruction recentChat
  rw [List.Nodup, List.pairwise_map] at hnodup
  refine (hsorted.and hnodup).imp_of_mem fun {a b} ha hb hab => ?_
  obtain ⟨e, he, rfl, -⟩ := mem_ranking.mp ha
  obtain ⟨e', he', rfl, -⟩ := mem_ranking.mp hb
  have hplace : e.2 ≠ e'.2 := fun heq => hab.2 (eq_of_place he he' heq)
  have hbefore := hab.1
  unfold Scored.Before at hbefore
  unfold Scored.Outranks
  simp only [scoreOf] at hbefore ⊢
  omega

/-! ## The layers -/

/-- The pins that are picked. -/
def pinnedLayer (emotes : List PromptEmote) (maxPromptEmotes : Nat) (pinnedEmotes : List String) : List Indexed :=
  (pinnedPresent emotes pinnedEmotes).take maxPromptEmotes

/-- The emotes that are picked for their score. -/
def scoredLayer (U : Unicode) (emotes : List PromptEmote) (maxPromptEmotes : Nat) (instruction recentChat : String)
    (pinned : List Indexed) : List Indexed :=
  (fresh pinned ((ranking U emotes instruction recentChat).map Scored.entry)).take (maxPromptEmotes - pinned.length)

/-- The emotes that fill the list up to a number. -/
def fillLayer (emotes : List PromptEmote) (floor : Nat) (picked : List Indexed) : List Indexed :=
  (fresh picked emotes.zipIdx).take (floor - picked.length)

theorem mem_pinnedPresent {e : Indexed} (h : e ∈ pinnedPresent emotes pinnedEmotes) : e ∈ emotes.zipIdx := by
  obtain ⟨name, -, hfind⟩ := List.mem_filterMap.mp (mem_fresh.mp h).1
  exact List.mem_of_find?_eq_some hfind

theorem mem_entries {e : Indexed} (h : e ∈ (ranking U emotes instruction recentChat).map Scored.entry) :
    e ∈ emotes.zipIdx ∧ (scoreOf U instruction recentChat e).Positive := by
  obtain ⟨s, hs, rfl⟩ := List.mem_map.mp h
  obtain ⟨e, he, rfl, hpos⟩ := mem_ranking.mp hs
  exact ⟨he, hpos⟩

/-- The choice is the three layers. -/
theorem selectPromptEmotes_eq (U : Unicode) (emotes : List PromptEmote) {maxPromptEmotes : Nat} (minBaselineEmotes : Nat)
    (pinnedEmotes : List String) (instruction recentChat : String) (h : maxPromptEmotes ≠ 0) :
    let pinned := pinnedLayer emotes maxPromptEmotes pinnedEmotes
    let scored := scoredLayer U emotes maxPromptEmotes instruction recentChat pinned
    let fill := fillLayer emotes (min minBaselineEmotes maxPromptEmotes) (pinned ++ scored)
    selectPromptEmotes U emotes maxPromptEmotes minBaselineEmotes pinnedEmotes instruction recentChat =
        (pinned ++ scored ++ fill).map Prod.fst ∧ ∀ e ∈ pinned ++ scored ++ fill, e ∈ emotes.zipIdx := by
  intro pinned scored fill
  have hpinned : ∀ e ∈ pinned, e ∈ emotes.zipIdx := fun e he => mem_pinnedPresent (List.mem_of_mem_take he)
  have hscored : ∀ e ∈ pinned ++ scored, e ∈ emotes.zipIdx := by
    intro e he
    rcases List.mem_append.mp he with he | he
    · exact hpinned e he
    · exact (mem_entries (mem_fresh.mp (List.mem_of_mem_take he)).1).1
  have hpick : (pinnedEmotes.filterMap fun name => emotes.zipIdx.find? (·.1.name == name)).foldl (pick maxPromptEmotes) [] =
      pinned := by
    rw [foldl_pick_eq (by simp) (fun e he => mem_pinnedPresent (mem_fresh.mpr ⟨he, by simp⟩)), foldl_keep]
    rfl
  have hrank : ((ranking U emotes instruction recentChat).map Scored.entry).foldl (pick maxPromptEmotes) pinned =
      pinned ++ scored := by
    rw [foldl_pick_eq hpinned (fun e he => (mem_entries he).1), foldl_keep]
    rfl
  have hfill : emotes.zipIdx.foldl (pick (min minBaselineEmotes maxPromptEmotes)) (pinned ++ scored) =
      pinned ++ scored ++ fill := by
    rw [foldl_pick_eq hscored (fun e he => he), foldl_keep]
    rfl
  constructor
  · rw [← hfill, ← hrank, ← hpick, selectPromptEmotes, if_neg h]
    rfl
  · intro e he
    rcases List.mem_append.mp he with he | he
    · exact hscored e he
    · exact (mem_fresh.mp (List.mem_of_mem_take he)).1

/-- The emotes with a score that are not pinned, the best first. -/
theorem fresh_ranking (U : Unicode) (emotes : List PromptEmote) (instruction recentChat : String) (pinned : List Indexed) :
    (fresh pinned ((ranking U emotes instruction recentChat).map Scored.entry)).Sublist
      ((ranking U emotes instruction recentChat).map Scored.entry) := by
  rw [fresh, eraseDups_of_nodup ((nodup_ranking U emotes instruction recentChat).sublist List.filter_sublist)]
  exact List.filter_sublist

/-- An emote with a score is left out only when there is no room, and then those that were picked outrank it. -/
theorem outranked_of_left_out {pinned : List Indexed} {e : Indexed} (he : e ∈ emotes.zipIdx)
    (hpos : (scoreOf U instruction recentChat e).Positive)
    (hout : e ∉ pinned ++ scoredLayer U emotes maxPromptEmotes instruction recentChat pinned) :
    maxPromptEmotes ≤ (pinned ++ scoredLayer U emotes maxPromptEmotes instruction recentChat pinned).length ∧
      ∀ s ∈ scoredLayer U emotes maxPromptEmotes instruction recentChat pinned,
        (scoreOf U instruction recentChat s).Outranks (scoreOf U instruction recentChat e) := by
  rw [List.mem_append, not_or] at hout
  obtain ⟨hpin, hscore⟩ := hout
  have hentry : e ∈ (ranking U emotes instruction recentChat).map Scored.entry :=
    List.mem_map.mpr ⟨_, mem_ranking.mpr ⟨e, he, rfl, hpos⟩, rfl⟩
  have hfresh := mem_fresh.mpr ⟨hentry, hpin⟩
  have hpairs := (fresh_ranking U emotes instruction recentChat pinned).map
    (scoreOf U instruction recentChat)
  rw [map_scoreOf_ranking] at hpairs
  have hsorted := (pairwise_ranking U emotes instruction recentChat).sublist hpairs
  rw [scoredLayer] at hscore ⊢
  generalize fresh pinned ((ranking U emotes instruction recentChat).map Scored.entry) = all at *
  rw [← List.take_append_drop (maxPromptEmotes - pinned.length) all] at hfresh hsorted
  have hdrop := (List.mem_append.mp hfresh).resolve_left hscore
  constructor
  · have hlen := List.length_pos_of_mem hdrop
    rw [List.length_drop] at hlen
    rw [List.length_append, List.length_take]
    omega
  · intro s hs
    rw [List.map_append, List.pairwise_append] at hsorted
    exact hsorted.2.2 _ (List.mem_map_of_mem hs) _ (List.mem_map_of_mem hdrop)

/-- The fill is as long as it is to be, or takes all that there is. -/
theorem floor_le_fillLayer (floor : Nat) (picked : List Indexed) :
    min floor emotes.length ≤ (picked ++ fillLayer emotes floor picked).length := by
  have hsub : emotes.zipIdx ⊆ picked ++ fresh picked emotes.zipIdx := by
    intro e he
    by_cases hp : e ∈ picked
    · exact List.mem_append_left _ hp
    · exact List.mem_append_right _ (mem_fresh.mpr ⟨he, hp⟩)
  have hlen := (nodup_zipIdx.subperm hsub).length_le
  rw [List.length_zipIdx, List.length_append] at hlen
  rw [fillLayer, List.length_append, List.length_take]
  omega

/-! ## The theorem -/

/-- For every catalogue, list of pins, chat and instruction and for all limits, the choice is three layers that meet their
contract. -/
theorem select_meets_layers (U : Unicode) (emotes : List PromptEmote) (maxPromptEmotes minBaselineEmotes : Nat)
    (pinnedEmotes : List String) (instruction recentChat : String) :
    ∃ pinned scored fill,
      selectPromptEmotes U emotes maxPromptEmotes minBaselineEmotes pinnedEmotes instruction recentChat =
          (pinned ++ scored ++ fill).map Prod.fst ∧
        Layers U emotes maxPromptEmotes minBaselineEmotes pinnedEmotes instruction recentChat pinned scored fill := by
  by_cases hzero : maxPromptEmotes = 0
  · refine ⟨[], [], [], by simp [selectPromptEmotes, hzero], ?_⟩
    subst hzero
    exact ⟨by simp, by simp, by simp, by simp, by simp, by simp, by simp, by simp⟩
  have hselect := selectPromptEmotes_eq U emotes minBaselineEmotes pinnedEmotes instruction recentChat hzero
  dsimp only at hselect
  generalize hp : pinnedLayer emotes maxPromptEmotes pinnedEmotes = pinned at hselect
  generalize hs : scoredLayer U emotes maxPromptEmotes instruction recentChat pinned = scored at hselect
  generalize hf : fillLayer emotes (min minBaselineEmotes maxPromptEmotes) (pinned ++ scored) = fill at hselect
  obtain ⟨heq, hlisted⟩ := hselect
  have hpinned : pinned.length ≤ maxPromptEmotes := by
    rw [← hp, pinnedLayer, List.length_take]
    omega
  have hscored : (pinned ++ scored).length ≤ maxPromptEmotes := by
    rw [← hs, scoredLayer, List.length_append, List.length_take]
    omega
  have hmem : ∀ e ∈ scored, e ∈ (ranking U emotes instruction recentChat).map Scored.entry ∧ e ∉ pinned := by
    rw [← hs]
    exact fun e he => mem_fresh.mp (List.mem_of_mem_take he)
  refine ⟨pinned, scored, fill, heq, ⟨?_, ?_, ?_, ?_, ?_, ?_, ?_, ?_⟩⟩
  · have hlen : fill.length ≤ maxPromptEmotes - (pinned ++ scored).length := by
      rw [← hf, fillLayer, List.length_take]
      omega
    rw [List.length_append]
    omega
  · have hnodup : (pinned ++ scored ++ fill).Nodup := by
      have h1 : pinned.Nodup := hp ▸ (nodup_fresh _ _).sublist (List.take_sublist _ _)
      have h2 : scored.Nodup := hs ▸ (nodup_fresh _ _).sublist (List.take_sublist _ _)
      have h3 : fill.Nodup := hf ▸ (nodup_fresh _ _).sublist (List.take_sublist _ _)
      rw [List.nodup_append, List.nodup_append]
      refine ⟨⟨h1, h2, fun a ha b hb hab => (hmem b hb).2 (hab ▸ ha)⟩, h3, fun a ha b hb hab => ?_⟩
      rw [← hf] at hb
      exact (mem_fresh.mp (List.mem_of_mem_take hb)).2 (hab ▸ ha)
    exact List.Nodup.map_on (fun a ha b hb => eq_of_place (hlisted a ha) (hlisted b hb)) hnodup
  · exact fun e he => List.mem_zipIdx_iff_getElem?.mp (hlisted e he)
  · exact hp.symm
  · have hsub := (fresh_ranking U emotes instruction recentChat pinned).map
      (scoreOf U instruction recentChat)
    rw [map_scoreOf_ranking] at hsub
    rw [← hs]
    exact (pairwise_ranking U emotes instruction recentChat).sublist (((List.take_sublist _ _).map _).trans hsub)
  · exact fun e he => (mem_entries (hmem e he).1).2
  · intro e he hpos hout
    rw [← hs] at hout hscored ⊢
    obtain ⟨hfull, houtranked⟩ := outranked_of_left_out he hpos hout
    exact ⟨Nat.le_antisymm hscored hfull, houtranked⟩
  · rw [← hf]
    exact floor_le_fillLayer _ _

end Twitch1337.SevenTv
