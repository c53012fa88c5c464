import Mathlib.Algebra.Order.Ring.Nat
import Twitch1337.Aviation.Merge

/-!
# The best copy of every aircraft

The merge lists one copy of each aircraft with a hex, in the order in which the hexes come first, and then those without one.
It lists the freshest copy, and of equally fresh ones the strongest signal. An age of `5 * 2 ^ 64` seconds is past the last
bucket, and from there on a position counts like none at all.
-/

namespace Twitch1337.Backends

open Least RustStr

/-! ## Buckets -/

/-- The age is a finite number of seconds, and not a negative one. -/
def dated (age : Option F64) : Bool := age.any fun s => s.isFinite && F64.zero.le s

/-- `5.0 * 2.0.powi(64)`. -/
def ageLimit : F64 := ⟨0x4414000000000000⟩

/-- ... and below the limit. -/
def young (age : Option F64) : Bool := age.any fun s => s.isFinite && F64.zero.le s && s.lt ageLimit

/-- The fifth of a magnitude is `2 ^ 64` or more if the magnitude is that of `5 * 2 ^ 64` or more. -/
theorem wordMagnitude_le_fifth (m : Nat) :
    F64.wordMagnitude ≤ F64.nearest (F64.units m * 2 ^ 1074) (F64.units freshWindow.magnitude) ↔ ageLimit.magnitude ≤ m := by
  have hmono := F64.units_strictMono.monotone
  have hpos : 0 < F64.units freshWindow.magnitude := by decide +kernel
  constructor
  · intro h
    by_contra hlt
    have hle : F64.units m * 2 ^ 1074 ≤ F64.units (ageLimit.magnitude - 1) * 2 ^ 1074 :=
      Nat.mul_le_mul_right _ (hmono (by omega))
    have hlast : F64.units (ageLimit.magnitude - 1) * 2 ^ 1074 ≤
        F64.units (F64.wordMagnitude - 1) * F64.units freshWindow.magnitude := by decide +kernel
    have hword : 0 < F64.wordMagnitude := by decide
    have := F64.nearest_le hpos (hle.trans hlast)
    omega
  · intro h
    have hle : F64.units ageLimit.magnitude * 2 ^ 1074 ≤ F64.units m * 2 ^ 1074 := Nat.mul_le_mul_right _ (hmono h)
    have hlimit : F64.units F64.wordMagnitude * F64.units freshWindow.magnitude ≤
        F64.units ageLimit.magnitude * 2 ^ 1074 := by decide +kernel
    exact F64.le_nearest hpos (by decide) (hlimit.trans hle)

/-- An age with a sign is the negative zero. -/
theorem eq_negative_zero {s : F64} (h : F64.zero.le s = true) (hs : s.bits.msb = true) : s = ⟨0x8000000000000000⟩ := by
  simp only [F64.le, F64.key, hs, if_true, Bool.and_eq_true, decide_eq_true_eq] at h
  have hmag : s.magnitude = 0 := by
    have : F64.zero.key = 0 := by decide
    rw [F64.key] at this
    omega
  rw [BitVec.msb_eq_decide, decide_eq_true_eq] at hs
  have hbits : s.bits = 0x8000000000000000 := by
    apply BitVec.eq_of_toNat_eq
    have := s.bits.isLt
    unfold F64.magnitude at hmag
    change s.bits.toNat = 2 ^ 63
    omega
  cases s
  exact congrArg F64.mk hbits

/-- The last bucket is that of the ages that are no number of seconds, and of those past the limit. -/
theorem freshnessBucket_eq_max_iff (age : Option F64) : freshnessBucket age = 0xFFFFFFFFFFFFFFFF ↔ young age = false := by
  cases age with
  | none => exact iff_of_true rfl rfl
  | some s =>
    rw [freshnessBucket, young, Option.any_some]
    cases hdated : s.isFinite && F64.zero.le s with
    | false => simp
    | true =>
      obtain ⟨hfin, hle⟩ := (Bool.and_eq_true _ _).mp hdated
      have hnan : s.isNaN = false := F64.isNaN_of_isFinite hfin
      rw [if_pos rfl, Bool.true_and]
      cases hs : s.bits.msb with
      | true =>
        rw [eq_negative_zero hle hs]
        decide +kernel
      | false =>
        have hdiv : s.div freshWindow = F64.ofMagnitude false
            (F64.nearest (F64.units s.magnitude * 2 ^ 1074) (F64.units freshWindow.magnitude)) := by
          have hsign : freshWindow.bits.msb = false := by decide
          rw [F64.div_of_isFinite hfin (by decide) (by decide), hs, hsign]
          rfl
        have hquot := F64.nearest_le_infinity (F64.units s.magnitude * 2 ^ 1074) (F64.units freshWindow.magnitude)
        have hword : F64.nearest (F64.units s.magnitude * 2 ^ 1074) (F64.units freshWindow.magnitude) < 2 ^ 63 :=
          lt_of_le_of_lt hquot (by decide)
        have hquotNum : (s.div freshWindow).isNaN = false := by
          rw [hdiv, F64.isNaN, F64.magnitude_ofMagnitude hword, decide_eq_false_iff_not]
          exact hquot.not_gt
        have hlimit : ageLimit.key = (ageLimit.magnitude : Int) ∧ ageLimit.isNaN = false := by decide
        rw [F64.toU64_floor_eq_max_iff hquotNum (by rw [hdiv, F64.msb_ofMagnitude hword]), hdiv,
          F64.magnitude_ofMagnitude hword, wordMagnitude_le_fifth]
        have hkey : s.key = (s.magnitude : Int) := by
          rw [F64.key, hs]
          rfl
        simp [F64.lt, hnan, hlimit, hkey]

/-! ## Winners -/

/-- The number that orders the signals of aircraft. -/
def signal (a : NearbyAircraft) : Int := (a.rssi.getD leastFinite).totalKey

/-- A fresher bucket, or the same bucket and a stronger signal. -/
def Better (a b : NearbyAircraft) : Prop :=
  freshnessBucket a.seenPos < freshnessBucket b.seenPos ∨
    (freshnessBucket a.seenPos = freshnessBucket b.seenPos ∧ signal b < signal a)

/-- The comparison by the signal alone, the strongest first. -/
def bySignal (a b : NearbyAircraft) : Ordering := compare (signal b) (signal a)

instance transCmp_bySignal : Std.TransCmp bySignal :=
  inferInstanceAs (Std.TransCmp fun a b : NearbyAircraft => compareOn signal b a)

instance transCmp_compareCopies : Std.TransCmp compareCopies :=
  inferInstanceAs (Std.TransCmp (compareLex (compareOn fun a => freshnessBucket a.seenPos) bySignal))

/-- The copies are compared by what is better. -/
theorem compareCopies_eq_lt {a b : NearbyAircraft} : compareCopies a b = .lt ↔ Better a b := by
  rw [compareCopies, Ordering.then_eq_lt, Std.compare_eq_lt, Std.compare_eq_iff_eq]
  simp only [F64.totalCmp, Std.compare_eq_lt]
  rfl

/-- A copy that is not after another is not worse. -/
theorem compareCopies_ne_gt {a b : NearbyAircraft} : compareCopies a b ≠ .gt ↔ ¬ Better b a := by
  rw [← compareCopies_eq_lt, ne_eq, Std.OrientedCmp.gt_iff_lt]

/-- The winner of a group is better than all before it, and nothing after it is better. -/
theorem firstMin_compareCopies {group : List NearbyAircraft} {w : NearbyAircraft} :
    FirstMin compareCopies group w ↔
      ∃ before after, group = before ++ w :: after ∧ (∀ a ∈ before, Better w a) ∧ ∀ a ∈ after, ¬ Better a w := by
  simp only [FirstMin, compareCopies_eq_lt, compareCopies_ne_gt]

/-! ## Groups -/

/-- The hex of an aircraft without its case, if it has one. -/
def hexKey (a : NearbyAircraft) : Option (List Char) := (a.hex.filter fun hex => !hex.isEmpty).map asciiFold

/-- The copies of an aircraft. -/
def copies (key : List Char) (l : List NearbyAircraft) : List NearbyAircraft := l.filter fun a => hexKey a = some key

/-- The aircraft without a hex. -/
def hexlessOf (l : List NearbyAircraft) : List NearbyAircraft := l.filter fun a => hexKey a = none

/-- The copies of a hex are the aircraft that have it. -/
theorem mem_copies {l : List NearbyAircraft} {key : List Char} {a : NearbyAircraft} :
    a ∈ copies key l ↔ a ∈ l ∧ hexKey a = some key := by
  simp [copies]

/-- An aircraft without a hex is kept apart. -/
theorem add_of_none {a : NearbyAircraft} (h : hexKey a = none) (g : Gathered) :
    g.add a = { g with hexless := g.hexless ++ [a] } := by
  unfold Gathered.add
  cases hhex : a.hex with
  | none => rfl
  | some hex =>
    have hempty : hex.isEmpty = true := by simpa [hexKey, hhex, Option.filter] using h
    exact if_pos hempty

/-- One with a hex joins the group of its hex. -/
theorem add_of_some {a : NearbyAircraft} {key : List Char} (h : hexKey a = some key) (g : Gathered) :
    g.add a = { g with
      order := if key ∈ g.groups then g.order else g.order ++ [key]
      groups := AList.insert key ((AList.lookup key g.groups).getD [] ++ [a]) g.groups } := by
  unfold Gathered.add
  cases hhex : a.hex with
  | none => simp [hexKey, hhex] at h
  | some hex =>
    obtain ⟨hempty, hkey⟩ : hex.isEmpty = false ∧ asciiFold hex = key := by simpa [hexKey, hhex, Option.filter] using h
    subst hkey
    simp only [hempty, Bool.false_eq_true, if_false]

/-- What is gathered of a list: its hexes in the order in which they come first, and the copies of each in their order. -/
structure Gathers (l : List NearbyAircraft) (g : Gathered) : Prop where
  order : g.order = (l.filterMap hexKey).eraseDups
  nodup : g.order.Nodup
  groups : ∀ key, AList.lookup key g.groups = if key ∈ l.filterMap hexKey then some (copies key l) else none
  hexless : g.hexless = hexlessOf l

namespace Gathers

theorem nil : Gathers [] Gathered.empty := ⟨rfl, List.nodup_nil, fun _ => rfl, rfl⟩

variable {l : List NearbyAircraft} {g : Gathered}

/-- There is a group for each hex that there is. -/
theorem mem_groups (h : Gathers l g) {key : List Char} : key ∈ g.groups ↔ key ∈ l.filterMap hexKey := by
  rw [Table.mem_iff_lookup, h.groups]
  split <;> simp_all

/-- One more aircraft is gathered. -/
theorem add (h : Gathers l g) (a : NearbyAircraft) : Gathers (l ++ [a]) (g.add a) := by
  cases hkey : hexKey a with
  | none =>
    rw [add_of_none hkey]
    constructor
    · simpa [hkey] using h.order
    · exact h.nodup
    · intro key
      simpa [hkey, copies] using h.groups key
    · simp [hexlessOf, hkey, h.hexless]
  | some key =>
    rw [add_of_some hkey]
    have hmem : key ∈ g.order ↔ key ∈ l.filterMap hexKey := by rw [h.order, List.mem_eraseDups]
    have hpush : copies key (l ++ [a]) = copies key l ++ [a] := by simp [copies, hkey]
    constructor
    · simp only [h.mem_groups, List.filterMap_append, List.eraseDups_append, ← h.order]
      split <;> simp_all [List.removeAll, List.eraseDups_cons]
    · simp only [h.mem_groups]
      split
      · exact h.nodup
      · rename_i hnew
        refine List.nodup_append.mpr ⟨h.nodup, List.nodup_singleton key, ?_⟩
        rintro x hx y hy rfl
        exact hnew (hmem.mp (List.mem_singleton.mp hy ▸ hx))
    · intro k
      simp only [Table.lookup_insert, h.groups]
      by_cases hk : k = key
      · have hin : key ∈ (l ++ [a]).filterMap hexKey := by simp [hkey]
        rw [if_pos hk, hk, hpush, if_pos hin]
        split
        · rfl
        · rename_i hnew
          have hnone : copies key l = [] := by
            rw [List.eq_nil_iff_forall_not_mem]
            intro b hb
            exact hnew (List.mem_filterMap.mpr ⟨b, mem_copies.mp hb⟩)
          rw [hnone]
          rfl
      · simp [copies, hkey, hk, Ne.symm hk]
    · simp [hexlessOf, hkey, h.hexless]

/-- All aircraft of a list are gathered. -/
theorem foldl (h : Gathers l g) (l' : List NearbyAircraft) : Gathers (l ++ l') (l'.foldl Gathered.add g) := by
  induction l' generalizing l g with
  | nil => simpa using h
  | cons a l' ih => simpa using ih (h.add a)

end Gathers

variable {l : List NearbyAircraft}

/-- Of every group, in the order given, the winner is taken. -/
theorem exists_takeWinners (order : List (List Char)) (groups : Table (List Char) (List NearbyAircraft))
    (hnodup : order.Nodup) (hgroups : ∀ key ∈ order, AList.lookup key groups = some (copies key l) ∧ copies key l ≠ []) :
    ∃ winners, takeWinners groups order = some winners ∧ winners.map hexKey = order.map some ∧
      ∀ w ∈ winners, ∃ key, FirstMin compareCopies (copies key l) w := by
  induction order generalizing groups with
  | nil => exact ⟨[], rfl, rfl, by simp⟩
  | cons key order ih =>
    obtain ⟨hlookup, hne⟩ := hgroups key List.mem_cons_self
    obtain ⟨w, hw, hfirst⟩ : ∃ w, minBy compareCopies (copies key l) = some w ∧ FirstMin compareCopies (copies key l) w :=
      exists_minBy hne
    rw [List.nodup_cons] at hnodup
    have hrest : ∀ k ∈ order, AList.lookup k (AList.erase key groups) = some (copies k l) ∧ copies k l ≠ [] := by
      intro k hk
      have hkey : k ≠ key := by
        rintro rfl
        exact hnodup.1 hk
      rw [Table.lookup_erase, if_neg hkey]
      exact hgroups k (List.mem_cons_of_mem key hk)
    obtain ⟨winners, htake, hkeys, hbest⟩ := ih (AList.erase key groups) hnodup.2 hrest
    refine ⟨w :: winners, ?_, ?_, ?_⟩
    · simp [takeWinners, pickWinner, hlookup, hw, htake]
    · rw [List.map_cons, List.map_cons, hkeys, (mem_copies.mp hfirst.mem).2]
    · intro v hv
      rcases List.mem_cons.mp hv with rfl | hv
      · exact ⟨key, hfirst⟩
      · exact hbest v hv

/-! ## The merge -/

/-- The union of the lists, with the best copy of each aircraft. -/
structure BestCopies (perBackend : List (List NearbyAircraft)) (winners : List NearbyAircraft) : Prop where
  /-- The winners come first, and then all aircraft without a hex. -/
  merged : mergeAircraft perBackend = some (winners ++ hexlessOf perBackend.flatten)
  /-- Every hex is there once, in the order in which the hexes come first. -/
  keys : winners.map hexKey = (perBackend.flatten.filterMap hexKey).eraseDups.map some
  /-- A winner is one of the copies: no copy is better, and those before it are worse. -/
  best : ∀ w ∈ winners, ∀ key, hexKey w = some key → ∃ before after, copies key perBackend.flatten = before ++ w :: after ∧
    (∀ a ∈ before, Better w a) ∧ ∀ a ∈ after, ¬ Better a w

/-- A winner without a valid age has no copy with one. -/
def DatedFirst (perBackend : List (List NearbyAircraft)) (winners : List NearbyAircraft) : Prop :=
  ∀ w ∈ winners, dated w.seenPos = false → ∀ a ∈ perBackend.flatten, hexKey a = hexKey w → dated a.seenPos = false

/-- Copies of which one has a valid age, but none an age below the limit, and the first of the strongest has no valid age. -/
def Overaged (group : List NearbyAircraft) : Prop :=
  (∃ a ∈ group, dated a.seenPos = true) ∧ (∀ a ∈ group, young a.seenPos = false) ∧
    ∃ w, FirstMin bySignal group w ∧ dated w.seenPos = false

variable {perBackend : List (List NearbyAircraft)} {winners : List NearbyAircraft}

/-- A merge always has winners. -/
theorem exists_bestCopies (perBackend : List (List NearbyAircraft)) : ∃ winners, BestCopies perBackend winners := by
  have hg : Gathers perBackend.flatten (perBackend.flatten.foldl Gathered.add Gathered.empty) :=
    Gathers.nil.foldl perBackend.flatten
  rw [List.foldl_flatten] at hg
  generalize hgather : perBackend.foldl (fun g backend => backend.foldl Gathered.add g) Gathered.empty = g at hg
  have hgroups : ∀ key ∈ g.order, AList.lookup key g.groups = some (copies key perBackend.flatten) ∧
      copies key perBackend.flatten ≠ [] := by
    intro key hkey
    rw [hg.order, List.mem_eraseDups] at hkey
    refine ⟨by rw [hg.groups, if_pos hkey], ?_⟩
    obtain ⟨a, ha, hak⟩ := List.mem_filterMap.mp hkey
    exact List.ne_nil_of_mem (mem_copies.mpr ⟨ha, hak⟩)
  obtain ⟨winners, htake, hkeys, hbest⟩ := exists_takeWinners g.order g.groups hg.nodup hgroups
  refine ⟨winners, ?_, ?_, ?_⟩
  · simp [mergeAircraft, hgather, htake, hg.hexless]
  · rw [hkeys, hg.order]
  · intro w hw key hkey
    obtain ⟨k, hfirst⟩ := hbest w hw
    rw [(mem_copies.mp hfirst.mem).2, Option.some.injEq] at hkey
    rw [← hkey]
    exact firstMin_compareCopies.mp hfirst

/-- Every hex has one. -/
theorem BestCopies.exists_winner (h : BestCopies perBackend winners) {key : List Char} {a : NearbyAircraft}
    (ha : a ∈ copies key perBackend.flatten) : ∃ w ∈ winners, hexKey w = some key := by
  obtain ⟨hmem, hkey⟩ := mem_copies.mp ha
  have horder : some key ∈ winners.map hexKey := by
    rw [h.keys]
    exact List.mem_map_of_mem (List.mem_eraseDups.mpr (List.mem_filterMap.mpr ⟨a, hmem, hkey⟩))
  exact List.mem_map.mp horder

/-- It is the first of the best copies. -/
theorem BestCopies.firstMin (h : BestCopies perBackend winners) {w : NearbyAircraft} (hw : w ∈ winners) {key : List Char}
    (hkey : hexKey w = some key) : FirstMin compareCopies (copies key perBackend.flatten) w :=
  firstMin_compareCopies.mpr (h.best w hw key hkey)

/-- Copies in the last bucket are compared by their signals. -/
theorem compareCopies_of_old {a b : NearbyAircraft} (ha : young a.seenPos = false) (hb : young b.seenPos = false) :
    compareCopies a b = bySignal a b := by
  rw [compareCopies, (freshnessBucket_eq_max_iff _).mpr ha, (freshnessBucket_eq_max_iff _).mpr hb]
  rfl

/-- Where all dated copies of a hex are too old, the winner need not be a dated one. -/
theorem not_datedFirst (h : BestCopies perBackend winners) {key : List Char}
    (ho : Overaged (copies key perBackend.flatten)) : ¬ DatedFirst perBackend winners := by
  intro hd
  obtain ⟨⟨a, ha, hdated⟩, hold, v, hv, hundated⟩ := ho
  obtain ⟨w, hw, hkey⟩ := h.exists_winner ha
  have hfirst : FirstMin bySignal (copies key perBackend.flatten) w :=
    (h.firstMin hw hkey).congr fun b hb c hc => compareCopies_of_old (hold b hb) (hold c hc)
  obtain ⟨hmem, hak⟩ := mem_copies.mp ha
  have hfalse := hd w hw (hfirst.unique hv ▸ hundated) a hmem (hak.trans hkey.symm)
  rw [hfalse] at hdated
  cases hdated

/-- An age that is valid in the last bucket is past the limit. -/
theorem young_of_dated_false {age : Option F64} (h : dated age = false) : young age = false := by
  cases age with
  | none => rfl
  | some s =>
    rw [dated, Option.any_some] at h
    rw [young, Option.any_some, h, Bool.false_and]

/-- Where no copy is too old, those with a date win. -/
theorem datedFirst_of_not_overaged (h : BestCopies perBackend winners)
    (ho : ∀ key, ¬ Overaged (copies key perBackend.flatten)) : DatedFirst perBackend winners := by
  intro w hw hundated a ha hkey
  by_contra hdated
  rw [Bool.not_eq_false] at hdated
  obtain ⟨key, hk⟩ : ∃ key, hexKey w = some key := by
    have : hexKey w ∈ winners.map hexKey := List.mem_map_of_mem hw
    rw [h.keys, List.mem_map] at this
    obtain ⟨key, -, hk⟩ := this
    exact ⟨key, hk.symm⟩
  have hfirst := h.firstMin hw hk
  -- the winner is in the last bucket, so all copies are
  have hold : ∀ b ∈ copies key perBackend.flatten, young b.seenPos = false := by
    intro b hb
    rw [← freshnessBucket_eq_max_iff]
    have hbucket := (freshnessBucket_eq_max_iff w.seenPos).mpr (young_of_dated_false hundated)
    have hnot : ¬ Better b w := compareCopies_ne_gt.mp (hfirst.not_gt hb)
    rw [Better, not_or, hbucket] at hnot
    have hmax : freshnessBucket b.seenPos ≤ 0xFFFFFFFFFFFFFFFF :=
      UInt64.le_iff_toNat_le.mpr (Nat.le_of_lt_succ (UInt64.toNat_lt _))
    exact UInt64.le_antisymm hmax (UInt64.not_lt.mp hnot.1)
  refine ho key ⟨⟨a, mem_copies.mpr ⟨ha, hkey.trans hk⟩, hdated⟩, hold, w, ?_, hundated⟩
  exact hfirst.congr fun b hb c hc => compareCopies_of_old (hold b hb) (hold c hc)

/-- The merge is the union of the lists with the best copy of every aircraft. A copy with a valid age wins over those without
one unless no copy has an age below the limit, and the first of the strongest signals comes without a valid age. -/
theorem merge_best_copies (perBackend : List (List NearbyAircraft)) :
    (∃ winners, BestCopies perBackend winners) ∧
      ((∃ winners, BestCopies perBackend winners ∧ DatedFirst perBackend winners) ↔
        ∀ key, ¬ Overaged (copies key perBackend.flatten)) := by
  refine ⟨exists_bestCopies perBackend, ?_, ?_⟩
  · rintro ⟨winners, h, hd⟩ key ho
    exact not_datedFirst h ho hd
  · intro ho
    obtain ⟨winners, h⟩ := exists_bestCopies perBackend
    exact ⟨winners, h, datedFirst_of_not_overaged h ho⟩

/-- `1e20` seconds and a signal of `-30.0`. -/
def agedCopy : NearbyAircraft :=
  { hex := some "3c6589", seenPos := some ⟨0x4415AF1D78B58C40⟩, rssi := some ⟨0xC03E000000000000⟩ }

/-- No age, and a signal of `-10.0`. -/
def agelessCopy : NearbyAircraft := { hex := some "3C6589", rssi := some ⟨0xC024000000000000⟩ }

/-- A copy without an age wins over one with a valid age. -/
theorem ageless_wins : ¬ ∀ perBackend : List (List NearbyAircraft),
    ∃ winners, BestCopies perBackend winners ∧ DatedFirst perBackend winners := by
  intro h
  obtain ⟨winners, hbest, hdated⟩ := h [[agedCopy], [agelessCopy]]
  have haged : hexKey agedCopy = some "3c6589".toList := by decide
  have hageless : hexKey agelessCopy = some "3c6589".toList := by decide
  have hgroup : copies "3c6589".toList [[agedCopy], [agelessCopy]].flatten = [agedCopy, agelessCopy] := by
    simp [copies, haged, hageless]
  have hover : Overaged [agedCopy, agelessCopy] := by
    refine ⟨⟨agedCopy, by simp, by decide⟩, ?_, agelessCopy, ⟨[agedCopy], [], rfl, ?_, by simp⟩, by decide⟩
    · decide
    · decide
  exact not_datedFirst hbest (hgroup ▸ hover) hdated

end Twitch1337.Backends
