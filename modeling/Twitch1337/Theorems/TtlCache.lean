import Twitch1337.Content.Cache
import Twitch1337.Lib.Machine
import Twitch1337.Lib.Recency

/-!
# The cache is a bounded map that expires

What a cache holds after any run is told by the log of the inserts: an entry is the last insert of its key, the queue has the keys in
the order of these, and what is missing has expired or was pushed out by as many other keys as there is room for.
-/

namespace Twitch1337.Content

open Recency

variable {V : Type}

/-- An entry of the log of a cache. -/
structure Insertion (V : Type) where
  key : Text
  value : V
  time : Nat

/-- The inserts of a run. -/
def insertions (calls : List (CacheCall V)) : List (Insertion V) :=
  calls.filterMap fun
    | .get .. => none
    | .insert _ insertedAt key value => some ⟨key, value, insertedAt⟩

/-- The entries and the queue follow a log. -/
structure Tracks (log : List (Insertion V)) (entries : Table Text (CacheEntry V)) (order : List Text) : Prop where
  entry : ∀ k e, entries.lookup k = some e → ∃ after, IsLast Insertion.key log ⟨k, e.value, e.insertedAt⟩ after
  order : order = (recent Insertion.key log).filter fun k => decide (k ∈ entries)

/-- What is missing has expired, or as many other keys as there is room for came after it. -/
def MissesRightly (ttl capacity : Nat) (log : List (Insertion V)) (entries : Table Text (CacheEntry V)) (now : Nat) : Prop :=
  ∀ i after, IsLast Insertion.key log i after → i.key ∉ entries →
    ttl < now - i.time ∨ capacity ≤ (recent Insertion.key after).length

variable {log : List (Insertion V)} {entries : Table Text (CacheEntry V)} {order : List Text} {ttl capacity now : Nat}

/-! ## Keys of the map and of the queue -/

theorem Tracks.nodup (h : Tracks log entries order) : order.Nodup := by
  rw [h.order]
  exact (nodup_recent Insertion.key log).filter _

theorem Tracks.mem_iff (h : Tracks log entries order) (k : Text) : k ∈ order ↔ k ∈ entries := by
  rw [h.order, List.mem_filter, decide_eq_true_iff, and_iff_right_iff_imp]
  intro hk
  obtain ⟨e, he⟩ := Table.mem_iff_lookup.mp hk
  obtain ⟨after, hlast⟩ := h.entry k e he
  exact mem_recent.mpr ⟨_, hlast.mem, rfl⟩

theorem Tracks.length (h : Tracks log entries order) : entries.keys.length = order.length := by
  refine List.Perm.length_eq ?_
  rw [List.perm_ext_iff_of_nodup entries.keys_nodup h.nodup]
  intro k
  rw [h.mem_iff, AList.mem_keys]

theorem Tracks.remove (h : Tracks log entries order) (k : Text) :
    Tracks log (entries.erase k) (order.filter fun x => decide (x ≠ k)) := by
  constructor
  · intro x e he
    rw [Table.lookup_erase] at he
    split at he
    · cases he
    · exact h.entry x e he
  · rw [h.order, List.filter_filter]
    refine List.filter_congr fun x _ => ?_
    rw [← Bool.decide_and, decide_eq_decide, AList.mem_erase]

/-! ## Purges -/

theorem lookup_foldl_remove (keys : List Text) (c : TtlCache V) (k : Text) :
    (keys.foldl TtlCache.remove c).entries.lookup k = if k ∈ keys then none else c.entries.lookup k := by
  induction keys generalizing c with
  | nil => simp
  | cons x keys ih =>
    rw [List.foldl_cons, ih, TtlCache.remove, Table.lookup_erase]
    by_cases hx : k = x
    · simp [hx]
    · simp [hx]

/-- A purge leaves what has not expired. -/
theorem lookup_purgeExpired (c : TtlCache V) (now : Nat) (k : Text) :
    (c.purgeExpired now).entries.lookup k = (c.entries.lookup k).filter fun e => !c.isExpired now e := by
  rw [TtlCache.purgeExpired, lookup_foldl_remove]
  cases h : c.entries.lookup k with
  | none => simp
  | some e =>
    have hk : k ∈ c.entries.keys := AList.mem_keys.mp (Table.mem_iff_lookup.mpr ⟨e, h⟩)
    by_cases he : c.isExpired now e = true
    · simp [List.mem_filter, hk, h, he, Option.filter]
    · simp [List.mem_filter, h, he, Option.filter]

theorem length_purgeExpired_le (c : TtlCache V) (now : Nat) :
    (c.purgeExpired now).entries.keys.length ≤ c.entries.keys.length := by
  refine (List.subperm_of_subset (AList.keys_nodup _) fun k hk => ?_).length_le
  obtain ⟨e, he⟩ := Table.mem_iff_lookup.mp (AList.mem_keys.mpr hk)
  rw [lookup_purgeExpired, Option.filter_eq_some_iff] at he
  exact AList.mem_keys.mp (Table.mem_iff_lookup.mpr ⟨e, he.1⟩)

/-- The rest of a cache is not touched by removals. -/
theorem foldl_remove_config (keys : List Text) (c : TtlCache V) :
    (keys.foldl TtlCache.remove c).ttl = c.ttl ∧ (keys.foldl TtlCache.remove c).capacity = c.capacity := by
  induction keys generalizing c with
  | nil => exact ⟨rfl, rfl⟩
  | cons x keys ih => exact ih (c.remove x)

theorem Tracks.foldl_remove (keys : List Text) {c : TtlCache V} (h : Tracks log c.entries c.order) :
    Tracks log (keys.foldl TtlCache.remove c).entries (keys.foldl TtlCache.remove c).order := by
  induction keys generalizing c with
  | nil => exact h
  | cons x keys ih => exact ih (h.remove x)

/-- The cache after a log, at a time. -/
structure Follows (ttl capacity : Nat) (log : List (Insertion V)) (c : TtlCache V) (now : Nat) : Prop where
  ttl_eq : c.ttl = ttl
  capacity_eq : c.capacity = capacity
  tracks : Tracks log c.entries c.order
  missing : MissesRightly ttl capacity log c.entries now

theorem Follows.purge {c : TtlCache V} {now' : Nat} (h : Follows ttl capacity log c now) (hnow : now ≤ now') :
    Follows ttl capacity log (c.purgeExpired now') now' := by
  refine ⟨(foldl_remove_config _ c).1.trans h.ttl_eq, (foldl_remove_config _ c).2.trans h.capacity_eq, h.tracks.foldl_remove _, ?_⟩
  intro i after hlast hmiss
  by_cases hthere : i.key ∈ c.entries
  · left
    obtain ⟨e, he⟩ := Table.mem_iff_lookup.mp hthere
    obtain ⟨_, hlast'⟩ := h.tracks.entry i.key e he
    have htime : i.time = e.insertedAt := congrArg Insertion.time (hlast.unique hlast' rfl).1
    have hexpired : c.isExpired now' e = true := by
      by_contra hne
      refine hmiss (Table.mem_iff_lookup.mpr ⟨e, ?_⟩)
      rw [lookup_purgeExpired, he]
      simp [Option.filter, hne]
    rw [TtlCache.isExpired, decide_eq_true_iff, h.ttl_eq] at hexpired
    rwa [htime]
  · rcases h.missing i after hlast hthere with hold | hfull
    · exact .inl (by omega)
    · exact .inr hfull

/-! ## Inserts -/

/-- A key that is not in the map goes to the end of the queue. -/
theorem Tracks.insert (h : Tracks log entries order) {i : Insertion V} (hi : i.key ∉ entries) :
    Tracks (log ++ [i]) (entries.insert i.key ⟨i.value, i.time⟩) (order ++ [i.key]) := by
  constructor
  · let logged : Text → CacheEntry V → Insertion V := fun k e => ⟨k, e.value, e.insertedAt⟩
    exact isLast_of_lookup_insert (f := logged) (fun _ _ => rfl) h.entry i.key ⟨i.value, i.time⟩
  · have hself : i.key ∈ entries.insert i.key ⟨i.value, i.time⟩ := (AList.mem_insert entries).mpr (.inl rfl)
    rw [recent_snoc, List.filter_append, List.filter_filter, List.filter_singleton, h.order]
    simp only [hself, decide_true, cond_true]
    congr 1
    refine List.filter_congr fun k _ => ?_
    rw [← Bool.decide_and, decide_eq_decide, AList.mem_insert]
    by_cases hk : k = i.key
    · simp [hk, hi]
    · simp [hk]

/-- The first key of the queue has at least as many others behind it as the queue. -/
theorem Tracks.behind {k : Text} {rest : List Text} (h : Tracks log entries (k :: rest)) {i : Insertion V}
    {after : List (Insertion V)} (hlast : IsLast Insertion.key log i after) (hi : i.key = k) :
    rest.length ≤ (recent Insertion.key after).length := by
  obtain ⟨l, hl⟩ := hlast.recent_eq
  have hnodup := nodup_recent Insertion.key log
  have horder := h.order
  have hk : k ∈ entries := (h.mem_iff k).mp List.mem_cons_self
  rw [hl] at horder hnodup
  rw [hi] at horder hnodup
  rw [List.filter_append, List.filter_cons_of_pos (by simpa using hk)] at horder
  have hnot : k ∉ l := fun hmem => (List.nodup_append.mp hnodup).2.2 k hmem k List.mem_cons_self rfl
  cases hfront : l.filter (fun x => decide (x ∈ entries)) with
  | nil =>
    rw [hfront, List.nil_append] at horder
    rw [(List.cons.inj horder).2]
    exact List.length_filter_le _ _
  | cons x front =>
    rw [hfront] at horder
    obtain rfl : k = x := (List.cons.inj horder).1
    have hmem : k ∈ l.filter fun x => decide (x ∈ entries) := by rw [hfront]; exact List.mem_cons_self
    exact absurd (List.mem_of_mem_filter hmem) hnot

/-- An eviction ends within the capacity, and misses what has that many keys behind it. -/
theorem evict_spec (h : Tracks log entries order) (hmiss : MissesRightly ttl capacity log entries now) :
    Tracks log (TtlCache.evict capacity entries order).1 (TtlCache.evict capacity entries order).2 ∧
      MissesRightly ttl capacity log (TtlCache.evict capacity entries order).1 now ∧
      (TtlCache.evict capacity entries order).1.keys.length ≤ capacity := by
  induction order generalizing entries with
  | nil =>
    refine ⟨h, hmiss, ?_⟩
    rw [TtlCache.evict, h.length]
    exact Nat.zero_le _
  | cons k rest ih =>
    rw [TtlCache.evict]
    split
    · rename_i hfull
      have hk : k ∉ rest := (List.nodup_cons.mp h.nodup).1
      have hrest : (k :: rest).filter (fun x => decide (x ≠ k)) = rest := by
        rw [List.filter_cons_of_neg (by simp)]
        exact List.filter_eq_self.mpr fun x hx => decide_eq_true fun heq => hk (heq ▸ hx)
      have htracks := h.remove k
      rw [hrest] at htracks
      refine ih htracks fun i after hlast hi => ?_
      by_cases hkey : i.key = k
      · right
        have hbehind := h.behind hlast hkey
        rw [h.length, List.length_cons] at hfull
        omega
      · exact hmiss i after hlast fun hmem => hi (AList.mem_erase.mpr ⟨hkey, hmem⟩)
    · rename_i hfits
      exact ⟨h, hmiss, Nat.not_lt.mp hfits⟩

/-- What is missing before an insert is missing after it, but for its own key. -/
theorem MissesRightly.insert {i : Insertion V} (h : ∀ j after, IsLast Insertion.key log j after → j.key ∉ entries → j.key ≠ i.key →
    ttl < now - j.time ∨ capacity ≤ (recent Insertion.key after).length) (htime : now ≤ i.time) :
    MissesRightly ttl capacity (log ++ [i]) (entries.insert i.key ⟨i.value, i.time⟩) i.time := by
  intro j after hlast hj
  rw [AList.mem_insert, not_or] at hj
  rcases isLast_snoc_cases hlast with ⟨rfl, _⟩ | ⟨_, rest, rfl, hlast'⟩
  · exact absurd rfl hj.1
  · rcases h j rest hlast' hj.2 hj.1 with hold | hfull
    · exact .inl (by omega)
    · exact .inr (Nat.le_trans hfull (length_recent_le (List.subset_append_left _ _)))

theorem Follows.insert {c : TtlCache V} {now' : Nat} (h : Follows ttl capacity log c now) (hnow : now ≤ now')
    {i : Insertion V} (htime : now' ≤ i.time) :
    Follows ttl capacity (log ++ [i]) (c.insert now' i.time i.key i.value) i.time ∧
      (c.insert now' i.time i.key i.value).entries.keys.length ≤ capacity := by
  have hpurged := h.purge hnow
  generalize hp : c.purgeExpired now' = p at hpurged
  obtain ⟨q, hq, htracks, hkey, hconfig, hsame⟩ : ∃ q, (if i.key ∈ p.entries then p.remove i.key else p) = q ∧
      Tracks log q.entries q.order ∧ i.key ∉ q.entries ∧ (q.ttl = ttl ∧ q.capacity = capacity) ∧
      ∀ k, k ∉ q.entries → k ≠ i.key → k ∉ p.entries := by
    refine ⟨_, rfl, ?_⟩
    split
    · refine ⟨hpurged.tracks.remove i.key, ?_, ⟨hpurged.ttl_eq, hpurged.capacity_eq⟩, ?_⟩
      · exact fun hmem => (AList.mem_erase.mp hmem).1 rfl
      · exact fun k hk hne hmem => hk (AList.mem_erase.mpr ⟨hne, hmem⟩)
    · exact ⟨hpurged.tracks, by assumption, ⟨hpurged.ttl_eq, hpurged.capacity_eq⟩, fun k hk _ => hk⟩
  have hmiss : MissesRightly ttl capacity (log ++ [i]) (q.entries.insert i.key ⟨i.value, i.time⟩) i.time :=
    MissesRightly.insert (fun j after hlast hj hne => hpurged.missing j after hlast (hsame j.key hj hne)) htime
  obtain ⟨htracks', hmiss', hsize⟩ := evict_spec (htracks.insert hkey) hmiss
  unfold TtlCache.insert
  simp only [hp, hq, TtlCache.evictOldest, hconfig.1, hconfig.2]
  exact ⟨⟨rfl, rfl, htracks', hmiss'⟩, hsize⟩

/-! ## Runs -/

theorem Follows.new (ttl capacity now : Nat) : Follows (V := V) ttl capacity [] (.new ttl capacity) now := by
  refine ⟨rfl, rfl, ⟨?_, rfl⟩, ?_⟩
  · intro k e he
    cases he
  · intro i after hlast
    exact absurd hlast.mem List.not_mem_nil

/-- A call keeps what a cache follows, and the bound on its size. -/
theorem Follows.step {c c' : TtlCache V} {now now' : Nat} {calls : List (CacheCall V)} {call : CacheCall V}
    (h : Follows ttl capacity (insertions calls) c now ∧ c.entries.keys.length ≤ capacity)
    (hstep : call.step (c, now) = some (c', now')) :
    Follows ttl capacity (insertions (calls ++ [call])) c' now' ∧ c'.entries.keys.length ≤ capacity := by
  cases call with
  | get at_ key =>
    simp only [CacheCall.step] at hstep
    split at hstep
    · rename_i hnow
      cases hstep
      have hlog : insertions (calls ++ [.get now' key]) = insertions calls := by simp [insertions]
      rw [hlog]
      exact ⟨h.1.purge hnow, Nat.le_trans (length_purgeExpired_le c now') h.2⟩
    · cases hstep
  | insert at_ time key value =>
    simp only [CacheCall.step] at hstep
    split at hstep
    · rename_i hnow
      cases hstep
      have hlog : insertions (calls ++ [.insert at_ now' key value]) = insertions calls ++ [⟨key, value, now'⟩] := by
        simp [insertions]
      rw [hlog]
      exact h.1.insert (i := ⟨key, value, now'⟩) hnow.1 hnow.2
    · cases hstep

/-- A read is of the last insert of its key, which has not expired. -/
theorem Follows.get_some {c : TtlCache V} {now' : Nat} (h : Follows ttl capacity log c now) {k : Text} {v : V}
    (hget : (c.get now' k).1 = some v) :
    ∃ i after, IsLast Insertion.key log i after ∧ i.key = k ∧ i.value = v ∧ now' - i.time ≤ ttl := by
  obtain ⟨e, he, rfl⟩ := Option.map_eq_some_iff.mp hget
  rw [lookup_purgeExpired, Option.filter_eq_some_iff] at he
  obtain ⟨after, hlast⟩ := h.tracks.entry k e he.1
  refine ⟨_, after, hlast, rfl, rfl, ?_⟩
  have hfresh := he.2
  rw [TtlCache.isExpired, h.ttl_eq, Bool.not_eq_true', decide_eq_false_iff_not] at hfresh
  exact Nat.not_lt.mp hfresh

/-- A read that finds nothing is of a key that has expired or was pushed out. -/
theorem Follows.get_none {c : TtlCache V} {now' : Nat} (h : Follows ttl capacity log c now) (hnow : now ≤ now') {i : Insertion V}
    {after : List (Insertion V)} (hlast : IsLast Insertion.key log i after) (hfresh : now' - i.time ≤ ttl)
    (hget : (c.get now' i.key).1 = none) : capacity ≤ (recent Insertion.key after).length := by
  have hmiss : i.key ∉ (c.purgeExpired now').entries := by
    rw [← AList.lookup_eq_none]
    exact Option.map_eq_none_iff.mp hget
  rcases (h.purge hnow).missing i after hlast hmiss with hold | hfull
  · omega
  · exact hfull

/-- After every run, a read has the last value of its key from within the time to live, what is missing within that time was pushed
out by as many other keys as there is room for, the map is within its capacity, and the queue has its keys, each once, in the order of
their last inserts. -/
theorem cache_is_a_bounded_expiring_map (ttl capacity start : Nat) (calls : List (CacheCall V)) (c : TtlCache V) (now : Nat)
    (hrun : Machine.run CacheCall.step (TtlCache.new ttl capacity, start) calls = some (c, now)) :
    (∀ now' k v, now ≤ now' → (c.get now' k).1 = some v → ∃ i after, IsLast Insertion.key (insertions calls) i after ∧
        i.key = k ∧ i.value = v ∧ now' - i.time ≤ ttl) ∧
      (∀ now' i after, now ≤ now' → IsLast Insertion.key (insertions calls) i after → now' - i.time ≤ ttl →
        (c.get now' i.key).1 = none → capacity ≤ (recent Insertion.key after).length) ∧
      c.entries.keys.length ≤ capacity ∧
      c.order.Nodup ∧ (∀ k, k ∈ c.order ↔ k ∈ c.entries) ∧
      c.order = (recent Insertion.key (insertions calls)).filter fun k => decide (k ∈ c.entries) := by
  have hstart : Follows ttl capacity (insertions []) (TtlCache.new ttl capacity : TtlCache V) start ∧ _ :=
    ⟨Follows.new ttl capacity start, Nat.zero_le capacity⟩
  obtain ⟨h, hsize⟩ := Machine.run_history
    (fun past s => Follows ttl capacity (insertions past) s.1 s.2 ∧ s.1.entries.keys.length ≤ capacity)
    (fun past s call s' h hstep => Follows.step h hstep) [] hstart hrun
  refine ⟨fun now' k v _ hget => h.get_some hget, fun now' i after hnow hlast hfresh hget => h.get_none hnow hlast hfresh hget,
    hsize, h.tracks.nodup, h.tracks.mem_iff, h.tracks.order⟩

namespace Examples

/-- Two keys in a cache for two, and one of them again. -/
def refreshed : List (CacheCall Nat) := [.insert 0 0 ['a'] 1, .insert 1 1 ['b'] 2, .insert 2 2 ['a'] 3, .insert 3 3 ['c'] 4]

/-- The key that came again stays, and the other one is pushed out. -/
theorem a_refreshed_key_stays :
    ∃ c : TtlCache Nat, Machine.run CacheCall.step (.new 10 2, 0) refreshed = some (c, 3) ∧
      c.order = [['a'], ['c']] ∧ ∀ k, k ∈ c.order ↔ k ∈ c.entries := by
  refine ⟨_, rfl, rfl, ?_⟩
  exact (cache_is_a_bounded_expiring_map 10 2 0 refreshed _ 3 rfl).2.2.2.2.1

end Examples

end Twitch1337.Content
