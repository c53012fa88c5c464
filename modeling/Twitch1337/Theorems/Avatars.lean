import Twitch1337.Lib.Recency
import Twitch1337.Web.Avatars

/-!
# How many avatars are kept

The cache makes room for one entry and then stores a batch. It stays within its bound exactly where every batch fits in beside the
entries that stay: all of them while there is room, else the young ones, and where all are young, all but the oldest. What a lookup
finds is always the last avatar that was stored, and not too old.
-/

namespace Twitch1337.Helix

open Recency

variable {entries : Table Text AvatarEntry} {c : AvatarCache} {it : Iteration}

/-! ## Evictions -/

instance transCmp_byAge : Std.TransCmp byAge := inferInstanceAs (Std.TransCmp (compareOn fun e : Text × AvatarEntry => e.2.fetchedAt))

/-- A map that is not empty has an oldest entry. -/
theorem exists_oldest (it : Iteration) (h : 0 < entries.keys.length) :
    ∃ oldest, Least.minBy byAge (it.order entries) = some oldest ∧ oldest.1 ∈ entries := by
  have hperm := it.perm entries
  have hne : it.order entries ≠ [] := by
    intro hnil
    have hlength := hperm.length_eq
    rw [hnil, List.length_map] at hlength
    rw [AList.keys, List.keys, List.length_map] at h
    exact absurd hlength (Nat.ne_of_lt h)
  obtain ⟨oldest, holdest, hfirst⟩ : ∃ w, Least.minBy byAge (it.order entries) = some w ∧
      Least.FirstMin byAge (it.order entries) w := Least.exists_minBy hne
  refine ⟨oldest, holdest, ?_⟩
  obtain ⟨e, he, rfl⟩ := List.mem_map.mp (hperm.subset hfirst.mem)
  exact AList.mem_keys.mpr (List.mem_keys_of_mem he)

/-- There is room for one more. -/
theorem length_evictOldest_lt {cap : Nat} (hcap : 0 < cap) (n : Nat) (hn : entries.keys.length ≤ n) :
    (evictOldest it cap n entries).keys.length < cap := by
  induction n generalizing entries with
  | zero =>
    rw [evictOldest]
    omega
  | succ n ih =>
    rw [evictOldest]
    split
    · rename_i hfull
      obtain ⟨oldest, holdest, hmem⟩ := exists_oldest it (Nat.lt_of_lt_of_le hcap hfull)
      have hlength := Table.length_keys_erase hmem
      rw [holdest]
      exact ih (by omega)
    · omega

/-- After an eviction there is room for one entry. -/
theorem length_evictIfNeeded_lt (it : Iteration) (entries : Table Text AvatarEntry) (now ttl : Int) {cap : Nat} (hcap : 0 < cap) :
    (evictIfNeeded it entries now ttl cap).keys.length < cap := by
  unfold evictIfNeeded
  split
  · assumption
  · exact length_evictOldest_lt hcap _ (Nat.le_refl _)

/-- An eviction changes no entry. -/
theorem lookup_evictOldest {cap n : Nat} {k : Text} {e : AvatarEntry} (h : (evictOldest it cap n entries).lookup k = some e) :
    entries.lookup k = some e := by
  induction n generalizing entries with
  | zero => exact h
  | succ n ih =>
    rw [evictOldest] at h
    split at h
    · split at h
      · exact h
      · have := ih h
        rw [Table.lookup_erase] at this
        split at this
        · cases this
        · exact this
    · exact h

/-- What is left was there. -/
theorem lookup_evictIfNeeded {now ttl : Int} {cap : Nat} {k : Text} {e : AvatarEntry}
    (h : (evictIfNeeded it entries now ttl cap).lookup k = some e) : entries.lookup k = some e := by
  unfold evictIfNeeded at h
  split at h
  · exact h
  · have := lookup_evictOldest h
    rw [Table.lookup_retain, Option.filter_eq_some_iff] at this
    exact this.1

/-! ## What stays -/

/-- The ids that were stored a short while ago. -/
def youngIds (c : AvatarCache) (now : Int) : List Text := (c.entries.entries.filter fun e => isFresh now c.ttl e.2).map Sigma.fst

/-- Where there is room, nothing has to go. -/
theorem evictOldest_of_room {cap : Nat} (h : entries.keys.length < cap) (n : Nat) : evictOldest it cap n entries = entries := by
  cases n with
  | zero => rfl
  | succ n => rw [evictOldest, if_neg (Nat.not_le_of_lt h)]

/-- Entries of which none is too old all stay. -/
theorem retain_eq_self {p : AvatarEntry → Bool} (h : entries.keys.length ≤ (entries.retain fun _ => p).keys.length) :
    entries.retain (fun _ => p) = entries := by
  simp only [AList.keys, List.keys, List.length_map] at h
  exact AList.ext (List.filter_sublist.eq_of_length (Nat.le_antisymm (List.length_filter_le _ _) h))

/-- What stays of a cache within its bound: all while there is room, else what is young, and where all is, all but the oldest. -/
theorem evictIfNeeded_cases (it : Iteration) (now : Int) (hcap : 0 < c.maxEntries) (h : c.entries.keys.length ≤ c.maxEntries) :
    (c.entries.keys.length < c.maxEntries ∧ evictIfNeeded it c.entries now c.ttl c.maxEntries = c.entries) ∨
      (¬ c.entries.keys.length < c.maxEntries ∧ (youngIds c now).length < c.maxEntries ∧
        (evictIfNeeded it c.entries now c.ttl c.maxEntries).keys = youngIds c now) ∨
      (¬ c.entries.keys.length < c.maxEntries ∧ ¬ (youngIds c now).length < c.maxEntries ∧
        ∃ oldest, Least.minBy byAge (it.order c.entries) = some oldest ∧
          (evictIfNeeded it c.entries now c.ttl c.maxEntries).keys = (c.entries.erase oldest.1).keys ∧
          (c.entries.erase oldest.1).keys.length + 1 = c.maxEntries) := by
  unfold evictIfNeeded
  by_cases hroom : c.entries.keys.length < c.maxEntries
  · exact .inl ⟨hroom, if_pos hroom⟩
  rw [if_neg hroom]
  dsimp only
  have hkeys : (c.entries.retain fun _ e => isFresh now c.ttl e).keys = youngIds c now := rfl
  by_cases hyoung : (youngIds c now).length < c.maxEntries
  · rw [evictOldest_of_room (hkeys ▸ hyoung)]
    exact .inr (.inl ⟨hroom, hyoung, hkeys⟩)
  -- all are young: the oldest makes room
  have hall : c.entries.retain (fun _ e => isFresh now c.ttl e) = c.entries := by
    refine retain_eq_self ?_
    rw [hkeys]
    omega
  have hfull : c.entries.keys.length = c.maxEntries := Nat.le_antisymm h (Nat.le_of_not_lt hroom)
  have hpos : 0 < c.entries.keys.length := by omega
  obtain ⟨oldest, holdest, hmem⟩ := exists_oldest it hpos
  have hlength := Table.length_keys_erase hmem
  obtain ⟨n, hn⟩ := Nat.exists_eq_succ_of_ne_zero (Nat.ne_of_gt hcap)
  have hevicted : evictOldest it c.maxEntries c.entries.keys.length c.entries = c.entries.erase oldest.1 := by
    rw [hfull, hn, evictOldest, if_pos (by omega), holdest]
    exact evictOldest_of_room (by omega) n
  refine .inr (.inr ⟨hroom, hyoung, oldest, holdest, ?_, ?_⟩)
  · rw [hall, hevicted]
  · rw [hlength, hfull]

/-! ## Sizes -/

/-- The ids of a batch that are not among some, each once. -/
def newIds (ids queried : List Text) : List Text := queried.dedup.filter fun id => !ids.contains id

/-- After a batch, its ids are there, and those there were. -/
theorem mem_foldl_insert (f : Text → AvatarEntry) (queried : List Text) (kept : Table Text AvatarEntry) (k : Text) :
    k ∈ queried.foldl (fun m id => m.insert id (f id)) kept ↔ k ∈ queried ∨ k ∈ kept := by
  induction queried generalizing kept with
  | nil => simp
  | cons id queried ih =>
    rw [List.foldl_cons, ih, AList.mem_insert, List.mem_cons, or_left_comm, or_assoc]

/-- A batch adds the ids that are new. -/
theorem length_foldl_insert (f : Text → AvatarEntry) (queried : List Text) (kept : Table Text AvatarEntry) :
    (queried.foldl (fun m id => m.insert id (f id)) kept).keys.length =
      kept.keys.length + (newIds kept.keys queried).length := by
  rw [← List.length_append]
  refine List.Perm.length_eq ((List.perm_ext_iff_of_nodup (AList.keys_nodup _) ?_).mpr fun k => ?_)
  · refine List.nodup_append.mpr ⟨kept.keys_nodup, (List.nodup_dedup queried).filter _, fun a ha b hb => ?_⟩
    rintro rfl
    have hnew := (List.mem_filter.mp hb).2
    rw [List.contains_iff_mem.mpr ha] at hnew
    cases hnew
  · rw [← AList.mem_keys, mem_foldl_insert, List.mem_append, newIds, List.mem_filter, List.mem_dedup, Bool.not_eq_true',
      ← Bool.not_eq_true, List.contains_iff_mem, AList.mem_keys]
    by_cases hk : k ∈ kept.keys
    · simp [hk]
    · simp [hk]

/-- A batch fits in. While there is room, the ids that are not in the cache have to; then those that are not young, beside the young
ones; and where all is young, one that is not in the cache or is the oldest. Other calls bring one id at most. -/
def AvatarCall.Fits (c : AvatarCache) : AvatarCall → Prop
  | .insert it queried _ now =>
    if c.entries.keys.length < c.maxEntries then
      c.entries.keys.length + (newIds c.entries.keys queried).length ≤ c.maxEntries
    else if (youngIds c now).length < c.maxEntries then
      (youngIds c now).length + (newIds (youngIds c now) queried).length ≤ c.maxEntries
    else ∀ oldest, Least.minBy byAge (it.order c.entries) = some oldest →
      (newIds (c.entries.erase oldest.1).keys queried).length ≤ 1
  | _ => True

/-- One call. -/
theorem AvatarCall.within_iff (hcap : 0 < c.maxEntries) (h : c.entries.keys.length ≤ c.maxEntries) (call : AvatarCall) :
    (call.run c).entries.keys.length ≤ c.maxEntries ↔ call.Fits c := by
  cases call with
  | lookup ids now => exact iff_of_true h trivial
  | prime it userId url now =>
    have hroom := length_evictIfNeeded_lt it c.entries now c.ttl hcap
    have hone := length_foldl_insert (fun _ => ⟨url, now⟩) [userId] (evictIfNeeded it c.entries now c.ttl c.maxEntries)
    have hnew : (newIds (evictIfNeeded it c.entries now c.ttl c.maxEntries).keys [userId]).length ≤ 1 :=
      List.length_filter_le _ _
    refine iff_of_true ?_ trivial
    rw [List.foldl_cons, List.foldl_nil] at hone
    rw [AvatarCall.run, AvatarCache.prime, hone]
    omega
  | insert it queried users now =>
    rw [AvatarCall.run, AvatarCache.insert, length_foldl_insert, AvatarCall.Fits]
    rcases evictIfNeeded_cases it now hcap h with ⟨hroom, hkept⟩ | ⟨hroom, hyoung, hkept⟩ |
      ⟨hroom, hyoung, oldest, holdest, hkept, hlength⟩
    · rw [if_pos hroom, hkept]
    · rw [if_neg hroom, if_pos hyoung, hkept]
    · rw [if_neg hroom, if_neg hyoung, hkept, holdest]
      constructor
      · rintro hle other hother
        obtain rfl := Option.some.inj hother
        omega
      · intro hone
        have := hone oldest rfl
        omega

/-! ## What is stored -/

/-- An avatar that was stored, or that there is none. -/
structure Stored where
  id : Text
  url : Option Text
  time : Int

/-- What a call stores. -/
def AvatarCall.stored : AvatarCall → List Stored
  | .lookup .. => []
  | .prime _ userId url now => [⟨userId, url, now⟩]
  | .insert _ queried users now => queried.map fun id => ⟨id, AvatarCache.urlOf users id, now⟩

/-- Every entry is the last that was stored for its id. -/
def Latest (log : List Stored) (entries : Table Text AvatarEntry) : Prop :=
  ∀ id e, entries.lookup id = some e → ∃ after, IsLast Stored.id log ⟨id, e.url, e.fetchedAt⟩ after

variable {log : List Stored}

/-- What is stored is the last. -/
theorem Latest.insert (h : Latest log entries) (id : Text) (url : Option Text) (now : Int) :
    Latest (log ++ [⟨id, url, now⟩]) (entries.insert id ⟨url, now⟩) := by
  let stored : Text → AvatarEntry → Stored := fun id e => ⟨id, e.url, e.fetchedAt⟩
  exact isLast_of_lookup_insert (f := stored) (fun _ _ => rfl) h id ⟨url, now⟩

/-- After a batch, what is stored is still the last for its id. -/
theorem Latest.foldl (f : Text → Option Text) (now : Int) (queried : List Text) (h : Latest log entries) :
    Latest (log ++ queried.map fun id => ⟨id, f id, now⟩) (queried.foldl (fun m id => m.insert id ⟨f id, now⟩) entries) := by
  induction queried generalizing log entries with
  | nil =>
    rw [List.map_nil, List.append_nil]
    exact h
  | cons id queried ih =>
    have := ih (h.insert id (f id) now)
    rwa [List.append_assoc, List.singleton_append] at this

/-- What goes leaves the others the last. -/
theorem Latest.evict (h : Latest log entries) (it : Iteration) (now ttl : Int) (cap : Nat) :
    Latest log (evictIfNeeded it entries now ttl cap) := fun id e he => h id e (lookup_evictIfNeeded he)

/-- Every call keeps that. -/
theorem Latest.run (h : Latest log c.entries) (call : AvatarCall) : Latest (log ++ call.stored) (call.run c).entries := by
  cases call with
  | lookup ids now =>
    rw [AvatarCall.stored, List.append_nil]
    exact h
  | prime it userId url now => exact (h.evict it now c.ttl c.maxEntries).insert userId url now
  | insert it queried users now => exact (h.evict it now c.ttl c.maxEntries).foldl (AvatarCache.urlOf users) now queried

/-- What was found so far is in the cache, and young. -/
def AvatarLookup.Young (c : AvatarCache) (now : Int) (found : AvatarLookup) : Prop :=
  ∀ id url, found.cached.lookup id = some url →
    ∃ e, c.entries.lookup id = some e ∧ e.url = some url ∧ now - e.fetchedAt < c.ttl

/-- One id of a lookup. -/
theorem AvatarLookup.Young.lookupId {now : Int} {found : AvatarLookup} (h : found.Young c now) (x : Text) :
    (c.lookupId now found x).Young c now := by
  intro id url hlookup
  unfold AvatarCache.lookupId at hlookup
  split at hlookup
  · exact h id url hlookup
  · rename_i e he
    split at hlookup
    · rename_i hfresh
      split at hlookup
      · rename_i url' hurl
        rw [Table.lookup_insert] at hlookup
        split at hlookup
        · rename_i hid
          obtain rfl := Option.some.inj hlookup
          exact ⟨e, hid ▸ he, hurl, of_decide_eq_true hfresh⟩
        · exact h id url hlookup
      · exact h id url hlookup
    · exact h id url hlookup

/-- What a lookup finds is in the cache, and young. -/
theorem young_lookup (c : AvatarCache) (ids : List Text) (now : Int) : (c.lookup ids now).Young c now := by
  have hfold : ∀ found : AvatarLookup, found.Young c now → (ids.foldl (c.lookupId now) found).Young c now := by
    induction ids with
    | nil => exact fun found h => h
    | cons x ids ih => exact fun found h => ih (c.lookupId now found x) (h.lookupId x)
  refine hfold ⟨∅, []⟩ fun id url hlookup => ?_
  cases hlookup

/-! ## Runs -/

/-- The cache after some calls. -/
def afterCalls (ttl maxEntries : Nat) (calls : List AvatarCall) : AvatarCache :=
  calls.foldl AvatarCall.run (.withCapacity ttl maxEntries)

/-- One more call. -/
theorem afterCalls_snoc (ttl maxEntries : Nat) (calls : List AvatarCall) (call : AvatarCall) :
    afterCalls ttl maxEntries (calls ++ [call]) = call.run (afterCalls ttl maxEntries calls) := by
  rw [afterCalls, List.foldl_append]
  rfl

/-- No call changes the bound or how long an entry is young. -/
theorem AvatarCall.run_config (c : AvatarCache) (call : AvatarCall) :
    (call.run c).ttl = c.ttl ∧ (call.run c).maxEntries = c.maxEntries := by
  cases call <;> exact ⟨rfl, rfl⟩

/-- A run of calls changes neither the bound nor how long an entry is young. -/
theorem afterCalls_config (ttl maxEntries : Nat) (calls : List AvatarCall) :
    (afterCalls ttl maxEntries calls).ttl = chronoTtl ttl ∧ (afterCalls ttl maxEntries calls).maxEntries = max maxEntries 1 := by
  induction calls using List.reverseRecOn with
  | nil => exact ⟨rfl, rfl⟩
  | append_singleton calls call ih =>
    rw [afterCalls_snoc, (call.run_config _).1, (call.run_config _).2]
    exact ih

/-- After some calls, every entry is the last that was stored for its id. -/
theorem latest_afterCalls (ttl maxEntries : Nat) (calls : List AvatarCall) :
    Latest (calls.flatMap AvatarCall.stored) (afterCalls ttl maxEntries calls).entries := by
  induction calls using List.reverseRecOn with
  | nil =>
    intro id e he
    cases he
  | append_singleton calls call ih =>
    rw [afterCalls_snoc, List.flatMap_append, List.flatMap_singleton]
    exact ih.run call

/-- The cache is within its bound after each call of a run exactly when each batch of the run fits in. A lookup finds the avatar that
was stored last for an id, when that is younger than the time to live. -/
theorem avatar_cache_capped_iff (ttl maxEntries : Nat) (calls : List AvatarCall) :
    ((∀ past, past <+: calls → (afterCalls ttl maxEntries past).entries.keys.length ≤ max maxEntries 1) ↔
        ∀ past call, past ++ [call] <+: calls → call.Fits (afterCalls ttl maxEntries past)) ∧
      ∀ ids now id url, ((afterCalls ttl maxEntries calls).lookup ids now).cached.lookup id = some url →
        ∃ time after, IsLast Stored.id (calls.flatMap AvatarCall.stored) ⟨id, some url, time⟩ after ∧
          now - time < chronoTtl ttl := by
  refine ⟨⟨fun h past call hpre => ?_, fun h past => ?_⟩, fun ids now id url hlookup => ?_⟩
  · have hwithin := h past ((List.prefix_append past [call]).trans hpre)
    have hnext := h _ hpre
    rw [afterCalls_snoc] at hnext
    obtain ⟨_, hmax⟩ := afterCalls_config ttl maxEntries past
    rw [← hmax] at hwithin hnext
    exact (call.within_iff (by omega) hwithin).mp hnext
  · induction past using List.reverseRecOn with
    | nil => exact fun _ => Nat.zero_le _
    | append_singleton past call ih =>
      intro hpre
      have hwithin := ih ((List.prefix_append past [call]).trans hpre)
      have hfits := h past call hpre
      obtain ⟨_, hmax⟩ := afterCalls_config ttl maxEntries past
      rw [← hmax] at hwithin ⊢
      rw [afterCalls_snoc]
      exact (call.within_iff (by omega) hwithin).mpr hfits
  · obtain ⟨e, he, hurl, hyoung⟩ := young_lookup _ ids now id url hlookup
    obtain ⟨after, hlast⟩ := latest_afterCalls ttl maxEntries calls id e he
    rw [hurl] at hlast
    rw [(afterCalls_config ttl maxEntries calls).1] at hyoung
    exact ⟨e.fetchedAt, after, hlast, hyoung⟩

namespace Examples

/-- The order of the list. -/
def inOrder : Iteration where
  order m := m.entries.map fun e => (e.1, e.2)
  perm _ := List.Perm.refl _

/-- A batch of two in a cache for one. -/
theorem a_batch_exceeds_the_cap :
    ¬ (afterCalls 3600 1 [.insert inOrder [['1'], ['2']] [] 0]).entries.keys.length ≤ 1 := by decide

end Examples

end Twitch1337.Helix
