import Mathlib.Logic.Relation
import Mathlib.Tactic.Linarith
import Twitch1337.Theorems.Restart

/-!
# The flight-info cache

A lookup that asked AviationStack leaves one entry that its aliases match, with the answer; until that entry expires, a lookup by
the same aliases is answered from it. An entry that has expired answers no lookup.
-/

namespace Twitch1337.Tracker

open RustStr Chrono

variable {Γ : Ctx} {env : Env}

/-! ## Aliases -/

/-- A flight code is its own normal form. -/
theorem normalizeFlightCode_idem {value code : String} (h : normalizeFlightCode Γ value = some code) :
    normalizeFlightCode Γ code = some code := by
  unfold normalizeFlightCode at h ⊢
  dsimp only at h ⊢
  split at h
  · cases h
  · rename_i hne
    rw [Option.some.injEq] at h
    have htrim : trim code = code := by
      rw [← h]
      exact Γ.upper.trim_toUppercase_of_trim (trim_trim value)
    have hcode : code.isEmpty = false := by
      rw [← h, UpperTable.isEmpty_toUppercase]
      simpa using hne
    rw [htrim, if_neg (by simp [hcode]), ← h, UpperTable.toUppercase_toUppercase]

/-- A list of aliases in normal form. -/
def NormalAliases (Γ : Ctx) (aliases : List String) : Prop := ∀ a ∈ aliases, normalizeFlightCode Γ a = some a

theorem pushCacheAlias_spec (aliases : List String) (value : Option String) :
    aliases ⊆ pushCacheAlias Γ aliases value ∧
      (∀ code, value.bind (normalizeFlightCode Γ) = some code →
        (pushCacheAlias Γ aliases value).any (eqIgnoreAsciiCase · code) = true) ∧
      (NormalAliases Γ aliases → NormalAliases Γ (pushCacheAlias Γ aliases value)) := by
  unfold pushCacheAlias
  cases hv : value.bind (normalizeFlightCode Γ) with
  | none =>
    refine ⟨List.Subset.refl _, ?_, fun h => h⟩
    intro code h
    cases h
  | some code =>
    dsimp only
    split_ifs with hany
    · refine ⟨List.Subset.refl _, ?_, fun h => h⟩
      intro c h
      rw [Option.some.injEq] at h
      rwa [← h]
    · refine ⟨List.subset_append_left _ _, ?_, fun h a ha => ?_⟩
      · intro c h
        rw [Option.some.injEq] at h
        rw [← h]
        simp
      · rcases List.mem_append.mp ha with ha | ha
        · exact h a ha
        · obtain ⟨v, -, hcode⟩ := Option.bind_eq_some_iff.mp hv
          rw [List.mem_singleton.mp ha]
          exact normalizeFlightCode_idem hcode

theorem queryCacheAliases_normal (identifier : FlightIdentifier) (callsign : Option String) :
    NormalAliases Γ (queryCacheAliases Γ identifier callsign) :=
  (pushCacheAlias_spec _ _).2.2 ((pushCacheAlias_spec _ _).2.2 fun _ h => by cases h)

/-- Aliases that are added one by one. -/
theorem foldl_pushCacheAlias (more aliases : List String) :
    aliases ⊆ more.foldl (fun as code => pushCacheAlias Γ as (some code)) aliases ∧
      ∀ a ∈ more, normalizeFlightCode Γ a = some a →
        (more.foldl (fun as code => pushCacheAlias Γ as (some code)) aliases).any (eqIgnoreAsciiCase · a) = true := by
  induction more generalizing aliases with
  | nil => exact ⟨List.Subset.refl _, fun a h => by cases h⟩
  | cons first rest ih =>
    obtain ⟨hsub, hany, -⟩ := pushCacheAlias_spec (Γ := Γ) aliases (some first)
    obtain ⟨hsub', hany'⟩ := ih (pushCacheAlias Γ aliases (some first))
    refine ⟨List.Subset.trans hsub hsub', fun a ha hn => ?_⟩
    rcases List.mem_cons.mp ha with rfl | ha
    · obtain ⟨b, hb, he⟩ := List.any_eq_true.mp (hany a hn)
      exact List.any_eq_true.mpr ⟨b, hsub' hb, he⟩
    · exact hany' a ha hn

/-- An entry that knows one of the aliases matches them. -/
theorem matchesAnyAlias_of_mem {entry : CachedFlightInfo} {aliases : List String} {a : String} (ha : a ∈ aliases)
    (h : entry.aliases.any (eqIgnoreAsciiCase · a) = true) : entry.matchesAnyAlias aliases = true :=
  List.any_eq_true.mpr ⟨a, ha, h⟩

/-! ## What is cached -/

theorem flightInfoCacheExpiry_lt (metadata : Option AviationstackFlightMetadata) (now : Instant) :
    now < flightInfoCacheExpiry metadata now := by
  have h₁ : (0 : Instant) < seconds (10 * 60) := by decide
  have h₂ : (0 : Instant) < seconds (24 * 60 * 60) := by decide
  have h₃ : (0 : Instant) < seconds (4 * 60 * 60) := by decide
  unfold flightInfoCacheExpiry
  split
  · linarith
  · split_ifs with hl
    · linarith
    · dsimp only
      split_ifs with ha
      · exact ha
      · linarith

/-- Of two entries one is kept, or the one there is. -/
theorem foldl_keep_spec {f : Option CachedFlightInfo → CachedFlightInfo → Option CachedFlightInfo}
    (hf : ∀ best e, f best e = some e ∨ f best e = best ∧ best ≠ none) (entries : List CachedFlightInfo)
    (best : Option CachedFlightInfo) :
    (∃ e ∈ entries, entries.foldl f best = some e) ∨ entries.foldl f best = best ∧ (entries ≠ [] → best ≠ none) := by
  induction entries generalizing best with
  | nil => exact .inr ⟨rfl, fun h => absurd rfl h⟩
  | cons e rest ih =>
    rw [List.foldl_cons]
    rcases ih (f best e) with ⟨e', hmem, hlast⟩ | ⟨hlast, -⟩
    · exact .inl ⟨e', List.mem_cons_of_mem e hmem, hlast⟩
    · rw [hlast]
      rcases hf best e with h | ⟨h, hne⟩
      · exact .inl ⟨e, List.mem_cons_self, h⟩
      · exact .inr ⟨h, fun _ => hne⟩

/-- Of some entries one was cached last. -/
theorem latestCached_cases (entries : List CachedFlightInfo) :
    (∃ e ∈ entries, latestCached entries = some e) ∨ entries = [] ∧ latestCached entries = none := by
  refine (foldl_keep_spec (fun best e => ?_) entries none).imp_right fun h => ?_
  · cases best with
    | none => exact .inl rfl
    | some b =>
      dsimp only
      split_ifs
      · exact .inl rfl
      · exact .inr ⟨rfl, Option.some_ne_none b⟩
  · exact ⟨by_contra fun hne => h.2 hne rfl, h.1⟩

theorem latestCached_mem {entries : List CachedFlightInfo} {entry : CachedFlightInfo}
    (h : latestCached entries = some entry) : entry ∈ entries := by
  rcases latestCached_cases entries with ⟨e, hmem, hlast⟩ | ⟨-, hlast⟩
  · obtain rfl := Option.some.inj (hlast.symm.trans h)
    exact hmem
  · rw [hlast] at h
    cases h

theorem latestCached_isSome {entries : List CachedFlightInfo} (h : entries ≠ []) : (latestCached entries).isSome = true := by
  rcases latestCached_cases entries with ⟨e, -, hlast⟩ | ⟨hnil, -⟩
  · rw [hlast]
    rfl
  · exact absurd hnil h

/-- Changing one element of a list of which none is wanted leaves the changed one, if it is wanted. -/
theorem filter_modify_of_none {α : Type} {p : α → Bool} {l : List α} {f : α → α} {i : Nat} {a : α} (hl : l.filter p = [])
    (hi : l[i]? = some a) (hp : p (f a) = true) : (l.modify i f).filter p = [f a] := by
  induction l generalizing i with
  | nil => simp at hi
  | cons b rest ih =>
    obtain ⟨hb, hrest⟩ : p b = false ∧ rest.filter p = [] := by
      have h := List.filter_eq_nil_iff.mp hl
      exact ⟨by simpa using h b List.mem_cons_self,
        List.filter_eq_nil_iff.mpr fun x hx => h x (List.mem_cons_of_mem _ hx)⟩
    cases i with
    | zero =>
      rw [List.getElem?_cons_zero, Option.some.injEq] at hi
      rw [List.modify_zero_cons, hi, List.filter_cons_of_pos hp, hrest]
    | succ i =>
      rw [List.getElem?_cons_succ] at hi
      rw [List.modify_succ_cons, List.filter_cons_of_neg (by simp [hb]), ih hrest hi]

/-- The entries of a cache that some aliases match. -/
def matching (cache : List CachedFlightInfo) (aliases : List String) : List CachedFlightInfo :=
  cache.filter (·.matchesAnyAlias aliases)

/-- An upsert into a cache in which nothing matches its aliases leaves one entry that does. -/
theorem upsert_matching {state : FlightTrackerState} {aliases : List String} (hnormal : NormalAliases Γ aliases)
    (hne : aliases ≠ []) (hnone : matching state.flightInfoCache aliases = [])
    (metadata : Option AviationstackFlightMetadata) (now : Instant) :
    ∃ entry, matching (upsertFlightInfoCache Γ state aliases metadata now).flightInfoCache aliases = [entry] ∧
      entry.metadata = metadata ∧ entry.cachedAt = now ∧ entry.expiresAt = flightInfoCacheExpiry metadata now := by
  obtain ⟨a, ha⟩ := List.exists_mem_of_ne_nil aliases hne
  unfold upsertFlightInfoCache
  dsimp only
  obtain ⟨hsub, -⟩ := foldl_pushCacheAlias (Γ := Γ) ((metadata.map (metadataCacheAliases Γ)).getD []) aliases
  generalize ((metadata.map (metadataCacheAliases Γ)).getD []).foldl
    (fun as code => pushCacheAlias Γ as (some code)) aliases = all at hsub
  rw [if_neg (by
    intro hempty
    rw [List.isEmpty_iff.mp hempty] at hsub
    cases hsub ha)]
  split
  · rename_i i hi
    obtain ⟨hlt, -⟩ := List.findIdx?_eq_some_iff_getElem.mp hi
    refine ⟨_, filter_modify_of_none hnone (List.getElem?_eq_getElem hlt) ?_, rfl, rfl, rfl⟩
    exact matchesAnyAlias_of_mem ha ((foldl_pushCacheAlias all _).2 a (hsub ha) (hnormal a ha))
  · refine ⟨{ aliases := all, flightDate := metadata.bind metadataFlightDate, metadata, cachedAt := now
              expiresAt := flightInfoCacheExpiry metadata now }, ?_, rfl, rfl, rfl⟩
    have hmatch : CachedFlightInfo.matchesAnyAlias
        { aliases := all, flightDate := metadata.bind metadataFlightDate, metadata, cachedAt := now
          expiresAt := flightInfoCacheExpiry metadata now } aliases = true :=
      matchesAnyAlias_of_mem ha (List.any_eq_true.mpr ⟨a, hsub ha, eqIgnoreAsciiCase_refl a⟩)
    rw [matching] at hnone ⊢
    rw [List.filter_append, hnone, List.nil_append]
    refine List.filter_eq_self.mpr fun x hx => ?_
    rw [List.mem_singleton.mp hx]
    exact hmatch

/-! ## Lookups -/

/-- Whether a lookup asks AviationStack: it has aliases to look for, no unexpired entry matches them, and AviationStack is
enabled. -/
def asksAviationstack (Γ : Ctx) (env : Env) (state : FlightTrackerState) (identifier : FlightIdentifier)
    (callsign : Option String) : Bool :=
  !(queryCacheAliases Γ identifier callsign).isEmpty &&
    (cachedFlightInfo (pruneFlightInfoCache state env.now).1 (queryCacheAliases Γ identifier callsign) env.now).isNone &&
    env.aviationstackEnabled

/-- What a lookup does: it asks, and stores the answer if there is one; or it answers from an entry that has not expired; or it
has nothing to say. -/
inductive LookupStep (Γ : Ctx) (env : Env) (state : FlightTrackerState) (identifier : FlightIdentifier)
    (callsign : Option String) : FlightTrackerState × AviationstackLookup → Prop
  | stored (asks : asksAviationstack Γ env state identifier callsign = true)
      (metadata : Option AviationstackFlightMetadata)
      (answer : env.getAviationstackFlightMetadata identifier callsign = .ok metadata) :
      LookupStep Γ env state identifier callsign
        (upsertFlightInfoCache Γ (pruneFlightInfoCache state env.now).1 (queryCacheAliases Γ identifier callsign) metadata
          env.now, { checked := true, metadata, cacheChanged := true, failed := false })
  | failed (asks : asksAviationstack Γ env state identifier callsign = true) (e : Unit)
      (answer : env.getAviationstackFlightMetadata identifier callsign = .error e) :
      LookupStep Γ env state identifier callsign
        ((pruneFlightInfoCache state env.now).1,
          { checked := true, metadata := none, cacheChanged := (pruneFlightInfoCache state env.now).2, failed := true })
  | cached (quiet : asksAviationstack Γ env state identifier callsign = false) (entry : CachedFlightInfo)
      (latest : latestCached ((pruneFlightInfoCache state env.now).1.flightInfoCache.filter fun entry =>
        !entry.isExpired env.now && entry.matchesAnyAlias (queryCacheAliases Γ identifier callsign)) = some entry) :
      LookupStep Γ env state identifier callsign
        ((pruneFlightInfoCache state env.now).1,
          { checked := true, metadata := entry.metadata, cacheChanged := (pruneFlightInfoCache state env.now).2,
            failed := false })
  | silent (quiet : asksAviationstack Γ env state identifier callsign = false)
      (nothing : (queryCacheAliases Γ identifier callsign).isEmpty = true ∨
        cachedFlightInfo (pruneFlightInfoCache state env.now).1 (queryCacheAliases Γ identifier callsign) env.now = none) :
      LookupStep Γ env state identifier callsign
        ((pruneFlightInfoCache state env.now).1,
          { checked := false, metadata := none, cacheChanged := (pruneFlightInfoCache state env.now).2, failed := false })

theorem lookup_step (Γ : Ctx) (env : Env) (state : FlightTrackerState) (identifier : FlightIdentifier) (callsign : Option String) :
    LookupStep Γ env state identifier callsign (lookupAviationstackMetadata Γ env state identifier callsign) := by
  unfold lookupAviationstackMetadata
  dsimp only
  by_cases hempty : (queryCacheAliases Γ identifier callsign).isEmpty = true
  · rw [if_pos hempty]
    exact .silent (by simp [asksAviationstack, hempty]) (.inl hempty)
  rw [if_neg hempty]
  cases hc : cachedFlightInfo (pruneFlightInfoCache state env.now).1 (queryCacheAliases Γ identifier callsign) env.now with
  | some metadata =>
    obtain ⟨entry, hlatest, rfl⟩ := Option.map_eq_some_iff.mp hc
    exact .cached (by simp [asksAviationstack, hc]) entry hlatest
  | none =>
    by_cases hen : env.aviationstackEnabled = true
    · have hasks : asksAviationstack Γ env state identifier callsign = true := by
        simp [asksAviationstack, hempty, hc, hen]
      simp only [hen, Bool.not_true, Bool.false_eq_true, if_false]
      cases ha : env.getAviationstackFlightMetadata identifier callsign with
      | ok metadata => exact .stored hasks metadata ha
      | error e => exact .failed hasks e ha
    · simp only [hen, Bool.not_false, if_true]
      exact .silent (by simp [asksAviationstack, hen]) (.inr hc)

/-! ## An answer that is kept -/

/-- A lookup that asks nothing, or has no answer to store, before an instant. -/
def QuietLookup (Γ : Ctx) (expiresAt : Instant) (before after : List CachedFlightInfo) : Prop :=
  ∃ env state identifier callsign, state.flightInfoCache = before ∧ env.now < expiresAt ∧
    (asksAviationstack Γ env state identifier callsign = true →
      ∃ e, env.getAviationstackFlightMetadata identifier callsign = .error e) ∧
    (lookupAviationstackMetadata Γ env state identifier callsign).1.flightInfoCache = after

theorem pruneFlightInfoCache_cache (state : FlightTrackerState) (now : Instant) :
    (pruneFlightInfoCache state now).1.flightInfoCache = state.flightInfoCache.filter fun entry => !entry.isExpired now := rfl

/-- Where the cache has no answer, no entry that is left matches. -/
theorem matching_of_miss {state : FlightTrackerState} {aliases : List String} {now : Instant}
    (hmiss : (cachedFlightInfo (pruneFlightInfoCache state now).1 aliases now).isNone = true) :
    matching (pruneFlightInfoCache state now).1.flightInfoCache aliases = [] := by
  rw [cachedFlightInfo, Option.isNone_map] at hmiss
  have hnil : (pruneFlightInfoCache state now).1.flightInfoCache.filter (fun e =>
      !e.isExpired now && e.matchesAnyAlias aliases) = [] := by
    by_contra hsome
    have := latestCached_isSome hsome
    rw [Option.isNone_iff_eq_none] at hmiss
    rw [hmiss] at this
    cases this
  rw [matching, List.filter_eq_nil_iff]
  intro e he hmatch
  refine List.filter_eq_nil_iff.mp hnil e he ?_
  rw [pruneFlightInfoCache_cache, List.mem_filter] at he
  rw [he.2, hmatch]
  rfl

/-- Pruning keeps the one entry that matches, as long as it has not expired. -/
theorem matching_prune {cache : List CachedFlightInfo} {aliases : List String} {entry : CachedFlightInfo} {now : Instant}
    (h : matching cache aliases = [entry]) (hlt : now < entry.expiresAt) :
    matching (cache.filter fun e => !e.isExpired now) aliases = [entry] := by
  have hcomm : matching (cache.filter fun e => !e.isExpired now) aliases =
      (matching cache aliases).filter fun e => !e.isExpired now := by
    rw [matching, matching, List.filter_filter, List.filter_filter]
    exact List.filter_congr fun e _ => Bool.and_comm _ _
  rw [hcomm, h]
  refine List.filter_eq_self.mpr fun x hx => ?_
  rw [List.mem_singleton.mp hx]
  simpa [CachedFlightInfo.isExpired] using hlt

/-- The one entry that matches is the one unexpired entry that does. -/
theorem unexpired_matching {cache : List CachedFlightInfo} {aliases : List String} {entry : CachedFlightInfo} {now : Instant}
    (h : matching cache aliases = [entry]) (hlt : now < entry.expiresAt) :
    (cache.filter fun e => !e.isExpired now && e.matchesAnyAlias aliases) = [entry] := by
  rw [matching] at h
  rw [← List.filter_filter, h]
  refine List.filter_eq_self.mpr fun x hx => ?_
  rw [List.mem_singleton.mp hx]
  simpa [CachedFlightInfo.isExpired] using hlt

/-- A lookup that stores nothing prunes the cache. -/
theorem QuietLookup.eq_prune {expiresAt : Instant} {before after : List CachedFlightInfo}
    (h : QuietLookup Γ expiresAt before after) :
    ∃ now, now < expiresAt ∧ after = before.filter fun e => !e.isExpired now := by
  obtain ⟨env, state, identifier, callsign, rfl, hlt, hquiet, rfl⟩ := h
  refine ⟨env.now, hlt, ?_⟩
  have hstep := lookup_step Γ env state identifier callsign
  generalize lookupAviationstackMetadata Γ env state identifier callsign = result at hstep
  cases hstep with
  | stored asks metadata answer =>
    obtain ⟨e, he⟩ := hquiet asks
    rw [answer] at he
    cases he
  | failed asks e answer => rfl
  | cached quiet entry latest => rfl
  | silent quiet nothing => rfl

theorem matching_of_quiet {expiresAt : Instant} {aliases : List String} {entry : CachedFlightInfo}
    {before after : List CachedFlightInfo} (hexp : entry.expiresAt = expiresAt)
    (h : Relation.ReflTransGen (QuietLookup Γ expiresAt) before after) (hm : matching before aliases = [entry]) :
    matching after aliases = [entry] := by
  induction h with
  | refl => exact hm
  | tail _ hstep ih =>
    obtain ⟨now, hlt, rfl⟩ := hstep.eq_prune
    exact matching_prune ih (hexp ▸ hlt)

/-- A lookup by aliases that one unexpired entry matches is answered from it. -/
theorem lookup_of_matching {state : FlightTrackerState} {identifier : FlightIdentifier} {callsign : Option String}
    {entry : CachedFlightInfo} (h : matching state.flightInfoCache (queryCacheAliases Γ identifier callsign) = [entry])
    (hlt : env.now < entry.expiresAt) :
    asksAviationstack Γ env state identifier callsign = false ∧
      (lookupAviationstackMetadata Γ env state identifier callsign).2.metadata = entry.metadata ∧
      (lookupAviationstackMetadata Γ env state identifier callsign).2.checked = true ∧
      (lookupAviationstackMetadata Γ env state identifier callsign).2.failed = false := by
  have hall : (pruneFlightInfoCache state env.now).1.flightInfoCache.filter (fun e => !e.isExpired env.now &&
      e.matchesAnyAlias (queryCacheAliases Γ identifier callsign)) = [entry] :=
    unexpired_matching (matching_prune h hlt) hlt
  have hcached : cachedFlightInfo (pruneFlightInfoCache state env.now).1 (queryCacheAliases Γ identifier callsign) env.now =
      some entry.metadata := by
    rw [cachedFlightInfo, hall]
    rfl
  have hquiet : asksAviationstack Γ env state identifier callsign = false := by simp [asksAviationstack, hcached]
  have hne : (queryCacheAliases Γ identifier callsign).isEmpty = false := by
    have hmem : entry ∈ matching state.flightInfoCache (queryCacheAliases Γ identifier callsign) := by simp [h]
    have hmatch := (List.mem_filter.mp hmem).2
    cases hq : queryCacheAliases Γ identifier callsign with
    | nil =>
      rw [hq] at hmatch
      cases hmatch
    | cons a rest => rfl
  refine ⟨hquiet, ?_⟩
  have hstep := lookup_step Γ env state identifier callsign
  generalize lookupAviationstackMetadata Γ env state identifier callsign = result at hstep
  cases hstep with
  | stored asks metadata answer =>
    rw [hquiet] at asks
    cases asks
  | failed asks e answer =>
    rw [hquiet] at asks
    cases asks
  | cached quiet other latest =>
    rw [hall] at latest
    obtain rfl : entry = other := Option.some.inj latest
    exact ⟨rfl, rfl, rfl⟩
  | silent quiet nothing =>
    rcases nothing with hempty | hnone
    · rw [hne] at hempty
      cases hempty
    · rw [hcached] at hnone
      cases hnone

/-- A lookup that asked AviationStack and was answered leaves one unexpired entry that its aliases match, which holds the answer
and expires later; and every lookup by these aliases before that, with none in between that stores an answer, is answered by it
and asks nothing. A lookup that does not ask has nothing to say, or answers from an entry that has not expired. -/
theorem flight_info_read_your_write (Γ : Ctx) (env : Env) (state : FlightTrackerState) (identifier : FlightIdentifier)
    (callsign : Option String) :
    (∀ metadata, asksAviationstack Γ env state identifier callsign = true →
      env.getAviationstackFlightMetadata identifier callsign = .ok metadata →
      ∃ entry,
        (lookupAviationstackMetadata Γ env state identifier callsign).1.flightInfoCache.filter (fun e =>
          !e.isExpired env.now && e.matchesAnyAlias (queryCacheAliases Γ identifier callsign)) = [entry] ∧
        entry.metadata = metadata ∧ env.now < entry.expiresAt ∧
        ∀ later : FlightTrackerState,
          Relation.ReflTransGen (QuietLookup Γ entry.expiresAt)
            (lookupAviationstackMetadata Γ env state identifier callsign).1.flightInfoCache later.flightInfoCache →
          ∀ env' identifier' callsign',
            queryCacheAliases Γ identifier' callsign' = queryCacheAliases Γ identifier callsign →
            env'.now < entry.expiresAt →
            asksAviationstack Γ env' later identifier' callsign' = false ∧
              (lookupAviationstackMetadata Γ env' later identifier' callsign').2.metadata = metadata ∧
              (lookupAviationstackMetadata Γ env' later identifier' callsign').2.checked = true ∧
              (lookupAviationstackMetadata Γ env' later identifier' callsign').2.failed = false) ∧
    (asksAviationstack Γ env state identifier callsign = false →
      ((lookupAviationstackMetadata Γ env state identifier callsign).2.checked = false ∧
        (lookupAviationstackMetadata Γ env state identifier callsign).2.metadata = none) ∨
      ∃ entry ∈ state.flightInfoCache, env.now < entry.expiresAt ∧
        entry.matchesAnyAlias (queryCacheAliases Γ identifier callsign) = true ∧
        (lookupAviationstackMetadata Γ env state identifier callsign).2.metadata = entry.metadata) := by
  have hstep := lookup_step Γ env state identifier callsign
  generalize lookupAviationstackMetadata Γ env state identifier callsign = result at hstep
  refine ⟨fun metadata hasks hok => ?_, fun hquiet => ?_⟩
  · cases hstep with
    | stored asks answered answer =>
      obtain rfl : answered = metadata := Except.ok.inj (answer.symm.trans hok)
      have hparts := hasks
      rw [asksAviationstack, Bool.and_eq_true, Bool.and_eq_true] at hparts
      obtain ⟨⟨hne, hmiss⟩, -⟩ := hparts
      have hnone := matching_of_miss hmiss
      obtain ⟨entry, hentry, hmeta, -, hexp⟩ := upsert_matching (Γ := Γ) (queryCacheAliases_normal identifier callsign)
        (by simpa using hne) hnone answered env.now
      have hlt : env.now < entry.expiresAt := hexp ▸ flightInfoCacheExpiry_lt answered env.now
      refine ⟨entry, ?_, hmeta, hlt, fun later hlater env' identifier' callsign' hq hlt' => ?_⟩
      · exact unexpired_matching hentry hlt
      · have hmatch := matching_of_quiet rfl hlater hentry
        rw [← hq] at hmatch
        obtain ⟨hasks', hm, hrest⟩ := lookup_of_matching (Γ := Γ) hmatch hlt'
        exact ⟨hasks', hm.trans hmeta, hrest⟩
    | failed asks e answer =>
      rw [hok] at answer
      cases answer
    | cached quiet entry latest =>
      rw [hasks] at quiet
      cases quiet
    | silent quiet nothing =>
      rw [hasks] at quiet
      cases quiet
  · cases hstep with
    | stored asks answered answer =>
      rw [hquiet] at asks
      cases asks
    | failed asks e answer =>
      rw [hquiet] at asks
      cases asks
    | cached quiet entry latest =>
      right
      obtain ⟨hmem, hp⟩ := List.mem_filter.mp (latestCached_mem latest)
      rw [pruneFlightInfoCache_cache, List.mem_filter] at hmem
      rw [Bool.and_eq_true] at hp
      exact ⟨entry, hmem.1, by simpa [CachedFlightInfo.isExpired] using hp.1, hp.2, rfl⟩
    | silent quiet nothing => exact .inl ⟨rfl, rfl⟩

/-- A flight that AviationStack does not know, asked for twice: the second lookup nine minutes later asks nothing. -/
theorem flight_info_read_your_write_unknown :
    asksAviationstack fieldCtx (quietEnv (seconds 540))
      (lookupAviationstackMetadata fieldCtx (quietEnv 0) {} (.callsign "DLH123") none).1 (.callsign "DLH123") none =
      false := by
  have hexp : (lookupAviationstackMetadata fieldCtx (quietEnv 0) {} (.callsign "DLH123") none).1.flightInfoCache.map
      (·.expiresAt) = [seconds 600] := by decide +kernel
  obtain ⟨entry, hone, -, -, hlater⟩ := (flight_info_read_your_write fieldCtx (quietEnv 0) {} (.callsign "DLH123") none).1
    none (by decide +kernel) rfl
  have hmem : entry ∈ (lookupAviationstackMetadata fieldCtx (quietEnv 0) {} (.callsign "DLH123") none).1.flightInfoCache := by
    have hin := List.mem_singleton_self entry
    rw [← hone] at hin
    exact List.mem_of_mem_filter hin
  have hentry : entry.expiresAt = seconds 600 := by
    have := List.mem_map_of_mem (f := (·.expiresAt)) hmem
    rwa [hexp, List.mem_singleton] at this
  exact (hlater _ .refl (quietEnv (seconds 540)) _ _ rfl (by rw [hentry]; decide)).1

end Twitch1337.Tracker
