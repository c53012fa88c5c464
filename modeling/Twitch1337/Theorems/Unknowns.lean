import Twitch1337.Aviation.Aviationstack
import Twitch1337.Theorems.FlightInfo

/-!
# Unknown flights

A flight is stored as unknown when no query found it and the last one did not fail. A refusal counts as an answer, and so does the
failure of a query that is not the last: these are the lookups that store a flight as unknown without having been told so.
-/

namespace Twitch1337.Aviationstack

open Tracker Chrono
open Backends (isClientError isSuccess)

variable {Γ : Ctx}

/-! ## Replies -/

/-- The provider knows no such flight: it says so with a status, or with an empty list. -/
def NoMatch : Reply → Prop
  | .unsent => False
  | .answered status body => isClientError status = true ∧ isActionable status = false ∨ isSuccess status = true ∧ body = some []

/-- The provider refuses to answer. -/
def Refused : Reply → Prop
  | .unsent => False
  | .answered status _ => isActionable status = true

/-- The provider cannot be reached, fails, or says what cannot be read. -/
def Errs : Reply → Prop
  | .unsent => True
  | .answered status body => isClientError status = false ∧ (isSuccess status = true → body = none)

/-- The provider knows the flight. -/
def Finds : Reply → Prop
  | .unsent => False
  | .answered status body => isSuccess status = true ∧ ∃ metadata more, body = some (metadata :: more)

theorem isClientError_of_isActionable {status : Nat} (h : isActionable status = true) : isClientError status = true := by
  simp only [isActionable, Bool.or_eq_true, beq_iff_eq] at h
  obtain (rfl | rfl) | rfl := h <;> rfl

/-- An error of the client is no success. -/
theorem not_isSuccess {status : Nat} (h : isClientError status = true) : isSuccess status = false := by
  simp only [isClientError, Bool.and_eq_true, decide_eq_true_eq] at h
  rw [isSuccess, Bool.and_eq_false_iff, decide_eq_false_iff_not, decide_eq_false_iff_not]
  omega

/-- What a query makes of each kind of reply. -/
inductive QueryStep (reply : Reply) : Except Unit (Option AviationstackFlightMetadata) → Prop
  | found {metadata : AviationstackFlightMetadata} (finds : Finds reply) (noErr : ¬ Errs reply) : QueryStep reply (.ok (some metadata))
  | nothing (noFind : ¬ Finds reply) (noErr : ¬ Errs reply) (why : NoMatch reply ∨ Refused reply) : QueryStep reply (.ok none)
  | failed (noFind : ¬ Finds reply) (errs : Errs reply) (noMatch : ¬ NoMatch reply) : QueryStep reply (.error ())

/-- What one query comes to. -/
theorem query_step (reply : Reply) : QueryStep reply (queryOne reply) := by
  cases reply with
  | unsent => exact .failed id trivial id
  | answered status body =>
    unfold queryOne
    dsimp only
    by_cases hclient : isClientError status = true
    · rw [if_pos hclient]
      have hsuccess := not_isSuccess hclient
      refine .nothing (by simp [Finds, hsuccess]) (by simp [Errs, hclient]) ?_
      cases hact : isActionable status with
      | true => exact .inr hact
      | false => exact .inl (.inl ⟨hclient, hact⟩)
    · rw [if_neg hclient]
      rw [Bool.not_eq_true] at hclient
      by_cases hsuccess : isSuccess status = true
      · rw [if_neg (by simp [hsuccess])]
        cases body with
        | none => exact .failed (by simp [Finds]) ⟨hclient, fun _ => rfl⟩ (by simp [NoMatch, hclient])
        | some data =>
          cases data with
          | nil => exact .nothing (by simp [Finds]) (by simp [Errs, hsuccess]) (.inl (.inr ⟨hsuccess, rfl⟩))
          | cons metadata more => exact .found ⟨hsuccess, metadata, more, rfl⟩ (by simp [Errs, hsuccess])
      · rw [if_pos (by simpa using hsuccess)]
        exact .failed (by simp [Finds, hsuccess]) ⟨hclient, fun h => absurd h hsuccess⟩ (by simp [NoMatch, hclient, hsuccess])

/-- A reply that neither finds, fails nor refuses has no match. -/
theorem noMatch_of {reply : Reply} (hfind : ¬ Finds reply) (herr : ¬ Errs reply) (hrefused : ¬ Refused reply) : NoMatch reply := by
  have h := query_step reply
  generalize queryOne reply = answer at h
  cases h with
  | found finds _ => exact absurd finds hfind
  | nothing _ _ why => exact why.resolve_right hrefused
  | failed _ errs _ => exact absurd errs herr

/-! ## Queries in their order -/

/-- Nothing is found and the last query does not fail. -/
def ComesUpEmpty (reply : Query → Reply) (queries : List Query) : Prop :=
  (∀ q ∈ queries, ¬ Finds (reply q)) ∧ ∀ q ∈ queries.getLast?, ¬ Errs (reply q)

/-- Nothing is found when no query finds anything and none fails. -/
theorem tryQueries_eq_none_iff {reply : Query → Reply} {queries : List Query} :
    tryQueries reply queries = .ok none ↔ ComesUpEmpty reply queries := by
  induction queries with
  | nil => simp [tryQueries, ComesUpEmpty]
  | cons query rest ih =>
    have h := query_step (reply query)
    rw [tryQueries]
    generalize queryOne (reply query) = answer at h
    cases h with
    | found finds _ => simp [ComesUpEmpty, finds]
    | nothing noFind noErr _ =>
      rw [ih]
      cases rest with
      | nil => simp [ComesUpEmpty, noFind, noErr]
      | cons next rest => simp [ComesUpEmpty, noFind, List.getLast?_cons_cons]
    | failed noFind errs _ =>
      cases rest with
      | nil => simp [ComesUpEmpty, errs]
      | cons next rest =>
        simp only [List.isEmpty_cons, Bool.false_eq_true, if_false, ih]
        simp [ComesUpEmpty, noFind, List.getLast?_cons_cons]

/-- What is found was found by one of the queries. -/
theorem exists_finds_of_tryQueries {reply : Query → Reply} {queries : List Query} {metadata : AviationstackFlightMetadata}
    (h : tryQueries reply queries = .ok (some metadata)) : ∃ q ∈ queries, Finds (reply q) := by
  induction queries with
  | nil => cases h
  | cons query rest ih =>
    have hstep := query_step (reply query)
    rw [tryQueries] at h
    generalize queryOne (reply query) = answer at h hstep
    cases hstep with
    | found finds _ => exact ⟨query, List.mem_cons_self, finds⟩
    | nothing =>
      obtain ⟨q, hq, hfinds⟩ := ih h
      exact ⟨q, List.mem_cons_of_mem _ hq, hfinds⟩
    | failed =>
      simp only at h
      split at h
      · cases h
      · obtain ⟨q, hq, hfinds⟩ := ih h
        exact ⟨q, List.mem_cons_of_mem _ hq, hfinds⟩

/-! ## Calls -/

/-- The queries of a call. -/
def LookupCall.plan (Γ : Ctx) (c : LookupCall) : List Query := aviationstackQueries Γ c.identifier c.callsign

/-- The provider is asked. -/
def LookupCall.Asks (Γ : Ctx) (c : LookupCall) (state : FlightTrackerState) : Prop :=
  asksAviationstack Γ (c.environment Γ) state c.identifier c.callsign = true

/-- A query of the plan is refused or fails. -/
def LookupCall.Disturbed (Γ : Ctx) (c : LookupCall) : Prop := ∃ q ∈ c.plan Γ, Refused (c.reply q) ∨ Errs (c.reply q)

/-- The provider is asked, comes up empty, and has not answered every query. -/
def LookupCall.Misreads (Γ : Ctx) (c : LookupCall) (state : FlightTrackerState) : Prop :=
  c.Asks Γ state ∧ ComesUpEmpty c.reply (c.plan Γ) ∧ c.Disturbed Γ

/-- What has not expired when a call begins. -/
def unexpired (state : FlightTrackerState) (now : Instant) : List CachedFlightInfo :=
  state.flightInfoCache.filter fun entry => !entry.isExpired now

/-- A call that asks has the service switched on. -/
theorem asks_enabled {c : LookupCall} {state : FlightTrackerState} (h : c.Asks Γ state) : c.env.aviationstackEnabled = true := by
  simp only [LookupCall.Asks, asksAviationstack, Bool.and_eq_true] at h
  exact h.2

/-- It tries its queries. -/
theorem getMetadata_eq {c : LookupCall} (h : c.env.aviationstackEnabled = true) :
    (c.environment Γ).getAviationstackFlightMetadata c.identifier c.callsign = tryQueries c.reply (c.plan Γ) := by
  simp only [LookupCall.environment, getAviationstackFlightMetadata, h, Bool.not_true, Bool.false_eq_true, if_false]
  split
  · rename_i hempty
    rw [LookupCall.plan, List.isEmpty_iff.mp hempty]
    rfl
  · rfl

/-- An upsert of a known flight makes no entry unknown. -/
theorem unknowns_upsert_some {state : FlightTrackerState} {aliases : List String} {metadata : AviationstackFlightMetadata}
    {now : Instant} {e : CachedFlightInfo} (h : e ∈ (upsertFlightInfoCache Γ state aliases (some metadata) now).flightInfoCache)
    (hunknown : e.metadata = none) : e ∈ state.flightInfoCache := by
  unfold upsertFlightInfoCache at h
  dsimp only at h
  split at h
  · exact h
  · split at h
    · obtain ⟨i, hi⟩ := List.mem_iff_getElem?.mp h
      rw [List.getElem?_modify] at hi
      split at hi
      · obtain ⟨entry, -, rfl⟩ := Option.map_eq_some_iff.mp hi
        cases hunknown
      · rw [Option.map_eq_map, Option.map_id'] at hi
        exact List.mem_of_getElem? hi
    · obtain h | h := List.mem_append.mp h
      · exact h
      · rw [List.mem_singleton.mp h] at hunknown
        cases hunknown

/-- A call that asks and is told of no flight adds one entry. -/
theorem cache_upsert_none {c : LookupCall} {state : FlightTrackerState} (h : c.Asks Γ state) :
    ∃ entry, (upsertFlightInfoCache Γ (pruneFlightInfoCache state c.env.now).1 (queryCacheAliases Γ c.identifier c.callsign) none
      c.env.now).flightInfoCache = unexpired state c.env.now ++ [entry] ∧ entry.metadata = none := by
  simp only [LookupCall.Asks, asksAviationstack, Bool.and_eq_true, Bool.not_eq_true'] at h
  obtain ⟨⟨haliases, hmiss⟩, -⟩ := h
  have hnone := matching_of_miss hmiss
  have hfind : ∀ p : CachedFlightInfo → Bool, (pruneFlightInfoCache state c.env.now).1.flightInfoCache.findIdx? (fun entry =>
      entry.matchesAnyAlias (queryCacheAliases Γ c.identifier c.callsign) && p entry) = none := by
    intro p
    rw [List.findIdx?_eq_none_iff]
    intro entry hentry
    have := List.filter_eq_nil_iff.mp hnone entry hentry
    rw [Bool.not_eq_true] at this
    rw [this, Bool.false_and]
  unfold upsertFlightInfoCache
  simp only [Option.map_none, Option.getD_none, List.foldl_nil, haliases, Bool.false_eq_true, if_false, Option.bind_none, hfind]
  exact ⟨_, rfl, rfl⟩

/-- What a call does to the cache: it stores a flight that was found, or an unknown one, or nothing. -/
inductive CallStep (Γ : Ctx) (c : LookupCall) (state : FlightTrackerState) : List CachedFlightInfo → Prop
  | found {cache : List CachedFlightInfo} (asks : c.Asks Γ state) (finds : ∃ q ∈ c.plan Γ, Finds (c.reply q))
      (known : ∀ e ∈ cache, e.metadata = none → e ∈ state.flightInfoCache) : CallStep Γ c state cache
  | unknown {entry : CachedFlightInfo} (asks : c.Asks Γ state) (empty : ComesUpEmpty c.reply (c.plan Γ))
      (isUnknown : entry.metadata = none) : CallStep Γ c state (unexpired state c.env.now ++ [entry])
  | nothing (why : c.Asks Γ state → ¬ ComesUpEmpty c.reply (c.plan Γ)) : CallStep Γ c state (unexpired state c.env.now)

/-- What a call does to the cache. -/
theorem call_step (Γ : Ctx) (c : LookupCall) (state : FlightTrackerState) :
    CallStep Γ c state (c.step Γ state).flightInfoCache := by
  have hstep := lookup_step Γ (c.environment Γ) state c.identifier c.callsign
  rw [LookupCall.step]
  generalize lookupAviationstackMetadata Γ (c.environment Γ) state c.identifier c.callsign = result at hstep
  cases hstep with
  | stored asks metadata answer =>
    rw [getMetadata_eq (asks_enabled asks)] at answer
    cases metadata with
    | some metadata =>
      refine .found asks (exists_finds_of_tryQueries answer) fun e he hunknown => ?_
      exact List.mem_of_mem_filter (unknowns_upsert_some he hunknown)
    | none =>
      obtain ⟨entry, hcache, hunknown⟩ := cache_upsert_none (c := c) asks
      change CallStep Γ c state (upsertFlightInfoCache Γ (pruneFlightInfoCache state c.env.now).1
        (queryCacheAliases Γ c.identifier c.callsign) none c.env.now).flightInfoCache
      rw [hcache]
      exact .unknown asks (tryQueries_eq_none_iff.mp answer) hunknown
  | failed asks e answer =>
    rw [getMetadata_eq (asks_enabled asks)] at answer
    refine .nothing fun _ hempty => ?_
    rw [tryQueries_eq_none_iff.mpr hempty] at answer
    cases answer
  | cached quiet entry latest =>
    refine .nothing fun asks => ?_
    rw [LookupCall.Asks, quiet] at asks
    cases asks
  | silent quiet nothing =>
    refine .nothing fun asks => ?_
    rw [LookupCall.Asks, quiet] at asks
    cases asks

/-! ## Runs -/

/-- The entries for unknown flights come from lookups in which the provider answered every query so. -/
def Justified (Γ : Ctx) (calls : List LookupCall) : Prop :=
  ∀ e ∈ (after Γ calls).flightInfoCache, e.metadata = none →
    ∃ past c rest, calls = past ++ c :: rest ∧ c.Asks Γ (after Γ past) ∧ e ∉ (after Γ past).flightInfoCache ∧
      e ∈ (c.step Γ (after Γ past)).flightInfoCache ∧ ∀ q ∈ c.plan Γ, NoMatch (c.reply q)

/-- A call of which a query is refused or fails stores no unknown flight, and if it finds none it leaves every entry as it is,
but for those that have expired. -/
def Undisturbed (Γ : Ctx) (c : LookupCall) (state : FlightTrackerState) : Prop :=
  c.Asks Γ state → c.Disturbed Γ →
    (∀ e ∈ (c.step Γ state).flightInfoCache, e.metadata = none → e ∈ state.flightInfoCache) ∧
    ((∀ q ∈ c.plan Γ, ¬ Finds (c.reply q)) → (c.step Γ state).flightInfoCache = unexpired state c.env.now)

/-- An unknown flight in the cache is a real answer, in every state of a run and after each of its calls. -/
def RealAnswers (Γ : Ctx) (calls : List LookupCall) : Prop :=
  ∀ past rest, calls = past ++ rest → Justified Γ past ∧ ∀ c ∈ rest.head?, Undisturbed Γ c (after Γ past)

/-- One more call. -/
theorem after_snoc (past : List LookupCall) (c : LookupCall) : after Γ (past ++ [c]) = c.step Γ (after Γ past) := by
  rw [after, List.foldl_append]
  rfl

/-- A call that is not misread is undisturbed. -/
theorem undisturbed_iff (c : LookupCall) (state : FlightTrackerState) : Undisturbed Γ c state ↔ ¬ c.Misreads Γ state := by
  have hstep := call_step Γ c state
  unfold Undisturbed
  generalize (c.step Γ state).flightInfoCache = cache at hstep
  constructor
  · rintro h ⟨hasks, hempty, hdisturbed⟩
    have hsame := (h hasks hdisturbed).2 hempty.1
    cases hstep with
    | found _ finds _ =>
      obtain ⟨q, hq, hfinds⟩ := finds
      exact hempty.1 q hq hfinds
    | unknown _ _ _ => simpa using congrArg List.length hsame
    | nothing why => exact why hasks hempty
  · intro h hasks hdisturbed
    cases hstep with
    | found _ finds known =>
      refine ⟨known, fun hno => ?_⟩
      obtain ⟨q, hq, hfinds⟩ := finds
      exact absurd hfinds (hno q hq)
    | unknown _ empty _ => exact absurd ⟨hasks, empty, hdisturbed⟩ h
    | nothing why => exact ⟨fun e he _ => List.mem_of_mem_filter he, fun _ => rfl⟩

/-- One call more. -/
theorem Justified.snoc {past : List LookupCall} {c : LookupCall} (h : Justified Γ past) (hc : ¬ c.Misreads Γ (after Γ past)) :
    Justified Γ (past ++ [c]) := by
  intro e he hunknown
  rw [after_snoc] at he
  by_cases hold : e ∈ (after Γ past).flightInfoCache
  · obtain ⟨before, d, rest, rfl, hd⟩ := h e hold hunknown
    exact ⟨before, d, rest ++ [c], by simp, hd⟩
  · have hstep := call_step Γ c (after Γ past)
    generalize hcache : (c.step Γ (after Γ past)).flightInfoCache = cache at hstep he
    cases hstep with
    | found _ _ known => exact absurd (known e he hunknown) hold
    | unknown asks empty _ =>
      refine ⟨past, c, [], rfl, asks, hold, by rw [hcache]; exact he, fun q hq => ?_⟩
      have hclear : ¬ (Refused (c.reply q) ∨ Errs (c.reply q)) := fun hd => hc ⟨asks, empty, q, hq, hd⟩
      rw [not_or] at hclear
      exact noMatch_of (empty.1 q hq) hclear.2 hclear.1
    | nothing _ => exact absurd (List.mem_of_mem_filter he) hold

/-- Unknown flights are real answers in a run if and only if in none of its calls that ask the provider nothing is found, the last
query does not fail, and a query is refused or fails. -/
theorem realAnswers_iff (Γ : Ctx) (calls : List LookupCall) :
    RealAnswers Γ calls ↔ ∀ past c rest, calls = past ++ c :: rest → ¬ c.Misreads Γ (after Γ past) := by
  constructor
  · intro h past c rest hcalls
    exact (undisturbed_iff c _).mp ((h past (c :: rest) hcalls).2 c rfl)
  · intro h past rest hcalls
    refine ⟨?_, fun c hc => ?_⟩
    · induction past using List.reverseRecOn generalizing rest with
      | nil =>
        intro e he
        cases he
      | append_singleton past c ih =>
        have hsplit : calls = past ++ c :: rest := by rw [hcalls, List.append_assoc, List.singleton_append]
        exact (ih (c :: rest) hsplit).snoc (h past c rest hsplit)
    · obtain ⟨rest, rfl⟩ : ∃ more, rest = c :: more := by
        cases rest with
        | nil => cases hc
        | cons d more => exact ⟨more, by rw [Option.some.inj hc]⟩
      exact (undisturbed_iff c _).mpr (h past c rest hcalls)

/-- A lookup while the quota is used up. -/
def refused : LookupCall where
  env := quietEnv 0
  identifier := .callsign "DLH1929"
  callsign := none
  reply _ := .answered 429 none

/-- Too many requests, and the flight is unknown for ten minutes. -/
theorem not_realAnswers : ¬ RealAnswers fieldCtx [refused] := by
  intro h
  have hasks : refused.Asks fieldCtx {} := by
    rw [LookupCall.Asks]
    decide +kernel
  have hplan : refused.plan fieldCtx = [("flight_icao", "DLH1929")] := by decide +kernel
  have hno : ¬ Finds (refused.reply ("flight_icao", "DLH1929")) := fun h => absurd h.1 (by decide)
  have hok : ¬ Errs (refused.reply ("flight_icao", "DLH1929")) := fun h => absurd h.1 (by decide)
  refine (undisturbed_iff refused {}).mp ((h [] [refused] rfl).2 refused rfl) ⟨hasks, ?_, ("flight_icao", "DLH1929"), ?_, .inl rfl⟩
  · rw [hplan]
    exact ⟨by simpa using hno, by simpa using hok⟩
  · rw [hplan]
    exact List.mem_singleton_self _

end Twitch1337.Aviationstack
