import Twitch1337.Aviation.Adsb
import Twitch1337.Lib.Chronicle

/-!
# Parking a backend

What becomes of a backend depends on the replies to its own requests and on nothing else, in whatever order the queries report
them. The rule is read off the log: a refusal parks it, and so does the third failure since it last answered or was parked.
-/

namespace Twitch1337.Backends

open Chronicle Pool

variable {α : Type*} {C : AviationClient α} {start : Nat}

/-! ## Replies -/

/-- A success with a body that can be read. -/
def Reply.answers : Reply α → Bool
  | .answered status (.aircraft _) => isSuccess status
  | _ => false

/-- A 429 or a 403. -/
def Reply.refuses : Reply α → Bool
  | .answered status _ => status = 429 || status = 403
  | _ => false

/-- The time for the request was over before its reply was read. -/
def Reply.timedOut : Reply α → Bool
  | .unsent timeout _ => timeout
  | .answered status (.failed timeout) => isSuccess status && timeout
  | _ => false

/-- It was over while the body of a success was read. -/
def Reply.stalled : Reply α → Bool
  | .answered status (.failed timeout) => isSuccess status && timeout
  | _ => false

/-- Another 4xx, or another failure after which a request may be made again, and not a timeout. -/
def Reply.strikes : Reply α → Bool
  | .unsent timeout connect => !timeout && connect
  | .answered status (.aircraft _) => !(status = 429 || status = 403) && !isSuccess status
  | .answered status (.failed timeout) => !(status = 429 || status = 403) && !(isSuccess status && timeout)

/-- What the code makes of a reply that did not stall. -/
inductive Classified (reply : Reply α) : Except AdsbFetchError (List α) → Prop where
  | answer (list : List α) (h : reply.answers = true) (hr : reply.refuses = false) (hs : reply.strikes = false) :
    Classified reply (.ok list)
  | limit (h : reply.answers = false) (hr : reply.refuses = true) (hs : reply.strikes = false) :
    Classified reply (.error .rateLimited)
  | forbidden (h : reply.answers = false) (hr : reply.refuses = true) (hs : reply.strikes = false) :
    Classified reply (.error (.providerRefused 403))
  | refusal (status : Nat) (hne : status ≠ 403) (h : reply.answers = false) (hr : reply.refuses = false)
    (hs : reply.strikes = true) : Classified reply (.error (.providerRefused status))
  | failure (h : reply.answers = false) (hr : reply.refuses = false) (hs : reply.strikes = true) :
    Classified reply (.error .retryable)
  | timeout (h : reply.answers = false) (hr : reply.refuses = false) (hs : reply.strikes = false) :
    Classified reply (.error .timeout)
  | fatal (h : reply.answers = false) (hr : reply.refuses = false) (hs : reply.strikes = false) :
    Classified reply (.error .fatal)

/-- An error of the client is no success. -/
theorem not_success_of_client_error {status : Nat} (h : isClientError status = true) : isSuccess status = false := by
  simp only [isClientError, isSuccess, Bool.and_eq_true, Bool.and_eq_false_iff, decide_eq_true_eq, decide_eq_false_iff_not]
    at h ⊢
  omega

/-- A reply that does not stall is told apart by its status and its body. -/
theorem classified {reply : Reply α} (h : reply.stalled = false) : Classified reply (fetchAdsbResponseOnce reply) := by
  cases reply with
  | unsent timeout connect =>
    cases timeout with
    | true => exact .timeout rfl rfl rfl
    | false =>
      cases connect with
      | true => exact .failure rfl rfl rfl
      | false => exact .fatal rfl rfl rfl
  | answered status body =>
    simp only [fetchAdsbResponseOnce]
    by_cases h429 : status = 429
    · subst h429
      rw [if_pos rfl]
      cases body <;> exact .limit rfl rfl rfl
    rw [if_neg h429]
    by_cases hclient : isClientError status = true
    · have hns := not_success_of_client_error hclient
      rw [if_pos hclient]
      by_cases h403 : status = 403
      · subst h403
        cases body <;> exact .forbidden rfl rfl rfl
      · cases body <;> exact .refusal status h403 (by simp [Reply.answers, hns]) (by simp [Reply.refuses, h429, h403])
          (by simp [Reply.strikes, h429, h403, hns])
    have h403 : status ≠ 403 := by
      rintro rfl
      exact hclient rfl
    rw [if_neg hclient]
    by_cases hsuccess : isSuccess status = true
    · rw [hsuccess, Bool.not_true, if_neg Bool.false_ne_true]
      cases body with
      | aircraft list =>
        exact .answer list hsuccess (by simp [Reply.refuses, h429, h403]) (by simp [Reply.strikes, hsuccess])
      | failed timeout =>
        simp only [Reply.stalled, hsuccess, Bool.true_and] at h
        exact .failure rfl (by simp [Reply.refuses, h429, h403]) (by simp [Reply.strikes, h429, h403, h])
    · rw [Bool.not_eq_true] at hsuccess
      rw [hsuccess, Bool.not_false, if_pos rfl]
      cases body <;> exact .failure (by simp [Reply.answers, hsuccess]) (by simp [Reply.refuses, h429, h403])
        (by simp [Reply.strikes, h429, h403, hsuccess])

/-! ## The reports of a backend -/

/-- What is noted of a reply to a backend, and whether the backend is parked by it. -/
structure Report (α : Type*) where
  reply : Reply α
  now : Nat
  parked : Bool

/-- What the log says of a backend. -/
def reports (i : Nat) (log : List (Obs α)) : List (Report α) :=
  log.filterMap fun
    | .reported _ j reply now parked => if j = i then some ⟨reply, now, parked⟩ else none
    | .queried .. => none

/-- The backend answered or was parked: its failures before that are forgotten. -/
def Report.relieves (r : Report α) : Bool := r.reply.answers || r.parked

/-- The failures of a backend since it last answered or was parked. -/
def strikes (rs : List (Report α)) : Nat := (rs.reverse.takeWhile fun r => !r.relieves).countP (·.reply.strikes)

/-- The end of the last cooldown. -/
def parkedUntil (C : AviationClient α) (start : Nat) (rs : List (Report α)) : Nat :=
  replay (fun t r => if r.parked then r.now + C.adsbCooldown else t) start rs

/-- The health that the reports of a backend leave. -/
def standing (C : AviationClient α) (start : Nat) (rs : List (Report α)) : BackendHealth :=
  ⟨parkedUntil C start rs, strikes rs⟩

/-- A report adds a strike, or none, or takes all back. -/
theorem strikes_snoc (rs : List (Report α)) (r : Report α) :
    strikes (rs ++ [r]) = if r.relieves then 0 else strikes rs + if r.reply.strikes then 1 else 0 := by
  unfold strikes
  rw [List.reverse_append, List.reverse_singleton, List.singleton_append, List.takeWhile_cons]
  cases hr : r.relieves with
  | true => rfl
  | false => simp [List.countP_cons]

/-- What is known of a backend after one more report. -/
theorem standing_snoc (rs : List (Report α)) (r : Report α) :
    standing C start (rs ++ [r]) =
      ⟨if r.parked then r.now + C.adsbCooldown else parkedUntil C start rs, strikes (rs ++ [r])⟩ := by
  rw [standing, parkedUntil, replay_snoc]
  rfl

@[simp] theorem reports_queried (i p now : Nat) (live : List Nat) (log : List (Obs α)) :
    reports i (log ++ [.queried p now live]) = reports i log := by
  simp [reports]

/-- A report is one of its own backend. -/
theorem reports_reported (i p j now : Nat) (reply : Reply α) (parked : Bool) (log : List (Obs α)) :
    reports i (log ++ [.reported p j reply now parked]) =
      if j = i then reports i log ++ [⟨reply, now, parked⟩] else reports i log := by
  by_cases h : j = i
  · simp [reports, h]
  · simp [reports, h]

/-! ## One report -/

/-- To touch a backend that is there changes its health. -/
theorem touch_of_getElem {health : List BackendHealth} {i : Nat} {h : BackendHealth} (hi : health[i]? = some h)
    (f : BackendHealth → BackendHealth × Bool) : touch health i f = (health.set i (f h).1, (f h).2) := by
  rw [touch, hi]

/-- A health that is set again is the same. -/
theorem set_self {health : List BackendHealth} {i : Nat} {h : BackendHealth} (hi : health[i]? = some h) :
    health.set i h = health := by
  obtain ⟨hlt, rfl⟩ := List.getElem?_eq_some_iff.mp hi
  exact List.set_getElem_self hlt

/-- When a report parks a backend. -/
def Parks (reply : Reply α) (before : List (Report α)) : Prop :=
  reply.refuses = true ∨ (reply.strikes = true ∧ strikes before = 2)

/-- A report parks the backend by the rule, and leaves it the health that its reports leave. -/
theorem report_spec {health : List BackendHealth} {i : Nat} (now : Nat) {rs : List (Report α)} {reply : Reply α}
    (hi : health[i]? = some (standing C start rs)) (hfew : strikes rs < 3) (hreply : reply.stalled = false) :
    ∃ parked, C.report health i now (fetchAdsbResponseOnce reply) =
        (health.set i (standing C start (rs ++ [⟨reply, now, parked⟩])), parked) ∧
      (parked = true ↔ Parks reply rs) ∧ strikes (rs ++ [⟨reply, now, parked⟩]) < 3 := by
  have hpark : ∀ (hr : reply.refuses = true), ∃ parked, C.parkBackend health i now =
        (health.set i (standing C start (rs ++ [⟨reply, now, parked⟩])), parked) ∧
      (parked = true ↔ Parks reply rs) ∧ strikes (rs ++ [⟨reply, now, parked⟩]) < 3 := by
    intro hr
    have hstrikes : strikes (rs ++ [⟨reply, now, true⟩]) = 0 := by
      rw [strikes_snoc]
      simp [Report.relieves]
    refine ⟨true, ?_, by simp [Parks, hr], by omega⟩
    rw [AviationClient.parkBackend, touch_of_getElem hi, standing_snoc, hstrikes]
    rfl
  have hstrike : ∀ (ha : reply.answers = false) (hr : reply.refuses = false) (hs : reply.strikes = true),
      ∃ parked, C.recordRetryableError health i now =
        (health.set i (standing C start (rs ++ [⟨reply, now, parked⟩])), parked) ∧
      (parked = true ↔ Parks reply rs) ∧ strikes (rs ++ [⟨reply, now, parked⟩]) < 3 := by
    intro ha hr hs
    rw [AviationClient.recordRetryableError, touch_of_getElem hi]
    by_cases htwo : strikes rs = 2
    · have hstrikes : strikes (rs ++ [⟨reply, now, true⟩]) = 0 := by
        rw [strikes_snoc]
        simp [Report.relieves]
      refine ⟨true, ?_, by simp [Parks, hs, htwo], by omega⟩
      rw [standing_snoc, hstrikes]
      simp [BackendHealth.retryableError, standing, htwo, errorStreakPark]
    · have hstrikes : strikes (rs ++ [⟨reply, now, false⟩]) = strikes rs + 1 := by
        rw [strikes_snoc]
        simp [Report.relieves, ha, hs]
      have hmin : min (strikes rs + 1) 255 = strikes rs + 1 := by omega
      have hpark : ¬ errorStreakPark ≤ strikes rs + 1 := by
        simp only [errorStreakPark]
        omega
      refine ⟨false, ?_, by simp [Parks, hr, htwo], by omega⟩
      rw [standing_snoc, hstrikes]
      simp [BackendHealth.retryableError, standing, hmin, hpark]
  have hstay : ∀ (ha : reply.answers = false) (hr : reply.refuses = false) (hs : reply.strikes = false),
      ∃ parked, (health, false) = (health.set i (standing C start (rs ++ [⟨reply, now, parked⟩])), parked) ∧
        (parked = true ↔ Parks reply rs) ∧ strikes (rs ++ [⟨reply, now, parked⟩]) < 3 := by
    intro ha hr hs
    have hstrikes : strikes (rs ++ [⟨reply, now, false⟩]) = strikes rs := by
      rw [strikes_snoc]
      simp [Report.relieves, ha, hs]
    refine ⟨false, ?_, by simp [Parks, hr, hs], by omega⟩
    rw [standing_snoc, hstrikes, if_neg Bool.false_ne_true]
    exact congrArg (·, false) (set_self hi).symm
  have hclassified := classified hreply
  generalize fetchAdsbResponseOnce reply = result at hclassified
  cases hclassified with
  | answer list ha hr hs =>
    have hstrikes : strikes (rs ++ [⟨reply, now, false⟩]) = 0 := by
      rw [strikes_snoc]
      simp [Report.relieves, ha]
    refine ⟨false, ?_, by simp [Parks, hr, hs], by omega⟩
    rw [AviationClient.report, recordSuccess, touch_of_getElem hi, standing_snoc, hstrikes]
    rfl
  | limit ha hr hs => exact hpark hr
  | forbidden ha hr hs => exact hpark hr
  | refusal status hne ha hr hs =>
    rw [AviationClient.report, if_neg hne]
    exact hstrike ha hr hs
  | failure ha hr hs => exact hstrike ha hr hs
  | timeout ha hr hs => exact hstay ha hr hs
  | fatal ha hr hs => exact hstay ha hr hs

/-! ## Queries -/

/-- The backends that a query asked. -/
def queriesOf (p : Nat) (log : List (Obs α)) : List (List Nat) :=
  log.filterMap fun
    | .queried q _ live => if q = p then some live else none
    | .reported .. => none

/-- What a query reported, and of which backend. -/
def reportsOf (p : Nat) (log : List (Obs α)) : List (Nat × Reply α) :=
  log.filterMap fun
    | .queried .. => none
    | .reported q i reply _ _ => if q = p then some (i, reply) else none

/-- The query that an entry is about. -/
def Obs.query : Obs α → Nat
  | .queried p .. => p
  | .reported p .. => p

/-- Entries of other queries do not count for the backends of a query. -/
theorem queriesOf_other {p : Nat} {o : Obs α} (h : o.query ≠ p) (log : List (Obs α)) :
    queriesOf p (log ++ [o]) = queriesOf p log := by
  cases o with
  | queried q now live =>
    have hne : q ≠ p := h
    simp [queriesOf, hne]
  | reported q i reply now parked => simp [queriesOf]

/-- Entries of other queries do not count for the reports of a query. -/
theorem reportsOf_other {p : Nat} {o : Obs α} (h : o.query ≠ p) (log : List (Obs α)) :
    reportsOf p (log ++ [o]) = reportsOf p log := by
  cases o with
  | queried q now live => simp [reportsOf]
  | reported q i reply now parked =>
    have hne : q ≠ p := h
    simp [reportsOf, hne]

@[simp] theorem queriesOf_queried (p now : Nat) (live : List Nat) (log : List (Obs α)) :
    queriesOf p (log ++ [.queried p now live]) = queriesOf p log ++ [live] := by
  simp [queriesOf]

@[simp] theorem reportsOf_queried (p q now : Nat) (live : List Nat) (log : List (Obs α)) :
    reportsOf p (log ++ [.queried q now live]) = reportsOf p log := by
  simp [reportsOf]

@[simp] theorem queriesOf_reported (p q i now : Nat) (reply : Reply α) (parked : Bool) (log : List (Obs α)) :
    queriesOf p (log ++ [.reported q i reply now parked]) = queriesOf p log := by
  simp [queriesOf]

@[simp] theorem reportsOf_reported (p i now : Nat) (reply : Reply α) (parked : Bool) (log : List (Obs α)) :
    reportsOf p (log ++ [.reported p i reply now parked]) = reportsOf p log ++ [(i, reply)] := by
  simp [reportsOf]

/-- What the entries of the log say, given those before them. -/
def Rule (C : AviationClient α) (start : Nat) (past : List (Obs α)) : Obs α → Prop
  | .queried _ now live =>
    ∀ i, i ∈ live ↔ i < C.adsbAggregators.length ∧ parkedUntil C start (reports i past) ≤ now
  | .reported _ i reply _ parked => parked = true ↔ Parks reply (reports i past)

/-- The health of every backend is what its reports leave, with fewer than three strikes, and the log is as the rule says. -/
structure Ruled (C : AviationClient α) (start : Nat) (w : Fleet α) : Prop where
  length : w.health.length = C.adsbAggregators.length
  health : ∀ i < C.adsbAggregators.length, w.health[i]? = some (standing C start (reports i w.log))
  few : ∀ i, strikes (reports i w.log) < 3
  log : InOrder (Rule C start) w.log

/-- What a query has asked and reported so far. -/
def Stands (n : Nat) (log : List (Obs α)) (p : Nat) : QueryPoint α → Prop
  | .calling _ => queriesOf p log = [] ∧ reportsOf p log = []
  | .fetching _ live => queriesOf p log = [live] ∧ reportsOf p log = [] ∧ ∀ i ∈ live, i < n
  | .merging _ results perBackend _ =>
    queriesOf p log = [(reportsOf p log).map (·.1) ++ results.map (·.1)] ∧
      (∀ r ∈ results, r.1 < n ∧ r.2.stalled = false) ∧
      (perBackend = [] ↔ ∀ r ∈ reportsOf p log, r.2.answers = false)
  | .outage _ _ =>
    (∀ live ∈ queriesOf p log, (reportsOf p log).map (·.1) = live) ∧ ∀ r ∈ reportsOf p log, r.2.answers = false
  | .returned result =>
    (∀ live ∈ queriesOf p log, (reportsOf p log).map (·.1) = live) ∧
      ((∃ list, result = .ok list) ↔ ∃ r ∈ reportsOf p log, r.2.answers = true)

/-- No reply of a backend that is asked stalls while it is read. -/
def NoStall (_ : Fleet α) (_ : Nat) (s : QueryPoint α) (io : QueryIo α) : Prop :=
  match s with
  | .fetching _ live => ∀ i ∈ live, (io.replies i).stalled = false
  | _ => True

instance (w : Fleet α) (p : Nat) (s : QueryPoint α) (io : QueryIo α) : Decidable (NoStall w p s io) := by
  unfold NoStall
  split <;> infer_instance

/-- A backend is live when it is not parked. -/
theorem mem_liveBackendIndices {health : List BackendHealth} {now i : Nat} :
    i ∈ liveBackendIndices health now ↔ ∃ h, health[i]? = some h ∧ h.parkedUntil ≤ now := by
  simp only [liveBackendIndices, List.mem_filter, List.mem_range, Option.any_eq_true, decide_eq_true_eq]
  constructor
  · rintro ⟨_, h, hi, hle⟩
    exact ⟨h, hi, hle⟩
  · rintro ⟨h, hi, hle⟩
    exact ⟨(List.getElem?_eq_some_iff.mp hi).1, h, hi, hle⟩

/-- The backends that are asked are those whose last cooldown is over. -/
theorem Ruled.live {w : Fleet α} (hw : Ruled C start w) (now i : Nat) :
    i ∈ liveBackendIndices w.health now ↔
      i < C.adsbAggregators.length ∧ parkedUntil C start (reports i w.log) ≤ now := by
  rw [mem_liveBackendIndices]
  constructor
  · rintro ⟨h, hi, hle⟩
    have hlt : i < C.adsbAggregators.length := hw.length ▸ (List.getElem?_eq_some_iff.mp hi).1
    cases (hw.health i hlt).symm.trans hi
    exact ⟨hlt, hle⟩
  · rintro ⟨hlt, hle⟩
    exact ⟨_, hw.health i hlt, hle⟩

/-- A query that asks leaves the health alone. -/
theorem Ruled.queried {w : Fleet α} (hw : Ruled C start w) (p now : Nat) :
    Ruled C start { w with log := w.log ++ [.queried p now (liveBackendIndices w.health now)] } :=
  ⟨hw.length, fun i hi => by simpa using hw.health i hi, fun i => by simpa using hw.few i,
    hw.log.snoc (hw.live now)⟩

/-- A report changes the health of its backend, by the rule, and no other. -/
theorem Ruled.reported {w : Fleet α} (hw : Ruled C start w) (p : Nat) {i : Nat} (now : Nat) {reply : Reply α}
    (hi : i < C.adsbAggregators.length) (hreply : reply.stalled = false) :
    Ruled C start ⟨(C.report w.health i now (fetchAdsbResponseOnce reply)).1,
      w.log ++ [.reported p i reply now (C.report w.health i now (fetchAdsbResponseOnce reply)).2]⟩ := by
  obtain ⟨parked, heq, hparked, hfew⟩ := report_spec now (hw.health i hi) (hw.few i) hreply
  rw [heq]
  refine ⟨by simpa using hw.length, fun j hj => ?_, fun j => ?_, hw.log.snoc hparked⟩
  · simp only [reports_reported]
    by_cases hij : i = j
    · subst hij
      rw [if_pos rfl, List.getElem?_set_self (hw.length ▸ hi)]
    · rw [if_neg hij, List.getElem?_set_ne hij]
      exact hw.health j hj
  · simp only [reports_reported]
    by_cases hij : i = j
    · subst hij
      rwa [if_pos rfl]
    · rw [if_neg hij]
      exact hw.few j

/-- A query goes on to its next point. -/
theorem stands_merging {n : Nat} {log : List (Obs α)} {p i now : Nat} {reply : Reply α} {parked : Bool}
    {endpoint : AdsbEndpoint} {results : List (Nat × Reply α)} {perBackend : List (List α)} {last : Option String}
    (h : Stands n log p (.merging endpoint ((i, reply) :: results) perBackend last)) :
    Stands n (log ++ [.reported p i reply now parked]) p
      (match fetchAdsbResponseOnce reply with
        | .ok aircraft => .merging endpoint results (perBackend ++ [aircraft]) last
        | .error e =>
          .merging endpoint results perBackend (some (providerOutcome (C.adsbAggregators.getD i "") e))) := by
  obtain ⟨hqueries, hresults, hnone⟩ := h
  obtain ⟨⟨_, hstalled⟩, hresults⟩ := List.forall_mem_cons.mp hresults
  have hqueries' : queriesOf p (log ++ [.reported p i reply now parked]) =
      [(reportsOf p (log ++ [.reported p i reply now parked])).map (·.1) ++ results.map (·.1)] := by
    rw [queriesOf_reported, reportsOf_reported, hqueries]
    simp
  have hclassified := classified hstalled
  generalize fetchAdsbResponseOnce reply = result at hclassified
  -- all errors alike leave the answers as they are
  have herror : ∀ last', reply.answers = false →
      Stands n (log ++ [.reported p i reply now parked]) p (.merging endpoint results perBackend last') := by
    intro last' ha
    refine ⟨hqueries', hresults, ?_⟩
    rw [hnone, reportsOf_reported]
    simp [or_imp, forall_and, ha]
  cases hclassified with
  | answer list ha hr hs =>
    refine ⟨hqueries', hresults, ?_⟩
    rw [reportsOf_reported]
    constructor
    · intro h
      simp at h
    · intro h
      have := h (i, reply) (List.mem_append_right _ (List.mem_singleton_self _))
      exact absurd ha (by simp [this])
  | limit ha hr hs => exact herror _ ha
  | forbidden ha hr hs => exact herror _ ha
  | refusal status hne ha hr hs => exact herror _ ha
  | failure ha hr hs => exact herror _ ha
  | timeout ha hr hs => exact herror _ ha
  | fatal ha hr hs => exact herror _ ha

/-- What a query does to the log of another one: it adds entries of its own. -/
theorem next_log (w : Fleet α) (p : Nat) (s : QueryPoint α) (io : QueryIo α) :
    (C.next w p s io).1.log = w.log ∨ ∃ o : Obs α, o.query = p ∧ (C.next w p s io).1.log = w.log ++ [o] := by
  cases s with
  | calling endpoint =>
    simp only [AviationClient.next]
    split
    · exact .inl rfl
    · exact .inr ⟨_, rfl, rfl⟩
  | fetching endpoint live => exact .inl rfl
  | merging endpoint results perBackend last =>
    cases results with
    | nil =>
      simp only [AviationClient.next]
      split
      · exact .inl rfl
      · exact .inl rfl
    | cons r results => exact .inr ⟨_, rfl, rfl⟩
  | outage endpoint outcome => exact .inl rfl
  | returned result => exact .inl rfl

/-- The steps of other queries leave what a query has asked and reported. -/
theorem next_other {w : Fleet α} {p q : Nat} (hpq : p ≠ q) (t : QueryPoint α) (io : QueryIo α) :
    queriesOf p (C.next w q t io).1.log = queriesOf p w.log ∧ reportsOf p (C.next w q t io).1.log = reportsOf p w.log := by
  rcases next_log (C := C) w q t io with hlog | ⟨o, ho, hlog⟩
  · rw [hlog]
    exact ⟨rfl, rfl⟩
  · have hne : o.query ≠ p := fun h => hpq (h.symm.trans ho)
    rw [hlog]
    exact ⟨queriesOf_other hne _, reportsOf_other hne _⟩

/-- Where a query stands is said by its own entries. -/
theorem Stands.congr {n p : Nat} {log log' : List (Obs α)} {s : QueryPoint α} (hq : queriesOf p log' = queriesOf p log)
    (hr : reportsOf p log' = reportsOf p log) (h : Stands n log p s) : Stands n log' p s := by
  cases s <;> simpa only [Stands, hq, hr] using h

/-- One step of a query. -/
theorem own_step {w : Fleet α} {p : Nat} {s : QueryPoint α} {io : QueryIo α} (hw : Ruled C start w)
    (h : Stands C.adsbAggregators.length w.log p s) (hok : NoStall w p s io) :
    Ruled C start (C.next w p s io).1 ∧
      Stands C.adsbAggregators.length (C.next w p s io).1.log p (C.next w p s io).2 := by
  cases s with
  | calling endpoint =>
    obtain ⟨hqueries, hreports⟩ := h
    simp only [AviationClient.next]
    split
    · refine ⟨hw, by simp [hqueries], ?_⟩
      simp [hreports]
    · refine ⟨hw.queried p io.now, ?_⟩
      split
      · rename_i hlive
        rw [List.isEmpty_iff.mp hlive]
        exact ⟨by simp [hqueries, hreports], by simp [hreports]⟩
      · exact ⟨by simp [hqueries], by simp [hreports], fun i hi => ((hw.live io.now i).mp hi).1⟩
  | fetching endpoint live =>
    obtain ⟨hqueries, hreports, hlive⟩ := h
    refine ⟨hw, ?_, fun r hr => ?_, ?_⟩
    · simp only [AviationClient.next]
      rw [hqueries, hreports]
      simp [Function.comp_def]
    · obtain ⟨i, hi, rfl⟩ := List.mem_map.mp hr
      exact ⟨hlive i hi, hok i hi⟩
    · simp only [AviationClient.next]
      rw [hreports]
      simp
  | merging endpoint results perBackend last =>
    cases results with
    | nil =>
      obtain ⟨hqueries, _, hnone⟩ := h
      have hall : ∀ live ∈ queriesOf p w.log, (reportsOf p w.log).map (·.1) = live := by
        simp [hqueries]
      simp only [AviationClient.next]
      split
      · rename_i hempty
        exact ⟨hw, hall, hnone.mp (List.isEmpty_iff.mp hempty)⟩
      · rename_i hempty
        refine ⟨hw, hall, fun _ => ?_, fun _ => ⟨_, rfl⟩⟩
        rw [List.isEmpty_iff, hnone] at hempty
        simpa using hempty
    | cons r results =>
      obtain ⟨hlt, hreply⟩ := h.2.1 r List.mem_cons_self
      exact ⟨hw.reported p io.now hlt hreply, stands_merging h⟩
  | outage endpoint outcome =>
    obtain ⟨hall, hnone⟩ := h
    refine ⟨hw, hall, ?_⟩
    simp only [AviationClient.next]
    constructor
    · rintro ⟨list, hlist⟩
      cases hlist
    · rintro ⟨r, hr, ha⟩
      exact absurd ha (by simp [hnone r hr])
  | returned result => exact ⟨hw, h⟩

/-- The rule, as an outline of the queries. -/
theorem rule_outline (C : AviationClient α) (start : Nat) :
    C.queries.Outline (fun _ => True) NoStall (Ruled C start) (fun w p s => Stands C.adsbAggregators.length w.log p s)
      (fun w p => queriesOf p w.log = [] ∧ reportsOf p w.log = []) where
  start _ _ _ _ _ hfree := hfree
  own _ _ _ _ hw h _ hok := own_step hw h hok
  other _ _ _ _ t io _ h _ hne _ _ _ := by
    obtain ⟨hq, hr⟩ := next_other (C := C) hne t io
    exact h.congr hq hr
  later _ _ _ t io _ hfree _ hne _ := by
    obtain ⟨hq, hr⟩ := next_other (C := C) hne t io
    exact ⟨hq.trans hfree.1, hr.trans hfree.2⟩

/-- A fleet that has not been asked anything is ruled. -/
theorem ruled_new (C : AviationClient α) (start : Nat) : Ruled C start (C.new start) := by
  refine ⟨by simp [AviationClient.new], fun i hi => ?_, fun i => ?_, inOrder_nil⟩
  · simp [AviationClient.new, hi, standing, parkedUntil, strikes, reports]
  · simp [AviationClient.new, strikes, reports]

/-- In every run in which no reply stalls while it is read: each report parks its backend or does not as the rule says, each
query asks the backends whose last cooldown is over, the health of each backend is what its own reports leave, with fewer than
three strikes, and a query that has returned has a result if and only if one of the backends it asked answered. -/
theorem parking_rule (C : AviationClient α) (start : Nat)
    (es : List (Event (QueryIo α) AdsbEndpoint)) (v : Fleet α × List (QueryPoint α))
    (hok : Machine.Meets C.queries.step (Allows (fun _ => True) NoStall) (C.new start, []) es)
    (h : Machine.run C.queries.step (C.new start, []) es = some v) :
    InOrder (Rule C start) v.1.log ∧
      (∀ (i : Nat) (b : BackendHealth), v.1.health[i]? = some b →
        b = standing C start (reports i v.1.log) ∧ b.errorStreak < 3) ∧
      ∀ (p : Nat) (result : Except String (List α)), v.2[p]? = some (.returned result) →
        (∀ live ∈ queriesOf p v.1.log, (reportsOf p v.1.log).map (·.1) = live) ∧
          ((∃ list, result = .ok list) ↔ ∃ r ∈ reportsOf p v.1.log, r.2.answers = true) := by
  have hP : C.queries.Disciplined := ⟨fun _ => rfl, fun _ _ _ _ _ hk => by cases hk⟩
  have hx : Exclusive C.queries (C.new start, []) := fun _ _ _ _ hp => by cases hp
  have hstart : Holds (Ruled C start) (fun w p s => Stands C.adsbAggregators.length w.log p s)
      (fun w p => queriesOf p w.log = [] ∧ reportsOf p w.log = []) (C.new start, []) :=
    ⟨ruled_new C start, fun _ _ hp => (by cases hp), fun _ _ => ⟨rfl, rfl⟩⟩
  obtain ⟨_, hruled, hprocs, _⟩ := (rule_outline C start).run hP hx hstart hok h
  refine ⟨hruled.log, fun i b hb => ?_, fun p result hp => hprocs p _ hp⟩
  have hlt : i < C.adsbAggregators.length := hruled.length ▸ (List.getElem?_eq_some_iff.mp hb).1
  cases (hruled.health i hlt).symm.trans hb
  exact ⟨rfl, hruled.few i⟩

/-! ### Two backends -/

/-- Two backends, parked for a minute. -/
def twoBackends : AviationClient Nat := ⟨["adsb.lol", "airplanes.live"], 60, List.flatten⟩

/-- A query that asks the first backend, or both, and its steps, at one time. -/
def query (p now : Nat) (asked : Nat) (first : Reply Nat) : List (Event (QueryIo Nat) AdsbEndpoint) :=
  let io : QueryIo Nat := ⟨now, fun i => if i = 0 then first else .answered 200 (.aircraft [7])⟩
  .spawn .hex :: List.replicate (3 + asked) (.step p io)

theorem parking_rule_twoBackends :
    ∃ v, Machine.run twoBackends.queries.step (twoBackends.new 0, [])
        (query 0 10 2 (.answered 429 (.failed false)) ++ query 1 20 1 (.answered 200 (.aircraft []))) = some v ∧
      queriesOf 1 v.1.log = [[1]] ∧ InOrder (Rule twoBackends 0) v.1.log := by
  have hruns : (Machine.run twoBackends.queries.step (twoBackends.new 0, [])
      (query 0 10 2 (.answered 429 (.failed false)) ++ query 1 20 1 (.answered 200 (.aircraft [])))).map
        (fun v => queriesOf 1 v.1.log) = some [[1]] := by
    decide +kernel
  have hok : Machine.Meets twoBackends.queries.step (Allows (fun _ => True) NoStall) (twoBackends.new 0, [])
      (query 0 10 2 (.answered 429 (.failed false)) ++ query 1 20 1 (.answered 200 (.aircraft []))) := by
    decide +kernel
  obtain ⟨v, hv, hasked⟩ := Option.map_eq_some_iff.mp hruns
  exact ⟨v, hv, hasked, (parking_rule twoBackends 0 _ v hok hv).1⟩

/-- Three replies of the first backend in a row stall, and a fourth query. -/
def stalls : List (Event (QueryIo Nat) AdsbEndpoint) :=
  query 0 10 2 (.answered 200 (.failed true)) ++ query 1 20 2 (.answered 200 (.failed true)) ++
    query 2 30 2 (.answered 200 (.failed true)) ++ query 3 40 1 (.answered 200 (.aircraft []))

/-- Every request to the first backend timed out, and it is parked: the fourth query does not ask it. -/
theorem parked_by_timeouts :
    ∃ v, Machine.run twoBackends.queries.step (twoBackends.new 0, []) stalls = some v ∧
      (∀ r ∈ reports 0 v.1.log, r.reply.timedOut = true) ∧ (reports 0 v.1.log).map (·.parked) = [false, false, true] ∧
      queriesOf 3 v.1.log = [[1]] := by
  have hruns : (Machine.run twoBackends.queries.step (twoBackends.new 0, []) stalls).map (fun v =>
      ((reports 0 v.1.log).all (·.reply.timedOut), (reports 0 v.1.log).map (·.parked), queriesOf 3 v.1.log)) =
        some (true, [false, false, true], [[1]]) := by
    decide +kernel
  obtain ⟨v, hv, hout⟩ := Option.map_eq_some_iff.mp hruns
  simp only [Prod.mk.injEq] at hout
  exact ⟨v, hv, List.all_eq_true.mp hout.1, hout.2.1, hout.2.2⟩

end Twitch1337.Backends
