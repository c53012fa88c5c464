import Twitch1337.Bot.ModelCatalog
import Twitch1337.Lib.Chronicle

/-!
# Loads of the model catalogue

However those who ask for the catalogue go on beside each other, each is given the catalogue that was received last, or an error as
long as none was. What was received is the reply to a fetch. One that is given without a fetch is at most five minutes old, or a fetch has failed since it was received. After
a fetch has failed no other begins for a minute, unless a catalogue was received since.
-/

namespace Twitch1337.ModelCatalog

open Chronicle Pool

/-! ## What the log says -/

/-- A catalogue that is received, and when. -/
def storedOf : Obs → Option (Nat × Names)
  | .stored now names => some (now, names)
  | _ => none

/-- When a fetch fails. -/
def failedOf : Obs → Option Nat
  | .failed now => some now
  | _ => none

/-- The catalogue that was received last, and when. -/
def lastStored (log : List Obs) : Option (Nat × Names) := log.reverse.findSome? storedOf

/-- When fetches failed since then, the last one first. -/
def failures (log : List Obs) : List Nat := (log.reverse.takeWhile fun o => (storedOf o).isNone).filterMap failedOf

/-- The last catalogue after one more note. -/
theorem lastStored_snoc (log : List Obs) (o : Obs) : lastStored (log ++ [o]) = (storedOf o).or (lastStored log) := by
  rw [lastStored, List.reverse_append, List.reverse_singleton, List.singleton_append, List.findSome?_cons]
  cases storedOf o <;> rfl

/-- The failures after one more note: a catalogue ends them. -/
theorem failures_snoc (log : List Obs) (o : Obs) :
    failures (log ++ [o]) = if (storedOf o).isNone then (failedOf o).toList ++ failures log else [] := by
  rw [failures, List.reverse_append, List.reverse_singleton, List.singleton_append, List.takeWhile_cons]
  split
  · rw [List.filterMap_cons]
    cases failedOf o <;> rfl
  · rfl

/-- A fetch has ended, well or not. -/
def Tried (log : List Obs) : Prop := failures log ≠ [] ∨ lastStored log ≠ none

/-- A note leaves it tried. -/
theorem Tried.snoc {log : List Obs} (h : Tried log) (o : Obs) : Tried (log ++ [o]) := by
  unfold Tried
  rw [lastStored_snoc, failures_snoc]
  cases hstored : storedOf o with
  | some stored => exact .inr (by simp)
  | none =>
    rcases h with h | h
    · exact .inl (by simp [h])
    · exact .inr (by simpa using h)

/-- More notes leave a log tried. -/
theorem Tried.append {log : List Obs} (h : Tried log) (new : List Obs) : Tried (log ++ new) := by
  induction new using List.reverseRecOn with
  | nil => rwa [List.append_nil]
  | append_singleton new o ih =>
    rw [← List.append_assoc]
    exact ih.snoc o

/-- What is right of an entry, given the entries before it. -/
def Rule (past : List Obs) : Obs → Prop
  | .began _ now => ∀ t ∈ failures past, t + failureBackoff ≤ now
  | .heldOff _ now => ∃ t ∈ failures past, now < t + failureBackoff
  | .loaded _ now fresh names =>
    names = (lastStored past).map (·.2) ∧ (names = none → failures past ≠ []) ∧
      (fresh = true → ∃ stored, lastStored past = some stored ∧ now ≤ stored.1 + cacheTtl)
  | _ => True

/-! ## The invariant -/

/-- The cache is what the log says, and the log is right. -/
structure Current (g : World) : Prop where
  entry : g.cache.entry.map (fun e => (e.fetchedAt, e.byId)) = lastStored g.log
  failed : g.cache.fetchFailedUntil = (failures g.log).head?.map (· + failureBackoff)
  past : ∀ t ∈ failures g.log, t ≤ g.clock
  latest : ∀ t ∈ (failures g.log).head?, ∀ t' ∈ failures g.log, t' ≤ t
  rule : InOrder Rule g.log

/-- What a process relies on. -/
def Relies (g : World) (p : Nat) : Point → Prop
  | .readingStale _ => Tried g.log
  | .ended _ loaded => ∃ now fresh, .loaded p now fresh loaded ∈ g.log
  | _ => True

variable {g : World} {p q : Nat} {s t : Point} {io : Io} {log : List Obs}

/-- The cache holds what was received last. -/
theorem Current.stale (h : Current g) : g.cache.staleCatalog = (lastStored g.log).map (·.2) := by
  rw [← h.entry, CatalogCache.staleCatalog, Option.map_map]
  rfl

/-- A note that neither ends a fetch nor is wrong. -/
theorem Current.note (h : Current g) {o : Obs} (hstored : storedOf o = none) (hfailed : failedOf o = none) (ho : Rule g.log o) :
    Current (g.note o) := by
  have hlast : lastStored (g.log ++ [o]) = lastStored g.log := by rw [lastStored_snoc, hstored, Option.none_or]
  have hsame : failures (g.log ++ [o]) = failures g.log := by
    rw [failures_snoc, hstored, hfailed, Option.isNone_none, if_pos rfl, Option.toList_none, List.nil_append]
  refine ⟨h.entry.trans hlast.symm, ?_, ?_, ?_, h.rule.snoc ho⟩
  · rw [World.note, hsame]
    exact h.failed
  · rw [World.note, hsame]
    exact h.past
  · rw [World.note, hsame]
    exact h.latest

/-- A load that ends with what was received last. -/
theorem Current.finish (h : Current g) {now : Nat} {fresh : Bool} {request : Request} {names : Option Names}
    (hnames : names = (lastStored g.log).map (·.2)) (htried : Tried g.log)
    (hfresh : fresh = true → ∃ stored, lastStored g.log = some stored ∧ now ≤ stored.1 + cacheTtl) :
    Current (g.finish p now fresh request names).1 ∧
      Relies (g.finish p now fresh request names).1 p (g.finish p now fresh request names).2 := by
  refine ⟨h.note rfl rfl ⟨hnames, fun hnone => ?_, hfresh⟩, now, fresh, List.mem_append_right _ (List.mem_singleton_self _)⟩
  rcases htried with htried | htried
  · exact htried
  · rw [hnames, Option.map_eq_none_iff] at hnone
    exact absurd hnone htried

/-- A catalogue is received. -/
theorem Current.store (h : Current g) (now : Nat) (names : Names) :
    Current ({ g with cache := ⟨some ⟨now, names⟩, none⟩ }.note (.stored now names)) := by
  have hlast : lastStored (g.log ++ [.stored now names]) = some (now, names) := lastStored_snoc g.log _
  have hnone : failures (g.log ++ [.stored now names]) = [] := failures_snoc g.log _
  refine ⟨hlast.symm, ?_, ?_, ?_, h.rule.snoc trivial⟩ <;> rw [World.note, hnone]
  · rfl
  · exact fun t ht => by cases ht
  · exact fun t ht => by cases ht

/-- A fetch fails. -/
theorem Current.fail (h : Current g) {now : Nat} (hnow : g.clock = now) :
    Current ({ g with cache := { g.cache with fetchFailedUntil := some (now + failureBackoff) } }.note (.failed now)) := by
  have hlast : lastStored (g.log ++ [.failed now]) = lastStored g.log := lastStored_snoc g.log _
  have hmore : failures (g.log ++ [.failed now]) = now :: failures g.log := failures_snoc g.log _
  refine ⟨h.entry.trans hlast.symm, ?_, ?_, ?_, h.rule.snoc trivial⟩ <;> rw [World.note, hmore]
  · rfl
  · intro t ht
    rcases List.mem_cons.mp ht with rfl | ht
    · exact hnow.ge
    · exact h.past t ht
  · intro t ht t' ht'
    obtain rfl := Option.some.inj ht
    rcases List.mem_cons.mp ht' with rfl | ht'
    · exact le_rfl
    · exact (h.past t' ht').trans hnow.le

/-- Time may pass. -/
theorem Current.tick (h : Current g) {now : Nat} (hnow : g.clock ≤ now) : Current { g with clock := now } :=
  ⟨h.entry, h.failed, fun t ht => (h.past t ht).trans hnow, h.latest, h.rule⟩

/-! ## Steps -/

/-- One step keeps what holds, and gives the process what it relies on. -/
theorem own_act (h : Current g) (hs : Relies g p s) (hnow : g.clock = io.now) :
    Current (g.act p s io).1 ∧ Relies (g.act p s io).1 p (g.act p s io).2 := by
  cases s with
  | asking request =>
    rw [World.act]
    cases hfresh : g.cache.freshCatalog io.now with
    | none => exact ⟨h, trivial⟩
    | some names =>
      unfold CatalogCache.freshCatalog at hfresh
      have hentry := h.entry
      split at hfresh
      · rename_i entry hcached
        rw [Option.ite_none_left_eq_some] at hfresh
        obtain ⟨hyoung, hnames⟩ := hfresh
        rw [hcached, Option.map_some] at hentry
        refine h.finish ?_ (.inr ?_) fun _ => ⟨_, hentry.symm, ?_⟩
        · rw [← hentry, ← Option.some.inj hnames]
          rfl
        · rw [← hentry]
          exact Option.some_ne_none _
        · simp only
          omega
      · cases hfresh
  | checkingBackoff request =>
    rw [World.act]
    have hfailed := h.failed
    split
    · rename_i hbackoff
      rw [CatalogCache.inFetchBackoff, hfailed, Option.any_map, Option.any_eq_true] at hbackoff
      obtain ⟨t, ht, hlt⟩ := hbackoff
      have hmem : t ∈ failures g.log := List.mem_of_mem_head? ht
      refine ⟨h.note rfl rfl ⟨t, hmem, of_decide_eq_true hlt⟩, Tried.snoc (.inl ?_) _⟩
      exact List.ne_nil_of_mem hmem
    · rename_i hbackoff
      refine ⟨h.note rfl rfl fun t ht => ?_, trivial⟩
      cases hhead : (failures g.log).head? with
      | none =>
        rw [List.head?_eq_none_iff] at hhead
        rw [hhead] at ht
        cases ht
      | some last =>
        rw [CatalogCache.inFetchBackoff, hfailed, hhead, Option.map_some, Option.any_some, decide_eq_true_eq] at hbackoff
        have := h.latest last hhead t ht
        omega
  | readingStale request => exact h.finish h.stale hs fun hfalse => by cases hfalse
  | fetching request => exact ⟨h, trivial⟩
  | storing request fetched =>
    cases fetched with
    | some names =>
      have hstored := h.store io.now names
      have hlast : lastStored (g.log ++ [.stored io.now names]) = some (io.now, names) := lastStored_snoc g.log _
      refine hstored.finish ?_ (.inr ?_) fun hfalse => by cases hfalse
      · exact (congrArg (Option.map (·.2)) hlast).symm
      · exact fun hnone => by cases hlast.symm.trans hnone
    | none =>
      have hstale := h.stale
      have hlast : lastStored (g.log ++ [.failed io.now]) = lastStored g.log := lastStored_snoc g.log _
      have hmore : failures (g.log ++ [.failed io.now]) = io.now :: failures g.log := failures_snoc g.log _
      refine (h.fail hnow).finish (hstale.trans (congrArg (Option.map (·.2)) hlast.symm)) (.inl ?_) fun hfalse => by cases hfalse
      exact fun hnone => by cases hmore.symm.trans hnone
  | ended request loaded => exact ⟨h, hs⟩
  | skipped request => exact ⟨h, trivial⟩

/-- The log only grows. -/
theorem exists_log_act (g : World) (p : Nat) (s : Point) (io : Io) : ∃ new, (g.act p s io).1.log = g.log ++ new := by
  cases s with
  | asking request =>
    rw [World.act]
    split
    · exact ⟨_, rfl⟩
    · exact ⟨[], (List.append_nil _).symm⟩
  | checkingBackoff request =>
    rw [World.act]
    split <;> exact ⟨_, rfl⟩
  | readingStale request => exact ⟨_, rfl⟩
  | storing request fetched =>
    cases fetched <;> exact ⟨_, List.append_assoc _ _ _⟩
  | fetching | ended | skipped => exact ⟨[], (List.append_nil _).symm⟩

/-- What a process relies on outlives more notes. -/
theorem Relies.grow {g' : World} {new : List Obs} (h : Relies g p s) (hlog : g'.log = g.log ++ new) : Relies g' p s := by
  cases s with
  | readingStale request =>
    have htried : Tried (g.log ++ new) := Tried.append h new
    rw [← hlog] at htried
    exact htried
  | ended request loaded =>
    obtain ⟨now, fresh, hmem⟩ := h
    exact ⟨now, fresh, hlog ▸ List.mem_append_left _ hmem⟩
  | asking | checkingBackoff | fetching | storing | skipped => trivial

/-- The clock does not run backwards. -/
def InTime (g : World) (_ : Nat) (_ : Point) (io : Io) : Prop := g.clock ≤ io.now

instance (g : World) (p : Nat) (s : Point) (io : Io) : Decidable (InTime g p s io) := inferInstanceAs (Decidable (g.clock ≤ io.now))

/-- The steps of loads among themselves. -/
theorem loads_outline : loads.Outline (fun _ => True) InTime Current Relies (fun _ _ => True) where
  start _ _ request _ _ _ := by
    cases request with
    | displayName conn modelId =>
      simp only [loads, Request.start]
      split <;> trivial
    | entries => trivial
  own _ _ _ _ hg hs _ hnow := own_act (hg.tick hnow) (hs.grow (List.append_nil _).symm) rfl
  other g _ _ q t io _ hs _ _ _ _ _ := by
    obtain ⟨new, hlog⟩ := exists_log_act { g with clock := io.now } q t io
    exact hs.grow hlog
  later _ _ _ _ _ _ _ _ _ _ := trivial

/-! ## Replies -/

variable {start : World × List Point} {es more : List (Event Io Request)} {reply : Option Json.Value}

/-- A process that was fetching has been given the reply. -/
def Received (start : World × List Point) (es : List (Event Io Request)) (reply : Option Json.Value) : Prop :=
  ∃ before p now after w request, es = before ++ .step p ⟨now, reply⟩ :: after ∧
    Machine.run loads.step start before = some w ∧ w.2[p]? = some (.fetching request)

theorem Received.append (h : Received start es reply) (more : List (Event Io Request)) : Received start (es ++ more) reply := by
  obtain ⟨before, p, now, after, w, request, rfl, hrun, hp⟩ := h
  exact ⟨before, p, now, after ++ more, w, request, by rw [List.append_assoc, List.cons_append], hrun, hp⟩

/-- What is about to be stored, what was stored and what failed are replies to fetches. -/
structure Sourced (start : World × List Point) (past : List (Event Io Request)) (w : World × List Point) : Prop where
  run : Machine.run loads.step start past = some w
  storing : ∀ (p : Nat) (request : Request) (fetched : Option Names), w.2[p]? = some (.storing request fetched) →
    ∃ reply, Received start past reply ∧ fetched = reply.bind parseOpenrouterModels
  stored : ∀ now names, Obs.stored now names ∈ w.1.log →
    ∃ reply, Received start past (some reply) ∧ parseOpenrouterModels reply = some names
  failed : ∀ now, Obs.failed now ∈ w.1.log → ∃ reply, Received start past reply ∧ reply.bind parseOpenrouterModels = none

/-- Only a fetch leads to a process that is about to store. -/
theorem fetching_of_storing {request : Request} {fetched : Option Names} (h : (g.act p s io).2 = .storing request fetched)
    (hdone : s.isEnded = false) : s = .fetching request ∧ fetched = io.reply.bind parseOpenrouterModels := by
  cases s with
  | asking r =>
    rw [World.act] at h
    split at h <;> cases h
  | checkingBackoff r =>
    rw [World.act] at h
    split at h <;> cases h
  | readingStale r => cases h
  | fetching r =>
    cases h
    exact ⟨rfl, rfl⟩
  | storing r x => cases x <;> cases h
  | ended | skipped => cases hdone

/-- Only a process that is about to store adds an entry of the end of a fetch. -/
theorem storing_of_log {o : Obs} (h : o ∈ (g.act p s io).1.log) : o ∈ g.log ∨
    (∀ now names, o = .stored now names → ∃ request, s = .storing request (some names)) ∧
      ∀ now, o = .failed now → ∃ request, s = .storing request none := by
  have hnew : ∀ new : Obs, storedOf new = none → failedOf new = none → o ∈ g.log ++ [new] → o ∈ g.log ∨
      (∀ now names, o = .stored now names → ∃ request, s = .storing request (some names)) ∧
        ∀ now, o = .failed now → ∃ request, s = .storing request none := by
    intro new hstored hfailed ho
    rcases List.mem_append.mp ho with ho | ho
    · exact .inl ho
    · obtain rfl := List.mem_singleton.mp ho
      refine .inr ⟨fun now names heq => ?_, fun now heq => ?_⟩
      · rw [heq] at hstored
        cases hstored
      · rw [heq] at hfailed
        cases hfailed
  cases s with
  | asking r =>
    rw [World.act] at h
    split at h
    · exact hnew _ rfl rfl h
    · exact .inl h
  | checkingBackoff r =>
    rw [World.act] at h
    split at h <;> exact hnew _ rfl rfl h
  | readingStale r => exact hnew _ rfl rfl h
  | storing r x =>
    cases x with
    | none =>
      simp only [World.act, World.finish, World.note, List.append_assoc, List.mem_append, List.mem_singleton] at h
      rcases h with h | rfl | rfl
      · exact .inl h
      · exact .inr ⟨(fun _ _ heq => by cases heq), fun _ _ => ⟨r, rfl⟩⟩
      · exact .inr ⟨(fun _ _ heq => by cases heq), fun _ heq => by cases heq⟩
    | some names =>
      simp only [World.act, World.finish, World.note, List.append_assoc, List.mem_append, List.mem_singleton] at h
      rcases h with h | rfl | rfl
      · exact .inl h
      · refine .inr ⟨fun _ _ heq => ?_, fun _ heq => by cases heq⟩
        cases heq
        exact ⟨r, rfl⟩
      · exact .inr ⟨(fun _ _ heq => by cases heq), fun _ heq => by cases heq⟩
  | fetching | ended | skipped => exact .inl h

/-- No process starts with a catalogue in its hands. -/
theorem start_ne_storing (request r : Request) (fetched : Option Names) : request.start ≠ .storing r fetched := by
  cases request with
  | displayName conn modelId =>
    rw [Request.start]
    split <;> exact fun h => by cases h
  | entries => exact fun h => by cases h

/-- At the start nothing is stored. -/
theorem sourced_start (now : Nat) : Sourced (World.new now, []) [] (World.new now, []) where
  run := rfl
  storing _ _ _ h := by cases h
  stored _ _ h := by cases h
  failed _ h := by cases h

/-- Every event keeps the sources. -/
theorem Sourced.step {past : List (Event Io Request)} {w w' : World × List Point} {e : Event Io Request} (h : Sourced start past w)
    (hstep : loads.step w e = some w') : Sourced start (past ++ [e]) w' := by
  have hrun : Machine.run loads.step start (past ++ [e]) = some w' := by
    rw [Machine.run_append, h.run, Option.bind_some]
    exact Machine.run_cons_iff.mpr ⟨w', hstep, rfl⟩
  rcases step_cases hstep with ⟨request, rfl, rfl⟩ | ⟨p, io, s, rfl, hp, hdone, -, rfl⟩
  · refine ⟨hrun, fun q r fetched hq => ?_, fun now names ho => ?_, fun now ho => ?_⟩
    · rcases getElem?_spawn hq with hq | ⟨-, hq⟩
      · obtain ⟨reply, hreply, heq⟩ := h.storing q r fetched hq
        exact ⟨reply, hreply.append _, heq⟩
      · exact absurd hq.symm (start_ne_storing request r fetched)
    · obtain ⟨reply, hreply, heq⟩ := h.stored now names ho
      exact ⟨reply, hreply.append _, heq⟩
    · obtain ⟨reply, hreply, heq⟩ := h.failed now ho
      exact ⟨reply, hreply.append _, heq⟩
  · refine ⟨hrun, fun q r fetched hq => ?_, fun now names ho => ?_, fun now ho => ?_⟩
    · by_cases hqp : q = p
      · subst hqp
        rw [List.getElem?_set_self (List.getElem?_eq_some_iff.mp hp).1] at hq
        obtain ⟨rfl, rfl⟩ := fetching_of_storing (Option.some.inj hq) hdone
        exact ⟨io.reply, ⟨past, q, io.now, [], w, r, rfl, h.run, hp⟩, rfl⟩
      · rw [List.getElem?_set_ne (Ne.symm hqp)] at hq
        obtain ⟨reply, hreply, heq⟩ := h.storing q r fetched hq
        exact ⟨reply, hreply.append _, heq⟩
    · rcases storing_of_log ho with ho | ⟨hstored, -⟩
      · obtain ⟨reply, hreply, heq⟩ := h.stored now names ho
        exact ⟨reply, hreply.append _, heq⟩
      · obtain ⟨request, rfl⟩ := hstored now names rfl
        obtain ⟨reply, hreply, heq⟩ := h.storing p request (some names) hp
        obtain ⟨value, rfl, hvalue⟩ := Option.bind_eq_some_iff.mp heq.symm
        exact ⟨value, hreply.append _, hvalue⟩
    · rcases storing_of_log ho with ho | ⟨-, hfailed⟩
      · obtain ⟨reply, hreply, heq⟩ := h.failed now ho
        exact ⟨reply, hreply.append _, heq⟩
      · obtain ⟨request, rfl⟩ := hfailed now rfl
        obtain ⟨reply, hreply, heq⟩ := h.storing p request none hp
        exact ⟨reply, hreply.append _, heq.symm⟩

/-! ## Runs -/

/-- In every run of processes that ask for the catalogue, the clock not running backwards: the log is right, entry by entry, each
process that has ended was given what the log says, and what was stored, or has failed, was the reply to a fetch. -/
theorem loads_are_the_last_received {start : Nat} {es : List (Event Io Request)} {v : World × List Point}
    (hok : Machine.Meets loads.step (Allows (fun _ => True) InTime) (World.new start, []) es)
    (hrun : Machine.run loads.step (World.new start, []) es = some v) :
    InOrder Rule v.1.log ∧
      (∀ (p : Nat) (request : Request) (names : Option Names), v.2[p]? = some (.ended request names) →
        ∃ now fresh, .loaded p now fresh names ∈ v.1.log) ∧
      (∀ now names, .stored now names ∈ v.1.log →
        ∃ reply, Received (World.new start, []) es (some reply) ∧ parseOpenrouterModels reply = some names) ∧
      ∀ now, .failed now ∈ v.1.log → ∃ reply, Received (World.new start, []) es reply ∧ reply.bind parseOpenrouterModels = none := by
  have hP : loads.Disciplined := ⟨fun _ => rfl, fun _ _ _ _ _ hk => by cases hk⟩
  have hx : Exclusive loads (World.new start, []) := fun _ _ _ _ hp => by cases hp
  have hnew : Current (World.new start) :=
    ⟨rfl, rfl, (fun t ht => by cases ht), (fun t ht => by cases ht), inOrder_nil⟩
  have hstart : Holds Current Relies (fun _ _ => True) (World.new start, []) :=
    ⟨hnew, fun _ _ hp => (by cases hp), fun _ _ => trivial⟩
  obtain ⟨-, hcurrent, hprocs, -⟩ := loads_outline.run hP hx hstart hok hrun
  have hsourced : Sourced (World.new start, []) ([] ++ es) v :=
    Machine.run_history (Sourced (World.new start, [])) (fun _ _ _ _ h hstep => h.step hstep) [] (sourced_start start) hrun
  exact ⟨hcurrent.rule, fun p request names hp => hprocs p _ hp, hsourced.stored, hsourced.failed⟩

/-- One process fetches the catalogue, and another finds it. -/
def twoLoads : List (Event Io Request) :=
  let model : Json.Value := .object [("id", .string "some/model"), ("name", .string "Some: Model (free)")]
  let reply : Json.Value := .object [("data", .array [model])]
  [.spawn .entries, .step 0 ⟨0, none⟩, .step 0 ⟨0, none⟩, .step 0 ⟨0, some reply⟩, .spawn .entries, .step 0 ⟨5, none⟩,
    .step 1 ⟨7, none⟩]

/-- The run can happen. -/
theorem twoLoads_isSome : (Machine.run loads.step (World.new 0, []) twoLoads).isSome = true := by decide +kernel

/-- What a process has loaded. -/
def Point.loaded : Point → Option Names
  | ended _ names => names
  | _ => none

/-- The second is given the name that the first has received. -/
theorem loads_are_the_last_received_two :
    ∃ v, Machine.run loads.step (World.new 0, []) twoLoads = some v ∧ v.1.log.length = 4 ∧ InOrder Rule v.1.log ∧
      (∀ now names, .stored now names ∈ v.1.log →
        ∃ reply, Received (World.new 0, []) twoLoads (some reply) ∧ parseOpenrouterModels reply = some names) ∧
      ((v.2[1]?.bind Point.loaded).bind fun names => names.lookup "some/model") = some "Some: Model (free)" := by
  have hrun : Machine.run loads.step (World.new 0, []) twoLoads = some (Option.get _ twoLoads_isSome) := (Option.some_get _).symm
  have hok : Machine.Meets loads.step (Allows (fun _ => True) InTime) (World.new 0, []) twoLoads := by decide +kernel
  obtain ⟨hrule, -, hstored, -⟩ := loads_are_the_last_received hok hrun
  exact ⟨_, hrun, by decide +kernel, hrule, hstored, by decide +kernel⟩

end Twitch1337.ModelCatalog
