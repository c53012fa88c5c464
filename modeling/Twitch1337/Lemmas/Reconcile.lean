import Mathlib.Data.List.Perm.Basic
import Twitch1337.Schedule.Orchestrator

/-!
# What a reconcile does

After a reconcile, the tasks that are not cancelled are those that the orchestrator runs, and it runs one for each enabled
schedule of the settings it has loaded.
-/

namespace Twitch1337.Schedules

/-! ## The wanted schedules -/

/-- Inserting entries of new names appends them. -/
theorem foldl_insertEntry {l m : List (String × Schedule)} (h : ((m ++ l).map (·.1)).Nodup) :
    l.foldl insertEntry m = m ++ l := by
  induction l generalizing m with
  | nil => rw [List.foldl_nil, List.append_nil]
  | cons e l ih =>
    have hfresh : ∀ e' ∈ m, e'.1 ≠ e.1 := by
      rw [List.map_append, List.map_cons, List.nodup_append] at h
      obtain ⟨-, -, hdisjoint⟩ := h
      exact fun e' he' => hdisjoint _ (List.mem_map_of_mem he') _ List.mem_cons_self
    have hinsert : insertEntry m e = m ++ [e] := by
      rw [insertEntry, List.filter_eq_self.mpr fun e' he' => by simpa using hfresh e' he']
    rw [List.foldl_cons, hinsert, ih (by simpa using h), List.append_assoc, List.singleton_append]

/-- With distinct names, the schedules to run are the enabled ones. -/
theorem desired_eq {schedules : List Schedule} (h : (schedules.map (·.name)).Nodup) :
    desired schedules = (schedules.filter (·.enabled)).map fun s => (s.name, s) := by
  have hnames : ((schedules.filter (·.enabled)).map (·.name)).Nodup := h.sublist (List.filter_sublist.map _)
  refine foldl_insertEntry ?_
  rwa [List.nil_append, List.map_map]

theorem lookup_by_name {l : List Schedule} (h : (l.map (·.name)).Nodup) {name : String} {s : Schedule} :
    (l.map fun s => (s.name, s)).lookup name = some s ↔ s ∈ l ∧ s.name = name := by
  induction l with
  | nil => simp
  | cons a l ih =>
    rw [List.map_cons, List.nodup_cons] at h
    rw [List.map_cons, List.lookup_cons, List.mem_cons]
    by_cases hname : name = a.name
    · rw [hname, beq_self_eq_true]
      show some a = some s ↔ _
      rw [Option.some.injEq]
      constructor
      · rintro rfl
        exact ⟨Or.inl rfl, rfl⟩
      · rintro ⟨rfl | hs, heq⟩
        · rfl
        · exact absurd (heq ▸ List.mem_map_of_mem hs) h.1
    · rw [beq_false_of_ne hname]
      show (l.map fun s => (s.name, s)).lookup name = some s ↔ _
      rw [ih h.2]
      constructor
      · exact fun ⟨hs, heq⟩ => ⟨Or.inr hs, heq⟩
      · rintro ⟨rfl | hs, heq⟩
        · exact absurd heq.symm hname
        · exact ⟨hs, heq⟩

/-! ## The tasks that are tracked -/

/-- The tasks that are not cancelled: their tokens and schedules. -/
def live (spawned : List Task) : List (Nat × Schedule) :=
  (spawned.filter fun t => !t.cancelled).map fun t => (t.token, t.schedule)

/-- The running entries are the tasks that are not cancelled, under the names of their schedules. -/
structure Tasks.Tracks (ts : Tasks) : Prop where
  tokens : ts.spawned.map (·.token) = List.range ts.spawned.length
  live : (live ts.spawned).Perm (ts.running.map fun r => (r.cancel, r.captured))
  named : ∀ r ∈ ts.running, r.name = r.captured.name
  distinct : (ts.running.map (·.name)).Nodup

theorem Tasks.tracks_nil : Tasks.Tracks ⟨[], []⟩ := ⟨rfl, .nil, by simp, .nil⟩

theorem Tasks.Tracks.nodup_cancel {ts : Tasks} (h : ts.Tracks) : (ts.running.map (·.cancel)).Nodup := by
  have htokens : ((Schedules.live ts.spawned).map (·.1)).Nodup := by
    have hsub : ((ts.spawned.filter fun t => !t.cancelled).map (·.token)).Sublist (ts.spawned.map (·.token)) :=
      List.filter_sublist.map _
    rw [h.tokens] at hsub
    rw [Schedules.live, List.map_map]
    exact List.nodup_range.sublist hsub
  have hperm := (h.live.map (·.1)).nodup_iff.mp htokens
  rwa [List.map_map] at hperm

/-- The captured schedules have distinct names. -/
theorem Tasks.Tracks.nodup_captured {ts : Tasks} (h : ts.Tracks) : ((ts.running.map (·.captured)).map (·.name)).Nodup := by
  have hnames : ts.running.map (·.name) = (ts.running.map (·.captured)).map (·.name) := by
    rw [List.map_map]
    exact List.map_congr_left h.named
  exact hnames ▸ h.distinct

theorem live_cancelAll (tokens : List Nat) (spawned : List Task) :
    live (cancelAll tokens spawned) = (live spawned).filter fun p => p.1 ∉ tokens := by
  induction spawned with
  | nil => rfl
  | cons t spawned ih =>
    unfold live cancelAll at ih ⊢
    by_cases ht : t.token ∈ tokens <;> cases hc : t.cancelled <;> simp_all

theorem token_cancelAll (tokens : List Nat) (spawned : List Task) :
    (cancelAll tokens spawned).map (·.token) = spawned.map (·.token) := by
  rw [cancelAll, List.map_map]
  refine List.map_congr_left fun t _ => ?_
  rw [Function.comp_apply]
  split <;> rfl

/-- A running task keeps its token in `retain` exactly when it is still wanted. -/
theorem Tasks.Tracks.not_mem_stale_iff {ts : Tasks} (h : ts.Tracks) (want : List (String × Schedule)) {r : Running}
    (hr : r ∈ ts.running) :
    r.cancel ∉ (ts.running.filter fun r => !r.wanted want).map (·.cancel) ↔ r.wanted want = true := by
  rw [List.mem_map]
  constructor
  · intro hnot
    by_contra hstale
    exact hnot ⟨r, List.mem_filter.mpr ⟨hr, by simpa using hstale⟩, rfl⟩
  · rintro hwanted ⟨r', hr', heq⟩
    obtain ⟨hr', hstale⟩ := List.mem_filter.mp hr'
    obtain rfl := List.inj_on_of_nodup_map h.nodup_cancel hr' hr heq
    rw [hwanted] at hstale
    cases hstale

/-- Stopping stale tasks keeps track of the others. -/
theorem Tasks.Tracks.retain {ts : Tasks} (h : ts.Tracks) (want : List (String × Schedule)) : (ts.retain want).Tracks := by
  have hsub : (ts.retain want).running.Sublist ts.running := List.filter_sublist
  refine ⟨?_, ?_, fun r hr => h.named r (hsub.subset hr), h.distinct.sublist (hsub.map _)⟩
  · rw [Tasks.retain, token_cancelAll, h.tokens, cancelAll, List.length_map]
  · rw [Tasks.retain, live_cancelAll]
    refine (h.live.filter _).trans ?_
    rw [List.filter_map]
    refine List.Perm.of_eq (congrArg _ (List.filter_congr fun r hr => ?_))
    have hiff := h.not_mem_stale_iff want hr
    rw [Function.comp_apply, Bool.eq_iff_iff, decide_eq_true_iff]
    exact hiff

/-- A task that is spawned under a new name is tracked. -/
theorem Tasks.Tracks.push {ts : Tasks} (h : ts.Tracks) {schedule : Schedule}
    (hnew : schedule.name ∉ ts.running.map (·.name)) :
    Tasks.Tracks ⟨ts.running ++ [⟨schedule.name, ts.spawned.length, schedule⟩],
      ts.spawned ++ [⟨ts.spawned.length, schedule, false, false⟩]⟩ := by
  refine ⟨?_, ?_, fun r hr => ?_, ?_⟩
  · rw [List.map_append, h.tokens, List.length_append, List.length_singleton, List.range_succ]
    rfl
  · have hlive : Schedules.live (ts.spawned ++ [⟨ts.spawned.length, schedule, false, false⟩]) =
        Schedules.live ts.spawned ++ [(ts.spawned.length, schedule)] := by
      rw [Schedules.live, List.filter_append, List.map_append]
      rfl
    rw [hlive, List.map_append]
    exact h.live.append_right _
  · rcases List.mem_append.mp hr with hr | hr
    · exact h.named r hr
    · rw [List.mem_singleton.mp hr]
  · rw [List.map_append, List.nodup_append]
    refine ⟨h.distinct, List.nodup_singleton _, fun name hname other hother heq => ?_⟩
    rw [List.map_singleton, List.mem_singleton] at hother
    have hsame : name = schedule.name := heq.trans hother
    exact hnew (hsame ▸ hname)

/-- Spawning for wanted schedules keeps track of the tasks, and adds one for each of a name that did not run. -/
theorem Tasks.Tracks.spawn {ts : Tasks} (h : ts.Tracks) {l : List Schedule} (hl : (l.map (·.name)).Nodup) :
    (ts.spawn (l.map fun s => (s.name, s))).Tracks ∧
      (ts.spawn (l.map fun s => (s.name, s))).running.map (·.captured) =
        ts.running.map (·.captured) ++ l.filter fun s => s.name ∉ ts.running.map (·.name) := by
  induction l generalizing ts with
  | nil => exact ⟨h, (List.append_nil _).symm⟩
  | cons s l ih =>
    rw [List.map_cons, List.nodup_cons] at hl
    rw [List.map_cons, Tasks.spawn, List.filter_cons]
    by_cases hname : s.name ∈ ts.running.map (·.name)
    · rw [if_pos hname, if_neg (by simpa using hname)]
      exact ih h hl.2
    · rw [if_neg hname, if_pos (by simpa using hname)]
      obtain ⟨htracks, hrunning⟩ := ih (h.push hname) hl.2
      refine ⟨htracks, hrunning.trans ?_⟩
      -- The names of the rest differ from the one just spawned.
      have hrest : ∀ s' ∈ l, s'.name ≠ s.name := fun s' hs' heq => hl.1 (heq ▸ List.mem_map_of_mem hs')
      rw [List.map_append, List.append_assoc, List.map_singleton, List.singleton_append]
      refine congrArg (_ ++ s :: ·) (List.filter_congr fun s' hs' => ?_)
      rw [List.map_append, List.map_singleton]
      simp only [List.mem_append, List.mem_singleton, hrest s' hs', or_false]

/-! ## Reconcile -/

/-- After a reconcile the tasks are tracked, and those that run are one for each enabled schedule. -/
theorem Tasks.Tracks.reconcile {ts : Tasks} (h : ts.Tracks) (c : Committed) :
    (ts.reconcile c.schedules).Tracks ∧ ((ts.reconcile c.schedules).running.map (·.captured)).Perm c.enabled := by
  have hnames : (c.enabled.map (·.name)).Nodup := c.distinct.sublist (List.filter_sublist.map _)
  have hwant : desired c.schedules = c.enabled.map fun s => (s.name, s) := desired_eq c.distinct
  unfold Tasks.reconcile
  rw [hwant]
  have hretain := h.retain (c.enabled.map fun s => (s.name, s))
  obtain ⟨htracks, hrunning⟩ := hretain.spawn hnames
  refine ⟨htracks, ?_⟩
  have hkept : ∀ r ∈ (ts.retain (c.enabled.map fun s => (s.name, s))).running, r.captured ∈ c.enabled := by
    intro r hr
    have hwanted := (List.mem_filter.mp hr).2
    rw [Running.wanted, decide_eq_true_iff, lookup_by_name hnames] at hwanted
    exact hwanted.1
  refine (List.perm_ext_iff_of_nodup (List.Nodup.of_map _ htracks.nodup_captured) (List.Nodup.of_map _ hnames)).mpr ?_
  intro s
  rw [hrunning, List.mem_append, List.mem_map, List.mem_filter]
  constructor
  · rintro (⟨r, hr, rfl⟩ | ⟨hs, -⟩)
    · exact hkept r hr
    · exact hs
  · intro hs
    by_cases hname : s.name ∈ (ts.retain (c.enabled.map fun s => (s.name, s))).running.map (·.name)
    · obtain ⟨r, hr, heq⟩ := List.mem_map.mp hname
      rw [hretain.named r hr] at heq
      exact Or.inl ⟨r, hr, List.inj_on_of_nodup_map hnames (hkept r hr) hs heq⟩
    · exact Or.inr ⟨hs, by simpa using hname⟩

/-- The schedules of the tasks that are not cancelled are those captured. -/
theorem Tasks.Tracks.live_schedules {ts : Tasks} (h : ts.Tracks) :
    ((ts.spawned.filter fun t => !t.cancelled).map (·.schedule)).Perm (ts.running.map (·.captured)) := by
  have hperm := h.live.map (·.2)
  rwa [Schedules.live, List.map_map, List.map_map] at hperm

/-! ## The tasks that stay -/

/-- A task that is not cancelled by cancelling others is as it was. -/
theorem mem_of_mem_cancelAll {tokens : List Nat} {spawned : List Task} {t : Task} (ht : t ∈ cancelAll tokens spawned)
    (hc : t.cancelled = false) : t ∈ spawned := by
  obtain ⟨t, hmem, rfl⟩ := List.mem_map.mp ht
  split at hc
  · cases hc
  · rename_i hnot
    rw [if_neg hnot]
    exact hmem

/-- A task that is spawned has not returned. -/
theorem Tasks.mem_spawn {ts : Tasks} {want : List (String × Schedule)} {t : Task} (ht : t ∈ (ts.spawn want).spawned) :
    t ∈ ts.spawned ∨ t.returned = false := by
  induction want generalizing ts with
  | nil => exact Or.inl ht
  | cons e want ih =>
    rw [Tasks.spawn] at ht
    split at ht
    · exact ih ht
    · rcases ih ht with ht | ht
      · rcases List.mem_append.mp ht with ht | ht
        · exact Or.inl ht
        · exact Or.inr (by rw [List.mem_singleton.mp ht])
      · exact Or.inr ht

/-- A task that is not cancelled after a reconcile was there before, or has just been spawned. -/
theorem Tasks.mem_reconcile {ts : Tasks} {schedules : List Schedule} {t : Task} (ht : t ∈ (ts.reconcile schedules).spawned)
    (hc : t.cancelled = false) : t ∈ ts.spawned ∨ t.returned = false := by
  rcases Tasks.mem_spawn ht with ht | ht
  · exact Or.inl (mem_of_mem_cancelAll ht hc)
  · exact Or.inr ht

/-- Stopping every task leaves none to track. -/
theorem Tasks.Tracks.shutdown {ts : Tasks} (h : ts.Tracks) :
    Tasks.Tracks ⟨[], cancelAll (ts.running.map (·.cancel)) ts.spawned⟩ := by
  have hall : ts.retain [] = ⟨[], cancelAll (ts.running.map (·.cancel)) ts.spawned⟩ := by
    simp [Tasks.retain, Running.wanted]
  exact hall ▸ h.retain []

/-- A change of tasks that leaves alone what is tracked of them. -/
theorem Tasks.Tracks.map {ts : Tasks} (h : ts.Tracks) {f : Task → Task} (htoken : ∀ t, (f t).token = t.token)
    (hschedule : ∀ t, (f t).schedule = t.schedule) (hcancelled : ∀ t, (f t).cancelled = t.cancelled) :
    Tasks.Tracks ⟨ts.running, ts.spawned.map f⟩ := by
  have hlive : Schedules.live (ts.spawned.map f) = Schedules.live ts.spawned := by
    have hfilter : (fun t : Task => !t.cancelled) ∘ f = fun t => !t.cancelled := funext fun t => by
      rw [Function.comp_apply, hcancelled]
    rw [Schedules.live, Schedules.live, List.filter_map, List.map_map, hfilter]
    refine List.map_congr_left fun t _ => ?_
    rw [Function.comp_apply, htoken, hschedule]
  refine ⟨?_, hlive ▸ h.live, h.named, h.distinct⟩
  rw [List.map_map, List.length_map, ← h.tokens]
  exact List.map_congr_left fun t _ => htoken t

end Twitch1337.Schedules
