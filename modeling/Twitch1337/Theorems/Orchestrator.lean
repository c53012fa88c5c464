import Mathlib.Data.Multiset.Basic
import Twitch1337.Lemmas.Reconcile

/-!
# No settings change is lost

The orchestrator creates its next future after a reconcile, not before. So a commit that notifies in between wakes nobody, and
what the reconcile has loaded stays in force. Every other commit is served before the orchestrator comes to rest.
-/

namespace Twitch1337.Schedules

open Chrono Watch

/-! ## At rest, and up to date -/

/-- No commit is in progress, and the orchestrator waits in its select with nothing to take there. -/
structure Orchestrator.Quiescent (o : Orchestrator) : Prop where
  phase : o.phase = .select
  settings : o.settings.Quiet

/-- The tasks that are not cancelled are one for each enabled schedule of the live settings, with its content. Each of them
runs on, unless its schedule has no next fire. -/
structure Orchestrator.UpToDate (Z : Zone) (o : Orchestrator) : Prop where
  one_each : ((o.tasks.spawned.filter fun t => !t.cancelled).map (·.schedule)).Perm o.settings.value.enabled
  runs : ∀ t ∈ o.tasks.spawned, t.cancelled = false → t.returned = true →
    ∃ now, (t.schedule.nextActiveFire Z now).isFire = false

/-- The schedules that the orchestrator goes by: those it has loaded, or those that run. -/
def Orchestrator.known (o : Orchestrator) : Option (Multiset Schedule) :=
  match o.phase with
  | .loaded _ settings => some settings.enabled
  | .rearm => some (o.tasks.running.map (·.captured))
  | .select => some (o.tasks.running.map (·.captured))
  | _ => none

/-- What settings are to the orchestrator. -/
def enabledSet (c : Committed) : Multiset Schedule := c.enabled

/-- A notification that finds no future finds the orchestrator with the schedules it tells of. -/
def NotLost (o : Orchestrator) (e : Event) : Prop :=
  e = .notify → o.settings.woken = none → ∀ k ∈ o.known, k = enabledSet o.settings.value

/-! ## The invariant -/

/-- The phases of the loop in which the orchestrator has no future. -/
def Phase.between : Phase → Bool
  | .reconcile first => !first
  | .loaded first _ => !first
  | .rearm => true
  | _ => false

structure Orchestrator.Inv (Z : Zone) (o : Orchestrator) : Prop where
  tracks : o.tasks.Tracks
  fresh : Fresh enabledSet o.settings o.known
  between : o.phase.between = true → o.settings.woken = none
  runs : ∀ t ∈ o.tasks.spawned, t.cancelled = false → t.returned = true →
    ∃ now, (t.schedule.nextActiveFire Z now).isFire = false

variable {Z : Zone} {o o' : Orchestrator}

theorem Orchestrator.inv_initial (Z : Zone) (c : Committed) : (Orchestrator.initial c).Inv Z := by
  refine ⟨Tasks.tracks_nil, Fresh.none, fun h => ?_, fun t ht => ?_⟩
  · cases h
  · cases ht

/-- What the orchestrator goes by once it has reconciled is what it has loaded. -/
theorem known_apply (htracks : o.tasks.Tracks) (first : Bool) (settings : Committed) :
    (o.apply first settings).known = some (enabledSet settings) := by
  have hperm := (htracks.reconcile settings).2
  cases first with
  | true => exact congrArg some (Multiset.coe_eq_coe.mpr hperm)
  | false => exact congrArg some (Multiset.coe_eq_coe.mpr hperm)

/-- The rest of a reconcile keeps the invariant. -/
theorem Orchestrator.Inv.apply (hi : o.Inv Z) {first : Bool} {settings : Committed}
    (hphase : o.phase = .loaded first settings) : (o.apply first settings).Inv Z := by
  refine ⟨(hi.tracks.reconcile settings).1, ?_, fun hbetween => ?_, fun t ht hc hr => ?_⟩
  · rw [known_apply hi.tracks]
    have hfresh := hi.fresh
    rw [Orchestrator.known, hphase] at hfresh
    exact hfresh
  · refine hi.between ?_
    rw [hphase]
    cases first with
    | true => cases hbetween
    | false => rfl
  · rcases Tasks.mem_reconcile ht hc with ht | ht
    · exact hi.runs t ht hc hr
    · rw [ht] at hr
      cases hr

theorem Task.leave_cases (Z : Zone) (now : Instant) (t : Task) :
    t.leave Z now = t ∨ t.leave Z now = { t with returned := true } ∧
      (t.cancelled = true ∨ (t.schedule.nextActiveFire Z now).isFire = false) := by
  unfold Task.leave
  split
  · rename_i h
    rw [Bool.or_eq_true, Bool.not_eq_true'] at h
    exact Or.inr ⟨rfl, h⟩
  · exact Or.inl rfl

/-- A task that runs on keeps the invariant. -/
theorem Orchestrator.Inv.leave (hi : o.Inv Z) (token : Nat) (now : Instant) :
    Orchestrator.Inv Z
      { o with tasks.spawned := o.tasks.spawned.map fun t => if t.token = token then t.leave Z now else t } := by
  have hcases : ∀ t : Task, (if t.token = token then t.leave Z now else t) = t ∨
      (if t.token = token then t.leave Z now else t) = { t with returned := true } ∧
        (t.cancelled = true ∨ (t.schedule.nextActiveFire Z now).isFire = false) := by
    intro t
    split
    · exact t.leave_cases Z now
    · exact Or.inl rfl
  refine ⟨hi.tracks.map (fun t => ?_) (fun t => ?_) (fun t => ?_), hi.fresh, hi.between, fun t ht hc hr => ?_⟩
  · rcases hcases t with h | ⟨h, -⟩ <;> rw [h]
  · rcases hcases t with h | ⟨h, -⟩ <;> rw [h]
  · rcases hcases t with h | ⟨h, -⟩ <;> rw [h]
  · obtain ⟨t, hmem, rfl⟩ := List.mem_map.mp ht
    rcases hcases t with h | ⟨h, hleft⟩
    · rw [h] at hc hr ⊢
      exact hi.runs t hmem hc hr
    · rw [h] at hc ⊢
      rcases hleft with hcancelled | hended
      · rw [hcancelled] at hc
        cases hc
      · exact ⟨now, hended⟩

/-- Every step keeps the invariant, when no notification is lost. -/
theorem Orchestrator.Inv.step (hi : o.Inv Z) {e : Event} (hok : NotLost o e) (h : o.step Z e = some o') : o'.Inv Z := by
  cases e with
  | store settings =>
    obtain ⟨c, hc, rfl⟩ := Option.map_eq_some_iff.mp h
    exact ⟨hi.tracks, Fresh.store hc, fun hb => (Cell.woken_store hc).trans (hi.between hb), hi.runs⟩
  | notify =>
    obtain ⟨c, hc, rfl⟩ := Option.map_eq_some_iff.mp h
    exact ⟨hi.tracks, Fresh.notify hc (hok rfl), fun hb => Cell.woken_notify hc (hi.between hb), hi.runs⟩
  | leave token now =>
    obtain rfl := Option.some.inj h
    exact hi.leave token now
  | arm =>
    obtain ⟨c, phase, ts⟩ := o
    cases phase with
    | start =>
      obtain rfl := Option.some.inj h
      exact ⟨hi.tracks, Fresh.none, (fun hb => by cases hb), hi.runs⟩
    | rearm =>
      obtain rfl := Option.some.inj h
      have hw : c.woken = none := hi.between rfl
      have hasleep : c.woken ≠ some true := fun h => by cases hw.symm.trans h
      exact ⟨hi.tracks, hi.fresh.arm hasleep, (fun hb => by cases hb), hi.runs⟩
    | _ => cases h
  | load =>
    obtain ⟨c, phase, ts⟩ := o
    cases phase with
    | reconcile first =>
      obtain rfl := Option.some.inj h
      exact ⟨hi.tracks, Fresh.load, hi.between, hi.runs⟩
    | _ => cases h
  | apply =>
    obtain ⟨c, phase, ts⟩ := o
    cases phase with
    | loaded first settings =>
      obtain rfl := Option.some.inj h
      exact hi.apply rfl
    | _ => cases h
  | wake =>
    obtain ⟨c, phase, ts⟩ := o
    cases phase with
    | select =>
      obtain ⟨c', hc, rfl⟩ := Option.map_eq_some_iff.mp h
      exact ⟨hi.tracks, Fresh.none, fun _ => Cell.woken_wake hc, hi.runs⟩
    | _ => cases h
  | shutdown =>
    obtain ⟨c, phase, ts⟩ := o
    cases phase with
    | select =>
      obtain rfl := Option.some.inj h
      refine ⟨hi.tracks.shutdown, Fresh.none, (fun hb => by cases hb), fun t ht hc hr => ?_⟩
      exact hi.runs t (mem_of_mem_cancelAll ht hc) hc hr
    | _ => cases h

/-! ## Quiescent states -/

/-- In every run in which no notification is lost, whenever all is quiet the tasks are those of the settings committed last. -/
theorem up_to_date_when_quiescent {settings : Committed} {events : List Event}
    (hlost : Machine.Meets (Orchestrator.step Z) NotLost (.initial settings) events)
    (hrun : Machine.run (Orchestrator.step Z) (.initial settings) events = some o) (hquiet : o.Quiescent) :
    o.UpToDate Z := by
  have hi : o.Inv Z := Machine.run_invariant_of_meets (fun _ _ _ hi hok h => hi.step hok h)
    (Orchestrator.inv_initial Z settings) hlost hrun
  have hfresh := hi.fresh
  rw [Orchestrator.known, hquiet.phase] at hfresh
  have hset : ((o.tasks.running.map (·.captured) : List Schedule) : Multiset Schedule) = o.settings.value.enabled :=
    hfresh.eq_of_quiet hquiet.settings
  exact ⟨hi.tracks.live_schedules.trans (Multiset.coe_eq_coe.mp hset), hi.runs⟩

/-- A schedule for every day at noon. -/
def noon : Schedule where
  name := "hydrate"
  message := "drink something"
  trigger := .calendar ⟨∅⟩ (.fromHms 12 0 0)
  startDate := none
  endDate := none
  enabled := true

def noSchedules : Committed := ⟨[], List.nodup_nil⟩

def noonOnly : Committed := ⟨[noon], List.nodup_singleton _⟩

/-- A commit adds a schedule while the orchestrator waits. -/
def servedRun : List Event := [.arm, .load, .apply, .store noonOnly, .notify, .wake, .load, .apply, .arm]

theorem servedRun_isSome :
    (Machine.run (Orchestrator.step (.fixed 0)) (.initial noSchedules) servedRun).isSome = true := by
  rfl

/-- The added schedule has its task. -/
theorem up_to_date_served :
    ∃ o, Machine.run (Orchestrator.step (.fixed 0)) (.initial noSchedules) servedRun = some o ∧ o.Quiescent ∧
      o.UpToDate (.fixed 0) ∧ o.tasks.running.map (·.captured) = [noon] := by
  have hrun : Machine.run (Orchestrator.step (.fixed 0)) (.initial noSchedules) servedRun =
      some (Option.get _ servedRun_isSome) := (Option.some_get _).symm
  have hlost : Machine.Meets (Orchestrator.step (.fixed 0)) NotLost (.initial noSchedules) servedRun := by
    have hother : ∀ {o : Orchestrator} {e : Event}, e ≠ .notify → NotLost o e := fun hne h => absurd h hne
    have harmed : ∀ {o : Orchestrator}, o.settings.woken = some false → NotLost o .notify := by
      intro o hw _ hnone
      rw [hw] at hnone
      cases hnone
    refine .cons (hother (fun h => by cases h)) rfl ?_
    refine .cons (hother (fun h => by cases h)) rfl ?_
    refine .cons (hother (fun h => by cases h)) rfl ?_
    refine .cons (hother (fun h => by cases h)) rfl ?_
    refine .cons (harmed rfl) rfl ?_
    refine .cons (hother (fun h => by cases h)) rfl ?_
    refine .cons (hother (fun h => by cases h)) rfl ?_
    refine .cons (hother (fun h => by cases h)) rfl ?_
    exact .cons (hother (fun h => by cases h)) rfl trivial
  have hquiet : (Option.get _ servedRun_isSome).Quiescent := ⟨rfl, rfl, rfl⟩
  exact ⟨_, hrun, hquiet, up_to_date_when_quiescent hlost hrun hquiet, by rfl⟩

/-- A commit removes a schedule after the reconcile for another commit has loaded it. -/
def lostRun : List Event :=
  [.arm, .load, .apply, .store noonOnly, .notify, .wake, .load, .store noSchedules, .notify, .apply, .arm]

theorem lostRun_isSome :
    (Machine.run (Orchestrator.step (.fixed 0)) (.initial noonOnly) lostRun).isSome = true := by
  rfl

/-- All is quiet, and the task of the removed schedule goes on. -/
theorem removed_schedule_stays :
    ∃ o, Machine.run (Orchestrator.step (.fixed 0)) (.initial noonOnly) lostRun = some o ∧ o.Quiescent ∧
      o.settings.value.schedules = [] ∧ o.tasks.spawned = [⟨0, noon, false, false⟩] ∧ ¬ o.UpToDate (.fixed 0) := by
  have hrun : Machine.run (Orchestrator.step (.fixed 0)) (.initial noonOnly) lostRun =
      some (Option.get _ lostRun_isSome) := (Option.some_get _).symm
  have htasks : (Option.get _ lostRun_isSome).tasks.spawned = [⟨0, noon, false, false⟩] := by rfl
  have hnone : (Option.get _ lostRun_isSome).settings.value.schedules = [] := by rfl
  refine ⟨_, hrun, ⟨rfl, rfl, rfl⟩, hnone, htasks, fun h => ?_⟩
  have hone := h.one_each.length_eq
  rw [htasks, Committed.enabled, hnone] at hone
  cases hone

end Twitch1337.Schedules
