import Twitch1337.Aviation.Up

/-!
# The nearest aircraft

The candidates are cut to the first ten before their routes are looked up. The reply counts these and names the nearest of them, so
that it is about all aircraft that are visible only where there are no more.
-/

namespace Twitch1337.Up

open Backends (NearbyAircraft)

variable {S : Sky} {lat lon : F64}

/-! ## The tasks -/

/-- A candidate has a position, so that its direction is known. -/
theorem exists_direction {ac : NearbyAircraft} {c : Candidate S} (h : candidate S lat lon ac = some c) :
    ∃ d, direction S lat lon c.aircraft = some d := by
  rw [candidate, Option.bind_eq_some_iff] at h
  obtain ⟨dist, hdist, h⟩ := h
  obtain ⟨id, -, rfl⟩ := Option.map_eq_some_iff.mp h
  unfold coneDistanceNm at hdist
  split at hdist
  · rename_i acLat acLon _ hlat hlon _
    exact ⟨arrow (S.cardinalDirection lat lon acLat acLon), by simp only [direction, hlat, hlon]⟩
  · cases hdist

/-- The entry of a task whose direction is known. -/
def entryOf (S : Sky) (lat lon : F64) (task : Candidate S × Lookup) : Entry S :=
  task.1.entry task.2 ((direction S lat lon task.1.aircraft).getD "")

theorem entries_eq {completed : List (Candidate S × Lookup)}
    (h : ∀ task ∈ completed, ∃ d, direction S lat lon task.1.aircraft = some d) :
    entries S lat lon completed = some (completed.map (entryOf S lat lon)) := by
  induction completed with
  | nil => rfl
  | cons task completed ih =>
    obtain ⟨d, hd⟩ := h task List.mem_cons_self
    have hrest := ih fun t ht => h t (List.mem_cons_of_mem _ ht)
    rw [entries] at hrest
    rw [entries, List.mapM_cons, hrest, hd, List.map_cons, entryOf, hd]
    rfl

/-- Tasks in the order of their distances. -/
def byDistance (completed : List (Candidate S × Lookup)) : List (Candidate S × Lookup) :=
  completed.insertionSort fun a b => S.le a.1.distanceNm b.1.distanceNm = true

theorem sorted_map (completed : List (Candidate S × Lookup)) :
    sorted S (completed.map (entryOf S lat lon)) = (byDistance completed).map (entryOf S lat lon) := by
  unfold sorted byDistance
  exact (List.map_insertionSort _ _ (entryOf S lat lon) completed fun _ _ _ _ => Iff.rfl).symm

theorem pairwise_byDistance (completed : List (Candidate S × Lookup)) :
    (byDistance completed).Pairwise fun a b => S.le a.1.distanceNm b.1.distanceNm = true :=
  haveI : Std.Total fun a b : Candidate S × Lookup => S.le a.1.distanceNm b.1.distanceNm = true := ⟨fun _ _ => S.le_total _ _⟩
  haveI : IsTrans (Candidate S × Lookup) fun a b => S.le a.1.distanceNm b.1.distanceNm = true :=
    ⟨fun _ _ _ => S.le_trans _ _ _⟩
  List.pairwise_insertionSort _ _

/-! ## What a reply should be -/

/-- The aircraft that are visible and have an identifier. -/
def visible (S : Sky) (lat lon : F64) (aircraft : List NearbyAircraft) : List (Candidate S) :=
  aircraft.filterMap (candidate S lat lon)

theorem candidates_eq (aircraft : List NearbyAircraft) :
    candidates S lat lon aircraft = (visible S lat lon aircraft).take 10 := rfl

/-- An entry is about a candidate. -/
def About (e : Entry S) (c : Candidate S) : Prop := e.id = c.id ∧ e.dist = c.distanceNm

/-- The reply counts all that are visible, and lists five of them or as many as there are, the nearest first, of which none is
farther away than one that is not listed. -/
structure NamesNearest (seen : List (Candidate S)) (reply : UpReply S) : Prop where
  nothing : reply = .nothing ↔ seen = []
  aircraft : ∀ total listed, reply = .aircraft total listed →
    total = seen.length ∧ listed.length = min 5 seen.length ∧ (listed.Pairwise fun a b => S.le a.dist b.dist = true) ∧
      ∃ named rest, (named ++ rest).Perm seen ∧ List.Forall₂ About listed named ∧
        ∀ c ∈ named, ∀ u ∈ rest, S.le c.distanceNm u.distanceNm = true

/-- In whatever order the tasks are completed, and whatever comes of the lookups. -/
def AlwaysNamesNearest (S : Sky) (lat lon : F64) (aircraft : List NearbyAircraft) : Prop :=
  ∀ completed : List (Candidate S × Lookup), (completed.map (·.1)).Perm (candidates S lat lon aircraft) →
    ∃ reply, upReply S lat lon completed = some reply ∧ NamesNearest (visible S lat lon aircraft) reply

/-! ## The condition -/

theorem directions_of_perm {aircraft : List NearbyAircraft} {completed : List (Candidate S × Lookup)}
    (h : (completed.map (·.1)).Perm (candidates S lat lon aircraft)) :
    ∀ task ∈ completed, ∃ d, direction S lat lon task.1.aircraft = some d := by
  intro task htask
  have hmem := List.mem_of_mem_take (h.subset (List.mem_map_of_mem htask))
  obtain ⟨ac, -, hac⟩ := List.mem_filterMap.mp hmem
  exact exists_direction hac

/-- The reply to completed tasks. -/
theorem upReply_eq {aircraft : List NearbyAircraft} {completed : List (Candidate S × Lookup)}
    (h : (completed.map (·.1)).Perm (candidates S lat lon aircraft)) :
    upReply S lat lon completed = some (if byDistance completed = [] then .nothing
      else .aircraft completed.length (((byDistance completed).take 5).map (entryOf S lat lon))) := by
  rw [upReply, entries_eq (directions_of_perm h), Option.map_some, sorted_map, List.length_map, ← List.map_take, byDistance,
    List.length_insertionSort, ← byDistance]
  simp only [List.isEmpty_iff, List.map_eq_nil_iff]
  rfl

theorem forall₂_about (tasks : List (Candidate S × Lookup)) :
    List.Forall₂ About (tasks.map (entryOf S lat lon)) (tasks.map (·.1)) := by
  rw [List.forall₂_map_left_iff, List.forall₂_map_right_iff, List.forall₂_same]
  exact fun _ _ => ⟨rfl, rfl⟩

/-- Tasks of all that are visible make a reply about the nearest. -/
theorem namesNearest_of_perm {seen : List (Candidate S)} {completed : List (Candidate S × Lookup)}
    (h : (completed.map (·.1)).Perm seen) :
    NamesNearest seen (if byDistance completed = [] then .nothing
      else .aircraft completed.length (((byDistance completed).take 5).map (entryOf S lat lon))) := by
  have hlen : completed.length = seen.length := by simpa using h.length_eq
  have hperm : (byDistance completed).Perm completed := List.perm_insertionSort _ _
  have hsorted := pairwise_byDistance completed
  constructor
  · by_cases hnil : byDistance completed = []
    · rw [if_pos hnil]
      rw [hnil] at hperm
      obtain rfl := hperm.nil_eq
      exact iff_of_true rfl (List.eq_nil_of_length_eq_zero hlen.symm)
    · rw [if_neg hnil]
      refine iff_of_false (by simp) fun hseen => hnil ?_
      rw [hseen] at hlen
      exact List.eq_nil_of_length_eq_zero (hperm.length_eq.trans hlen)
  · intro total listed hreply
    split at hreply
    · cases hreply
    · obtain ⟨rfl, rfl⟩ := UpReply.aircraft.inj hreply
      refine ⟨hlen, ?_, ?_, ((byDistance completed).take 5).map (·.1), ((byDistance completed).drop 5).map (·.1), ?_,
        forall₂_about _, ?_⟩
      · rw [List.length_map, List.length_take, hperm.length_eq, hlen]
      · rw [List.pairwise_map]
        exact hsorted.sublist (List.take_sublist _ _)
      · rw [← List.map_append, List.take_append_drop]
        exact (hperm.map _).trans h
      · rw [← List.take_append_drop 5 (byDistance completed)] at hsorted
        have hcross := (List.pairwise_append.mp hsorted).2.2
        intro c hc u hu
        obtain ⟨a, ha, rfl⟩ := List.mem_map.mp hc
        obtain ⟨b, hb, rfl⟩ := List.mem_map.mp hu
        exact hcross a ha b hb

/-- More candidates than are looked up are not all counted. -/
theorem not_alwaysNamesNearest_of_lt {aircraft : List NearbyAircraft} (h : 10 < (visible S lat lon aircraft).length) :
    ¬ AlwaysNamesNearest S lat lon aircraft := by
  intro hall
  have hmap : ((candidates S lat lon aircraft).map fun c => (c, Lookup.failed)).map (·.1) = candidates S lat lon aircraft := by
    rw [List.map_map]
    exact List.map_id _
  have hperm := List.Perm.of_eq hmap
  obtain ⟨reply, hreply, hnearest⟩ := hall _ hperm
  have hten : (candidates S lat lon aircraft).length = 10 := by
    rw [candidates_eq, List.length_take_of_le (Nat.le_of_lt h)]
  rw [upReply_eq hperm, Option.some.injEq] at hreply
  split at hreply
  · rename_i hnil
    have hsize := (List.perm_insertionSort (fun a b : Candidate S × Lookup => S.le a.1.distanceNm b.1.distanceNm = true)
      ((candidates S lat lon aircraft).map fun c => (c, Lookup.failed))).length_eq
    rw [← byDistance, hnil, List.length_map, hten] at hsize
    cases hsize
  · have htotal := (hnearest.aircraft _ _ hreply.symm).1
    rw [List.length_map, hten] at htotal
    omega

/-- The reply is about the nearest aircraft if and only if at most ten are visible and have an identifier. -/
theorem alwaysNamesNearest_iff (S : Sky) (lat lon : F64) (aircraft : List NearbyAircraft) :
    AlwaysNamesNearest S lat lon aircraft ↔ (visible S lat lon aircraft).length ≤ 10 := by
  constructor
  · intro h
    by_contra hlt
    exact not_alwaysNamesNearest_of_lt (by omega) h
  · intro h completed hperm
    refine ⟨_, upReply_eq hperm, namesNearest_of_perm ?_⟩
    rwa [candidates_eq, List.take_of_length_le h] at hperm

/-- The reply is about the first ten aircraft that are visible and have an identifier, in whatever order their tasks are completed
and whatever comes of the lookups; and it is about all of them if and only if there are no more. -/
theorem names_nearest_of_first_ten (S : Sky) (lat lon : F64) (aircraft : List NearbyAircraft) :
    (∀ completed : List (Candidate S × Lookup), (completed.map (·.1)).Perm (candidates S lat lon aircraft) →
      ∃ reply, upReply S lat lon completed = some reply ∧ NamesNearest ((visible S lat lon aircraft).take 10) reply) ∧
      (AlwaysNamesNearest S lat lon aircraft ↔ (visible S lat lon aircraft).length ≤ 10) :=
  ⟨fun _ hperm => ⟨_, upReply_eq hperm, namesNearest_of_perm (candidates_eq aircraft ▸ hperm)⟩,
    alwaysNamesNearest_iff S lat lon aircraft⟩

/-- As far as needed: what is at the place, what is a tenth of a degree north of it, and how far one sees at 35000 feet. In
hundredths of a nautical mile. -/
def overhead : Sky where
  Distance := Nat
  le a b := decide (a ≤ b)
  le_total a b := by simpa using Nat.le_total a b
  le_trans a b c := by simpa using Nat.le_trans
  haversineDistanceNm lat lon acLat acLon := if lat = acLat ∧ lon = acLon then 0 else 600
  maxDistance _ := 1500
  cardinalDirection _ _ _ _ := "N"
  display d := toString d

def north : NearbyAircraft :=
  { hex := some "3C6444", altBaro := some (.feet 35000), lat := some ⟨0x3FB999999999999A⟩, lon := some F64.zero }

def above : NearbyAircraft :=
  { hex := some "4CA123", altBaro := some (.feet 35000), lat := some F64.zero, lon := some F64.zero }

/-- One aircraft right above the place, and ten north of it. -/
def crowd : List NearbyAircraft := above :: List.replicate 10 north

/-- Their tasks, the last first, with no route found. -/
def reversedTasks : List (Candidate overhead × Lookup) :=
  (candidates overhead F64.zero F64.zero crowd).reverse.map fun c => (c, .failed)

theorem reversedTasks_perm : (reversedTasks.map (·.1)).Perm (candidates overhead F64.zero F64.zero crowd) := by
  have hmap : reversedTasks.map (·.1) = (candidates overhead F64.zero F64.zero crowd).reverse := by
    rw [reversedTasks, List.map_map]
    exact List.map_id _
  rw [hmap]
  exact List.reverse_perm _

/-- Ten of eleven are counted, and the one right above is named first. -/
theorem names_nearest_of_first_ten_crowd :
    ∃ listed, upReply overhead F64.zero F64.zero reversedTasks = some (.aircraft 10 listed) ∧ listed.length = 5 ∧
      listed.head?.map (·.id) = some "4CA123" := by
  obtain ⟨reply, hreply, hnearest⟩ := (names_nearest_of_first_ten overhead F64.zero F64.zero crowd).1 _ reversedTasks_perm
  have hten : ((visible overhead F64.zero F64.zero crowd).take 10).length = 10 := by decide +kernel
  cases reply with
  | nothing =>
    rw [hnearest.nothing.mp rfl] at hten
    cases hten
  | aircraft total listed =>
    obtain ⟨htotal, hlisted, -⟩ := hnearest.aircraft total listed rfl
    rw [hten] at htotal hlisted
    rw [htotal] at hreply
    have hfirst : (upReply overhead F64.zero F64.zero reversedTasks).bind (fun r =>
        match r with
        | .aircraft _ entries => entries.head?.map (·.id)
        | .nothing => none) = some "4CA123" := by
      decide +kernel
    rw [hreply] at hfirst
    exact ⟨listed, hreply, hlisted, hfirst⟩

/-- Ten aircraft hide the one that is right above. -/
theorem not_alwaysNamesNearest :
    ¬ AlwaysNamesNearest overhead F64.zero F64.zero (List.replicate 10 north ++ [above]) :=
  not_alwaysNamesNearest_of_lt (by decide +kernel)

end Twitch1337.Up
