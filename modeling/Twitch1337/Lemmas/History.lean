import Twitch1337.Lemmas.Traffic

/-!
# Versions of files along the log

The log of a run tells the truth (`Recorded`), so that what is true of the versions in a truthful log is true of the files. The
times of the writes grow, so that a time that is met again is the time of the same version, with no change in between.
-/

namespace Twitch1337.Memory

open Chronicle

variable {R : Rfc3339} {d : Disk} {w w' : World} {p : Nat} {io : Io} {s s' : Point} {kind : FileKind}

/-! ## Entries -/

theorem leaves_of_not_changed {o : Obs} (h : o.changed ≠ some kind) (before : Option File) :
    Obs.leaves kind before o = before := by
  cases o with
  | wrote q src op old new => exact if_neg fun hk => h (congrArg some hk)
  | removed q src k old => exact if_neg fun hk => h (congrArg some hk)
  | _ => rfl

@[simp] theorem versionAfter_nil (d : Disk) (kind : FileKind) : versionAfter d kind [] = d.files.lookup kind := rfl

theorem versionAfter_snoc (d : Disk) (kind : FileKind) (log : List Obs) (o : Obs) :
    versionAfter d kind (log ++ [o]) = Obs.leaves kind (versionAfter d kind log) o :=
  replay_snoc _ log o

/-- A version stays while no entry changes its file. -/
theorem versionAfter_unchanged {log more : List Obs} (h : ∀ o ∈ more, o.changed ≠ some kind) :
    versionAfter d kind (log ++ more) = versionAfter d kind log :=
  replay_quiet _ fun o ho => leaves_of_not_changed (h o ho)

theorem isWrite_of_changed_none {o : Obs} (h : o.changed = none) : o.isWrite = false := by
  cases o with
  | wrote q src op old new => cases h
  | _ => rfl

/-! ## The log tells the truth -/

/-- The log tells the truth about the disk, which started as `d`. -/
structure Recorded (R : Rfc3339) (d : Disk) (w : World) : Prop where
  files : ∀ kind, w.disk.files.lookup kind = versionAfter d kind w.log
  writes : w.disk.writes = d.writes + w.log.countP Obs.isWrite
  faithful : InOrder (Obs.Faithful R d) w.log

theorem recorded_start (R : Rfc3339) (d : Disk) (executors : List Executor) : Recorded R d ⟨d, executors, []⟩ :=
  ⟨fun _ => rfl, rfl, inOrder_nil⟩

theorem currentMtime_eq (d : Disk) (kind : FileKind) : d.currentMtime kind = mtimeOf (d.files.lookup kind) := by
  unfold Disk.currentMtime mtimeOf
  cases d.files.lookup kind <;> rfl

/-- An entry that changes no file, and is true, is recorded. -/
theorem Recorded.note (h : Recorded R d w) {o : Obs} (ho : o.changed = none) (hd : w'.disk = w.disk)
    (hl : w'.log = w.log ++ [o]) (htrue : Obs.Faithful R d w.log o) : Recorded R d w' := by
  refine ⟨fun kind => ?_, ?_, ?_⟩
  · rw [hd, hl, h.files, versionAfter_snoc, leaves_of_not_changed (by simp [ho])]
  · rw [hd, hl, h.writes, List.countP_append, List.countP_singleton, isWrite_of_changed_none ho]
    simp
  · rw [hl]
    exact h.faithful.snoc htrue

/-- Every step is recorded as it is. -/
theorem Move.recorded (hw : Recorded R d w) (h : Move R w p io s w' s') : Recorded R d w' := by
  have same : ∀ {v : World}, v.disk = w.disk → v.log = w.log → Recorded R d v := by
    intro v hd hl
    exact ⟨by rw [hd, hl]; exact hw.files, by rw [hd, hl]; exact hw.writes, by rw [hl]; exact hw.faithful⟩
  cases h with
  | views kind body read =>
    refine hw.note rfl rfl rfl ?_
    rw [hw.files kind] at read
    exact read
  | shows kind body =>
    refine hw.note rfl rfl rfl ?_
    rw [currentMtime_eq, hw.files]
    rfl
  | owns ex e slug there may =>
    refine hw.note rfl rfl rfl ?_
    rw [hw.files]
    rfl
  | granted ex e op there left => exact hw.note rfl rfl rfl trivial
  | conflicts src kind body expected o page read reply plain =>
    rw [hw.files kind] at read
    have hw₁ : Recorded R d (w.observe (.opened p kind page)) := hw.note rfl rfl rfl read
    refine hw₁.note rfl rfl rfl ?_
    rw [currentMtime_eq]
    exact congrArg mtimeOf (hw₁.files kind).symm
  | passes src kind body token o hsame =>
    refine hw.note rfl rfl rfl ?_
    rw [currentMtime_eq, hw.files] at hsame
    exact hsame
  | removes src slug valid =>
    refine ⟨fun kind => ?_, ?_, hw.faithful.snoc (hw.files _).symm⟩
    · rw [World.observe, versionAfter_snoc, Obs.leaves, lookup_remove, hw.files kind]
      simp only [eq_comm]
    · rw [World.observe, List.countP_append, ← Nat.add_assoc, ← hw.writes]
      rfl
  | writes src op raw isNew =>
    refine ⟨fun kind => ?_, ?_, hw.faithful.snoc ⟨(hw.files _).symm, ?_, rfl⟩⟩
    · rw [World.observe, versionAfter_snoc, Obs.leaves, lookup_put, hw.files kind]
      simp only [eq_comm]
    · rw [World.observe, List.countP_append, ← Nat.add_assoc, ← hw.writes]
      rfl
    · rw [hw.writes]
  | _ => exact same rfl rfl

/-- The log of every run tells the truth. -/
theorem recorded_of_run {executors : List Executor} {es : List TrafficEvent} {v : Traffic}
    (h : Machine.run (Traffic.step R) (Traffic.start d executors) es = some v) : Recorded R d v.1 :=
  run_keeps (fun _ _ _ _ _ _ hw hm => hm.recorded hw) (recorded_start R d executors) h

/-! ## Times -/

end Twitch1337.Memory
