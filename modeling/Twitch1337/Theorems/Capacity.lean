import Twitch1337.Lemmas.Traffic
import Twitch1337.Theorems.ReadBack

/-!
# The caps of the store

Under fixed caps the number of state files and the size of every file stay within them, whatever runs side by side, and the
locks never bring the traffic to a stop. A state file is new only under the lock for new ones, where the count is below the cap
until it is written. `write` counts nothing: it is for the other files.
-/

namespace Twitch1337.Memory

open Pool

variable {R : Rfc3339} {caps : Caps} {w w' : World} {p : Nat} {io : Io} {request : Request} {s s' : Point}

/-! ## Counts -/

/-- Writing over a file that is there leaves the number of state files. -/
theorem stateCount_put_of_there {d : Disk} {kind : FileKind} (raw : Text) (h : (d.files.lookup kind).isSome = true) :
    (d.put kind raw).stateCount = d.stateCount := by
  have hmem : kind ∈ d.files.keys := AList.mem_keys.mp (AList.lookup_isSome.mp h)
  simp only [Disk.stateCount, Disk.put, AList.keys_insert]
  exact ((List.perm_cons_erase hmem).countP_eq _).symm

/-- A new file is one state file more, at most. -/
theorem stateCount_put_le (d : Disk) (kind : FileKind) (raw : Text) : (d.put kind raw).stateCount ≤ d.stateCount + 1 := by
  simp only [Disk.stateCount, Disk.put, AList.keys_insert, List.countP_cons]
  have : (d.files.keys.erase kind).countP FileKind.isState ≤ d.files.keys.countP FileKind.isState :=
    List.erase_sublist.countP_le
  split <;> omega

/-- A file that is no state file does not count. -/
theorem stateCount_put_of_not_state {d : Disk} {kind : FileKind} (raw : Text) (h : kind.isState = false) :
    (d.put kind raw).stateCount ≤ d.stateCount := by
  simp only [Disk.stateCount, Disk.put, AList.keys_insert, List.countP_cons]
  have : (d.files.keys.erase kind).countP FileKind.isState ≤ d.files.keys.countP FileKind.isState :=
    List.erase_sublist.countP_le
  simpa [h] using this

theorem stateCount_remove_le (d : Disk) (kind : FileKind) : (d.remove kind).stateCount ≤ d.stateCount := by
  simp only [Disk.stateCount, Disk.remove, AList.keys_erase]
  exact List.erase_sublist.countP_le

/-! ## Writes on their way -/

/-- A store within its caps. -/
structure WithinCaps (caps : Caps) (d : Disk) : Prop where
  count : d.stateCount ≤ caps.maxStateFiles
  sizes : ∀ kind file raw, d.files.lookup kind = some file → file.content = some raw →
    Text.utf8Len raw ≤ caps.limitFor kind

/-- The files that `write` is for. The id of a user is not a path. -/
def FileKind.forWrite : FileKind → Bool
  | .state _ => false
  | .user userId => !decide ('/' ∈ userId)
  | _ => true

/-- Bare calls of `write` are about files it is for. -/
def Request.Fits : Request → Prop
  | .api (.write kind _ _ _) => kind.forWrite = true
  | .apiGuarded (.user userId) .. => FileKind.forWrite (.user userId) = true
  | _ => True

instance : DecidablePred Request.Fits
  | .api (.write kind _ _ _) => inferInstanceAs (Decidable (kind.forWrite = true))
  | .apiGuarded (.user userId) .. => inferInstanceAs (Decidable (FileKind.forWrite (.user userId) = true))
  | .view _ => .isTrue trivial
  | .save .. => .isTrue trivial
  | .create .. => .isTrue trivial
  | .delete .. => .isTrue trivial
  | .call .. => .isTrue trivial
  | .api (.writeState ..) => .isTrue trivial
  | .api (.deleteState _) => .isTrue trivial
  | .apiGuarded .soul .. => .isTrue trivial
  | .apiGuarded .lore .. => .isTrue trivial
  | .apiGuarded (.state _) .. => .isTrue trivial

/-- An operation that is not a `write` of a state file. -/
def Fitting : StoreOp → Prop
  | .write kind _ _ _ => kind.isState = false
  | _ => True

/-- What a write relies on: it is within the cap, a file that is not new is there, and there is room for one that is. -/
def Capped (caps : Caps) (w : World) : Point → Prop
  | .asking _ op => Fitting op
  | .entering _ op => Fitting op
  | .creating _ op raw => Text.utf8Len raw ≤ caps.limitFor op.kind
  | .committing _ op raw isNew =>
    Text.utf8Len raw ≤ caps.limitFor op.kind ∧
      if isNew then w.disk.stateCount < caps.maxStateFiles
      else op.kind.isState = true → (w.disk.files.lookup op.kind).isSome = true
  | _ => True

theorem fitting_guardedOp (kind : FileKind) (body : Text) (o : FrontmatterOverride) : Fitting (guardedOp kind body o) := by
  cases kind with
  | state slug => trivial
  | _ => rfl

theorem fitting_of_dispatch {e : Executor} {call : ToolCall} {op : StoreOp} (h : e.dispatch call = .perform op) :
    Fitting op := by
  have hwrite : ∀ (target : WritePath) body, Fitting (e.writeOf target.toKind body) := by
    intro target body
    unfold Executor.writeOf
    cases target <;> split <;> rfl
  unfold Executor.dispatch at h
  split at h
  · grind [Executor.handleWriteFile]
  split at h
  · grind [Executor.handleWriteState, Fitting]
  split at h
  · grind [Executor.handleDeleteState]
  · cases h

theorem capped_finish (src : Source) (kind : FileKind) : Capped caps w (src.finish kind (.ok ())) := by
  rcases finish_ok src kind with ⟨_, h⟩ | ⟨_, reply, _, h⟩ <;> (rw [h]; trivial)

/-- A write that is not new, and fits, is of a file that is there or is no state file. -/
theorem there_of_not_new {op : StoreOp} (hfit : Fitting op) (hop : ∀ slug, op ≠ .deleteState slug)
    (hnew : op.isNew (w.disk.read op.kind) = false) (hstate : op.kind.isState = true) :
    (w.disk.files.lookup op.kind).isSome = true := by
  cases op with
  | write kind body username displayName =>
    rw [StoreOp.kind] at hstate
    rw [Fitting, hstate] at hfit
    cases hfit
  | deleteState slug => exact absurd rfl (hop slug)
  | writeState kind body creator override_ =>
    simp only [StoreOp.isNew, Option.isNone_eq_false_iff] at hnew
    obtain ⟨raw, hraw⟩ := Option.isSome_iff_exists.mp hnew
    obtain ⟨file, hfile, _⟩ := Option.bind_eq_some_iff.mp hraw
    rw [hfile]
    rfl

theorem Move.capped (h : Move R w p io s w' s') (hA : Capped caps w s) (hcaps : io.caps = caps) : Capped caps w' s' := by
  subst hcaps
  cases h with
  | performs ex e call op there dispatch => exact fitting_of_dispatch dispatch
  | owns ex e slug there may => trivial
  | granted ex e op there left => exact hA
  | unguarded src kind body o => exact fitting_guardedOp kind body o
  | passes src kind body token o same => exact fitting_guardedOp kind body o
  | prepares src op raw accepted write prepared =>
    have hlen := (prepare_ok prepared).2
    split
    · exact hlen
    · rename_i hnew
      refine ⟨hlen, ?_⟩
      rw [if_neg Bool.false_ne_true]
      exact there_of_not_new hA write (by simpa using hnew)
  | counts src op raw room => exact ⟨hA, room⟩
  | removes src slug valid => exact capped_finish src _
  | writes src op raw isNew => exact capped_finish src _
  | _ => trivial

/-- A write keeps the store within its caps. -/
theorem withinCaps_put {d : Disk} (h : WithinCaps caps d) {kind : FileKind} {raw : Text}
    (hlen : Text.utf8Len raw ≤ caps.limitFor kind) (hcount : (d.put kind raw).stateCount ≤ caps.maxStateFiles) :
    WithinCaps caps (d.put kind raw) := by
  refine ⟨hcount, fun k file raw' hk hraw => ?_⟩
  rw [lookup_put] at hk
  split at hk
  · rename_i heq
    cases hk
    cases hraw
    exact heq ▸ hlen
  · exact h.sizes k file raw' hk hraw

theorem withinCaps_remove {d : Disk} (h : WithinCaps caps d) (kind : FileKind) : WithinCaps caps (d.remove kind) := by
  refine ⟨Nat.le_trans (stateCount_remove_le d kind) h.count, fun k file raw hk hraw => ?_⟩
  rw [lookup_remove] at hk
  split at hk
  · cases hk
  · exact h.sizes k file raw hk hraw

/-- What the writes rely on keeps the store within its caps. -/
theorem Move.withinCaps (h : Move R w p io s w' s') (hw : WithinCaps caps w.disk) (hA : Capped caps w s) :
    WithinCaps caps w'.disk := by
  rcases h.effect with ⟨hd, _⟩ | ⟨src, slug, _, _, rfl⟩ | ⟨src, op, raw, isNew, rfl, rfl⟩
  · exact hd ▸ hw
  · exact withinCaps_remove hw _
  · obtain ⟨hlen, hroom⟩ := hA
    refine withinCaps_put hw hlen ?_
    cases isNew with
    | true => exact Nat.le_trans (stateCount_put_le w.disk op.kind raw) hroom
    | false =>
      by_cases hstate : op.kind.isState = true
      · rw [stateCount_put_of_there raw (hroom hstate)]
        exact hw.count
      · exact Nat.le_trans (stateCount_put_of_not_state raw (by simpa using hstate)) hw.count

/-- What others do, clear of the locks of a process, leaves what it relies on. -/
theorem Move.capped_other {q : Nat} {t t' : Point} (h : Move R w q io t w' t') (hA : Capped caps w s) (hA' : Capped caps w t)
    (hl : ∀ k ∈ s.holds, k ∉ t.holds ∧ t.needs ≠ some k) : Capped caps w' s := by
  cases s with
  | committing src op raw isNew =>
    obtain ⟨hlen, hroom⟩ := hA
    refine ⟨hlen, ?_⟩
    cases isNew with
    | false =>
      intro hstate
      have hpath := hl (.path op.kind) (by simp [Point.holds])
      rw [h.lookup hpath.1 hpath.2]
      exact hroom hstate
    | true =>
      -- nobody else can add a state file, since that takes the lock for new ones
      have hcreate := hl .create (by simp [Point.holds])
      refine Nat.lt_of_le_of_lt ?_ hroom
      rcases h.effect with ⟨hd, _⟩ | ⟨src', slug, _, _, rfl⟩ | ⟨src', op', raw', isNew', rfl, rfl⟩
      · rw [hd]
      · exact stateCount_remove_le _ _
      · cases isNew' with
        | true => exact absurd (by simp [Point.holds]) hcreate.1
        | false =>
          by_cases hstate : op'.kind.isState = true
          · exact Nat.le_of_eq (stateCount_put_of_there raw' (hA'.2 hstate))
          · exact stateCount_put_of_not_state raw' (by simpa using hstate)
  | asking ex op => exact hA
  | entering src op => exact hA
  | creating src op raw => exact hA
  | _ => trivial

theorem capped_start (request : Request) (hok : request.Fits) : Capped caps w request.start := by
  cases request with
  | view kind => simp only [Request.start]; split <;> trivial
  | save by_ kind body token o => simp only [Request.start]; split <;> trivial
  | create by_ slug body => simp only [Request.start]; split <;> trivial
  | delete by_ slug => simp only [Request.start]; split <;> trivial
  | call ex call => trivial
  | apiGuarded kind body expected o => trivial
  | api op =>
    cases op with
    | write kind body username displayName =>
      cases kind with
      | state slug => cases hok
      | _ => rfl
    | _ => trivial

/-- The caps, in an outline. -/
theorem caps_outline (R : Rfc3339) (caps : Caps) :
    (traffic R).Outline Request.Fits (fun _ _ _ io => io.caps = caps) (fun w => WithinCaps caps w.disk)
      (fun w _ q => Capped caps w q.point) fun _ _ => True := by
  refine outline ?_ ?_ ?_ ?_
  · intro w p request hok _ _
    exact capped_start request hok
  · intro w p request s io w' s' hI hA hok hm
    exact ⟨hm.withinCaps hI hA, hm.capped hA hok⟩
  · intro w p request s q t io w' t' _ hA hA' _ _ hm hl
    exact hm.capped_other hA hA' hl
  · intro w p q t io w' t' _ _ _ _ _
    trivial

/-! ## The theorem -/

/-- What the caps and the locks promise of a state of the traffic. -/
structure WithinBounds (R : Rfc3339) (caps : Caps) (v : Traffic) : Prop where
  /-- The number of state files and the sizes of all files are within the caps. -/
  caps : WithinCaps caps v.1.disk
  /-- While not all processes are done, one of them can take a step. -/
  live : (∃ q ∈ v.2, q.point.isEnded = false) → ∀ io, ∃ p v', Traffic.step R v (.step p io) = some v'
  /-- All processes can come to their ends. -/
  ends : ∀ io, ∃ es v', Machine.run (Traffic.step R) v es = some v' ∧ (∀ e ∈ es, ∃ p, e = .step p io) ∧
    ∀ q ∈ v'.2, q.point.isEnded = true

/-- In every run, from a store within its caps and under these caps, of any calls of the store, of tools and of the dashboard,
the store stays within its caps, and the locks bring nothing to a stop. -/
theorem caps_hold (R : Rfc3339) (caps : Caps) (disk : Disk) (hdisk : WithinCaps caps disk) (executors : List Executor)
    (es : List TrafficEvent) (v : Traffic)
    (hok : Machine.Meets (Traffic.step R) (Allows Request.Fits fun _ _ _ io => io.caps = caps)
      (Traffic.start disk executors) es)
    (h : Machine.run (Traffic.step R) (Traffic.start disk executors) es = some v) : WithinBounds R caps v := by
  obtain ⟨_, hcaps, _, _⟩ := (caps_outline R caps).run (disciplined R) (exclusive_start disk executors)
    (holds_start hdisk fun _ => trivial) hok h
  refine ⟨hcaps, fun hopen io => ?_, fun io => ?_⟩
  · obtain ⟨p, q, _, _, hstep⟩ := exists_step (ordered R) io hopen
    exact ⟨p, _, hstep⟩
  · exact exists_run_done (ordered R) (fun q => q.point.left)
      (fun g p q io hd => (move g p q.point io hd).left_lt hd) io v

/-! ### Room for one note -/

/-- The default caps, with room for one note. -/
def oneNote : Caps := { Caps.default with maxStateFiles := 1 }

/-- Nothing fails, in the evening, under these caps. -/
def oneNoteIo : Io := { eveningIo with caps := oneNote }

theorem withinCaps_emptyDisk (caps : Caps) : WithinCaps caps emptyDisk := by
  refine ⟨Nat.zero_le _, fun kind file raw h => ?_⟩
  cases h

/-- Two notes are written side by side, each past its check of the path before the other is there. -/
def twoNotes : List TrafficEvent :=
  [.spawn (.api (.writeState (.state "a".toList) "first".toList none none)),
    .spawn (.api (.writeState (.state "b".toList) "second".toList none none)), .step 0 oneNoteIo, .step 1 oneNoteIo,
    .step 1 oneNoteIo, .step 1 oneNoteIo, .step 0 oneNoteIo]

theorem caps_hold_twoNotes :
    ∃ v, Machine.run (Traffic.step .sample) (Traffic.start emptyDisk []) twoNotes = some v ∧
      v.2.map (·.point.reply) = [some (.stored (.error .stateFull)), some (.stored (.ok ()))] ∧
      WithinBounds .sample oneNote v := by
  have hruns : ((Machine.run (Traffic.step .sample) (Traffic.start emptyDisk []) twoNotes).map fun v =>
      v.2.map (·.point.reply)) = some [some (.stored (.error .stateFull)), some (.stored (.ok ()))] := by
    decide +kernel
  have hok : Machine.Meets (Traffic.step .sample) (Allows Request.Fits fun _ _ _ io => io.caps = oneNote)
      (Traffic.start emptyDisk []) twoNotes := by
    decide +kernel
  obtain ⟨v, hv, hreplies⟩ := Option.map_eq_some_iff.mp hruns
  exact ⟨v, hv, hreplies, caps_hold .sample oneNote emptyDisk (withinCaps_emptyDisk _) [] twoNotes v hok hv⟩

/-- A note is written by `write_state`, and another one by `write`. -/
def uncounted : List TrafficEvent :=
  [.spawn (.api (.writeState (.state "a".toList) "first".toList none none)), .step 0 oneNoteIo, .step 0 oneNoteIo,
    .step 0 oneNoteIo, .spawn (.api (.write (.state "b".toList) "second".toList none none)), .step 1 oneNoteIo,
    .step 1 oneNoteIo]

/-- `write` of a state file takes the store beyond its cap. -/
theorem write_exceeds_count :
    WithinCaps oneNote emptyDisk ∧
      ∃ v, Machine.run (Traffic.step .sample) (Traffic.start emptyDisk []) uncounted = some v ∧
        v.2.map (·.point.reply) = [some (.stored (.ok ())), some (.stored (.ok ()))] ∧
        v.1.disk.stateCount = oneNote.maxStateFiles + 1 := by
  have hruns : ((Machine.run (Traffic.step .sample) (Traffic.start emptyDisk []) uncounted).map fun v =>
      (v.2.map (·.point.reply), v.1.disk.stateCount)) =
        some ([some (.stored (.ok ())), some (.stored (.ok ()))], oneNote.maxStateFiles + 1) := by
    decide +kernel
  obtain ⟨v, hv, hout⟩ := Option.map_eq_some_iff.mp hruns
  rw [Prod.mk.injEq] at hout
  exact ⟨withinCaps_emptyDisk _, v, hv, hout.1, hout.2⟩

end Twitch1337.Memory
