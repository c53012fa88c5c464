import Mathlib.Data.List.Nodup
import Twitch1337.Bot.Persist
import Twitch1337.Lib.Linear

/-!
# Saves that take effect at once

A file beside a path is written by one call at a time, and is never one that somebody reads. So a path holds, at every moment, what
was put last as a whole, and a reader gets what was there when it opened the file.
-/

namespace Twitch1337.Persist

open Files Linear Pool

variable {g g' : World} {p q : Nat} {s t : Point} {io : Io} {path tmp : FilePath} {bytes : List UInt8}

/-! ## The file beside a path -/

/-- The file beside a path, which is another one for every path and not a path itself. -/
def tmpOf (path : FilePath) : FilePath := if path.HasExtension ron then ronTmp path else bytesTmp path

/-- A RON file is written beside its path under the name of the path. -/
theorem tmpOf_ron (h : path.HasExtension ron) : ronTmp path = tmpOf path := (if_pos h).symm

/-- A file of the memory is no RON file. -/
theorem not_ron (h : path.IsMemory) : ¬ path.HasExtension ron := by
  intro h'
  have heq := h.1.2.symm.trans h'.2
  simp [ron, md] at heq

theorem tmpOf_memory (h : path.IsMemory) : bytesTmp path = tmpOf path := (if_neg (not_ron h)).symm

/-- What is beside a path ends in `.tmp`. -/
theorem tmpOf_name (path : FilePath) : ∃ stem, (tmpOf path).name = stem ++ ['t', 'm', 'p'] := by
  unfold tmpOf
  split
  · exact ⟨fileStem path.name ++ ['.', 'r', 'o', 'n', '.'], by simp [ronTmp, FilePath.withExtension]⟩
  · exact ⟨fileStem path.name ++ ['.'], by simp [bytesTmp, FilePath.withExtension]⟩

/-- What is written beside a path is no path that is saved to. -/
theorem tmpOf_not_savable (path : FilePath) : ¬ (tmpOf path).Savable := by
  obtain ⟨stem, hstem⟩ := tmpOf_name path
  rintro (h | h)
  · have heq := congrArg (List.getLast? ·) (hstem.symm.trans h.2)
    simp [ron] at heq
  · have heq := congrArg (List.getLast? ·) (hstem.symm.trans h.1.2)
    simp [md] at heq

theorem ne_tmpOf (h : path.Savable) (path' : FilePath) : path ≠ tmpOf path' := by
  rintro rfl
  exact tmpOf_not_savable path' h

/-- Paths with one extension are not changed into the same path. -/
theorem withExtension_inj {path path' : FilePath} {ext ext' : Text} (h : path.HasExtension ext) (h' : path'.HasExtension ext)
    (heq : path.withExtension ext' = path'.withExtension ext') : path = path' := by
  have hdir : path.dir = path'.dir := congrArg (·.dir) heq
  have hname : fileStem path.name ++ '.' :: ext' = fileStem path'.name ++ '.' :: ext' := congrArg (·.name) heq
  have hstem := List.append_cancel_right hname
  rw [FilePath.mk.injEq, h.2, h'.2, hstem]
  exact ⟨hdir, rfl⟩

theorem tmpOf_ne (h : path.HasExtension ron) {path' : FilePath} (h' : path'.IsMemory) : tmpOf path ≠ tmpOf path' := by
  intro heq
  rw [← tmpOf_ron h, ← tmpOf_memory h'] at heq
  have hname : fileStem path.name ++ ['.', 'r', 'o', 'n'] ++ ['.', 't', 'm', 'p'] =
      fileStem path'.name ++ ['.', 't', 'm', 'p'] := by
    simpa [ronTmp, bytesTmp, FilePath.withExtension] using congrArg FilePath.name heq
  have hstem := List.append_cancel_right hname
  exact h'.2 (hstem ▸ List.mem_append_right _ List.mem_cons_self)

/-- Paths that are saved to have different files beside them. -/
theorem tmpOf_inj {path path' : FilePath} (h : path.Savable) (h' : path'.Savable) (heq : tmpOf path = tmpOf path') :
    path = path' := by
  rcases h with h | h <;> rcases h' with h' | h'
  · rw [← tmpOf_ron h, ← tmpOf_ron h'] at heq
    exact withExtension_inj h h' heq
  · exact absurd heq (tmpOf_ne h h')
  · exact absurd heq.symm (tmpOf_ne h' h)
  · rw [← tmpOf_memory h, ← tmpOf_memory h'] at heq
    exact withExtension_inj h.1 h'.1 heq

/-! ## What holds -/

/-- Whether a process has an entry in the log. -/
def World.logged (g : World) (p : Nat) : Prop := p ∈ g.log.map Prod.fst

/-- The log explains what is under every path that is saved. -/
structure Kept (files₀ : FilePath → Option (List UInt8)) (g : World) : Prop where
  sound : g.disk.Sound
  once : (g.log.map Prod.fst).Nodup
  explained : ∃ files, Explains fileStep files₀ (g.log.map Prod.snd) files ∧
    ∀ path : FilePath, path.Savable → g.disk.content path = files path

/-- What a process relies on at a point. -/
def Relies (g : World) (p : Nat) : Point → Prop
  | .saving tmp path _ => path.Savable ∧ tmp = tmpOf path ∧ ¬ g.logged p
  | .writing tmp path bytes file rest => path.Savable ∧ tmp = tmpOf path ∧ ¬ g.logged p ∧
      g.disk.names tmp = some file ∧ g.disk.bytes file ++ rest = bytes
  | .moving tmp path bytes => path.Savable ∧ tmp = tmpOf path ∧ ¬ g.logged p ∧
      ∃ file, g.disk.names tmp = some file ∧ g.disk.bytes file = bytes
  | .opening path => path.Savable ∧ ¬ g.logged p
  | .reading path file got => (p, .get path, some (g.disk.bytes file)) ∈ g.log ∧ got <+: g.disk.bytes file ∧
      file < g.disk.fresh ∧ ∀ path' : FilePath, path'.Savable → g.disk.names (tmpOf path') ≠ some file
  | .ended (.saved path bytes) => (p, .put path bytes, none) ∈ g.log
  | .ended (.got path content) => (p, .get path, content) ∈ g.log
  | .ended _ => ∀ path bytes r, (p, .put path bytes, r) ∉ g.log

/-- The path whose lock a step holds or takes. -/
def locked : Point → Option FilePath
  | .saving _ path _ => some path
  | .writing _ path _ _ _ => some path
  | .moving _ path _ => some path
  | _ => none

/-- What a step leaves alone: the bytes of all files but the one beside its path, the names of all but these two, and the entries
of others. -/
structure Leaves (g g' : World) (q : Nat) (lock : Option FilePath) : Prop where
  log : g'.log = g.log ∨ ∃ e, g'.log = g.log ++ [(q, e)]
  fresh : g.disk.fresh ≤ g'.disk.fresh
  bytes : ∀ i < g.disk.fresh, (∀ path ∈ lock, g.disk.names (tmpOf path) ≠ some i) → g'.disk.bytes i = g.disk.bytes i
  names : ∀ n, (∀ path ∈ lock, n ≠ path ∧ n ≠ tmpOf path) → g'.disk.names n = g.disk.names n
  beside : ∀ path : FilePath, path.Savable → ∀ i < g.disk.fresh, g'.disk.names (tmpOf path) = some i →
    g.disk.names (tmpOf path) = some i

/-- What does nothing leaves what another holds. -/
theorem Leaves.refl (g : World) (q : Nat) (lock : Option FilePath) : Leaves g g q lock :=
  ⟨.inl rfl, Nat.le_refl _, fun _ _ _ => rfl, fun _ _ => rfl, fun _ _ _ _ h => h⟩

/-- A step that only adds an entry. -/
theorem Leaves.entry (g : World) (q : Nat) (lock : Option FilePath) (e : FileOp × Option (List UInt8)) :
    Leaves g { g with log := g.log ++ [(q, e)] } q lock :=
  ⟨.inr ⟨e, rfl⟩, Nat.le_refl _, fun _ _ _ => rfl, fun _ _ => rfl, fun _ _ _ _ h => h⟩

/-- The log keeps its entries. -/
theorem Leaves.mem (h : Leaves g g' q (locked t)) {e : Nat × FileOp × Option (List UInt8)} (he : e ∈ g.log) : e ∈ g'.log := by
  rcases h.log with heq | ⟨e', heq⟩
  · exact heq ▸ he
  · exact heq ▸ List.mem_append_left _ he

/-- A step adds no entry of another process. -/
theorem Leaves.mem_iff (h : Leaves g g' q (locked t)) (hne : p ≠ q) {e : FileOp × Option (List UInt8)} :
    (p, e) ∈ g'.log ↔ (p, e) ∈ g.log := by
  rcases h.log with heq | ⟨e', heq⟩
  · rw [heq]
  · rw [heq, List.mem_append, List.mem_singleton, Prod.mk.injEq]
    exact or_iff_left fun h => hne h.1

/-- No other process enters for one. -/
theorem Leaves.logged (h : Leaves g g' q (locked t)) (hne : p ≠ q) (hp : ¬ g.logged p) : ¬ g'.logged p := by
  intro hlog
  obtain ⟨e, he, rfl⟩ := List.mem_map.mp hlog
  exact hp (List.mem_map.mpr ⟨e, (h.mem_iff hne).mp he, rfl⟩)

/-- What every step leaves alone. -/
theorem leaves_next (hg : g.disk.Sound) (ht : Relies g q t) (io : Io) : Leaves g (g.next q t io).1 q (locked t) := by
  cases t with
  | saving tmp path bytes =>
    obtain ⟨hpath, rfl, _⟩ := ht
    simp only [World.next]
    split
    · have hc := hg.created (tmpOf path)
      refine ⟨.inl rfl, hc.later, fun i hi hne => hc.bytes i ?_, fun n hn => hc.names n (hn path rfl).2,
        fun path' hpath' i hi h => ?_⟩
      · rintro rfl
        rcases hc.source with hsource | ⟨heq, _⟩
        · exact hne path rfl hsource
        · omega
      · by_cases heq : tmpOf path' = tmpOf path
        · rw [heq] at h ⊢
          rcases hc.source with hsource | ⟨hnew, _⟩
          · rw [hsource, ← hc.bound, h]
          · rw [hc.bound, Option.some.injEq] at h
            omega
        · rwa [hc.names _ heq] at h
    · exact .refl g q _
  | writing tmp path bytes file rest =>
    obtain ⟨hpath, rfl, _, hbound, _⟩ := ht
    simp only [World.next]
    split
    · exact .refl g q _
    · split
      · refine ⟨.inl rfl, Nat.le_refl _, fun i _ hne => ?_, fun n _ => rfl, fun _ _ _ _ h => h⟩
        refine Disk.bytes_append_of_ne ?_ _
        rintro rfl
        exact hne path rfl hbound
      · exact .refl g q _
  | moving tmp path bytes =>
    obtain ⟨hpath, rfl, _, _⟩ := ht
    simp only [World.next]
    split
    · refine ⟨.inr ⟨_, rfl⟩, Nat.le_refl _, fun i _ _ => rfl, fun n hn => ?_, fun path' hpath' i _ h => ?_⟩
      · obtain ⟨hne, hne'⟩ := hn path rfl
        simp only [Disk.names_rename, if_neg hne, if_neg hne']
      · simp only [Disk.names_rename] at h
        split at h
        · cases h
        · rwa [if_neg (ne_tmpOf hpath path').symm] at h
    · exact .refl g q _
  | opening path =>
    simp only [World.next]
    split
    · exact .entry g q _ _
    · split
      · exact .entry g q _ _
      · exact .refl g q _
  | reading path file got =>
    simp only [World.next]
    split
    · split <;> exact .refl g q _
    · exact .refl g q _
  | ended outcome => exact .refl g q _

/-- What a process relies on, it keeps through the steps of others that hold other locks. -/
theorem Relies.other (h : Relies g p s) (ht : Relies g q t) (hne : p ≠ q) (hsound : g.disk.Sound)
    (hlocks : ∀ path ∈ (saves true).holds s, path ∉ locked t) (hl : Leaves g g' q (locked t)) : Relies g' p s := by
  have hsavable : ∀ path ∈ locked t, path.Savable := by
    intro path hpath
    cases t with
    | saving | writing | moving =>
      cases hpath
      exact ht.1
    | opening | reading | ended => cases hpath
  -- the step of another process is about another path, and about another file beside it
  have hapart : ∀ path : FilePath, path.Savable → (∀ path' ∈ locked t, path ≠ path') →
      g'.disk.names (tmpOf path) = g.disk.names (tmpOf path) := by
    intro path hpath hother
    refine hl.names _ fun path' hpath' => ⟨(ne_tmpOf (hsavable path' hpath') path).symm, fun heq => ?_⟩
    exact hother path' hpath' (tmpOf_inj hpath (hsavable path' hpath') heq)
  have hbytes : ∀ (path : FilePath) (file : Nat), path.Savable → (∀ path' ∈ locked t, path ≠ path') →
      g.disk.names (tmpOf path) = some file → g'.disk.bytes file = g.disk.bytes file := by
    intro path file hpath hother hfile
    refine hl.bytes file (hsound.fresh _ _ hfile) fun path' hpath' heq => ?_
    exact hother path' hpath' (tmpOf_inj hpath (hsavable path' hpath') (hsound.inj _ _ _ hfile heq))
  cases s with
  | saving tmp path bytes =>
    obtain ⟨hpath, htmp, hlog⟩ := h
    exact ⟨hpath, htmp, hl.logged hne hlog⟩
  | writing tmp path bytes file rest =>
    obtain ⟨hpath, rfl, hlog, hfile, heq⟩ := h
    have hother : ∀ path' ∈ locked t, path ≠ path' := fun path' hpath' h => hlocks path (List.mem_singleton_self path) (h ▸ hpath')
    exact ⟨hpath, rfl, hl.logged hne hlog, (hapart path hpath hother).trans hfile, by rw [hbytes path file hpath hother hfile, heq]⟩
  | moving tmp path bytes =>
    obtain ⟨hpath, rfl, hlog, file, hfile, heq⟩ := h
    have hother : ∀ path' ∈ locked t, path ≠ path' := fun path' hpath' h => hlocks path (List.mem_singleton_self path) (h ▸ hpath')
    exact ⟨hpath, rfl, hl.logged hne hlog, file, (hapart path hpath hother).trans hfile,
      by rw [hbytes path file hpath hother hfile, heq]⟩
  | opening path => exact ⟨h.1, hl.logged hne h.2⟩
  | reading path file got =>
    obtain ⟨hlog, hgot, hfresh, hbeside⟩ := h
    have hfile : g'.disk.bytes file = g.disk.bytes file :=
      hl.bytes file hfresh fun path' hpath' => hbeside path' (hsavable path' hpath')
    refine ⟨by rw [hfile]; exact hl.mem hlog, hfile ▸ hgot, Nat.lt_of_lt_of_le hfresh hl.fresh, fun path' hpath' heq => ?_⟩
    exact hbeside path' hpath' (hl.beside path' hpath' file hfresh heq)
  | ended outcome =>
    cases outcome with
    | saved | got => exact hl.mem h
    | failed | unreadable | killed => exact fun path bytes r hmem => h path bytes r ((hl.mem_iff hne).mp hmem)

/-! ## The steps of a process -/

variable {files₀ : FilePath → Option (List UInt8)}

/-- A step that changes nothing under a path that is saved, and adds no entry. -/
theorem Kept.quiet (h : Kept files₀ g) {disk : Disk FilePath UInt8} (hsound : disk.Sound)
    (hcontent : ∀ path : FilePath, path.Savable → disk.content path = g.disk.content path) : Kept files₀ { g with disk } := by
  obtain ⟨files, hexplained, hfiles⟩ := h.explained
  exact ⟨hsound, h.once, files, hexplained, fun path hpath => (hcontent path hpath).trans (hfiles path hpath)⟩

/-- A step that adds the entry of an operation, and does it. -/
theorem Kept.entry (h : Kept files₀ g) (hlog : ¬ g.logged p) {disk : Disk FilePath UInt8} (hsound : disk.Sound) (op : FileOp)
    (r : Option (List UInt8))
    (hop : ∀ files, (∀ path : FilePath, path.Savable → g.disk.content path = files path) → (fileStep files op).2 = r ∧
      ∀ path : FilePath, path.Savable → disk.content path = (fileStep files op).1 path) :
    Kept files₀ ⟨disk, g.log ++ [(p, op, r)]⟩ := by
  obtain ⟨files, hexplained, hfiles⟩ := h.explained
  obtain ⟨hr, hcontent⟩ := hop files hfiles
  refine ⟨hsound, ?_, (fileStep files op).1, ?_, hcontent⟩
  · rw [List.map_append]
    refine List.nodup_append.mpr ⟨h.once, List.nodup_singleton _, fun a ha b hb hab => ?_⟩
    obtain rfl := List.mem_singleton.mp hb
    exact hlog (hab ▸ ha)
  · have hsnoc := hexplained.snoc op
    rw [hr] at hsnoc
    simpa using hsnoc

/-- A process that is not logged has no entry. -/
theorem not_mem_of_not_logged (h : ¬ g.logged p) (e : FileOp × Option (List UInt8)) : (p, e) ∉ g.log :=
  fun hmem => h (List.mem_map.mpr ⟨_, hmem, rfl⟩)

/-- A process that has an entry of reading has none of putting. -/
theorem Kept.not_put (h : Kept files₀ g) {content r : Option (List UInt8)} (hmem : (p, .get path, content) ∈ g.log)
    (path' : FilePath) (bytes : List UInt8) : (p, .put path' bytes, r) ∉ g.log := by
  intro hput
  have heq := List.inj_on_of_nodup_map h.once hmem hput rfl
  cases heq

/-- What a step of a process makes of what it relies on. -/
theorem Relies.own (h : Relies g p s) (hg : Kept files₀ g) (io : Io) :
    Kept files₀ (g.next p s io).1 ∧ Relies (g.next p s io).1 p (g.next p s io).2 := by
  have hfailed : ¬ g.logged p → ∀ e, Relies g p (.ended (.failed e)) :=
    fun hlog e path bytes r => not_mem_of_not_logged hlog _
  cases s with
  | saving tmp path bytes =>
    obtain ⟨hpath, rfl, hlog⟩ := h
    simp only [World.next]
    split
    · have hc := hg.sound.created (tmpOf path)
      refine ⟨hg.quiet hc.sound fun path' hpath' => ?_, hpath, rfl, hlog, hc.bound, by rw [hc.empty, List.nil_append]⟩
      -- no path that is saved has the file that is opened
      rw [Disk.content, Disk.content, hc.names _ (ne_tmpOf hpath' path)]
      cases hfile : g.disk.names path' with
      | none => rfl
      | some i =>
        rw [Option.map_some, Option.map_some, hc.bytes]
        rintro rfl
        rcases hc.source with hsource | ⟨heq, _⟩
        · exact ne_tmpOf hpath' path (hg.sound.inj _ _ _ hfile hsource)
        · have := hg.sound.fresh _ _ hfile
          omega
    · exact ⟨hg, hfailed hlog _⟩
  | writing tmp path bytes file rest =>
    obtain ⟨hpath, rfl, hlog, hfile, heq⟩ := h
    simp only [World.next]
    split
    · rename_i hrest
      rw [List.isEmpty_iff] at hrest
      rw [hrest, List.append_nil] at heq
      exact ⟨hg, hpath, rfl, hlog, file, hfile, heq⟩
    · split
      · refine ⟨hg.quiet (hg.sound.append _ _) fun path' hpath' => ?_, hpath, rfl, hlog, hfile, ?_⟩
        · rw [Disk.content, Disk.content, Disk.names_append]
          cases hfile' : g.disk.names path' with
          | none => rfl
          | some i =>
            rw [Option.map_some, Option.map_some, Disk.bytes_append_of_ne]
            rintro rfl
            exact ne_tmpOf hpath' path (hg.sound.inj _ _ _ hfile' hfile)
        · rw [Disk.bytes_append_self, List.append_assoc, List.take_append_drop, heq]
      · exact ⟨hg, hfailed hlog _⟩
  | moving tmp path bytes =>
    obtain ⟨hpath, rfl, hlog, file, hfile, heq⟩ := h
    simp only [World.next]
    split
    · refine ⟨hg.entry hlog (hg.sound.rename _ _) _ _ fun files hfiles => ⟨rfl, fun path' hpath' => ?_⟩,
        List.mem_append_right _ (List.mem_singleton_self _)⟩
      simp only [Disk.content, Disk.names_rename, Disk.bytes_rename, fileStep, Function.update_apply,
        if_neg (ne_tmpOf hpath' path)]
      split
      · rw [hfile, Option.map_some, heq]
      · exact hfiles path' hpath'
    · exact ⟨hg, hfailed hlog _⟩
  | opening path =>
    obtain ⟨hpath, hlog⟩ := h
    simp only [World.next]
    split
    · rename_i hfile
      refine ⟨hg.entry hlog hg.sound _ _ fun files hfiles => ⟨?_, hfiles⟩, List.mem_append_right _ (List.mem_singleton_self _)⟩
      rw [fileStep, ← hfiles path hpath, Disk.content, hfile, Option.map_none]
    · rename_i file hfile
      split
      · refine ⟨hg.entry hlog hg.sound _ _ fun files hfiles => ⟨?_, hfiles⟩, List.mem_append_right _ (List.mem_singleton_self _),
          List.nil_prefix, hg.sound.fresh _ _ hfile, fun path' _ hfile' => ?_⟩
        · rw [fileStep, ← hfiles path hpath, Disk.content, hfile, Option.map_some]
        · exact ne_tmpOf hpath path' (hg.sound.inj _ _ _ hfile hfile')
      · exact ⟨hg, fun path bytes r => not_mem_of_not_logged hlog _⟩
  | reading path file got =>
    obtain ⟨hlog, hgot, hfresh, hbeside⟩ := h
    simp only [World.next]
    split
    · split
      · rename_i hchunk
        refine ⟨hg, ?_⟩
        -- nothing is left behind what was got
        obtain ⟨rest, hrest⟩ := hgot
        rw [List.isEmpty_iff, ← hrest, List.drop_left] at hchunk
        have hnil : rest = [] := by simpa using hchunk
        rw [hnil, List.append_nil] at hrest
        exact hrest ▸ hlog
      · refine ⟨hg, hlog, ?_, hfresh, hbeside⟩
        obtain ⟨rest, hrest⟩ := hgot
        rw [← hrest, List.drop_left]
        exact List.prefix_append_right_inj _ |>.mpr (List.take_prefix _ _)
    · exact ⟨hg, fun path' bytes r => hg.not_put hlog path' bytes⟩
  | ended outcome => exact ⟨hg, h⟩

/-! ## Runs -/

/-- The locks held after a step were held before it, or are the one that it needs. -/
theorem holds_next (g : World) (p : Nat) (s : Point) (io : Io) :
    (saves true).holds (g.next p s io).2 = [] ∨ (saves true).holds (g.next p s io).2 = (saves true).holds s ∨
      (saves true).holds (g.next p s io).2 = ((saves true).needs s).toList := by
  cases s with
  | saving | moving =>
    simp only [World.next]
    split
    · exact .inr (.inr rfl)
    · exact .inl rfl
  | writing =>
    simp only [World.next]
    split
    · exact .inr (.inl rfl)
    · split
      · exact .inr (.inl rfl)
      · exact .inl rfl
  | opening =>
    simp only [World.next]
    split
    · exact .inl rfl
    · split <;> exact .inl rfl
  | reading =>
    simp only [World.next]
    split
    · split <;> exact .inl rfl
    · exact .inl rfl
  | ended => exact .inl rfl

/-- Saves take the lock of their path. -/
theorem saves_disciplined : (saves true).Disciplined := by
  refine ⟨fun request => ?_, fun g p s io path hpath => ?_⟩
  · cases request with
    | saveRon data path => cases data <;> rfl
    | writeBytes | read => rfl
  · change path ∈ (saves true).holds (g.next p s io).2 at hpath
    rcases holds_next g p s io with h | h | h <;> rw [h] at hpath
    · cases hpath
    · exact .inl hpath
    · exact .inr (Option.mem_toList.mp hpath)

/-- The steps of saves and readers among themselves. -/
theorem saves_outline (files₀ : FilePath → Option (List UInt8)) :
    (saves true).Outline Request.Proper (fun _ _ _ _ => True) (Kept files₀) Relies fun g p => ¬ g.logged p where
  start g p request hproper _ hfree := by
    cases request with
    | saveRon data path =>
      cases data with
      | none => exact fun path bytes r => not_mem_of_not_logged hfree _
      | some bytes => exact ⟨.inl hproper, tmpOf_ron hproper, hfree⟩
    | writeBytes bytes path => exact ⟨.inr hproper, tmpOf_memory hproper, hfree⟩
    | read path => exact ⟨hproper, hfree⟩
  own g p s io hg hs _ _ := hs.own hg io
  other g p s q t io hg hs ht hne _ _ hlocks := by
    refine hs.other ht hne hg.sound (fun path hpath hlock => ?_) (leaves_next hg.sound ht io)
    obtain ⟨hholds, hneeds⟩ := hlocks path hpath
    cases t with
    | saving tmp path' bytes => exact hneeds hlock
    | writing | moving =>
      cases hlock
      exact hholds (List.mem_singleton_self _)
    | opening | reading | ended => cases hlock
  later g p q t io hg hp ht hne _ := (leaves_next hg.sound ht io).logged hne hp

/-- What is true at every moment: a log of saves and reads explains what is under each path and what each call returned, with one
entry for each save that succeeded, and none for one that did not. -/
structure Told (files₀ : FilePath → Option (List UInt8)) (w : World × List Point) : Prop where
  explained : ∃ files, Explains fileStep files₀ (w.1.log.map Prod.snd) files ∧
    ∀ path : FilePath, path.Savable → w.1.disk.content path = files path
  saved : ∀ p path bytes, w.2[p]? = some (.ended (.saved path bytes)) ↔ (p, .put path bytes, none) ∈ w.1.log
  got : ∀ p path content, w.2[p]? = some (.ended (.got path content)) → (p, .get path, content) ∈ w.1.log
  once : (w.1.log.map Prod.fst).Nodup
  started : ∀ e ∈ w.1.log, e.1 < w.2.length

/-- The locks exclude, and every process has what it relies on. -/
def Steady (files₀ : FilePath → Option (List UInt8)) (w : World × List Point) : Prop :=
  Exclusive (saves true) w ∧ Holds (Kept files₀) Relies (fun g p => ¬ g.logged p) w

variable {w w' : World × List Point}

/-- What is steady is told by its log. -/
theorem Steady.told (h : Steady files₀ w) : Told files₀ w := by
  obtain ⟨-, hw⟩ := h
  have hstarted : ∀ e ∈ w.1.log, e.1 < w.2.length := by
    intro e he
    by_contra hge
    exact hw.free e.1 (Nat.le_of_not_lt hge) (List.mem_map.mpr ⟨e, he, rfl⟩)
  refine ⟨hw.shared.explained, fun p path bytes => ⟨fun hp => hw.proc p _ hp, fun hput => ?_⟩,
    fun p path content hp => hw.proc p _ hp, hw.shared.once, hstarted⟩
  -- at every other point, a process has not put anything
  have hlt : p < w.2.length := hstarted _ hput
  have hp : w.2[p]? = some w.2[p] := List.getElem?_eq_getElem hlt
  have hrel := hw.proc p _ hp
  rw [hp]
  cases hs : w.2[p] with
  | saving =>
    rw [hs] at hrel
    exact absurd hput (not_mem_of_not_logged hrel.2.2 _)
  | writing | moving =>
    rw [hs] at hrel
    exact absurd hput (not_mem_of_not_logged hrel.2.2.1 _)
  | opening =>
    rw [hs] at hrel
    exact absurd hput (not_mem_of_not_logged hrel.2 _)
  | reading =>
    rw [hs] at hrel
    exact absurd hput (hw.shared.not_put hrel.1 _ _)
  | ended outcome =>
    rw [hs] at hrel
    cases outcome with
    | saved path' bytes' =>
      have heq := List.inj_on_of_nodup_map hw.shared.once hput hrel rfl
      cases heq
      rfl
    | got => exact absurd hput (hw.shared.not_put hrel _ _)
    | failed | unreadable | killed => exact absurd hput (hrel path bytes none)

/-- The end of the program leaves nothing to rely on but what was logged. -/
theorem Relies.kill (h : Relies g p s) (hg : Kept files₀ g) : Relies g p s.kill := by
  cases s with
  | saving => exact fun path bytes r => not_mem_of_not_logged h.2.2 _
  | writing | moving => exact fun path bytes r => not_mem_of_not_logged h.2.2.1 _
  | opening => exact fun path bytes r => not_mem_of_not_logged h.2 _
  | reading => exact fun path bytes r => hg.not_put h.1 path bytes
  | ended outcome => exact h

/-- A process that was ended holds nothing. -/
theorem holds_kill (s : Point) : (saves true).holds s.kill = [] := by
  cases s <;> rfl

/-- What every step keeps. -/
theorem Steady.step (h : Steady files₀ w) {e : SaveEvent} (hproper : e.Proper) (hstep : saveStep true w e = some w') :
    Steady files₀ w' := by
  cases e with
  | pool e =>
    refine ⟨exclusive_step saves_disciplined h.1 hstep, (saves_outline files₀).step h.1 h.2 ?_ hstep⟩
    cases e with
    | spawn request => exact hproper
    | step p io => exact fun _ _ => trivial
  | crash =>
    cases hstep
    refine ⟨fun p q s t hp _ _ path hpath => ?_, h.2.shared, fun p s hp => ?_, fun p hp => h.2.free p (by simpa using hp)⟩
    · obtain ⟨s', _, rfl⟩ := List.mem_map.mp (List.mem_of_getElem? hp)
      rw [holds_kill] at hpath
      cases hpath
    · rw [List.getElem?_map, Option.map_eq_some_iff] at hp
      obtain ⟨s', hs', rfl⟩ := hp
      exact (h.2.proc p s' hs').kill h.2.shared

/-- A step adds at most one entry to the log. -/
theorem log_step (h : Steady files₀ w) {e : SaveEvent} (hstep : saveStep true w e = some w') : w.1.log <+: w'.1.log := by
  cases e with
  | pool e =>
    rcases step_cases hstep with ⟨request, rfl, rfl⟩ | ⟨p, io, s, rfl, hs, _, _, rfl⟩
    · exact List.prefix_refl _
    · rcases (leaves_next h.2.shared.sound (h.2.proc p s hs) io).log with heq | ⟨e, heq⟩
      · exact heq ▸ List.prefix_refl _
      · exact heq ▸ List.prefix_append _ _
  | crash =>
    cases hstep
    exact List.prefix_refl _

/-- It starts steady. -/
theorem steady_start {disk : Disk FilePath UInt8} (h : disk.Sound) : Steady disk.content (saveStart disk) :=
  ⟨fun _ _ _ _ hp => by simp [saveStart] at hp, ⟨h, List.nodup_nil, disk.content, rfl, fun _ _ => rfl⟩,
    fun _ _ hp => by simp [saveStart] at hp, fun _ _ => by simp [saveStart, World.logged]⟩

/-- Whatever saves and readers of any files do between each other, and however often the program ends in the middle of them: when a
call holds the lock of its path, every save and every read takes effect at once, at a moment while it runs. -/
theorem saves_are_atomic (disk : Disk FilePath UInt8) (hsound : disk.Sound) (before after : List SaveEvent)
    (hproper : ∀ e ∈ before ++ after, e.Proper) (w v : World × List Point)
    (hw : Machine.run (saveStep true) (saveStart disk) before = some w) (hv : Machine.run (saveStep true) w after = some v) :
    Told disk.content w ∧ Told disk.content v ∧ w.1.log <+: v.1.log := by
  have keeps : ∀ s e s', Steady disk.content s → e.Proper → saveStep true s e = some s' → Steady disk.content s' :=
    fun s e s' hs he hstep => hs.step he hstep
  have grows : ∀ s e s', (Steady disk.content s ∧ w.1.log <+: s.1.log) → e.Proper → saveStep true s e = some s' →
      Steady disk.content s' ∧ w.1.log <+: s'.1.log :=
    fun s e s' hs he hstep => ⟨hs.1.step he hstep, hs.2.trans (log_step hs.1 hstep)⟩
  have hsteady : Steady disk.content w :=
    Machine.run_invariant_of_meets keeps (steady_start hsound)
      (.of_mem (fun e he => hproper e (List.mem_append_left _ he)) _) hw
  have hafter : Machine.Meets (saveStep true) (fun _ => SaveEvent.Proper) w after :=
    .of_mem (fun e he => hproper e (List.mem_append_right _ he)) _
  have hlast := Machine.run_invariant_of_meets grows ⟨hsteady, List.prefix_refl _⟩ hafter hv
  exact ⟨hsteady.told, hlast.1.told, hlast.2⟩

/-! ## A save that is cut off -/

def noFiles : Disk FilePath UInt8 := ⟨fun _ => none, fun _ => [], 0⟩

def pings : FilePath := ⟨[], ['p', '.', 'r', 'o', 'n']⟩

def steps (p : Nat) (mores : List Nat) : List SaveEvent := mores.map fun more => .pool (.step p ⟨true, more⟩)

def firstSave : List SaveEvent := .pool (.spawn (.saveRon (some [1, 2]) pings)) :: steps 0 [0, 0, 9, 0, 0]

/-- The program ends while a save is writing, and a reader comes after its next start. -/
def cutOff : List SaveEvent :=
  .pool (.spawn (.saveRon (some [3, 4, 5]) pings)) :: steps 1 [0, 0] ++ .crash :: .pool (.spawn (.read pings)) ::
    steps 2 [0, 0, 9, 0]

/-- A disk without files is sound. -/
theorem noFiles_sound : noFiles.Sound := by
  refine ⟨fun n m i h => ?_, fun n i h => ?_⟩ <;> cases h

theorem saves_are_atomic_cutOff :
    ∃ w v, Machine.run (saveStep true) (saveStart noFiles) firstSave = some w ∧
      Machine.run (saveStep true) w cutOff = some v ∧ (Told noFiles.content w ∧ Told noFiles.content v ∧ w.1.log <+: v.1.log) ∧
      v.2 = [.ended (.saved pings [1, 2]), .ended .killed, .ended (.got pings (some [1, 2]))] := by
  have hfirst : (Machine.run (saveStep true) (saveStart noFiles) firstSave).isSome = true := rfl
  have hcut : (Machine.run (saveStep true) (Option.get _ hfirst) cutOff).isSome = true := rfl
  refine ⟨_, _, (Option.some_get hfirst).symm, (Option.some_get hcut).symm, ?_, rfl⟩
  exact saves_are_atomic noFiles noFiles_sound firstSave cutOff (by decide) _ _ (Option.some_get hfirst).symm
    (Option.some_get hcut).symm

/-- Without the locks, two saves of one path write into one file beside it. -/
example :
    ((Machine.run (saveStep false) (saveStart noFiles) (.pool (.spawn (.saveRon (some [1, 1]) pings)) ::
      .pool (.spawn (.saveRon (some [2]) pings)) :: steps 0 [0] ++ steps 1 [0] ++ steps 0 [9] ++ steps 1 [9] ++
      steps 0 [0, 0])).bind fun w => w.1.disk.content pings) = some [1, 1, 2] := rfl

end Twitch1337.Persist
