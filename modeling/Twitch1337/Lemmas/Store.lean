import Twitch1337.Lemmas.Frontmatter
import Twitch1337.Memory.Store

/-!
# What an operation of the store leaves behind

An operation that succeeds leaves the file it prepared, and every other file as it was; one that fails leaves all files.
-/

namespace Twitch1337.Memory

open Chrono

variable {R : Rfc3339} {d d' : Disk} {io : Io}

/-! ## Disks -/

@[simp] theorem lookup_put (d : Disk) (kind : FileKind) (raw : Text) (k : FileKind) :
    (d.put kind raw).files.lookup k = if k = kind then some ⟨some raw, d.writes + 1⟩ else d.files.lookup k :=
  Table.lookup_insert k kind _ d.files

@[simp] theorem lookup_remove (d : Disk) (kind k : FileKind) :
    (d.remove kind).files.lookup k = if k = kind then none else d.files.lookup k :=
  Table.lookup_erase k kind d.files

/-- A commit puts the file in its place, or leaves the disk. -/
theorem commit_cases (d : Disk) (io : Io) (kind : FileKind) (raw : Text) :
    d.commit io kind raw = (d.put kind raw, .ok ()) ∨ ∃ e, d.commit io kind raw = (d, .error e) := by
  unfold Disk.commit
  split
  · exact .inl rfl
  · exact .inr ⟨_, rfl⟩

/-- A write that succeeds was not turned down, is within the cap, and leaves what it prepared. -/
theorem run_ok {op : StoreOp} (hop : ∀ slug, op ≠ .deleteState slug) (h : op.run R d io = (d', .ok ())) :
    op.refusal = none ∧ ∃ raw, op.prepare R io.caps io.now (d.read op.kind) = .ok raw ∧ d' = d.put op.kind raw := by
  unfold StoreOp.run at h
  split at h
  · cases h
  rename_i href
  refine ⟨href, ?_⟩
  split at h
  · exact absurd rfl (hop _)
  split at h
  · cases h
  rename_i raw hraw
  refine ⟨raw, hraw, ?_⟩
  have key : d.commit io op.kind raw = (d', .ok ()) → d' = d.put op.kind raw := by
    intro hc
    rcases commit_cases d io op.kind raw with hp | ⟨e, he⟩
    · rw [hp] at hc
      cases hc
      rfl
    · rw [he] at hc
      cases hc
  split at h
  · split at h
    · cases h
    · exact key h
  · exact key h

/-- What is prepared is the file of the frontmatter and the body, and within the cap. -/
theorem prepare_ok {op : StoreOp} {caps : Caps} {now : Instant} {prior : Option Text} {raw : Text}
    (h : op.prepare R caps now prior = .ok raw) :
    raw = emit R (op.frontmatter R now prior) op.body ∧ Text.utf8Len raw ≤ caps.limitFor op.kind := by
  unfold StoreOp.prepare at h
  dsimp only at h
  split at h
  · cases h
  · rename_i hle
    cases h
    exact ⟨rfl, Nat.le_of_not_lt hle⟩

/-! ## Tokens -/

/-- A check of the token that ends the call does not report a write. -/
theorem checkToken_ne_written {kind : FileKind} {expected : Option Mtime} (m : Mtime) :
    d.checkToken R io kind expected ≠ some (.ok (.written m)) := by
  intro h
  unfold Disk.checkToken at h
  split at h
  · cases h
  split at h
  · cases h
  split at h
  · cases h
  · cases h

/-- A token that passes the check is that of the file. -/
theorem currentMtime_of_checkToken {kind : FileKind} {token : Mtime} (h : d.checkToken R io kind (some token) = none) :
    d.currentMtime kind = token := by
  unfold Disk.checkToken at h
  dsimp only at h
  split at h
  · cases h
  split at h
  · cases h
  · rename_i hne
    simpa using hne

/-! ## Identities -/

/-- The values of a file that can be read are clean, and none is empty. -/
theorem clean_frontmatter {prior : Option Text} {fm : Frontmatter} (h : frontmatter? R prior = some fm) :
    (∀ v ∈ fm.username, Clean v ∧ v ≠ []) ∧ (∀ v ∈ fm.displayName, Clean v ∧ v ≠ []) ∧
      ∀ v ∈ fm.createdBy, Clean v ∧ v ≠ [] := by
  unfold frontmatter? at h
  split at h
  · cases h
  split at h
  · rename_i fm' body hp
    cases h
    exact clean_of_parse hp
  · cases h

/-- On a user file, a value that is given and not empty counts, else the one there is. -/
theorem identity_user (userId : Text) (username displayName prior : Option Text) :
    identity R (.user userId) username displayName prior =
      ((nonempty username).or ((frontmatter? R prior).bind (·.username)),
        (nonempty (displayName.map normalizeDisplayName)).or ((frontmatter? R prior).bind (·.displayName))) := by
  unfold identity
  dsimp only
  split
  · rename_i h
    rw [Bool.and_eq_true, Option.isSome_iff_exists, Option.isSome_iff_exists] at h
    obtain ⟨⟨u, hu⟩, n, hn⟩ := h
    rw [hu, hn]
    rfl
  · rfl

theorem creatorOf_eq (creator override_ prior : Option Text) : creatorOf R creator override_ prior =
    (nonempty override_).or (((frontmatter? R prior).bind (·.createdBy)).or creator) := by
  unfold creatorOf
  cases nonempty override_ <;> rfl

@[simp] theorem frontmatter_updatedAt (op : StoreOp) (now : Instant) (prior : Option Text) :
    (op.frontmatter R now prior).updatedAt = now := by
  cases op <;> rfl

/-- Reading back what was put: the file is parsed. -/
theorem readKind_put (d : Disk) (kind : FileKind) (raw : Text) (now : Instant) : (d.put kind raw).readKind R kind now =
    match parse R raw with
    | .ok (fm, body) => some ⟨kind, fm, body⟩
    | .error _ => none := by
  cases hp : parse R raw with
  | ok parsed => simp [Disk.readKind, hp]
  | error e => simp [Disk.readKind, hp]

end Twitch1337.Memory
