import Twitch1337.Lemmas.Traffic
import Twitch1337.Lib.Stable
import Twitch1337.Memory.Inject

/-!
# What a turn reads and packs

The files of a directory, the orders they are sorted by, and the blocks that fit.
-/

namespace Twitch1337.Memory

open Chrono Text

variable {R : Rfc3339} {d : Disk} {now : Instant}

/-! ## The files of a directory -/

instance : Std.Total MemoryFile.Newer := ⟨fun a b => Int.le_total b.frontmatter.updatedAt a.frontmatter.updatedAt⟩

instance : IsTrans MemoryFile MemoryFile.Newer := ⟨fun _ _ _ h h' => Int.le_trans h' h⟩

/-- A file that is read has the kind it was read for. -/
theorem readKind_kind {kind : FileKind} {f : MemoryFile} (h : d.readKind R kind now = some f) : f.kind = kind := by
  unfold Disk.readKind at h
  split at h
  · cases h
    rfl
  split at h
  · cases h
  split at h
  · cases h
    rfl
  · cases h

/-- The login of a file that is read is on one line, and not empty. -/
theorem readKind_username {kind : FileKind} {f : MemoryFile} (h : d.readKind R kind now = some f) :
    ∀ v ∈ f.frontmatter.username, '\n' ∉ v ∧ v ≠ [] := by
  unfold Disk.readKind at h
  split at h
  · cases h
    rintro v ⟨⟩
  split at h
  · cases h
  split at h
  · rename_i fm body hp
    cases h
    intro v hv
    obtain ⟨hclean, hne⟩ := (clean_of_parse hp).1 v hv
    exact ⟨hclean.2, hne⟩
  · cases h

/-- Each element of a result comes from one of the list. -/
theorem mem_of_mapM {α β : Type*} {f : α → Option β} {l : List α} {out : List β} (h : l.mapM f = some out) :
    ∀ b ∈ out, ∃ a ∈ l, f a = some b := by
  induction l generalizing out with
  | nil =>
    cases h
    simp
  | cons a l ih =>
    rw [List.mapM_cons] at h
    obtain ⟨b, hb, h⟩ := Option.bind_eq_some_iff.mp h
    obtain ⟨bs, hbs, h⟩ := Option.bind_eq_some_iff.mp h
    cases h
    intro x hx
    rcases List.mem_cons.mp hx with rfl | hx
    · exact ⟨a, List.mem_cons_self, hb⟩
    · obtain ⟨a', ha', hfa'⟩ := ih hbs x hx
      exact ⟨a', List.mem_cons_of_mem a ha', hfa'⟩

/-- Every file of a list was read for a kind of that directory. -/
theorem mem_listInSubdir {sub : FileKind → Bool} {files : List MemoryFile} (h : d.listInSubdir R sub now = some files) :
    ∀ f ∈ files, f.kind ∈ d.files.keys ∧ sub f.kind = true ∧ d.readKind R f.kind now = some f := by
  obtain ⟨read, hread, rfl⟩ := Option.map_eq_some_iff.mp h
  intro f hf
  obtain ⟨kind, hkind, hf⟩ := mem_of_mapM hread f ((List.mem_insertionSort _).mp hf)
  obtain rfl := readKind_kind hf
  obtain ⟨hmem, hsub⟩ := List.mem_filter.mp hkind
  exact ⟨hmem, hsub, hf⟩

/-- Files are listed from the newest on. -/
theorem pairwise_listInSubdir {sub : FileKind → Bool} {files : List MemoryFile}
    (h : d.listInSubdir R sub now = some files) : files.Pairwise MemoryFile.Newer := by
  obtain ⟨read, _, rfl⟩ := Option.map_eq_some_iff.mp h
  exact List.pairwise_insertionSort _ _

namespace Inject

/-! ## Speakers -/

instance (speakerLc : Text) : Std.Total (SpeakerFirst speakerLc) := by
  refine ⟨fun a b => ?_⟩
  unfold SpeakerFirst
  have := Std.Total.total (r := MemoryFile.Newer) a b
  cases isSpeaker speakerLc a <;> cases isSpeaker speakerLc b <;> simp [this]

instance (speakerLc : Text) : IsTrans MemoryFile (SpeakerFirst speakerLc) := by
  refine ⟨fun a b c h h' => ?_⟩
  unfold SpeakerFirst at h h' ⊢
  have hnewer : a.Newer b → b.Newer c → a.Newer c := IsTrans.trans a b c
  rcases h with h | ⟨h, hn⟩
  · rcases h' with h' | ⟨h', _⟩
    · exact .inl (lt_trans h' h)
    · exact .inl (h' ▸ h)
  · rcases h' with h' | ⟨h', hn'⟩
    · exact .inl (h ▸ h')
    · exact .inr ⟨h.trans h', hnewer hn hn'⟩

/-- Whether a file is one of a login. -/
def hasLogin (login : Text) (f : MemoryFile) : Bool := f.frontmatter.username.any fun n => eqIgnoreAsciiCase n login

/-- A file has a login in any case of its letters. -/
theorem hasLogin_iff {login : Text} {f : MemoryFile} :
    hasLogin login f = true ↔ ∃ n, f.frontmatter.username = some n ∧ toAsciiLowercase n = toAsciiLowercase login := by
  simp [hasLogin, eqIgnoreAsciiCase, Option.any_eq_true]

/-- The files of one login in a list of files, the latest first, are in the order of every speaker. -/
theorem pairwise_hasLogin {files : List MemoryFile} (h : files.Pairwise MemoryFile.Newer) (login speakerLc : Text) :
    (files.filter (hasLogin login)).Pairwise (SpeakerFirst speakerLc) := by
  have hsame : ∀ f, hasLogin login f = true →
      isSpeaker speakerLc f = (!speakerLc.isEmpty && eqIgnoreAsciiCase login speakerLc) := by
    intro f hf
    obtain ⟨n, hn, heq⟩ := hasLogin_iff.mp hf
    simp [isSpeaker, hn, eqIgnoreAsciiCase, heq]
  refine (h.filter _).imp_of_mem fun {a b} ha hb hab => .inr ⟨?_, hab⟩
  rw [hsame a (List.mem_filter.mp ha).2, hsame b (List.mem_filter.mp hb).2]

/-! ## Blocks that fit -/

/-- Nothing is packed when the first block is beyond the budget. -/
theorem packBlocks_nil_iff {budget total : Nat} {blocks : List Text} :
    (packBlocks budget total blocks).1 = [] ↔ ∀ block ∈ blocks.head?, budget < total + utf8Len block + 1 := by
  cases blocks with
  | nil => simp [packBlocks]
  | cons block rest =>
    simp only [packBlocks, List.head?_cons, Option.mem_def, Option.some.injEq, forall_eq']
    split
    · simp_all
    · simp_all

/-- A block that fits is taken. -/
theorem packBlocks_cons {budget total : Nat} {block : Text} (h : total + utf8Len block + 1 ≤ budget) (rest : List Text) :
    (packBlocks budget total (block :: rest)).1 = block :: (packBlocks budget (total + utf8Len block + 1) rest).1 := by
  simp only [packBlocks]
  rw [if_neg (Nat.not_lt.mpr h)]

/-- What is packed is some of the blocks. -/
theorem packBlocks_subset {budget total : Nat} {blocks : List Text} : (packBlocks budget total blocks).1 ⊆ blocks := by
  induction blocks generalizing total with
  | nil => simp [packBlocks]
  | cons block rest ih =>
    by_cases h : total + utf8Len block + 1 ≤ budget
    · rw [packBlocks_cons h]
      exact List.cons_subset_cons block ih
    · simp only [packBlocks]
      rw [if_pos (Nat.lt_of_not_le h)]
      exact List.nil_subset _

/-- The bytes of blocks, each with a newline. -/
def cost (blocks : List Text) : Nat := (blocks.map fun block => utf8Len block + 1).sum

@[simp] theorem cost_nil : cost [] = 0 := rfl

@[simp] theorem cost_cons (block : Text) (blocks : List Text) : cost (block :: blocks) = utf8Len block + 1 + cost blocks := by
  rw [cost, cost, List.map_cons, List.sum_cons]

@[simp] theorem cost_append (blocks blocks' : List Text) : cost (blocks ++ blocks') = cost blocks + cost blocks' := by
  simp [cost]

/-- Blocks that fit are packed, and then the others. -/
theorem packBlocks_append {budget total : Nat} {blocks : List Text} (h : total + cost blocks ≤ budget) (rest : List Text) :
    packBlocks budget total (blocks ++ rest) =
      (blocks ++ (packBlocks budget (total + cost blocks) rest).1, (packBlocks budget (total + cost blocks) rest).2) := by
  induction blocks generalizing total with
  | nil => rfl
  | cons block blocks ih =>
    rw [cost_cons] at h
    have htotal : total + cost (block :: blocks) = total + utf8Len block + 1 + cost blocks := by
      rw [cost_cons]
      omega
    rw [List.cons_append, packBlocks, if_neg (by omega), ih (by omega), htotal]
    rfl

/-- All blocks are packed when there is room for all. -/
theorem packBlocks_all {budget total : Nat} {blocks : List Text} (h : total + cost blocks ≤ budget) :
    (packBlocks budget total blocks).1 = blocks := by
  have hpack := packBlocks_append h []
  rw [List.append_nil] at hpack
  rw [hpack]
  exact List.append_nil blocks

/-- Blocks are packed from the first on, as long as they fit. -/
theorem packBlocks_spec (budget total : Nat) (blocks : List Text) :
    ∃ rest, blocks = (packBlocks budget total blocks).1 ++ rest ∧
      (packBlocks budget total blocks).2 = total + cost (packBlocks budget total blocks).1 ∧
      ((packBlocks budget total blocks).1 = [] ∨ (packBlocks budget total blocks).2 ≤ budget) ∧
      ∀ block ∈ rest.head?, budget < (packBlocks budget total blocks).2 + utf8Len block + 1 := by
  induction blocks generalizing total with
  | nil => exact ⟨[], rfl, rfl, .inl rfl, by simp⟩
  | cons block blocks ih =>
    by_cases hfull : budget < total + utf8Len block + 1
    · rw [packBlocks, if_pos hfull]
      exact ⟨block :: blocks, rfl, rfl, .inl rfl, by simpa using hfull⟩
    · rw [packBlocks, if_neg hfull]
      obtain ⟨rest, hrest, htotal, hfits, hnext⟩ := ih (total + utf8Len block + 1)
      refine ⟨rest, congrArg (block :: ·) hrest, ?_, .inr ?_, hnext⟩
      · rw [htotal, cost_cons]
        omega
      · rcases hfits with hnone | hfits
        · rw [htotal, hnone, cost_nil]
          omega
        · exact hfits

/-- Nothing is packed when the budget is used up. -/
theorem packBlocks_full {budget total : Nat} (h : budget ≤ total) (blocks : List Text) :
    packBlocks budget total blocks = ([], total) := by
  cases blocks with
  | nil => rfl
  | cons block rest => rw [packBlocks, if_pos (by omega)]

/-- A block is packed where it fits beside those before it. -/
theorem mem_packBlocks_iff {budget total : Nat} {blocks : List Text} {block : Text} :
    block ∈ (packBlocks budget total blocks).1 ↔
      ∃ before after, blocks = before ++ block :: after ∧ total + cost before + utf8Len block + 1 ≤ budget := by
  constructor
  · intro h
    obtain ⟨rest, hrest, htotal, hfits, -⟩ := packBlocks_spec budget total blocks
    obtain ⟨before, after, hsplit⟩ := List.append_of_mem h
    refine ⟨before, after ++ rest, ?_, ?_⟩
    · rw [hrest, hsplit, List.append_assoc, List.cons_append]
    · rcases hfits with hnone | hfits
      · rw [hnone] at h
        cases h
      · rw [htotal, hsplit, cost_append, cost_cons] at hfits
        omega
  · rintro ⟨before, after, rfl, hfits⟩
    rw [packBlocks_append (by omega), packBlocks_cons hfits]
    exact List.mem_append_right before List.mem_cons_self

end Inject

end Twitch1337.Memory
