import Twitch1337.Lemmas.Inject

/-!
# Users who are not there

What a turn of the chat is given does not depend on the files of users who neither speak nor stand in a rendered section of the
chat. It depends on the order in which a directory is read, but only for files that were updated at the same instant.
-/

namespace Twitch1337.Memory.Inject

open Chrono Schedules Stable Text

variable {R : Rfc3339} {Z : Zone} {d d' : Disk} {now now' : Instant} {opts : BuildOpts}

/-! ## The same files -/

/-- The same files, those of one instant in the same order. -/
def SameFiles (files files' : List MemoryFile) : Prop :=
  ∀ t, files.filter (fun f => f.frontmatter.updatedAt = t) = files'.filter fun f => f.frontmatter.updatedAt = t

/-- What two stores have in common: SOUL and LORE, the state files, and the user files in the scope of a turn. All user files
can be read. -/
structure AgreeInScope (R : Rfc3339) (Z : Zone) (opts : BuildOpts) (d d' : Disk) (now now' : Instant) : Prop where
  soul : (d.readKind R .soul now).map (·.body) = (d'.readKind R .soul now').map (·.body)
  lore : (d.readKind R .lore now).map (·.body) = (d'.readKind R .lore now').map (·.body)
  states : Option.Rel SameFiles (d.readDir R FileKind.inState now) (d'.readDir R FileKind.inState now')
  users : ∃ users users', d.readDir R FileKind.inUsers now = some users ∧ d'.readDir R FileKind.inUsers now' = some users' ∧
    SameFiles (users.filter (opts.inScope Z)) (users'.filter (opts.inScope Z))

theorem newer_tied {a b : MemoryFile} : tied MemoryFile.Newer a b = true ↔ b.frontmatter.updatedAt = a.frontmatter.updatedAt := by
  rw [tied_iff]
  exact ⟨fun h => Int.le_antisymm h.1 h.2, fun h => ⟨Int.le_of_eq h, Int.le_of_eq h.symm⟩⟩

/-- The same files are the same list, once they are sorted. -/
theorem SameFiles.sorted {files files' : List MemoryFile} (h : SameFiles files files') :
    files.insertionSort MemoryFile.Newer = files'.insertionSort MemoryFile.Newer := by
  refine insertionSort_congr fun a => ?_
  have htied : tied MemoryFile.Newer a = fun f => decide (f.frontmatter.updatedAt = a.frontmatter.updatedAt) := by
    funext f
    rw [Bool.eq_iff_iff, newer_tied, decide_eq_true_eq]
  rw [htied]
  exact h a.frontmatter.updatedAt

/-- A part of a sorted list is that part, sorted. -/
theorem filter_sorted (p : MemoryFile → Bool) (files : List MemoryFile) :
    (files.insertionSort MemoryFile.Newer).filter p = (files.filter p).insertionSort MemoryFile.Newer := by
  refine eq_of_filter_tied ((List.pairwise_insertionSort _ files).filter p) (List.pairwise_insertionSort _ _) fun a => ?_
  rw [filter_tied_insertionSort, List.filter_comm, filter_tied_insertionSort, List.filter_comm]

/-- The blocks of a turn, over other files that have the same bodies of SOUL and LORE, the same user files in scope, and the same
state files. -/
theorem blocks_congr (files files' : ReadFiles) (hturn : opts.isChatTurn = true) (hsoul : files.soul.body = files'.soul.body)
    (hlore : files.lore.body = files'.lore.body)
    (husers : files.users.filter (opts.inScope Z) = files'.users.filter (opts.inScope Z)) (hstates : files.states = files'.states) :
    opts.blocks Z files = opts.blocks Z files' := by
  unfold BuildOpts.blocks BuildOpts.retained
  rw [hturn, if_pos rfl, if_pos rfl, hsoul, hlore, husers, hstates]

/-! ## The theorem -/

/-- In a turn of the chat, two stores that agree on what is in its scope give the same context, whatever other user files they
hold. -/
theorem context_of_agree (hturn : opts.isChatTurn = true) (h : AgreeInScope R Z opts d d' now now') :
    buildChatTurnContext R Z d now opts = buildChatTurnContext R Z d' now' opts := by
  obtain ⟨hsoul, hlore, hstates, users, users', hu, hu', hsame⟩ := h
  have husers : (users.insertionSort MemoryFile.Newer).filter (opts.inScope Z) =
      (users'.insertionSort MemoryFile.Newer).filter (opts.inScope Z) := by
    rw [filter_sorted, filter_sorted, hsame.sorted]
  have hlist : d.listState R now = d'.listState R now' := by
    unfold Disk.listState Disk.listInSubdir
    revert hstates
    generalize d.readDir R FileKind.inState now = states
    generalize d'.readDir R FileKind.inState now' = states'
    intro hstates
    cases hstates with
    | some hs => rw [Option.map_some, Option.map_some, hs.sorted]
    | none => rfl
  unfold buildChatTurnContext readFiles Disk.listUsers Disk.listInSubdir
  rw [hu, hu', hlist]
  revert hsoul hlore
  cases d.readKind R .soul now <;> cases d'.readKind R .soul now' <;> cases d.readKind R .lore now <;>
    cases d'.readKind R .lore now' <;> cases d'.listState R now' <;> simp
  rename_i soul soul' lore lore' states
  intro hsoul hlore
  have hblocks := blocks_congr ⟨soul, lore, users.insertionSort MemoryFile.Newer, states⟩
    ⟨soul', lore', users'.insertionSort MemoryFile.Newer, states⟩ hturn hsoul hlore husers rfl
  simp [hblocks]

/-! ### Alice, Bob and Carol -/

/-- A user file of that evening. -/
def userFile (login name body : String) (mtime : Mtime) : File :=
  ⟨some (emit .sample ⟨evening, some login.toList, some name.toList, none⟩ body.toList), mtime⟩

def alice : FileKind := .user "11".toList

def bob : FileKind := .user "22".toList

def carol : FileKind := .user "33".toList

/-- Alice and Bob, as one directory may list them. -/
def aliceAndBob : Disk :=
  ⟨AList.insert alice (userFile "alice" "Alice" "likes trains" 1)
    (AList.insert bob (userFile "bob" "Bob" "likes planes" 2) ∅), 2⟩

/-- The same files, as another may. -/
def bobAndAlice : Disk :=
  ⟨AList.insert bob (userFile "bob" "Bob" "likes planes" 2)
    (AList.insert alice (userFile "alice" "Alice" "likes trains" 1) ∅), 2⟩

/-- Carol, beside those two. -/
def withCarol : Disk :=
  ⟨AList.insert carol (userFile "carol" "Carol" "likes ships" 3) aliceAndBob.files, 3⟩

/-- What somebody says in the evening. -/
def saysHi (login : String) : ChatHistoryEntry := ⟨login.toList, none, "hi".toList, .user, evening⟩

/-- A turn with some chat before it. -/
def turnOf (speaker : String) (chat : List ChatHistoryEntry) : BuildOpts where
  injectByteBudget := 24576
  nonce := freshNonce [0, 17, 34, 51, 68, 85, 102, 119]
  primaryHistory := some chat
  primaryLogin := "main".toList
  aiChannelHistory := none
  aiChannelLogin := none
  invocationChannel := .primary
  botLogin := "bot".toList
  personaName := "Aurora".toList
  speakerLogin := speaker.toList

/-- Alice speaks, and Bob was there: Carol's file makes no difference. -/
theorem context_of_agree_carol :
    (buildChatTurnContext .sample (.fixed 7200) aliceAndBob evening (turnOf "alice" [saysHi "bob"])).isSome = true ∧
      buildChatTurnContext .sample (.fixed 7200) aliceAndBob evening (turnOf "alice" [saysHi "bob"]) =
        buildChatTurnContext .sample (.fixed 7200) withCarol evening (turnOf "alice" [saysHi "bob"]) := by
  refine ⟨by rfl, context_of_agree (by rfl) ⟨by decide, by decide, ?_, ?_⟩⟩
  · have hnone : aliceAndBob.readDir .sample FileKind.inState evening = some [] ∧
        withCarol.readDir .sample FileKind.inState evening = some [] := by
      decide
    rw [hnone.1, hnone.2]
    exact .some fun t => rfl
  · have hread : (aliceAndBob.readDir .sample FileKind.inUsers evening).isSome = true ∧
        (withCarol.readDir .sample FileKind.inUsers evening).isSome = true := by
      decide
    obtain ⟨users, hu⟩ := Option.isSome_iff_exists.mp hread.1
    obtain ⟨users', hu'⟩ := Option.isSome_iff_exists.mp hread.2
    refine ⟨users, users', hu, hu', fun t => congrArg _ ?_⟩
    have hfilter : (aliceAndBob.readDir .sample FileKind.inUsers evening).map
          (fun files => files.filter ((turnOf "alice" [saysHi "bob"]).inScope (.fixed 7200))) =
        (withCarol.readDir .sample FileKind.inUsers evening).map
          fun files => files.filter ((turnOf "alice" [saysHi "bob"]).inScope (.fixed 7200)) := by
      decide
    rw [hu, hu'] at hfilter
    exact Option.some.inj hfilter

/-- Stores with the same files give different contexts, when files of one instant are listed in another order. -/
theorem order_of_directory_shows :
    (∀ kind, aliceAndBob.files.lookup kind = bobAndAlice.files.lookup kind) ∧
      (turnOf "carol" [saysHi "alice", saysHi "bob"]).isChatTurn = true ∧
      ∃ c c', buildChatTurnContext .sample (.fixed 7200) aliceAndBob evening
          (turnOf "carol" [saysHi "alice", saysHi "bob"]) = some c ∧
        buildChatTurnContext .sample (.fixed 7200) bobAndAlice evening
          (turnOf "carol" [saysHi "alice", saysHi "bob"]) = some c' ∧
        c.durableMemory ≠ c'.durableMemory := by
  refine ⟨fun kind => ?_, by rfl, ?_⟩
  · have hne : alice ≠ bob := by decide
    rw [aliceAndBob, bobAndAlice, Table.lookup_insert, Table.lookup_insert, Table.lookup_insert, Table.lookup_insert]
    by_cases ha : kind = alice
    · rw [if_pos ha, ha, if_neg hne, if_pos rfl]
    · rw [if_neg ha, if_neg ha]
  · have hsome : (buildChatTurnContext .sample (.fixed 7200) aliceAndBob evening
          (turnOf "carol" [saysHi "alice", saysHi "bob"])).isSome = true ∧
        (buildChatTurnContext .sample (.fixed 7200) bobAndAlice evening
          (turnOf "carol" [saysHi "alice", saysHi "bob"])).isSome = true ∧
        (buildChatTurnContext .sample (.fixed 7200) aliceAndBob evening
          (turnOf "carol" [saysHi "alice", saysHi "bob"])).map (·.durableMemory) ≠
        (buildChatTurnContext .sample (.fixed 7200) bobAndAlice evening
          (turnOf "carol" [saysHi "alice", saysHi "bob"])).map (·.durableMemory) := by
      decide +kernel
    obtain ⟨c, hc⟩ := Option.isSome_iff_exists.mp hsome.1
    obtain ⟨c', hc'⟩ := Option.isSome_iff_exists.mp hsome.2.1
    have hne := hsome.2.2
    rw [hc, hc'] at hne
    exact ⟨c, c', hc, hc', fun heq => hne (congrArg some heq)⟩

end Twitch1337.Memory.Inject
