import Mathlib.Data.List.TakeDrop
import Twitch1337.Lemmas.ChatHistory

/-!
# Paging through the history

A turn asks for pages, each before the oldest message of the last one, while the chat goes on. The pages are disjoint, in order,
and complete for what stays in the history, as long as no two messages have the same number.
-/

namespace Twitch1337.ChatHistory

/-! ## One page -/

/-- The scan takes the newest entries, and one more than the limit when there are as many. -/
theorem scan_eq (takes : ChatHistoryEntry → Bool) (limit : Nat) (newestFirst es : List ChatHistoryEntry)
    (h : newestFirst.length ≤ limit) :
    scan takes limit newestFirst es = newestFirst ++ (es.filter takes).take (limit + 1 - newestFirst.length) := by
  induction es generalizing newestFirst with
  | nil => simp [scan]
  | cons e older ih =>
    unfold scan
    by_cases htake : takes e = true
    · rw [List.filter_cons_of_pos htake, if_neg (by simp [htake])]
      have hlen : limit + 1 - newestFirst.length = (limit - newestFirst.length) + 1 := by omega
      rw [hlen, List.take_succ_cons]
      by_cases hfull : limit < (newestFirst ++ [e]).length
      · rw [if_pos hfull]
        rw [List.length_append, List.length_singleton] at hfull
        have hzero : limit - newestFirst.length = 0 := by omega
        rw [hzero, List.take_zero]
      · rw [if_neg hfull, ih _ (Nat.le_of_not_lt hfull), List.append_assoc, List.length_append, List.length_singleton]
        have hrest : limit + 1 - (newestFirst.length + 1) = limit - newestFirst.length := by omega
        rw [hrest]
        rfl
    · rw [List.filter_cons_of_neg htake, if_pos (by simpa using htake), ih _ h]

/-- The entries that a query is about, oldest first. -/
def ChatHistoryBuffer.taken (b : ChatHistoryBuffer) (q : ChatHistoryQuery) : List ChatHistoryEntry := b.entries.filter q.takes

/-- A page is the end of the entries that the query is about. There is more when it is not all of them, and then the next page
is before its first entry. -/
theorem query_eq (b : ChatHistoryBuffer) (q : ChatHistoryQuery) :
    (b.query q).messages = (b.taken q).drop ((b.taken q).length - q.pageSize) ∧
      (b.query q).hasMore = decide (q.pageSize < (b.taken q).length) ∧
      (b.query q).nextBeforeSeq =
        if (b.query q).hasMore then (b.query q).messages.head?.map (·.seq) else none := by
  have hscan : scan q.takes q.pageSize [] b.entries.reverse = (b.taken q).reverse.take (q.pageSize + 1) := by
    rw [scan_eq _ _ _ _ (Nat.zero_le _), List.filter_reverse]
    rfl
  have hmore : decide (q.pageSize < ((b.taken q).reverse.take (q.pageSize + 1)).length) =
      decide (q.pageSize < (b.taken q).length) := by
    rw [List.length_take, List.length_reverse]
    exact decide_eq_decide.mpr (by omega)
  refine ⟨?_, ?_, rfl⟩
  · simp only [ChatHistoryBuffer.query, hscan, hmore]
    by_cases hlt : q.pageSize < (b.taken q).length
    · rw [if_pos (decide_eq_true hlt), List.take_take, Nat.min_eq_left (Nat.le_succ _), List.take_reverse,
        List.reverse_reverse]
    · rw [if_neg (by simpa using hlt), List.take_of_length_le (by rw [List.length_reverse]; omega), List.reverse_reverse]
      have hzero : (b.taken q).length - q.pageSize = 0 := by omega
      rw [hzero, List.drop_zero]
  · simp only [ChatHistoryBuffer.query, hscan, hmore]

/-- There is a next page only when this one has entries, and it is before the first of them. -/
theorem nextBeforeSeq_eq_some {b : ChatHistoryBuffer} {q : ChatHistoryQuery} {next : Nat}
    (h : (b.query q).nextBeforeSeq = some next) :
    (b.query q).hasMore = true ∧ ∃ e rest, (b.query q).messages = e :: rest ∧ e.seq = next := by
  rw [(query_eq b q).2.2] at h
  split at h
  · rename_i hmore
    obtain ⟨e, he, rfl⟩ := Option.map_eq_some_iff.mp h
    obtain ⟨rest, hrest⟩ := List.head?_eq_some_iff.mp he
    exact ⟨hmore, e, rest, hrest, rfl⟩
  · cases h

/-- Where there is more, there is a next page. -/
theorem nextBeforeSeq_ne_none {b : ChatHistoryBuffer} {q : ChatHistoryQuery} (h : (b.query q).hasMore = true) :
    (b.query q).nextBeforeSeq ≠ none := by
  intro hnone
  obtain ⟨hmessages, hmore, hnext⟩ := query_eq b q
  have hlt : q.pageSize < (b.taken q).length := by simpa [h] using hmore.symm
  rw [hnext, if_pos h, Option.map_eq_none_iff, List.head?_eq_none_iff, hmessages, List.drop_eq_nil_iff] at hnone
  have hpos : 0 < q.pageSize := by
    simp only [ChatHistoryQuery.pageSize, maxToolResultMessages]
    omega
  omega

theorem mem_taken_of_mem_messages {b : ChatHistoryBuffer} {q : ChatHistoryQuery} {e : ChatHistoryEntry}
    (h : e ∈ (b.query q).messages) : e ∈ b.taken q := by
  rw [(query_eq b q).1] at h
  exact List.mem_of_mem_drop h

theorem mem_taken {b : ChatHistoryBuffer} {q : ChatHistoryQuery} {e : ChatHistoryEntry} :
    e ∈ b.taken q ↔ e ∈ b.entries ∧ (∀ seq, q.beforeSeq = some seq → e.seq < seq) ∧ q.selects e = true := by
  have hbefore : (!(q.beforeSeq.any fun seq => seq ≤ e.seq)) = true ↔ ∀ seq, q.beforeSeq = some seq → e.seq < seq := by
    cases q.beforeSeq <;> simp
  rw [ChatHistoryBuffer.taken, List.mem_filter, ChatHistoryQuery.takes, Bool.and_eq_true, hbefore]

/-! ## Pages -/

/-- A query without a limit of its own on the numbers, asked for the entries before one. -/
def ChatHistoryQuery.before (q : ChatHistoryQuery) (seq : Option Nat) : ChatHistoryQuery := { q with beforeSeq := seq }

/-- The pages that follow one another until there is no more, with the pushes between them. -/
inductive Pages (q : ChatHistoryQuery) :
    ChatHistoryBuffer → Option Nat → List Push → List ChatHistoryPage → Prop
  | last {b : ChatHistoryBuffer} {seq : Option Nat} :
    (b.query (q.before seq)).hasMore = false → Pages q b seq [] [b.query (q.before seq)]
  | more {b : ChatHistoryBuffer} {seq : Option Nat} {pushes rest : List Push} {pages : List ChatHistoryPage} :
    (b.query (q.before seq)).hasMore = true →
    Pages q (b.pushAll pushes) (b.query (q.before seq)).nextBeforeSeq rest pages →
    Pages q b seq (pushes ++ rest) (b.query (q.before seq) :: pages)

/-- What pages are to be, from a first history to a last one: entries of the first that match, each once, in order within a
page and from page to page, and all that are in both. -/
structure Complete (q : ChatHistoryQuery) (first last : ChatHistoryBuffer) (pages : List ChatHistoryPage) : Prop where
  matching : ∀ page ∈ pages, ∀ e ∈ page.messages, e ∈ first.entries ∧ q.selects e = true
  once : (pages.flatMap (·.messages)).Nodup
  chronological : ∀ page ∈ pages, page.messages.Pairwise (·.seq < ·.seq)
  older : pages.Pairwise fun page next => ∀ e ∈ page.messages, ∀ e' ∈ next.messages, e'.seq < e.seq
  complete : ∀ e ∈ first.entries, e ∈ last.entries → q.selects e = true → ∃ page ∈ pages, e ∈ page.messages

/-- What is in a later history was in the earlier one, or has a number beyond it. -/
theorem Tracks.mem_pushAll {ms : List Message} {b : ChatHistoryBuffer} (h : Tracks ms b) (ps : List Push)
    (hlen : (ms ++ stored ps).length ≤ maxSeq) {e : ChatHistoryEntry} (he : e ∈ (b.pushAll ps).entries) :
    e ∈ b.entries ∨ ms.length < e.seq := by
  induction ps generalizing ms b with
  | nil => exact .inl he
  | cons p ps ih =>
    have hsplit : ms ++ stored (p :: ps) = (ms ++ stored [p]) ++ stored ps := by
      rw [List.append_assoc, ← stored_append]
      rfl
    rw [hsplit] at hlen
    rcases ih (h.push p) hlen he with hmem | hlt
    · by_cases hzero : p.capacity = 0
      · rw [push_of_zero hzero] at hmem
        exact .inl hmem
      · rw [push_of_pos hzero, List.mem_append, List.mem_singleton] at hmem
        rcases hmem with hold | rfl
        · exact .inl ((makeRoom_suffix p.capacity b.entries).mem hold)
        · refine .inr ?_
          have hone : stored [p] = [p.message] := by simp [stored, hzero]
          rw [hone, List.length_append, List.length_append, List.length_singleton] at hlen
          change ms.length < b.nextSeq
          rw [h.nextSeq]
          omega
    · rw [List.length_append] at hlt
      exact .inr (by omega)

/-- The entries of one page are in order and from the next number on, and an entry that is not on it is before that number. -/
theorem page_spec {b : ChatHistoryBuffer} {q : ChatHistoryQuery} (hsorted : b.entries.Pairwise (·.seq < ·.seq)) :
    (b.query q).messages.Pairwise (·.seq < ·.seq) ∧
      (∀ next, (b.query q).nextBeforeSeq = some next → ∀ e ∈ (b.query q).messages, next ≤ e.seq) ∧
      ∀ e ∈ b.taken q, e ∈ (b.query q).messages ∨
        (b.query q).hasMore = true ∧ ∀ next, (b.query q).nextBeforeSeq = some next → e.seq < next := by
  obtain ⟨hmessages, hmore, -⟩ := query_eq b q
  have htaken : (b.taken q).Pairwise (·.seq < ·.seq) := hsorted.sublist List.filter_sublist
  have hpage : (b.query q).messages.Pairwise (·.seq < ·.seq) := by
    rw [hmessages]
    exact htaken.sublist (List.drop_sublist _ _)
  refine ⟨hpage, ?_, ?_⟩
  · intro next h x hx
    obtain ⟨-, e, rest, hcons, rfl⟩ := nextBeforeSeq_eq_some h
    rw [hcons] at hx hpage
    rcases List.mem_cons.mp hx with rfl | hx
    · exact Nat.le_refl _
    · exact Nat.le_of_lt (List.rel_of_pairwise_cons hpage hx)
  · intro e he
    by_cases hon : e ∈ (b.query q).messages
    · exact .inl hon
    · right
      rw [hmessages] at hon
      rw [← List.take_append_drop ((b.taken q).length - q.pageSize) (b.taken q), List.mem_append] at he
      have hleft := he.resolve_right hon
      have hlt : q.pageSize < (b.taken q).length := by
        by_contra hle
        have hzero : (b.taken q).length - q.pageSize = 0 := by omega
        rw [hzero, List.take_zero] at hleft
        cases hleft
      refine ⟨by rw [hmore, decide_eq_true hlt], fun next h => ?_⟩
      obtain ⟨-, x, rest, hcons, rfl⟩ := nextBeforeSeq_eq_some h
      rw [← List.take_append_drop ((b.taken q).length - q.pageSize) (b.taken q), ← hmessages, List.pairwise_append] at htaken
      exact htaken.2.2 e hleft x (hcons ▸ List.mem_cons_self)

/-- Pages from any number on, in any history whose numbers have not run out. -/
theorem Pages.spec {q : ChatHistoryQuery} {b : ChatHistoryBuffer} {seq : Option Nat} {pushes : List Push}
    {pages : List ChatHistoryPage} (h : Pages q b seq pushes pages) {ms : List Message} (hb : Tracks ms b)
    (hlen : (ms ++ stored pushes).length ≤ maxSeq) :
    (∀ page ∈ pages, ∀ e ∈ page.messages, ∀ s, seq = some s → e.seq < s) ∧
      (∀ page ∈ pages, ∀ e ∈ page.messages, e ∈ b.entries ∧ q.selects e = true) ∧
      (pages.flatMap (·.messages)).Nodup ∧ (∀ page ∈ pages, page.messages.Pairwise (·.seq < ·.seq)) ∧
      (pages.Pairwise fun page next => ∀ e ∈ page.messages, ∀ e' ∈ next.messages, e'.seq < e.seq) ∧
      ∀ e ∈ b.entries, e ∈ (b.pushAll pushes).entries → q.selects e = true → (∀ s, seq = some s → e.seq < s) →
        ∃ page ∈ pages, e ∈ page.messages := by
  induction h generalizing ms with
  | @last b seq hlast =>
    rw [stored_nil, List.append_nil] at hlen
    obtain ⟨hpage, -, hall⟩ := page_spec (q := q.before seq) (hb.pairwise hlen)
    simp only [List.mem_singleton, forall_eq, List.flatMap_cons, List.flatMap_nil, List.append_nil,
      List.pairwise_singleton, true_and, exists_eq_left]
    refine ⟨fun e he => (mem_taken.mp (mem_taken_of_mem_messages he)).2.1, fun e he => ?_,
      hpage.imp (fun hlt heq => ?_), hpage, ?_⟩
    · obtain ⟨hin, -, hsel⟩ := mem_taken.mp (mem_taken_of_mem_messages he)
      exact ⟨hin, hsel⟩
    · exact absurd hlt (by rw [heq]; exact Nat.lt_irrefl _)
    · intro e he _ hsel hseq
      rcases hall e (mem_taken.mpr ⟨he, hseq, hsel⟩) with hon | ⟨hmore, -⟩
      · exact hon
      · rw [hlast] at hmore
        cases hmore
  | @more b seq pushes rest pages hmore hpages ih =>
    rw [stored_append, ← List.append_assoc] at hlen
    have hnow : ms.length ≤ maxSeq := by
      rw [List.length_append, List.length_append] at hlen
      omega
    have hlater : (ms ++ stored pushes).length ≤ maxSeq := by
      rw [List.length_append] at hlen
      omega
    obtain ⟨hpage, hfrom, hall⟩ := page_spec (q := q.before seq) (hb.pairwise hnow)
    obtain ⟨next, hn⟩ := Option.ne_none_iff_exists'.mp (nextBeforeSeq_ne_none hmore)
    obtain ⟨-, x, messages, hcons, hxseq⟩ := nextBeforeSeq_eq_some hn
    obtain ⟨hx, hbefore, -⟩ := mem_taken.mp (mem_taken_of_mem_messages (hcons ▸ List.mem_cons_self))
    obtain ⟨ibefore, imatching, ionce, ichron, iolder, icomplete⟩ := ih (hb.pushAll pushes) hlen
    rw [hn] at ibefore icomplete
    have hnextle : next ≤ ms.length := hxseq ▸ hb.seq_le hx
    -- a later page is before the next number, and so of the first history
    have hold : ∀ page ∈ pages, ∀ e ∈ page.messages, e.seq < next ∧ e ∈ b.entries ∧ q.selects e = true := by
      intro page hp e he
      have hlt := ibefore page hp e he next rfl
      obtain ⟨hin, hsel⟩ := imatching page hp e he
      refine ⟨hlt, (hb.mem_pushAll pushes hlater hin).resolve_right (by omega), hsel⟩
    refine ⟨?_, ?_, ?_, ?_, ?_, ?_⟩
    · intro page hp e he s hs
      rcases List.mem_cons.mp hp with rfl | hp
      · exact (mem_taken.mp (mem_taken_of_mem_messages he)).2.1 s hs
      · exact Nat.lt_trans (hold page hp e he).1 (hxseq ▸ hbefore s hs)
    · intro page hp e he
      rcases List.mem_cons.mp hp with rfl | hp
      · obtain ⟨hin, -, hsel⟩ := mem_taken.mp (mem_taken_of_mem_messages he)
        exact ⟨hin, hsel⟩
      · exact (hold page hp e he).2
    · rw [List.flatMap_cons, List.nodup_append]
      refine ⟨hpage.imp fun hlt heq => absurd hlt (by rw [heq]; exact Nat.lt_irrefl _), ionce, fun e he e' he' heq => ?_⟩
      obtain ⟨page, hp, he'⟩ := List.mem_flatMap.mp he'
      have hlt := (hold page hp e' he').1
      have hge := hfrom next hn e he
      rw [heq] at hge
      omega
    · intro page hp
      rcases List.mem_cons.mp hp with rfl | hp
      · exact hpage
      · exact ichron page hp
    · rw [List.pairwise_cons]
      exact ⟨fun page hp e he e' he' => Nat.lt_of_lt_of_le (hold page hp e' he').1 (hfrom next hn e he), iolder⟩
    · intro e he hin hsel hs
      rcases hall e (mem_taken.mpr ⟨he, hs, hsel⟩) with hon | ⟨-, hlt⟩
      · exact ⟨_, List.mem_cons_self, hon⟩
      · rw [pushAll_append] at hin
        -- what was pushed after the next page has a number beyond it
        have hstays : e ∈ (b.pushAll pushes).entries := by
          refine ((hb.pushAll pushes).mem_pushAll rest hlen hin).resolve_right ?_
          have := hb.seq_le he
          rw [List.length_append]
          omega
        obtain ⟨page, hp, hon⟩ := icomplete e hstays hin hsel fun s hs' => by
          cases hs'
          exact hlt next hn
        exact ⟨page, List.mem_cons_of_mem _ hp, hon⟩

/-- The pages come to an end, whatever is pushed after each of them: each is before the last. -/
theorem exists_pages (q : ChatHistoryQuery) (b : ChatHistoryBuffer) (seq : Option Nat) (between : Nat → List Push) :
    ∃ n pages, Pages q b seq ((List.range n).flatMap between) pages := by
  have hmore : ∀ (b : ChatHistoryBuffer) (seq : Option Nat) (between : Nat → List Push),
      (b.query (q.before seq)).hasMore = true →
      (∃ n pages, Pages q (b.pushAll (between 0)) (b.query (q.before seq)).nextBeforeSeq
        ((List.range n).flatMap fun i => between (i + 1)) pages) →
      ∃ n pages, Pages q b seq ((List.range n).flatMap between) pages := by
    rintro b seq between hmore ⟨n, pages, hpages⟩
    refine ⟨n + 1, b.query (q.before seq) :: pages, ?_⟩
    rw [List.range_succ_eq_map, List.flatMap_cons, List.flatMap_map]
    exact .more hmore hpages
  have key : ∀ s (b : ChatHistoryBuffer) (between : Nat → List Push),
      ∃ n pages, Pages q b (some s) ((List.range n).flatMap between) pages := by
    intro s
    induction s using Nat.strongRecOn with
    | ind s ih =>
      intro b between
      by_cases hm : (b.query (q.before (some s))).hasMore = true
      · obtain ⟨next, hn⟩ := Option.ne_none_iff_exists'.mp (nextBeforeSeq_ne_none hm)
        obtain ⟨-, e, rest, hcons, rfl⟩ := nextBeforeSeq_eq_some hn
        obtain ⟨-, hlt, -⟩ := mem_taken.mp (mem_taken_of_mem_messages (hcons ▸ List.mem_cons_self))
        exact hmore b (some s) between hm (hn ▸ ih e.seq (hlt s rfl) _ _)
      · exact ⟨0, [b.query (q.before (some s))], .last (by simpa using hm)⟩
  by_cases hm : (b.query (q.before seq)).hasMore = true
  · obtain ⟨next, hn⟩ := Option.ne_none_iff_exists'.mp (nextBeforeSeq_ne_none hm)
    exact hmore b seq between hm (hn ▸ key next _ _)
  · exact ⟨0, [b.query (q.before seq)], .last (by simpa using hm)⟩

/-! ## The theorem -/

/-- Until 2 ^ 64 messages are stored, the pages of every query are complete, whatever is pushed between them. -/
theorem paging_is_complete {first pushes : List Push} {q : ChatHistoryQuery} {pages : List ChatHistoryPage}
    (h : Pages q (ChatHistoryBuffer.new.pushAll first) none pushes pages)
    (hlen : (stored (first ++ pushes)).length < 2 ^ 64) :
    Complete q (.pushAll .new first) (.pushAll .new (first ++ pushes)) pages := by
  rw [stored_append] at hlen
  obtain ⟨-, hmatching, honce, hchron, holder, hcomplete⟩ := h.spec (tracks_run first) (Nat.le_of_lt_succ hlen)
  refine ⟨hmatching, honce, hchron, holder, fun e he hin hsel => ?_⟩
  rw [pushAll_append] at hin
  exact hcomplete e he hin hsel fun s hs => by cases hs

/-! ### A small history -/

def alice (text : String) : Message := ⟨⟨"alice".toList, none, text.toList, .user, 0⟩, none⟩

/-- Pages of one message each. -/
def onePerPage : ChatHistoryQuery := ⟨some 1, some "ALICE".toList, none, none⟩

/-- Two messages are read in two pages, with a third one in between that pushes out none of them. -/
theorem paging_is_complete_twoPages :
    Complete onePerPage (.pushAll .new [⟨3, alice "one"⟩, ⟨3, alice "two"⟩])
      (.pushAll .new ([⟨3, alice "one"⟩, ⟨3, alice "two"⟩] ++ ([⟨3, alice "three"⟩] ++ [])))
      [⟨[⟨alice "two", 2⟩], true, some 2⟩, ⟨[⟨alice "one", 1⟩], false, none⟩] := by
  have hpages : Pages onePerPage (ChatHistoryBuffer.new.pushAll [⟨3, alice "one"⟩, ⟨3, alice "two"⟩]) none
      ([⟨3, alice "three"⟩] ++ []) _ := .more (by rfl) (.last (by rfl))
  exact paging_is_complete hpages (by decide)

/-- Once the last number there is comes next, it is given to every message. -/
theorem numbers_run_out {b : ChatHistoryBuffer} (h : b.nextSeq = maxSeq) (m m' : Message) :
    b.pushAll [⟨2, m⟩, ⟨2, m'⟩] = ⟨maxSeq, [⟨m, maxSeq⟩, ⟨m', maxSeq⟩]⟩ := by
  have hroom : ∀ (es : List ChatHistoryEntry) e, makeRoom 2 (es ++ [e]) = [e] := by
    intro es e
    rw [makeRoom_eq, List.length_append, List.length_singleton]
    have hdrop : es.length + 1 + 1 - 2 = es.length := by omega
    rw [hdrop, List.drop_left]
  have hnext : min (maxSeq + 1) maxSeq = maxSeq := Nat.min_eq_right (Nat.le_succ _)
  simp only [pushAll_cons, pushAll_nil]
  rw [push_of_pos (by simp), push_of_pos (by simp)]
  simp only [h, hnext, hroom, List.singleton_append]

/-- Many messages, and two more. -/
def chatter (n : Nat) : List Push := List.replicate n ⟨2, alice "again"⟩ ++ [⟨2, alice "one"⟩, ⟨2, alice "two"⟩]

theorem pushAll_chatter {n : Nat} (h : maxSeq ≤ n + 1) :
    ChatHistoryBuffer.new.pushAll (chatter n) = ⟨maxSeq, [⟨alice "one", maxSeq⟩, ⟨alice "two", maxSeq⟩]⟩ := by
  rw [chatter, pushAll_append]
  refine numbers_run_out ?_ _ _
  have hlen : (stored (List.replicate n ⟨2, alice "again"⟩)).length = n := by simp [stored]
  rw [(tracks_run _).nextSeq, hlen, Nat.min_eq_right h]

theorem one_on_no_page :
    Pages onePerPage ⟨maxSeq, [⟨alice "one", maxSeq⟩, ⟨alice "two", maxSeq⟩]⟩ none []
        [⟨[⟨alice "two", maxSeq⟩], true, some maxSeq⟩, ⟨[], false, none⟩] ∧
      ¬ Complete onePerPage ⟨maxSeq, [⟨alice "one", maxSeq⟩, ⟨alice "two", maxSeq⟩]⟩
        ⟨maxSeq, [⟨alice "one", maxSeq⟩, ⟨alice "two", maxSeq⟩]⟩
        [⟨[⟨alice "two", maxSeq⟩], true, some maxSeq⟩, ⟨[], false, none⟩] := by
  refine ⟨?_, fun h => ?_⟩
  · have hpages : Pages onePerPage ⟨maxSeq, [⟨alice "one", maxSeq⟩, ⟨alice "two", maxSeq⟩]⟩ none ([] ++ []) _ :=
      .more (by rfl) (.last (by rfl))
    exact hpages
  · obtain ⟨page, hp, he⟩ := h.complete ⟨alice "one", maxSeq⟩ (by simp) (by simp) (by rfl)
    simp only [List.mem_cons, List.not_mem_nil, or_false] at hp
    rcases hp with rfl | rfl
    · revert he
      decide
    · cases he

/-- After 2 ^ 64 messages the two entries there are have the same number, and the older one is on no page. -/
theorem same_number_on_no_page :
    Pages onePerPage (ChatHistoryBuffer.new.pushAll (chatter (2 ^ 64 - 2))) none []
        [⟨[⟨alice "two", maxSeq⟩], true, some maxSeq⟩, ⟨[], false, none⟩] ∧
      ¬ Complete onePerPage (.pushAll .new (chatter (2 ^ 64 - 2))) (.pushAll .new (chatter (2 ^ 64 - 2)))
        [⟨[⟨alice "two", maxSeq⟩], true, some maxSeq⟩, ⟨[], false, none⟩] := by
  have hn : maxSeq ≤ 2 ^ 64 - 2 + 1 := by decide
  rw [pushAll_chatter hn]
  exact one_on_no_page

end Twitch1337.ChatHistory
