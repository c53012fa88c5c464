import Twitch1337.Content.ReadUrl
import Twitch1337.Lib.Reference
import Twitch1337.Theorems.TtlCache

/-!
# Whose answer is cached

A key of the cache is a URL in lower case, a separator and an instruction in lower case. It is the key of one question exactly where no
two questions differ only in the case of a path, and no URL goes on with what another question's instruction starts with. That is said
of a set of calls, from which all runs are taken. It looks at no answer, so a URL that is refused, and so never cached, counts too.
-/

namespace Twitch1337.Content

open Recency Reference RustStr Text

/-! ## Questions -/

/-- The characters that end an authority. -/
def endsAuthority (c : Char) : Bool := c = '/' || c = '\\' || c = '?' || c = '#'

/-- A URL without the whitespace around it, and with its scheme and its host in lower case. -/
def resource (url : Text) : Text :=
  match splitScheme (trimChars url) with
  | none => trimChars url
  | some (scheme, rest) =>
    let slashes := rest.takeWhile isSlash
    let behind := rest.dropWhile isSlash
    let authority := behind.takeWhile fun c => !endsAuthority c
    let tail := behind.dropWhile fun c => !endsAuthority c
    let userinfo := authority.rdropWhile (· ≠ '@')
    let host := authority.rtakeWhile (· ≠ '@')
    toAsciiLowercase scheme ++ [':'] ++ slashes ++ userinfo ++ toAsciiLowercase host ++ tail

/-- Two URLs of one resource. -/
def SameResource (url url' : Text) : Prop := resource url = resource url'

instance (url url' : Text) : Decidable (SameResource url url') := inferInstanceAs (Decidable (resource url = resource url'))

/-- An instruction without the whitespace around it and without its case. No instruction is an empty one. -/
def foldInstruction (args : ReadUrlArgs) : Text := toAsciiLowercase (trimChars (args.instruction.getD []))

/-- Two calls with one question, the case of the instruction aside. -/
def SameQuestion (args args' : ReadUrlArgs) : Prop :=
  SameResource args.url args'.url ∧ foldInstruction args = foldInstruction args'

/-- A URL goes on with what the instruction of another question starts with. -/
def Shifted (args args' : ReadUrlArgs) : Prop :=
  ∃ s, s ≠ [] ∧ normalizeUrl args.url = normalizeUrl args'.url ++ s ∧
    "::".toList ++ foldInstruction args' = s ++ "::".toList ++ foldInstruction args

/-- Two questions with one key: they differ in the case of more than the scheme and the host, or the separator is found at another
place. -/
def Confused (args args' : ReadUrlArgs) : Prop :=
  (normalizeUrl args.url = normalizeUrl args'.url ∧ foldInstruction args = foldInstruction args' ∧
    ¬ SameResource args.url args'.url) ∨ Shifted args args' ∨ Shifted args' args

/-- Every answer from the cache, in every run whose calls are among some, is one of an earlier call that asked the same, not longer
ago than the time to live. -/
def AnswersTheSame (ttl capacity : Nat) (S : ReadUrlArgs → Prop) : Prop :=
  ∀ start events s, (∀ now args, ReadEvent.lookup now args ∈ events → S args) →
    Machine.run ReadState.step (.start ttl capacity start) events = some s →
    ∀ now args response, s.clock ≤ now → S args → s.cached now args = some response →
      ∃ args' now' insertedAt entry, ReadEvent.finish args' now' insertedAt entry ∈ events ∧ now - insertedAt ≤ ttl ∧
        entry.contentType = response.contentType ∧ entry.answer = response.answer ∧ SameQuestion args' args

variable {args args' : ReadUrlArgs} {ttl capacity : Nat} {S : ReadUrlArgs → Prop}

/-! ## Keys -/

/-- A key is a URL, a separator and an instruction. -/
theorem cacheKey_eq (args : ReadUrlArgs) : args.cacheKey = normalizeUrl args.url ++ "::".toList ++ foldInstruction args := by
  unfold ReadUrlArgs.cacheKey ReadUrlArgs.trimmedInstruction foldInstruction
  cases h : args.instruction with
  | none => rfl
  | some t =>
    by_cases ht : trimChars t = []
    · simp [ht, Option.filter]
    · simp [ht, Option.filter]

/-- Lower case is as long. -/
theorem length_toAsciiLowercase (t : Text) : (toAsciiLowercase t).length = t.length := List.length_map _

/-- The resource of a URL is as long as the URL, blanks aside. -/
theorem length_resource (url : Text) : (resource url).length = (trimChars url).length := by
  unfold resource
  cases h : splitScheme (trimChars url) with
  | none => rfl
  | some p =>
    obtain ⟨scheme, rest⟩ := p
    have hurl := eq_of_splitOnce (Option.filter_eq_some_iff.mp h).1
    have hrest : (rest.takeWhile isSlash ++ rest.dropWhile isSlash).length = rest.length := by rw [List.takeWhile_append_dropWhile]
    have hbehind : ((rest.dropWhile isSlash).takeWhile (fun c => !endsAuthority c) ++
        (rest.dropWhile isSlash).dropWhile fun c => !endsAuthority c).length = (rest.dropWhile isSlash).length := by
      rw [List.takeWhile_append_dropWhile]
    have hauthority : ∀ authority : Text, (authority.rdropWhile (· ≠ '@') ++ authority.rtakeWhile (· ≠ '@')).length =
        authority.length := fun authority => by rw [List.rdropWhile_append_rtakeWhile]
    have hparts := hauthority ((rest.dropWhile isSlash).takeWhile fun c => !endsAuthority c)
    rw [hurl]
    simp only [List.length_append, length_toAsciiLowercase, List.length_singleton] at hrest hbehind hparts ⊢
    omega

/-- The URL in a key is as long as the URL, blanks aside. -/
theorem length_normalizeUrl (url : Text) : (normalizeUrl url).length = (trimChars url).length := List.length_map _

/-- Questions with one key are the same, or confused. -/
theorem sameQuestion_of_cacheKey_eq (hkey : args.cacheKey = args'.cacheKey) (h : ¬ Confused args args') :
    SameQuestion args args' := by
  rw [cacheKey_eq, cacheKey_eq, List.append_assoc, List.append_assoc] at hkey
  unfold Confused at h
  rw [not_or, not_or] at h
  obtain ⟨hcase, hleft, hright⟩ := h
  by_cases hurl : normalizeUrl args.url = normalizeUrl args'.url
  · rw [hurl, List.append_cancel_left_eq, List.append_cancel_left_eq] at hkey
    by_contra hdiffers
    exact hcase ⟨hurl, hkey, fun hsame => hdiffers ⟨hsame, hkey⟩⟩
  · rcases List.append_eq_append_iff.mp hkey with ⟨s, hs, htail⟩ | ⟨s, hs, htail⟩
    · refine absurd ⟨s, ?_, hs, ?_⟩ hright
      · rintro rfl
        exact hurl (by rw [hs, List.append_nil])
      · rw [htail, List.append_assoc]
    · refine absurd ⟨s, ?_, hs, ?_⟩ hleft
      · rintro rfl
        exact hurl (by rw [hs, List.append_nil])
      · rw [htail, List.append_assoc]

/-- Where the separator is shifted, one key stands for two resources. -/
theorem Shifted.spec (h : Shifted args args') : args.cacheKey = args'.cacheKey ∧ ¬ SameResource args.url args'.url := by
  obtain ⟨s, hne, hurl, htail⟩ := h
  constructor
  · rw [cacheKey_eq, cacheKey_eq, hurl, List.append_assoc _ _ (foldInstruction args'), htail]
    simp only [List.append_assoc]
  · intro hsame
    have hlength := congrArg List.length hsame
    have hshort := congrArg List.length hurl
    have hpos := List.length_pos_iff.mpr hne
    rw [length_resource, length_resource] at hlength
    rw [List.length_append, length_normalizeUrl, length_normalizeUrl] at hshort
    omega

/-- Confused questions have one key and are not the same. -/
theorem Confused.spec (h : Confused args args') : args.cacheKey = args'.cacheKey ∧ ¬ SameQuestion args args' := by
  rcases h with ⟨hurl, hinstruction, hdiffers⟩ | h | h
  · refine ⟨?_, fun hsame => hdiffers hsame.1⟩
    rw [cacheKey_eq, cacheKey_eq, hurl, hinstruction]
  · exact ⟨h.spec.1, fun hsame => h.spec.2 hsame.1⟩
  · exact ⟨h.spec.1.symm, fun hsame => h.spec.2 hsame.1.symm⟩

/-! ## Runs -/

/-- What an event does to the cache. -/
def ReadEvent.call : ReadEvent → Option (CacheCall ReadCacheEntry)
  | .lookup now args => some (.get now args.cacheKey)
  | .finish args now insertedAt entry => some (.insert now insertedAt args.cacheKey entry)
  | .fail _ => none

/-- What a run keeps: the cache follows the answers that were kept, and these are of calls that looked into it. -/
structure ReadState.Follows (ttl capacity : Nat) (S : ReadUrlArgs → Prop) (events : List ReadEvent) (s : ReadState) : Prop where
  cache : Content.Follows ttl capacity (insertions (events.filterMap ReadEvent.call)) s.cache s.clock ∧
    s.cache.entries.keys.length ≤ capacity
  pending : ∀ args ∈ s.pending, S args
  finished : ∀ args now insertedAt entry, ReadEvent.finish args now insertedAt entry ∈ events → S args

/-- At the start nothing is cached. -/
theorem ReadState.Follows.start (ttl capacity now : Nat) : (ReadState.start ttl capacity now).Follows ttl capacity S [] :=
  ⟨⟨Content.Follows.new ttl capacity now, Nat.zero_le capacity⟩, by simp [ReadState.start], by simp⟩

/-- A call whose end is in a run had looked into the cache. -/
theorem ReadState.Follows.finished_snoc {events : List ReadEvent} {e : ReadEvent} {s : ReadState} (h : s.Follows ttl capacity S events)
    (he : ∀ args now insertedAt entry, e = .finish args now insertedAt entry → S args) (args : ReadUrlArgs) (now insertedAt : Nat)
    (entry : ReadCacheEntry) (hmem : ReadEvent.finish args now insertedAt entry ∈ events ++ [e]) : S args := by
  rcases List.mem_append.mp hmem with hmem | hmem
  · exact h.finished args now insertedAt entry hmem
  · exact he args now insertedAt entry (List.mem_singleton.mp hmem).symm

/-- What is cached after a step is the answer to a call of the run. -/
theorem ReadState.Follows.step {events : List ReadEvent} {e : ReadEvent} {s s' : ReadState} (h : s.Follows ttl capacity S events)
    (hS : ∀ now args, e = .lookup now args → S args) (hstep : s.step e = some s') : s'.Follows ttl capacity S (events ++ [e]) := by
  have hlog : ∀ c, e.call = some c →
      (events ++ [e]).filterMap ReadEvent.call = events.filterMap ReadEvent.call ++ [c] := by
    intro c hc
    rw [List.filterMap_append]
    simp [hc]
  cases e with
  | lookup now args =>
    simp only [ReadState.step] at hstep
    split at hstep
    · rename_i hnow
      obtain rfl := Option.some.inj hstep
      refine ⟨?_, ?_, ?_⟩
      · rw [hlog _ rfl]
        exact Content.Follows.step h.cache (by rw [CacheCall.step, if_pos hnow])
      · intro args' hmem
        dsimp only at hmem
        split at hmem
        · exact h.pending args' hmem
        · rcases List.mem_cons.mp hmem with rfl | hmem
          · exact hS now args' rfl
          · exact h.pending args' hmem
      · exact h.finished_snoc fun _ _ _ _ heq => by cases heq
    · cases hstep
  | finish args now insertedAt entry =>
    simp only [ReadState.step] at hstep
    split at hstep
    · rename_i hguard
      obtain rfl := Option.some.inj hstep
      refine ⟨?_, fun args' hmem => h.pending args' (List.mem_of_mem_erase hmem), ?_⟩
      · rw [hlog _ rfl]
        exact Content.Follows.step h.cache (by rw [CacheCall.step, if_pos hguard.2])
      · refine h.finished_snoc fun _ _ _ _ heq => ?_
        cases heq
        exact h.pending args hguard.1
    · cases hstep
  | fail args =>
    simp only [ReadState.step] at hstep
    split at hstep
    · obtain rfl := Option.some.inj hstep
      refine ⟨?_, fun args' hmem => h.pending args' (List.mem_of_mem_erase hmem), ?_⟩
      · have hsame : (events ++ [ReadEvent.fail args]).filterMap ReadEvent.call = events.filterMap ReadEvent.call := by
          simp [ReadEvent.call]
        rw [hsame]
        exact h.cache
      · exact h.finished_snoc fun _ _ _ _ heq => by cases heq
    · cases hstep

/-- What is cached after a run is the answer to a call of the run. -/
theorem ReadState.follows_run {start : Nat} {events : List ReadEvent} {s : ReadState}
    (hS : ∀ now args, ReadEvent.lookup now args ∈ events → S args)
    (hrun : Machine.run ReadState.step (.start ttl capacity start) events = some s) : s.Follows ttl capacity S events := by
  refine Machine.run_history (fun past s => (∀ now args, ReadEvent.lookup now args ∈ past → S args) → s.Follows ttl capacity S past)
    ?_ [] (fun _ => .start ttl capacity start) hrun hS
  intro past s e s' h hstep hall
  refine (h fun now args hmem => hall now args (List.mem_append_left _ hmem)).step (fun now args he => hall now args ?_) hstep
  simp [he]

/-- An entry of the log is an answer that was kept. -/
theorem exists_finish {events : List ReadEvent} {i : Insertion ReadCacheEntry}
    (h : i ∈ insertions (events.filterMap ReadEvent.call)) :
    ∃ args now, ReadEvent.finish args now i.time i.value ∈ events ∧ args.cacheKey = i.key := by
  obtain ⟨c, hc, hi⟩ := List.mem_filterMap.mp h
  obtain ⟨e, he, hcall⟩ := List.mem_filterMap.mp hc
  cases e with
  | lookup now args =>
    obtain rfl := Option.some.inj hcall
    cases hi
  | finish args now insertedAt entry =>
    obtain rfl := Option.some.inj hcall
    obtain rfl := Option.some.inj hi
    exact ⟨args, now, he, rfl⟩
  | fail args => cases hcall

/-- Where no two questions are confused, answers are of the same question. -/
theorem answersTheSame_of_not_confused (h : ∀ args args', S args → S args' → ¬ Confused args args') :
    AnswersTheSame ttl capacity S := by
  intro start events s hS hrun now args response _ hargs hcached
  have hfollows := ReadState.follows_run hS hrun
  obtain ⟨cached, hget, rfl⟩ := Option.map_eq_some_iff.mp hcached
  obtain ⟨i, after, hlast, hkey, hvalue, hfresh⟩ := hfollows.cache.1.get_some hget
  obtain ⟨args', now', hmem, hkey'⟩ := exists_finish hlast.mem
  have hargs' := hfollows.finished _ _ _ _ hmem
  refine ⟨args', now', i.time, i.value, hmem, hfresh, congrArg _ hvalue, congrArg _ hvalue, ?_⟩
  exact sameQuestion_of_cacheKey_eq (hkey'.trans hkey) (h args' args hargs' hargs)

/-- A call that finds nothing keeps its answer. -/
theorem run_first (ttl capacity : Nat) (args : ReadUrlArgs) (entry : ReadCacheEntry) :
    Machine.run ReadState.step (.start ttl capacity 0) [.lookup 0 args, .finish args 0 0 entry] =
      some ⟨(TtlCache.new ttl capacity).insert 0 0 args.cacheKey entry, 0, []⟩ := by
  refine Machine.run_cons_iff.mpr ⟨⟨.new ttl capacity, 0, [args]⟩, rfl, Machine.run_cons_iff.mpr ⟨_, ?_, rfl⟩⟩
  rw [ReadState.step, if_pos ⟨List.mem_singleton_self args, Nat.le_refl 0, Nat.le_refl 0⟩, List.erase_cons_head]

/-- A cache with room gives a question the answer of one that is confused with it. -/
theorem not_answersTheSame (hcapacity : 0 < capacity) (hargs : S args) (hargs' : S args') (h : Confused args args') :
    ¬ AnswersTheSame ttl capacity S := by
  intro hall
  obtain ⟨hkey, hdiffers⟩ := h.spec
  obtain ⟨entry⟩ : Nonempty ReadCacheEntry := ⟨⟨[], []⟩⟩
  have hlookups : ∀ now a, ReadEvent.lookup now a ∈ [ReadEvent.lookup 0 args, .finish args 0 0 entry] → S a := by
    intro now a hmem
    rcases List.mem_cons.mp hmem with heq | hmem
    · cases heq
      exact hargs
    · cases List.mem_singleton.mp hmem
  have hrun := run_first ttl capacity args entry
  generalize (TtlCache.new ttl capacity).insert 0 0 args.cacheKey entry = c at hrun
  have hfollows : Follows ttl capacity [⟨args.cacheKey, entry, 0⟩] c 0 := (ReadState.follows_run hlookups hrun).cache.1
  have hlast : IsLast Insertion.key [⟨args.cacheKey, entry, 0⟩] (⟨args.cacheKey, entry, 0⟩ : Insertion ReadCacheEntry) [] :=
    isLast_snoc_self [] _
  cases hget : (c.get 0 args.cacheKey).1 with
  | none =>
    have hfull : capacity ≤ 0 := hfollows.get_none (Nat.le_refl 0) hlast (Nat.zero_le ttl) hget
    omega
  | some cached =>
    have hcached : ReadState.cached ⟨c, 0, []⟩ 0 args' = some ⟨true, args'.url, cached.contentType, cached.answer⟩ := by
      rw [ReadState.cached, ← hkey, hget]
      rfl
    obtain ⟨a, now, insertedAt, kept, hmem, _, _, _, hsame⟩ := hall 0 _ _ hlookups hrun 0 args' _ (Nat.le_refl 0) hargs' hcached
    rcases List.mem_cons.mp hmem with heq | hmem
    · cases heq
    · cases List.mem_singleton.mp hmem
      exact hdiffers hsame

/-- The cache answers the same question only, in every run of the calls of a set, exactly when it has no room or no two calls of the
set are confused. -/
theorem answers_the_same_iff (ttl capacity : Nat) (S : ReadUrlArgs → Prop) :
    AnswersTheSame ttl capacity S ↔ capacity = 0 ∨ ∀ args args', S args → S args' → ¬ Confused args args' := by
  constructor
  · intro hall
    rcases Nat.eq_zero_or_pos capacity with hzero | hroom
    · exact .inl hzero
    · exact .inr fun args args' hargs hargs' h => not_answersTheSame hroom hargs hargs' h hall
  · rintro (rfl | h)
    · -- A cache without room is empty.
      intro start events s hS hrun now args response _ _ hcached
      have hsize := (ReadState.follows_run hS hrun).cache.2
      obtain ⟨cached, hget, _⟩ := Option.map_eq_some_iff.mp hcached
      obtain ⟨e, he, _⟩ := Option.map_eq_some_iff.mp hget
      rw [lookup_purgeExpired, Option.filter_eq_some_iff] at he
      have hmem := AList.mem_keys.mp (Table.mem_iff_lookup.mpr ⟨e, he.1⟩)
      exact absurd (List.length_pos_of_mem hmem) (by omega)
    · exact answersTheSame_of_not_confused h

namespace Examples

/-- Two pages of one site, whose paths differ in case. -/
def upperPage : ReadUrlArgs := ⟨"https://site.example/A".toList, none⟩

def lowerPage : ReadUrlArgs := ⟨"https://site.example/a".toList, none⟩

/-- Each gets the answer of the other. -/
theorem the_wrong_page_answers : ¬ AnswersTheSame 300 32 fun args => args = upperPage ∨ args = lowerPage := by
  have hcase : normalizeUrl upperPage.url = normalizeUrl lowerPage.url := by decide +kernel
  have hdiffers : ¬ SameResource upperPage.url lowerPage.url := by decide +kernel
  have hinstruction : foldInstruction upperPage = foldInstruction lowerPage := by decide +kernel
  have hconfused : Confused upperPage lowerPage := .inl ⟨hcase, hinstruction, hdiffers⟩
  exact not_answersTheSame (Nat.succ_pos 31) (Or.inl (Eq.refl upperPage)) (Or.inr (Eq.refl lowerPage)) hconfused

end Examples

end Twitch1337.Content
