import Twitch1337.Lib.Pieces
import Twitch1337.Tracker.DebugJournal

/-!
# The debug journal keeps no secret

What the journal writes of a payload has no entry under a sensitive key, and its texts are cut in every piece of a query behind the
first name of a secret. The scan of a text is one cut for each of the names; together they are one cut for all of them.
-/

namespace Twitch1337.Tracker.DebugJournal

open Cursor Json Text Pieces

/-! ## Lower case -/

/-- A letter in lower case has as many bytes. -/
theorem utf8Size_toLower (c : Char) : c.toLower.utf8Size = c.utf8Size := by
  by_cases hc : c.toNat < 128
  · have hlower : c.toLower.toNat < 128 := RustStr.ascii_induction (P := fun c => c.toLower.toNat < 128) (by decide) hc
    rw [utf8Size_ascii hlower, utf8Size_ascii hc]
  · rw [RustStr.toLower_of_not_ascii hc]

/-- A text in lower case has its characters at the same bytes. -/
theorem utf8Len_toAsciiLowercase (t : Text) : utf8Len (toAsciiLowercase t) = utf8Len t := by
  rw [utf8Len, utf8Len, toAsciiLowercase, List.map_map]
  exact congrArg List.sum (List.map_congr_left fun c _ => utf8Size_toLower c)

/-- Lower case of two texts together. -/
theorem toAsciiLowercase_append (a b : Text) : toAsciiLowercase (a ++ b) = toAsciiLowercase a ++ toAsciiLowercase b :=
  List.map_append

/-! ## One name -/

/-- What stands for a secret. -/
def mask : Text := "<redacted>".toList

/-- A text ends with a name, in upper or lower case. -/
def endsWith (needle t : Text) : Bool := needle.isSuffixOf (toAsciiLowercase t)

/-- A text ends with a needle in some case of its letters. -/
theorem endsWith_iff {needle t : Text} : endsWith needle t = true ↔ needle <:+ toAsciiLowercase t := List.isSuffixOf_iff_suffix

variable {needle : Text}

/-- Where no name occurs, no text ends with it. -/
theorem not_endsWith {t : Text} (h : ¬ needle <:+: toAsciiLowercase t) {b : Text} (hb : b <:+: t) : endsWith needle b = false := by
  rw [← Bool.not_eq_true, endsWith_iff]
  intro hends
  have hlower : toAsciiLowercase b <:+: toAsciiLowercase t := hb.map _
  exact h (hends.isInfix.trans hlower)

/-- A text in which the name does not occur is kept. -/
theorem redact_eq_self {t : Text} (h : ¬ needle <:+: toAsciiLowercase t) : mapPieces '&' (cut (endsWith needle) mask) t = t :=
  mapPieces_eq_self fun _ hp _ => cut_of_none (fun _ hb => not_endsWith h (hb.isInfix.trans hp)) mask

/-- The last of some character in a text. -/
theorem exists_last {c : Char} {t : Text} (h : c ∈ t) : ∃ u v, t = u ++ c :: v ∧ c ∉ v := by
  obtain ⟨v, u, heq, hv⟩ := List.eq_append_cons_of_mem (List.mem_reverse.mpr h)
  refine ⟨u.reverse, v.reverse, ?_, fun hc => hv (List.mem_reverse.mp hc)⟩
  rw [← List.reverse_reverse t, heq, List.reverse_append, List.reverse_cons, List.append_assoc, List.singleton_append]

/-- A proper beginning lacks the last character. -/
theorem prefix_dropLast {b t : Text} (hb : b <+: t) (hne : b ≠ t) : b <+: t.dropLast := by
  rcases List.eq_nil_or_concat' t with rfl | ⟨t, c, rfl⟩
  · exact absurd (List.prefix_nil.mp hb) hne
  · rw [List.dropLast_concat]
    exact (List.prefix_concat_iff.mp hb).resolve_left hne

/-- The first occurrence of a name ends the shortest prefix that ends with it. -/
theorem shortest_first {v n : Text} (hn : toAsciiLowercase n = needle)
    (hfirst : ¬ needle <:+: toAsciiLowercase v ++ needle.dropLast) (x : Text) :
    Shortest (endsWith needle) (v ++ n ++ x) (v ++ n) := by
  have hne : n ≠ [] := by
    rintro rfl
    rw [← hn] at hfirst
    exact hfirst (List.nil_infix)
  refine ⟨List.prefix_append _ x, ?_, fun b hb hne' => ?_⟩
  · rw [endsWith_iff, toAsciiLowercase_append, hn]
    exact List.suffix_append _ needle
  · have hlower : toAsciiLowercase (v ++ n).dropLast = toAsciiLowercase v ++ needle.dropLast := by
      rw [List.dropLast_append_of_ne_nil hne, toAsciiLowercase_append, ← hn, toAsciiLowercase, toAsciiLowercase,
        toAsciiLowercase, List.map_dropLast]
    exact not_endsWith (hlower ▸ hfirst) (prefix_dropLast hb hne').isInfix

/-- Up to the end of the first occurrence of a name, and of the piece it is in. -/
theorem redact_first {a n x : Text} (hn : toAsciiLowercase n = needle)
    (hfirst : ¬ needle <:+: toAsciiLowercase a ++ needle.dropLast) (hamp : '&' ∉ n) (hx : '&' ∉ x) :
    mapPieces '&' (cut (endsWith needle) mask) (a ++ n ++ x) = a ++ n ++ mask := by
  by_cases ha : '&' ∈ a
  · obtain ⟨u, v, rfl, hv⟩ := exists_last ha
    have hbefore : ¬ needle <:+: toAsciiLowercase u := by
      refine fun h => hfirst (h.trans (List.IsPrefix.isInfix ?_))
      rw [toAsciiLowercase_append, List.append_assoc]
      exact List.prefix_append _ _
    have hfirst' : ¬ needle <:+: toAsciiLowercase v ++ needle.dropLast := by
      refine fun h => hfirst (h.trans (List.IsSuffix.isInfix ⟨toAsciiLowercase (u ++ ['&']), ?_⟩))
      simp [toAsciiLowercase]
    have hpiece : '&' ∉ v ++ n ++ x := by simp [hv, hamp, hx]
    have heq : u ++ '&' :: v ++ n ++ x = u ++ '&' :: (v ++ n ++ x) := by simp
    rw [heq, mapPieces_append_cons, redact_eq_self hbefore, mapPieces_of_not_mem hpiece,
      cut_of_shortest (shortest_first hn hfirst' x)]
    simp
  · have hpiece : '&' ∉ a ++ n ++ x := by simp [ha, hamp, hx]
    rw [mapPieces_of_not_mem hpiece, cut_of_shortest (shortest_first hn hfirst x)]

/-! ## The scan -/

/-- A slice of a text between two positions in it. -/
theorem slice_append (pre t rest : Text) : slice (pre ++ t ++ rest) (utf8Len pre) (utf8Len pre + utf8Len t) = some t := by
  rw [slice, if_neg (Nat.not_lt.mpr (Nat.le_add_right _ _)), List.append_assoc, dropBytes_append, Option.bind_some,
    Nat.add_sub_cancel_left, takeBytes_append]

/-- A separator is kept. -/
theorem redact_amp (hne : needle ≠ []) (y : Text) :
    mapPieces '&' (cut (endsWith needle) mask) ('&' :: y) = '&' :: mapPieces '&' (cut (endsWith needle) mask) y := by
  have hnil : ¬ needle <:+: toAsciiLowercase [] := fun h => hne (List.infix_nil.mp h)
  exact (mapPieces_append_cons _ [] y).trans (congrArg (· ++ _) (redact_eq_self hnil))

/-- The first occurrence of a name in lower case is one of the text. -/
theorem exists_first (hne : needle ≠ []) {t : Text} {rel : Nat} (h : find needle (toAsciiLowercase t) = some rel) :
    ∃ a n b, t = a ++ n ++ b ∧ toAsciiLowercase n = needle ∧ ¬ needle <:+: toAsciiLowercase a ++ needle.dropLast ∧
      rel + utf8Len needle = utf8Len (a ++ n) := by
  obtain ⟨a', b', heq, hfirst, rfl⟩ := (find_eq_some_iff hne).mp h
  obtain ⟨an, b, rfl, han, -⟩ := List.map_eq_append_iff.mp heq
  obtain ⟨a, n, rfl, rfl, hn⟩ := List.map_eq_append_iff.mp han
  refine ⟨a, n, b, rfl, hn, hfirst, ?_⟩
  have ha : utf8Len (a.map Char.toLower) = utf8Len a := utf8Len_toAsciiLowercase a
  have hlen : utf8Len (n.map Char.toLower) = utf8Len n := utf8Len_toAsciiLowercase n
  rw [← hn, ha, hlen, utf8Len_append]

section Turn

variable {value pre rest : Text} (hvalue : value = pre ++ rest) (fuel : Nat) (out : Text)

include hvalue

/-- What is left of the value is left of the value in lower case. -/
theorem dropBytes_haystack : dropBytes (utf8Len pre) (toAsciiLowercase value) = some (toAsciiLowercase rest) := by
  rw [hvalue, toAsciiLowercase_append, ← utf8Len_toAsciiLowercase pre, dropBytes_append]

/-- A turn that finds no name. -/
theorem redactFrom_none (h : find needle (toAsciiLowercase rest) = none) :
    redactFrom value (toAsciiLowercase value) needle (fuel + 1) (utf8Len pre) out = .ok (out ++ rest) := by
  have hrest : dropBytes (utf8Len pre) value = some rest := by rw [hvalue, dropBytes_append]
  simp only [redactFrom, dropBytes_haystack hvalue, hrest, orPanic, h, bind, Except.bind]
  rfl

/-- A turn that finds a name: it goes on at the end of the piece. -/
theorem redactFrom_some {a n b : Text} {rel : Nat} (h : find needle (toAsciiLowercase rest) = some rel)
    (hrest : rest = a ++ n ++ b) (hend : rel + utf8Len needle = utf8Len (a ++ n)) :
    redactFrom value (toAsciiLowercase value) needle (fuel + 1) (utf8Len pre) out =
      (find ['&'] b).elim (.ok (out ++ (a ++ n) ++ mask)) fun amp =>
        redactFrom value (toAsciiLowercase value) needle fuel (utf8Len (pre ++ (a ++ n)) + amp) (out ++ (a ++ n) ++ mask) := by
  have hkeyEnd : utf8Len pre + rel + utf8Len needle = utf8Len (pre ++ (a ++ n)) := by
    rw [Nat.add_assoc, hend, ← utf8Len_append]
  have hvalue' : value = pre ++ (a ++ n) ++ b := by rw [hvalue, hrest, List.append_assoc pre]
  have hkept : slice value (utf8Len pre) (utf8Len (pre ++ (a ++ n))) = some (a ++ n) := by
    rw [hvalue', utf8Len_append pre, slice_append]
  have hdropped : dropBytes (utf8Len (pre ++ (a ++ n))) value = some b := by
    rw [hvalue', dropBytes_append]
  simp only [redactFrom, dropBytes_haystack hvalue, orPanic, h, bind, Except.bind, hkeyEnd, hkept, hdropped]
  cases find ['&'] b <;> rfl

end Turn

/-- From a position between two characters, the loop cuts the pieces of what follows, if it may make as many turns as there are
characters. -/
theorem redactFrom_eq (hne : needle ≠ []) (hamp : '&' ∉ needle) {value pre rest : Text} (hvalue : value = pre ++ rest) {fuel : Nat}
    (hfuel : rest.length < fuel) (out : Text) :
    redactFrom value (toAsciiLowercase value) needle fuel (utf8Len pre) out =
      .ok (out ++ mapPieces '&' (cut (endsWith needle) mask) rest) := by
  induction fuel generalizing pre rest out with
  | zero => exact absurd hfuel (Nat.not_lt_zero _)
  | succ fuel ih =>
    cases hfind : find needle (toAsciiLowercase rest) with
    | none => rw [redactFrom_none hvalue fuel out hfind, redact_eq_self (find_eq_none_iff.mp hfind)]
    | some rel =>
      obtain ⟨a, n, b, hrest, hn, hfirst, hend⟩ := exists_first hne hfind
      have hamp' : '&' ∉ n := fun h => hamp (hn ▸ List.mem_map.mpr ⟨'&', h, rfl⟩)
      rw [redactFrom_some hvalue fuel out hfind hrest hend]
      rcases find_char '&' b with ⟨hx, hnone⟩ | ⟨x, y, rfl, hx, hsome⟩
      · rw [hnone, Option.elim_none, hrest, redact_first hn hfirst hamp' hx]
        simp only [List.append_assoc]
      · have hlen : List.length ('&' :: y) < fuel := by
          have hpos : n ≠ [] := fun h => hne (by rw [← hn, h, toAsciiLowercase, List.map_nil])
          have := List.length_pos_iff.mpr hpos
          rw [hrest, List.length_append, List.length_append, List.length_append] at hfuel
          omega
        have hvalue' : value = pre ++ (a ++ n) ++ x ++ '&' :: y := by
          simp only [hvalue, hrest, List.append_assoc]
        have hpieces : rest = a ++ n ++ x ++ '&' :: y := by rw [hrest, List.append_assoc _ x]
        rw [hsome, Option.elim_some, ← utf8Len_append, ih hvalue' hlen, hpieces, mapPieces_append_cons,
          redact_first hn hfirst hamp' hx, redact_amp hne]
        simp only [List.append_assoc]

/-- The name of a secret before its value. -/
def needleOf (key : String) : Text := key.toList ++ ['=']

/-- To redact one name is to cut each piece at it. -/
theorem redactQueryValue_eq {key : String} (hkey : '&' ∉ key.toList) (value : String) :
    redactQueryValue value key = .ok (.ofList (mapPieces '&' (cut (endsWith (needleOf key)) mask) value.toList)) := by
  have hne : needleOf key ≠ [] := List.append_ne_nil_of_right_ne_nil _ (List.cons_ne_nil _ _)
  have hamp : '&' ∉ needleOf key := by simp [needleOf, hkey]
  have hfuel : value.toList.length < utf8Len value.toList + 1 := Nat.lt_succ_of_le (length_le_utf8Len _)
  have hrun := redactFrom_eq hne hamp (List.nil_append value.toList).symm hfuel []
  rw [List.nil_append] at hrun
  exact congrArg (· >>= fun out => .ok (String.ofList out)) hrun

/-! ## One name after another -/

/-- A text ends with one of some names. -/
def endsWithAny (keys : List String) (t : Text) : Bool := keys.any fun key => endsWith (needleOf key) t

/-- No name ends in the mask. -/
theorem mask_completes_none (keys : List String) (b m : Text) (hm : m <+: mask) (hne : m ≠ []) :
    endsWithAny keys (b ++ m) = false := by
  have hplain : '=' ∉ toAsciiLowercase mask := by decide
  rw [endsWithAny, List.any_eq_false]
  intro key _ hends
  obtain ⟨r, hr⟩ := endsWith_iff.mp hends
  have hlast : (toAsciiLowercase (b ++ m)).getLast? = some '=' := by
    rw [← hr, needleOf, ← List.append_assoc, List.getLast?_concat]
  have hne' : toAsciiLowercase m ≠ [] := fun h => hne (List.map_eq_nil_iff.mp h)
  rw [toAsciiLowercase_append, List.getLast?_append_of_ne_nil _ hne'] at hlast
  have hlower : toAsciiLowercase m <+: toAsciiLowercase mask := hm.map _
  exact hplain (hlower.subset (List.mem_of_getLast? hlast))

/-- A piece stays one piece. -/
theorem amp_not_mem_cut (isEnd : Text → Bool) {p : Text} (hp : '&' ∉ p) : '&' ∉ cut isEnd mask p := by
  have hplain : '&' ∉ mask := by decide
  exact fun h => (mem_cut h).elim hp hplain

/-- A pass for each of some names, after what was cut before, cuts for all of them. -/
theorem foldlM_redactQueryValue {keys : List String} (hkeys : ∀ key ∈ keys, '&' ∉ key.toList) (isEnd : Text → Bool) (t : Text) :
    keys.foldlM redactQueryValue (.ofList (mapPieces '&' (cut isEnd mask) t)) =
      .ok (.ofList (mapPieces '&' (cut (fun b => isEnd b || endsWithAny keys b) mask) t)) := by
  induction keys generalizing isEnd with
  | nil =>
    simp only [endsWithAny, List.any_nil, Bool.or_false]
    rfl
  | cons key keys ih =>
    have hmask := mask_completes_none [key]
    simp only [endsWithAny, List.any_cons, List.any_nil, Bool.or_false] at hmask
    rw [List.foldlM_cons, redactQueryValue_eq (hkeys key List.mem_cons_self), String.toList_ofList,
      mapPieces_mapPieces fun p => amp_not_mem_cut isEnd]
    have hcut : (fun p => cut (endsWith (needleOf key)) mask (cut isEnd mask p)) =
        cut (fun b => isEnd b || endsWith (needleOf key) b) mask := funext (cut_cut hmask)
    rw [hcut]
    refine (ih (fun k hk => hkeys k (List.mem_cons_of_mem key hk)) _).trans ?_
    simp only [endsWithAny, List.any_cons, Bool.or_assoc]

/-- A text ends with the name of a secret. -/
def endsSecret (t : Text) : Bool := ["access_key=", "api_key=", "token=", "authorization="].any fun name => endsWith name.toList t

/-- A text with every piece of a query kept up to the end of the first name of a secret in it. -/
def clean (text : String) : String := .ofList (mapPieces '&' (cut endsSecret mask) text.toList)

/-- The names that are redacted. -/
theorem endsSecret_eq : endsSecret = endsWithAny ["access_key", "api_key", "token", "authorization"] := by
  funext t
  simp [endsSecret, endsWithAny, needleOf]

/-- A text is cleaned of all of them. -/
theorem sanitizeString_eq (text : String) : sanitizeString text = .ok (clean text) := by
  have hkeys : ∀ key ∈ ["access_key", "api_key", "token", "authorization"], '&' ∉ key.toList := by simp
  have h := foldlM_redactQueryValue hkeys (fun _ => false) text.toList
  have hnone : mapPieces '&' (cut (fun _ => false) mask) text.toList = text.toList :=
    mapPieces_eq_self fun _ _ _ => cut_of_none (fun _ _ => rfl) mask
  rw [hnone, String.ofList_toList] at h
  rw [sanitizeString, h, clean, endsSecret_eq]
  simp only [Bool.false_or]

/-- What is clean is not changed again. -/
theorem clean_clean (text : String) : clean (clean text) = clean text := by
  have hmask : ∀ b m, m <+: mask → m ≠ [] → endsSecret (b ++ m) = false := by
    rw [endsSecret_eq]
    exact mask_completes_none _
  rw [clean, clean, String.toList_ofList, mapPieces_mapPieces fun p => amp_not_mem_cut endsSecret]
  have hcut : (fun p => cut endsSecret mask (cut endsSecret mask p)) = cut endsSecret mask := by
    funext p
    rw [cut_cut hmask]
    simp only [Bool.or_self]
  rw [hcut]

/-! ## Payloads -/

mutual

/-- What is sanitized of a value: no entry under a sensitive key, and every text clean. -/
theorem sanitizeValue_eq : (v : Value) → sanitizeValue v = .ok (v.prune isSensitiveKey clean)
  | .null => rfl
  | .bool _ => rfl
  | .number _ => rfl
  | .string text => by
    rw [sanitizeValue, sanitizeString_eq]
    rfl
  | .array items => by
    rw [sanitizeValue, sanitizeItems_eq items]
    rfl
  | .object entries => by
    rw [sanitizeValue, sanitizeMap_eq entries]
    rfl

/-- Each item of a list is cleaned. -/
theorem sanitizeItems_eq : (items : List Value) → sanitizeItems items = .ok (Value.pruneItems isSensitiveKey clean items)
  | [] => rfl
  | v :: items => by
    rw [sanitizeItems, sanitizeValue_eq v, sanitizeItems_eq items]
    rfl

/-- Each entry of a map is cleaned, or left out. -/
theorem sanitizeMap_eq : (entries : List (String × Value)) →
    sanitizeMap entries = .ok (Value.pruneEntries isSensitiveKey clean entries)
  | [] => rfl
  | (key, v) :: entries => by
    rw [sanitizeMap, Value.pruneEntries, sanitizeValue_eq v, sanitizeMap_eq entries]
    split <;> rfl

end

/-- What is sanitized is in the order of its keys again. -/
theorem inOrder_sanitizeValue {v w : Value} (hv : v.InOrder) (h : sanitizeValue v = .ok w) : w.InOrder := by
  rw [sanitizeValue_eq] at h
  cases h
  exact hv.prune

/-- An entry that stays as it is. -/
def Sanitized (e : String × Value) : Prop := isSensitiveKey e.1 = false ∧ e.2.prune isSensitiveKey clean = e.2

/-- What is left in a map is clean. -/
theorem sanitized_of_mem {e : String × Value} {entries : List (String × Value)}
    (h : e ∈ Value.pruneEntries isSensitiveKey clean entries) : Sanitized e := by
  rw [Value.pruneEntries_eq] at h
  obtain ⟨e, hkept, rfl⟩ := List.mem_map.mp h
  exact ⟨(Bool.not_eq_true' _).mp (List.mem_filter.mp hkept).2, Value.prune_prune clean_clean e.2⟩

/-- A map of clean entries is not changed. -/
theorem sanitizeMap_eq_self {entries : List (String × Value)} (h : ∀ e ∈ entries, Sanitized e) :
    sanitizeMap entries = .ok entries := by
  rw [sanitizeMap_eq, Value.pruneEntries_eq, List.filter_eq_self.mpr fun e he => by rw [(h e he).1, Bool.not_false]]
  have hmap : ∀ e ∈ entries, (e.1, e.2.prune isSensitiveKey clean) = id e := fun e he => by rw [(h e he).2, id]
  rw [List.map_congr_left hmap, List.map_id]

/-- An entry of a map is the new one, or was there. -/
theorem mem_insert {key : String} {v : Value} {e : String × Value} {entries : List (String × Value)}
    (h : e ∈ insert key v entries) : e = (key, v) ∨ e ∈ entries := by
  induction entries with
  | nil => exact .inl (List.mem_singleton.mp h)
  | cons head entries ih =>
    obtain ⟨k, w⟩ := head
    rw [insert] at h
    split_ifs at h
    · exact List.mem_cons.mp h
    · exact (List.mem_cons.mp h).imp_right (List.mem_cons_of_mem _)
    · rcases List.mem_cons.mp h with rfl | h
      · exact .inr List.mem_cons_self
      · exact (ih h).imp_right (List.mem_cons_of_mem _)

/-- One payload more leaves the entries of an event sanitized. -/
theorem sanitized_payload {held : List (String × Value)} (h : ∀ e ∈ held, Sanitized e) (value : Value) :
    ∃ held', payload held value = .ok held' ∧ ∀ e ∈ held', Sanitized e := by
  have hinsert : ∀ entries : List (String × Value), (∀ e ∈ entries, Sanitized e) →
      ∀ e ∈ entries.foldl (fun held e => insert e.1 e.2 held) held, Sanitized e := by
    intro entries hentries
    induction entries generalizing held with
    | nil => exact h
    | cons head entries ih =>
      rw [List.forall_mem_cons] at hentries
      refine ih (fun e he => ?_) hentries.2
      rcases mem_insert he with rfl | he
      · exact hentries.1
      · exact h e he
  unfold payload
  rw [sanitizeValue_eq]
  cases value with
  | object entries => exact ⟨_, rfl, hinsert _ fun _ => sanitized_of_mem⟩
  | _ => exact ⟨held, rfl, h⟩

/-- Whatever payloads an event is given, to sanitize what it holds changes nothing. -/
theorem events_sanitized (values : List Value) :
    ∃ held, values.foldlM payload [] = .ok held ∧ sanitizeMap held = .ok held := by
  suffices hrun : ∀ start : List (String × Value), (∀ e ∈ start, Sanitized e) →
      ∃ held, values.foldlM payload start = .ok held ∧ ∀ e ∈ held, Sanitized e by
    obtain ⟨held, hheld, hall⟩ := hrun [] fun e he => absurd he List.not_mem_nil
    exact ⟨held, hheld, sanitizeMap_eq_self hall⟩
  induction values with
  | nil => exact fun start hstart => ⟨start, rfl, hstart⟩
  | cons value values ih =>
    intro start hstart
    obtain ⟨held, hheld, hall⟩ := sanitized_payload hstart value
    rw [List.foldlM_cons, hheld]
    exact ih held hall

/-- What the journal keeps of a payload and of a text. Along a path through a sensitive key there is nothing; along every other path
there is what there was, without its sensitive keys and with its text clean. -/
theorem keeps_no_secret (value : Value) (text : String) :
    (∃ kept, sanitizeValue value = .ok kept ∧ sanitizeValue kept = .ok kept ∧
      ∀ path, (kept.follow path).map (·.node) =
        if path.any (·.isDropped isSensitiveKey) then none
        else ((value.follow path).map (·.node)).map (·.prune isSensitiveKey clean)) ∧
    sanitizeString text = .ok (clean text) ∧ sanitizeString (clean text) = .ok (clean text) := by
  refine ⟨⟨value.prune isSensitiveKey clean, sanitizeValue_eq value, ?_, fun path => ?_⟩, sanitizeString_eq text, ?_⟩
  · rw [sanitizeValue_eq, Value.prune_prune clean_clean]
  · rw [Value.follow_prune]
    split
    · rfl
    · rw [Option.map_map, Option.map_map]
      exact congrArg (Option.map · _) (funext Value.node_prune)
  · rw [sanitizeString_eq, clean_clean]

end Twitch1337.Tracker.DebugJournal
