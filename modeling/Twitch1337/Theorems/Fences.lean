import Twitch1337.Lemmas.Turns
import Twitch1337.Theorems.Ownership
import Twitch1337.Theorems.Cache

/-!
# Fences

Blocks have one opening sentinel, one closing sentinel and a header of one line, whatever the files of the memory say, but for the
login of a user file: it stands in the header as it is. Ids and slugs cannot break a fence, since no request makes a file whose
name could.
-/

namespace Twitch1337.Memory.Inject

open Chrono Pool Schedules Text

variable {R : Rfc3339} {Z : Zone} {d : Disk} {now : Instant} {label : FenceLabel} {nonce body : Text}

/-! ## Blocks that cannot be mistaken -/

/-- What a header ends with. -/
def marker : Text := ">>>".toList

/-- A block with one opening sentinel, at its start, one closing sentinel, on its last line, and a header of one line that ends at
the first `>>>`. -/
structure WellFenced (block : Text) : Prop where
  opening : fenceOpen <+: block ∧ occurrences fenceOpen block = 1
  closing : occurrences fenceClose block = 1 ∧
    ∃ above last, block = above ++ '\n' :: last ∧ '\n' ∉ last ∧ fenceClose <+: last
  header : ∃ attrs rest, splitOnce marker block = some (attrs, '\n' :: rest) ∧ '\n' ∉ attrs

/-- A login without a sentinel and without the end of a header. -/
def plainLogin (login : Text) : Bool := [fenceOpen, fenceClose, marker].all fun s => !contains s login

/-- A login is plain when none of the three texts is in it. -/
theorem plainLogin_iff {login : Text} : plainLogin login = true ↔
    occurrences fenceOpen login = 0 ∧ occurrences fenceClose login = 0 ∧ occurrences marker login = 0 := by
  have hzero : ∀ s, (!contains s login) = true ↔ occurrences s login = 0 := by
    intro s
    rw [occurrences_eq_zero, ← contains_iff, Bool.not_eq_true', Bool.not_eq_true]
  simp [plainLogin, hzero]

/-! ## Labels -/

/-- The login in a header. -/
def FenceLabel.login : FenceLabel → Text
  | user _ login _ => (nonempty login).getD []
  | _ => []

/-- The id, the slug or the date in a header. -/
def FenceLabel.subject : FenceLabel → Text
  | user id _ _ => id
  | state slug => slug
  | transcript date => date
  | _ => []

/-- The subject of a label cannot break a fence. -/
def FenceLabel.Tame (label : FenceLabel) : Prop := ∀ c ∈ label.subject, c ≠ '<' ∧ c ≠ '>' ∧ c ≠ '\n'

/-- A character of a pattern that is not in the words of a header. -/
structure Marked (pat : Text) (c : Char) : Prop where
  mem : c ∈ pat
  angle : c = '<' ∨ c = '>'
  space : ' ' ∉ pat
  equals : '=' ∉ pat

/-- A pattern that is marked is not empty. -/
theorem Marked.ne_nil {pat : Text} {c : Char} (h : Marked pat c) : pat ≠ [] := List.ne_nil_of_mem h.mem

/-- The name in a header is in quotes, and sanitised. -/
theorem sanitized_ne {c : Char} {name : Text} (h : c ∈ sanitizeAttrValue name) : c ≠ '<' ∧ c ≠ '>' ∧ c ≠ '\n' := by
  have hc := (List.mem_filter.mp h).2
  refine ⟨?_, ?_, ?_⟩ <;> (rintro rfl; revert hc; decide)

/-- Angle brackets and newlines are looked for one character at a time. -/
theorem angleFree {t : Text} (h : (t.all fun x => x != '<' && x != '>' && x != '\n') = true) :
    ∀ x ∈ t, x ≠ '<' ∧ x ≠ '>' ∧ x ≠ '\n' := by
  intro x hx
  simpa [and_assoc] using List.all_eq_true.mp h x hx

/-- The part of a header after the login. -/
theorem nameAttr_cases (displayName : Option Text) :
    nameAttr displayName = [] ∨
      ∃ t, nameAttr displayName = ' ' :: t ∧ ∀ c ∈ t, c ≠ '<' ∧ c ≠ '>' ∧ c ≠ '\n' := by
  unfold nameAttr
  cases nonempty displayName with
  | none => exact .inl rfl
  | some n =>
    refine .inr ⟨"name=\"".toList ++ sanitizeAttrValue n ++ ['"'], ?_, fun c hc => ?_⟩
    · have hlit : " name=\"".toList = ' ' :: "name=\"".toList := by decide
      dsimp only
      rw [hlit, List.cons_append, List.cons_append]
    · rcases List.mem_append.mp hc with hc | hc
      · rcases List.mem_append.mp hc with hc | hc
        · exact angleFree (by decide) c hc
        · exact sanitized_ne hc
      · rw [List.mem_singleton.mp hc]
        decide

/-- A pattern with an angle bracket occurs in the attributes of a header where it occurs in the login. -/
theorem occurrences_attrs {pat : Text} {c : Char} (hpat : Marked pat c) (ht : label.Tame) :
    occurrences pat (renderLabelAttrs label) = occurrences pat label.login := by
  have hout : ∀ t : Text, (∀ x ∈ t, x ≠ '<' ∧ x ≠ '>' ∧ x ≠ '\n') → occurrences pat t = 0 := by
    intro t h
    refine occurrences_of_notMem hpat.mem fun hc => ?_
    rcases hpat.angle with rfl | rfl
    · exact (h _ hc).1 rfl
    · exact (h _ hc).2.1 rfl
  have hnil : occurrences pat [] = 0 := hout [] (by simp)
  have happend : ∀ s t : Text, (∀ x ∈ s, x ≠ '<' ∧ x ≠ '>' ∧ x ≠ '\n') → (∀ x ∈ t, x ≠ '<' ∧ x ≠ '>' ∧ x ≠ '\n') →
      ∀ x ∈ s ++ t, x ≠ '<' ∧ x ≠ '>' ∧ x ≠ '\n' := by
    intro s t hs ht x hx
    rcases List.mem_append.mp hx with hx | hx
    · exact hs x hx
    · exact ht x hx
  have hwords : ∀ s ∈ ["kind=soul", "kind=lore", "kind=state slug=", "kind=transcript date=", "kind=user id=", " login"],
      ∀ x ∈ s.toList, x ≠ '<' ∧ x ≠ '>' ∧ x ≠ '\n' := by
    intro s hs
    have hall : (["kind=soul", "kind=lore", "kind=state slug=", "kind=transcript date=", "kind=user id=", " login"].all
        fun s => s.toList.all fun x => x != '<' && x != '>' && x != '\n') = true := by
      simp
    exact angleFree (List.all_eq_true.mp hall s hs)
  cases label with
  | soul => exact (hout _ (hwords _ (by simp))).trans hnil.symm
  | lore => exact (hout _ (hwords _ (by simp))).trans hnil.symm
  | state slug => exact (hout _ (happend _ _ (hwords _ (by simp)) ht)).trans hnil.symm
  | transcript date => exact (hout _ (happend _ _ (hwords _ (by simp)) ht)).trans hnil.symm
  | user id login displayName =>
    have hid : ∀ x ∈ "kind=user id=".toList ++ id, x ≠ '<' ∧ x ≠ '>' ∧ x ≠ '\n' := happend _ _ (hwords _ (by simp)) ht
    have hname : ∀ l, occurrences pat (l ++ nameAttr displayName) = occurrences pat l := by
      intro l
      rcases nameAttr_cases displayName with h | ⟨t, h, ht⟩
      · rw [h, List.append_nil]
      · rw [h, occurrences_append_cons hpat.space hpat.ne_nil, hout t ht, Nat.add_zero]
    change occurrences pat ("kind=user id=".toList ++ id ++ loginAttr login ++ nameAttr displayName) =
      occurrences pat ((nonempty login).getD [])
    rw [hname, loginAttr]
    cases nonempty login with
    | none =>
      dsimp only
      rw [List.append_nil]
      exact (hout _ hid).trans hnil.symm
    | some l =>
      have hlit : " login=".toList = " login".toList ++ ['='] := by decide
      have hsplit : "kind=user id=".toList ++ id ++ (" login=".toList ++ l) =
          "kind=user id=".toList ++ id ++ " login".toList ++ '=' :: l := by
        simp only [hlit, List.append_assoc, List.singleton_append]
      dsimp only
      rw [hsplit, occurrences_append_cons hpat.equals hpat.ne_nil,
        hout _ (happend _ _ hid (hwords _ (by simp))), Nat.zero_add]
      rfl

/-! ## Blocks -/

/-- A nonce in which every character is a letter or a digit. -/
def AlphanumNonce (nonce : Text) : Prop := ∀ c ∈ nonce, c.isAlphanum = true

/-- A nonce is of letters and digits. -/
theorem alphanum_freshNonce (bytes : List (Fin 256)) : AlphanumNonce (freshNonce bytes) := by
  intro c hc
  obtain ⟨b, _, hc⟩ := List.mem_flatMap.mp hc
  have hdigits : ∀ n : Fin 16, (Nat.digitChar n).isAlphanum = true := by decide
  have hb := b.isLt
  rcases List.mem_cons.mp hc with rfl | hc
  · exact hdigits ⟨b.val / 16, by omega⟩
  · rw [List.mem_singleton.mp hc]
    exact hdigits ⟨b.val % 16, by omega⟩

/-- A nonce has neither brackets nor line breaks. -/
theorem AlphanumNonce.ne (h : AlphanumNonce nonce) : '<' ∉ nonce ∧ '>' ∉ nonce ∧ '\n' ∉ nonce := by
  refine ⟨?_, ?_, ?_⟩ <;> (intro hc; exact absurd (h _ hc) (by decide))

/-- What stands before the `>>>` of a header. -/
def beforeMarker (label : FenceLabel) (nonce : Text) : Text :=
  fenceOpen ++ ' ' :: (renderLabelAttrs label ++ ' ' :: ("nonce".toList ++ '=' :: nonce))

/-- The last line of a block. -/
def lastLine (nonce : Text) : Text := fenceClose ++ ' ' :: ("nonce".toList ++ '=' :: (nonce ++ marker))

/-- A block is what is before its marker, the marker, its body and its last line. -/
theorem fenceBlock_eq (label : FenceLabel) (nonce body : Text) : fenceBlock label nonce body =
    beforeMarker label nonce ++ marker ++ '\n' :: (scrubForInject body ++ '\n' :: lastLine nonce) := by
  have hlits : "<<<FILE ".toList = fenceOpen ++ [' '] ∧ " nonce=".toList = ' ' :: ("nonce".toList ++ ['=']) ∧
      ">>>\n".toList = marker ++ ['\n'] ∧ ">>>".toList = marker ∧
      "\n<<<ENDFILE nonce=".toList = '\n' :: (fenceClose ++ ' ' :: ("nonce".toList ++ ['='])) := by
    decide +kernel
  obtain ⟨h1, h2, h3, h4, h5⟩ := hlits
  unfold fenceBlock beforeMarker lastLine
  rw [h1, h2, h3, h4, h5]
  simp only [List.append_assoc, List.cons_append, List.nil_append]

/-- A body between fences has no sentinel in it. -/
theorem occurrences_scrubForInject (body : Text) :
    occurrences fenceOpen (scrubForInject body) = 0 ∧ occurrences fenceClose (scrubForInject body) = 0 := by
  unfold scrubForInject
  split
  · decide +kernel
  · rename_i h
    rw [Bool.or_eq_true, not_or, contains_iff, contains_iff] at h
    exact ⟨occurrences_eq_zero.mpr h.1, occurrences_eq_zero.mpr h.2⟩

/-- The opening fence is marked by its bracket. -/
theorem marked_fenceOpen : Marked fenceOpen '<' := ⟨by decide, .inl rfl, by decide, by decide⟩

/-- The closing fence is marked by its bracket. -/
theorem marked_fenceClose : Marked fenceClose '<' := ⟨by decide, .inl rfl, by decide, by decide⟩

/-- The marker is by its own. -/
theorem marked_marker : Marked marker '>' := ⟨by decide, .inr rfl, by decide, by decide⟩

/-- The sentinels in a header: the one it begins with, and those in the login. -/
theorem occurrences_beforeMarker {pat : Text} {c : Char} (hpat : Marked pat c) (ht : label.Tame) (t : Text) :
    occurrences pat (beforeMarker label nonce ++ t) =
      occurrences pat fenceOpen + occurrences pat label.login + occurrences pat (nonce ++ t) := by
  have hword : occurrences pat "nonce".toList = 0 := by
    refine occurrences_of_notMem hpat.mem fun h => ?_
    have hangle : '<' ∉ "nonce".toList ∧ '>' ∉ "nonce".toList := by decide
    rcases hpat.angle with rfl | rfl
    · exact hangle.1 h
    · exact hangle.2 h
  have hassoc : beforeMarker label nonce ++ t =
      fenceOpen ++ ' ' :: (renderLabelAttrs label ++ ' ' :: ("nonce".toList ++ '=' :: (nonce ++ t))) := by
    simp only [beforeMarker, List.append_assoc, List.cons_append]
  rw [hassoc, occurrences_append_cons hpat.space hpat.ne_nil, occurrences_append_cons hpat.space hpat.ne_nil,
    occurrences_append_cons hpat.equals hpat.ne_nil, occurrences_attrs hpat ht, hword]
  omega

/-- The sentinels of a block: those of its header and its last line, and those in the login. -/
theorem occurrences_fenceBlock {pat : Text} (hpat : Marked pat '<') (hline : '\n' ∉ pat) (ht : label.Tame)
    (hn : AlphanumNonce nonce) (hbody : occurrences pat (scrubForInject body) = 0) :
    occurrences pat (fenceBlock label nonce body) =
      occurrences pat fenceOpen + occurrences pat label.login + occurrences pat fenceClose := by
  have hmarker : '<' ∉ nonce ++ marker := by
    have hm : '<' ∉ marker := by decide
    simp [hn.ne.1, hm]
  have hword : '<' ∉ "nonce".toList := by decide
  rw [fenceBlock_eq, occurrences_append_cons hline hpat.ne_nil, occurrences_append_cons hline hpat.ne_nil,
    occurrences_beforeMarker hpat ht, occurrences_of_notMem hpat.mem hmarker, hbody, lastLine,
    occurrences_append_cons hpat.space hpat.ne_nil, occurrences_append_cons hpat.equals hpat.ne_nil,
    occurrences_of_notMem hpat.mem hword, occurrences_of_notMem hpat.mem hmarker]
  omega

/-- A header is on one line. -/
theorem newline_beforeMarker (ht : label.Tame) (hl : '\n' ∉ label.login) (hn : AlphanumNonce nonce) :
    '\n' ∉ beforeMarker label nonce := by
  have hwords : '\n' ∉ fenceOpen ∧ '\n' ∉ "kind=soul".toList ∧ '\n' ∉ "kind=lore".toList ∧
      '\n' ∉ "kind=state slug=".toList ∧ '\n' ∉ "kind=transcript date=".toList ∧ '\n' ∉ "kind=user id=".toList ∧
      '\n' ∉ " login=".toList := by
    refine ⟨by decide, ?_⟩
    simp
  obtain ⟨h1, h3, h4, h5, h6, h7, h8⟩ := hwords
  have hsubject : '\n' ∉ label.subject := fun h => (ht _ h).2.2 rfl
  have hattrs : '\n' ∉ renderLabelAttrs label := by
    cases label with
    | soul => exact h3
    | lore => exact h4
    | state slug => exact fun h => (List.mem_append.mp h).elim h5 hsubject
    | transcript date => exact fun h => (List.mem_append.mp h).elim h6 hsubject
    | user id login displayName =>
      have hname : '\n' ∉ nameAttr displayName := by
        rcases nameAttr_cases displayName with h | ⟨t, h, ht⟩
        · simp [h]
        · rw [h, List.mem_cons, not_or]
          exact ⟨by decide, fun h => (ht _ h).2.2 rfl⟩
      have hlogin : '\n' ∉ loginAttr login := by
        change '\n' ∉ (nonempty login).getD [] at hl
        unfold loginAttr
        revert hl
        cases nonempty login with
        | none => exact fun hl => hl
        | some l =>
          intro hl
          exact fun h => (List.mem_append.mp h).elim h8 hl
      change '\n' ∉ "kind=user id=".toList ++ id ++ loginAttr login ++ nameAttr displayName
      rw [List.mem_append, List.mem_append, List.mem_append, not_or, not_or, not_or]
      exact ⟨⟨⟨h7, hsubject⟩, hlogin⟩, hname⟩
  unfold beforeMarker
  rw [List.mem_append, List.mem_cons, List.mem_append, List.mem_cons, List.mem_append, List.mem_cons]
  simp [h1, hattrs, hn.ne.2.2]

/-- The header of a block ends at the first `>>>` when there is none in the login. -/
theorem header_iff (ht : label.Tame) (hl : '\n' ∉ label.login) (hn : AlphanumNonce nonce) :
    (∃ attrs rest, splitOnce marker (fenceBlock label nonce body) = some (attrs, '\n' :: rest) ∧ '\n' ∉ attrs) ↔
      occurrences marker label.login = 0 := by
  have hline := newline_beforeMarker ht hl hn
  have hends : marker.dropLast = ['>', '>'] ∧ '\n' ∉ marker := by decide
  -- what the nonce adds is too short for another `>>>`
  have htail : occurrences marker (nonce ++ marker.dropLast) = 0 := by
    rw [occurrences_eq_zero]
    intro h
    have hcount := h.sublist.count_le '>'
    rw [hends.1, List.count_append, List.count_eq_zero_of_not_mem hn.ne.2.1] at hcount
    revert hcount
    decide
  have hfirst : ¬ marker <:+: beforeMarker label nonce ++ marker.dropLast ↔ occurrences marker label.login = 0 := by
    have hopen : occurrences marker fenceOpen = 0 := by decide
    rw [← occurrences_eq_zero, occurrences_beforeMarker marked_marker ht, htail, hopen, Nat.zero_add, Nat.add_zero]
  rw [← hfirst, fenceBlock_eq]
  constructor
  · rintro ⟨attrs, rest, hsplit, hattrs⟩
    obtain ⟨heq, hnot⟩ := (splitOnce_eq_some_iff marked_marker.ne_nil).mp hsplit
    -- both are what stands before the first line feed
    have h1 := splitOnce_char (c := '\n') (l := beforeMarker label nonce ++ marker) (by simp [hline, hends.2])
      (scrubForInject body ++ '\n' :: lastLine nonce)
    have h2 := splitOnce_char (c := '\n') (l := attrs ++ marker) (by simp [hattrs, hends.2]) rest
    rw [heq, h2, Option.some.injEq, Prod.mk.injEq] at h1
    rwa [← List.append_cancel_right h1.1]
  · intro hnot
    exact ⟨_, _, (splitOnce_eq_some_iff marked_marker.ne_nil).mpr ⟨rfl, hnot⟩, hline⟩

/-- A block is well fenced exactly when the login in its header is plain. -/
theorem wellFenced_iff (ht : label.Tame) (hl : '\n' ∉ label.login) (hn : AlphanumNonce nonce) (body : Text) :
    WellFenced (fenceBlock label nonce body) ↔ plainLogin label.login = true := by
  have hcounts : occurrences fenceOpen fenceOpen = 1 ∧ occurrences fenceOpen fenceClose = 0 ∧
      occurrences fenceClose fenceOpen = 0 ∧ occurrences fenceClose fenceClose = 1 := by
    decide
  obtain ⟨hoo, hoc, hco, hcc⟩ := hcounts
  have hopen := occurrences_fenceBlock marked_fenceOpen (by decide) ht hn
    (occurrences_scrubForInject body).1
  have hclose := occurrences_fenceBlock marked_fenceClose (by decide) ht hn
    (occurrences_scrubForInject body).2
  rw [hoo, hoc] at hopen
  rw [hco, hcc] at hclose
  rw [plainLogin_iff]
  constructor
  · intro h
    have := h.opening.2
    have := h.closing.1
    exact ⟨by omega, by omega, (header_iff ht hl hn).mp h.header⟩
  · rintro ⟨h1, h2, h3⟩
    refine ⟨⟨?_, by omega⟩, ⟨by omega, beforeMarker label nonce ++ marker ++ '\n' :: scrubForInject body, lastLine nonce, ?_,
      ?_, List.prefix_append _ _⟩, (header_iff ht hl hn).mpr h3⟩
    · rw [fenceBlock_eq, beforeMarker, List.append_assoc, List.append_assoc]
      exact List.prefix_append _ _
    · rw [fenceBlock_eq]
      simp only [List.append_assoc, List.cons_append]
    · have hwords : '\n' ∉ fenceClose ∧ '\n' ∉ marker := by decide
      unfold lastLine
      rw [List.mem_append, List.mem_cons, List.mem_append, List.mem_cons, List.mem_append]
      simp [hwords.1, hwords.2, hn.ne.2.2]

/-! ## The names of the files -/

/-- A file whose name cannot break a fence. -/
def tame : FileKind → Bool
  | .user userId => userId.all Char.isDigit
  | .state slug => validateStateSlug slug
  | _ => true

/-- What a process is about to change is tame. -/
def Tamed : Point → Prop
  | .owning _ slug => validateStateSlug slug = true
  | .asking _ op => tame op.kind = true
  | .guarding _ kind _ _ _ => tame kind = true
  | .entering _ op => tame op.kind = true
  | .creating _ op _ => tame op.kind = true
  | .committing _ op _ _ => tame op.kind = true
  | _ => True

/-- A file that the router knows has a tame name. -/
theorem tame_of_routed {kind : FileKind} (h : kind.routed = true) : tame kind = true := by
  cases kind with
  | soul => rfl
  | lore => rfl
  | user userId =>
    simp only [FileKind.routed, Bool.and_eq_true] at h
    exact h.2
  | state slug => exact h

/-- A file that a tool may write has a tame name. -/
theorem tame_of_permits {e : Executor} {kind : FileKind} (h : e.Permits kind) : tame kind = true := by
  cases kind with
  | soul => rfl
  | lore => rfl
  | user userId => exact h.2.2
  | state slug => exact h.2

theorem tamed_finish (src : Source) (kind : FileKind) : Tamed (src.finish kind (.ok ())) := by
  rcases finish_ok src kind with ⟨_, h⟩ | ⟨_, reply, _, h⟩ <;> (rw [h]; trivial)

/-- A request of a tool is for a tame file. -/
theorem tamed_start (request : Request) (h : request.isBare = false) : Tamed request.start := by
  cases request with
  | view kind => simp only [Request.start]; split <;> trivial
  | save by_ kind body token o =>
    simp only [Request.start]
    split
    · rename_i hrouted
      exact tame_of_routed hrouted
    · trivial
  | create by_ slug body =>
    simp only [Request.start]
    split
    · rename_i hslug
      exact hslug
    · trivial
  | delete by_ slug =>
    simp only [Request.start]
    split
    · rename_i hslug
      exact hslug
    · trivial
  | call ex call => trivial
  | api op => cases h
  | apiGuarded kind body expected o => cases h

/-- A process goes on with files that are tame. -/
theorem tamed_move {w w' : World} {p : Nat} {io : Io} {s s' : Point} (h : Move R w p io s w' s') (hA : Tamed s) :
    Tamed s' := by
  cases h with
  | performs ex e call op there dispatch => exact tame_of_permits (dispatch_perform dispatch).1
  | looks ex e call slug there dispatch => exact validateStateSlug_of_parseSlug (dispatch_checkOwner dispatch)
  | owns ex e slug there may => exact hA
  | granted ex e op there left => exact hA
  | unguarded src kind body o =>
    change tame (guardedOp kind body o).kind = true
    rw [guardedOp_kind]
    exact hA
  | passes src kind body token o same =>
    change tame (guardedOp kind body o).kind = true
    rw [guardedOp_kind]
    exact hA
  | prepares src op raw accepted write prepared => split <;> exact hA
  | counts src op raw room => exact hA
  | removes src slug valid => exact tamed_finish src _
  | writes src op raw isNew => exact tamed_finish src _
  | _ => trivial

/-- All files are tame. -/
def TameDisk (d : Disk) : Prop := ∀ kind ∈ d.files.keys, tame kind = true

/-- A step writes files of tame names only. -/
theorem tameDisk_move {w w' : World} {p : Nat} {io : Io} {s s' : Point} (h : Move R w p io s w' s')
    (hw : TameDisk w.disk) (hA : Tamed s) : TameDisk w'.disk := by
  rcases h.effect with ⟨hd, _⟩ | ⟨src, slug, _, _, rfl⟩ | ⟨src, op, raw, isNew, rfl, rfl⟩
  · exact hd ▸ hw
  · intro kind hkind
    change kind ∈ (w.disk.files.erase (.state slug)).keys at hkind
    rw [AList.keys_erase] at hkind
    exact hw kind (List.mem_of_mem_erase hkind)
  · intro kind hkind
    change kind ∈ (w.disk.files.insert op.kind _).keys at hkind
    rw [AList.keys_insert] at hkind
    rcases List.mem_cons.mp hkind with rfl | hkind
    · exact hA
    · exact hw kind (List.mem_of_mem_erase hkind)

/-- The names of the files, in an outline. -/
theorem names_outline (R : Rfc3339) : (traffic R).Outline (fun request => request.isBare = false) (fun _ _ _ _ => True)
    (fun w => TameDisk w.disk) (fun _ _ q => Tamed q.point) fun _ _ => True := by
  refine outline ?_ ?_ ?_ ?_
  · intro w p request hok _ _
    exact tamed_start request hok
  · intro w p request s io w' s' hI hA _ hm
    exact ⟨tameDisk_move hm hI hA, tamed_move hm hA⟩
  · intro w p request s q t io w' t' _ hA _ _ _ _ _
    exact hA
  · intro w p q t io w' t' _ _ _ _ _
    trivial

/-! ## The theorem -/

/-- Every block of every context over a store is well fenced. -/
def AllWellFenced (R : Rfc3339) (d : Disk) : Prop :=
  ∀ (Z : Zone) (bytes : List (Fin 256)) (now : Instant) (opts : BuildOpts) (files : ReadFiles), bytes.length = 8 →
    opts.nonce = freshNonce bytes → readFiles R d now = some files →
    ∀ block ∈ (opts.blocks Z files).durable ++ (opts.blocks Z files).state, WellFenced block

/-- When all files can be read, the logins of all user files are plain. -/
def PlainLogins (R : Rfc3339) (d : Disk) : Prop :=
  ∀ now files, readFiles R d now = some files → ∀ f ∈ files.users, ∀ login ∈ f.frontmatter.username, plainLogin login = true

/-- A nonce of eight bytes. -/
def zeroNonce : Text := freshNonce (List.replicate 8 0)

/-- What the ritual asks for, with some budget. -/
def ritualOpts (budget : Nat) (nonce : Text) : BuildOpts := ⟨budget, nonce, none, [], none, none, .primary, [], [], []⟩

theorem plainLogin_nil : plainLogin [] = true := by decide

/-- The label of a tame user file is tame. -/
theorem tame_user {userId : Text} (h : tame (.user userId) = true) (login displayName : Option Text) :
    (FenceLabel.user userId login displayName).Tame := by
  intro c hc
  have hdigit := List.all_eq_true.mp h c hc
  refine ⟨?_, ?_, ?_⟩ <;> (rintro rfl; exact absurd hdigit (by decide))

/-- The label of the soul is tame. -/
theorem tame_soul : FenceLabel.soul.Tame := by
  intro c hc
  cases hc

/-- The label of the lore is tame. -/
theorem tame_lore : FenceLabel.lore.Tame := by
  intro c hc
  cases hc

/-- The label of a tame state file is tame. -/
theorem tame_state {slug : Text} (h : tame (.state slug) = true) : (FenceLabel.state slug).Tame := by
  intro c hc
  have hchar : (c.isAlphanum || c == '.' || c == '_' || c == '-') = true := by
    unfold tame validateStateSlug at h
    rw [Bool.and_eq_true] at h
    exact List.all_eq_true.mp h.2 c hc
  refine ⟨?_, ?_, ?_⟩ <;> (rintro rfl; exact absurd hchar (by decide))

/-- The user files that a turn is given are among those that were read. -/
theorem mem_of_mem_retained {opts : BuildOpts} {users : List MemoryFile} {f : MemoryFile} (h : f ∈ opts.retained Z users) :
    f ∈ users := by
  unfold BuildOpts.retained at h
  rw [List.mem_insertionSort] at h
  split at h
  · exact (List.mem_filter.mp h).1
  · exact h

/-- Where every login is plain, every block is well fenced. -/
theorem allWellFenced_of_plainLogins (htame : TameDisk d) (h : PlainLogins R d) : AllWellFenced R d := by
  intro Z bytes now opts files _ hnonce hread block hblock
  have hn : AlphanumNonce opts.nonce := hnonce ▸ alphanum_freshNonce bytes
  obtain ⟨_, _, husers, hstates⟩ := readFiles_eq hread
  rcases List.mem_append.mp hblock with hblock | hblock
  · rcases List.mem_append.mp hblock with hblock | hblock
    · rcases List.mem_cons.mp hblock with rfl | hblock
      · exact (wellFenced_iff tame_soul (by simp [FenceLabel.login]) hn _).mpr plainLogin_nil
      · rw [List.mem_singleton.mp hblock]
        exact (wellFenced_iff tame_lore (by simp [FenceLabel.login]) hn _).mpr plainLogin_nil
    · obtain ⟨f, hf, hfb⟩ := List.mem_filterMap.mp (packBlocks_subset hblock)
      have hf := mem_of_mem_retained hf
      obtain ⟨hkey, _, hkind⟩ := mem_listInSubdir husers f hf
      unfold userBlock at hfb
      split at hfb
      · rename_i userId heq
        cases hfb
        have hnames := readKind_username hkind
        have hlogin : '\n' ∉ (FenceLabel.user userId f.frontmatter.username f.frontmatter.displayName).login ∧
            plainLogin (FenceLabel.user userId f.frontmatter.username f.frontmatter.displayName).login = true := by
          change '\n' ∉ (nonempty f.frontmatter.username).getD [] ∧
            plainLogin ((nonempty f.frontmatter.username).getD []) = true
          cases hu : f.frontmatter.username with
          | none => exact ⟨by simp, plainLogin_nil⟩
          | some login =>
            obtain ⟨hline, hne⟩ := hnames login hu
            rw [nonempty_some hne]
            exact ⟨hline, h now files hread f hf login hu⟩
        exact (wellFenced_iff (tame_user (heq ▸ htame f.kind hkey) _ _) hlogin.1 hn _).mpr hlogin.2
      · cases hfb
  · obtain ⟨f, hf, hfb⟩ := List.mem_filterMap.mp (packBlocks_subset hblock)
    obtain ⟨hkey, _, _⟩ := mem_listInSubdir hstates f ((List.mem_insertionSort _).mp hf)
    unfold stateBlock at hfb
    split at hfb
    · rename_i slug heq
      cases hfb
      exact (wellFenced_iff (tame_state (heq ▸ htame f.kind hkey)) (by simp [FenceLabel.login]) hn _).mpr plainLogin_nil
    · cases hfb

/-- The ritual is given every user file, when its budget is large enough. -/
theorem plainLogins_of_allWellFenced (htame : TameDisk d) (h : AllWellFenced R d) : PlainLogins R d := by
  intro now files hread f hf login hlogin
  obtain ⟨_, _, husers, _⟩ := readFiles_eq hread
  obtain ⟨hkey, _, hkind⟩ := mem_listInSubdir husers f hf
  obtain ⟨hline, hne⟩ := readKind_username hkind login hlogin
  obtain ⟨block, hblock⟩ := userBlock_of_mem hread zeroNonce hf
  have hwell : WellFenced block := by
    let blocks := (files.users.insertionSort (SpeakerFirst [])).filterMap (userBlock zeroNonce)
    let total := ((files.head zeroNonce).map utf8Len).sum
    refine h (.fixed 0) (List.replicate 8 0) now
      (ritualOpts (total + (blocks.map fun block => utf8Len block + 1).sum) zeroNonce) files rfl rfl hread block ?_
    refine List.mem_append_left _ (List.mem_append_right _ ?_)
    have hall : (packBlocks (total + (blocks.map fun block => utf8Len block + 1).sum) total blocks).1 = blocks :=
      packBlocks_all (Nat.le_refl _)
    have hmem : block ∈ blocks := List.mem_filterMap.mpr ⟨f, (List.mem_insertionSort _).mpr hf, hblock⟩
    exact hall.symm ▸ hmem
  unfold userBlock at hblock
  split at hblock
  · rename_i userId heq
    cases hblock
    have hlabel : (FenceLabel.user userId f.frontmatter.username f.frontmatter.displayName).login = login := by
      change (nonempty f.frontmatter.username).getD [] = login
      rw [hlogin, nonempty_some hne]
      rfl
    have hnonce := alphanum_freshNonce (List.replicate 8 0)
    have := (wellFenced_iff (tame_user (heq ▸ htame f.kind hkey) _ _) (hlabel.symm ▸ hline) hnonce _).mp hwell
    rwa [hlabel] at this
  · cases hblock

/-- In every store that the tools, the ritual and the dashboard can bring about, from one whose file names cannot break a fence,
every block of every context is well fenced exactly when the login of every user file is plain. -/
theorem fences_hold_iff (R : Rfc3339) (disk : Disk) (hdisk : TameDisk disk) (executors : List Executor)
    (es : List TrafficEvent) (v : Traffic)
    (hok : Machine.Meets (Traffic.step R) (Allows (fun request => request.isBare = false) fun _ _ _ _ => True)
      (Traffic.start disk executors) es)
    (h : Machine.run (Traffic.step R) (Traffic.start disk executors) es = some v) :
    AllWellFenced R v.1.disk ↔ PlainLogins R v.1.disk := by
  obtain ⟨_, htame, _, _⟩ := (names_outline R).run (disciplined R) (exclusive_start disk executors)
    (holds_start hdisk fun _ => trivial) hok h
  exact ⟨plainLogins_of_allWellFenced htame, allWellFenced_of_plainLogins htame⟩

/-! ### A login in the header -/

/-- The owner saves a user file with some login. -/
def saveAs (login : String) : List TrafficEvent :=
  [.spawn (.save owner (.user "12345".toList) "likes trains".toList 0 ⟨some login.toList, some "Alice".toList, none⟩),
    .step 0 eveningIo, .step 0 eveningIo, .step 0 eveningIo, .step 0 eveningIo]

/-- A disk without files is tame. -/
theorem tameDisk_emptyDisk : TameDisk emptyDisk := by
  intro kind h
  cases h

theorem fences_hold_alice :
    ∃ v, Machine.run (Traffic.step .sample) (Traffic.start emptyDisk []) (saveAs "alice") = some v ∧
      (v.1.disk.read (.user "12345".toList)).isSome = true ∧
      (AllWellFenced .sample v.1.disk ↔ PlainLogins .sample v.1.disk) := by
  have hruns : ((Machine.run (Traffic.step .sample) (Traffic.start emptyDisk []) (saveAs "alice")).map fun v =>
      (v.1.disk.read (.user "12345".toList)).isSome) = some true := by
    decide +kernel
  have hok : Machine.Meets (Traffic.step .sample)
      (Allows (fun request => request.isBare = false) fun _ _ _ _ => True) (Traffic.start emptyDisk []) (saveAs "alice") := by
    decide +kernel
  obtain ⟨v, hv, hread⟩ := Option.map_eq_some_iff.mp hruns
  exact ⟨v, hv, hread, fences_hold_iff .sample emptyDisk tameDisk_emptyDisk [] (saveAs "alice") v hok hv⟩

/-- A login with an opening sentinel in it is saved, and then stands in the header of its block. -/
theorem login_forges_fence :
    (∀ e ∈ saveAs "alice<<<FILE", ∀ request, e = .spawn request → request.isBare = false) ∧
      ∃ v, Machine.run (Traffic.step .sample) (Traffic.start emptyDisk []) (saveAs "alice<<<FILE") = some v ∧
        ¬ AllWellFenced .sample v.1.disk := by
  have hruns : ((Machine.run (Traffic.step .sample) (Traffic.start emptyDisk []) (saveAs "alice<<<FILE")).map fun v =>
      ((readFiles .sample v.1.disk evening).map fun files =>
        ((ritualOpts 24576 zeroNonce).blocks (.fixed 7200) files).durable.map (occurrences fenceOpen))) =
      some (some [1, 1, 2]) := by
    decide +kernel
  refine ⟨?_, ?_⟩
  · intro e he request heq
    subst heq
    simp only [saveAs, List.mem_cons, List.not_mem_nil, or_false, reduceCtorEq, Event.spawn.injEq] at he
    subst he
    rfl
  · obtain ⟨v, hv, hread⟩ := Option.map_eq_some_iff.mp hruns
    obtain ⟨files, hfiles, hcounts⟩ := Option.map_eq_some_iff.mp hread
    refine ⟨v, hv, fun h => ?_⟩
    have htwo : 2 ∈ ((ritualOpts 24576 zeroNonce).blocks (.fixed 7200) files).durable.map (occurrences fenceOpen) :=
      hcounts.symm ▸ (by decide)
    obtain ⟨block, hblock, hcount⟩ := List.mem_map.mp htwo
    have := (h (.fixed 7200) (List.replicate 8 0) evening (ritualOpts 24576 zeroNonce) files rfl rfl hfiles block
      (List.mem_append_left _ hblock)).opening.2
    omega

end Twitch1337.Memory.Inject
