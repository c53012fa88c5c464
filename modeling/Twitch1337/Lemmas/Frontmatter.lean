import Twitch1337.Memory.Frontmatter

/-!
# What is emitted is parsed

A value of the frontmatter comes back exactly when it is clean: on one line, without blanks around it. Empty values are left
out. The proof goes through the file line by line, twice: `splitOnce_line` finds the end of the frontmatter, `lines_line` reads
its lines.
-/

namespace Twitch1337.Memory

open Chrono RustStr Text

/-- A value that its line gives back. -/
def Clean (v : Text) : Prop := Trimmed v ∧ '\n' ∉ v

instance (v : Text) : Decidable (Clean v) := inferInstanceAs (Decidable (Trimmed v ∧ '\n' ∉ v))

/-- Every value of a frontmatter that is not empty is clean. -/
structure Frontmatter.Clean (fm : Frontmatter) : Prop where
  username : ∀ v ∈ nonempty fm.username, Memory.Clean v
  displayName : ∀ v ∈ nonempty fm.displayName, Memory.Clean v
  createdBy : ∀ v ∈ nonempty fm.createdBy, Memory.Clean v

/-! ## The lines of the fields -/

/-- The keys of the fields: each is its own trimmed text, without a colon or a line break in it, and starts with a letter. -/
def keys : List Text := [updatedAtKey, usernameKey, displayNameKey, createdByKey]

/-- The keys have no colon, no line break and no dash before them. -/
theorem keys_plain {key : Text} (h : key ∈ keys) : ':' ∉ key ∧ '\n' ∉ key ∧ trimChars key = key ∧ key.head? ≠ some '-' := by
  simp only [keys, List.mem_cons, List.not_mem_nil, or_false] at h
  rcases h with rfl | rfl | rfl | rfl <;> decide +kernel

/-- They differ. -/
theorem keys_ne : usernameKey ≠ updatedAtKey ∧ displayNameKey ≠ updatedAtKey ∧ createdByKey ≠ updatedAtKey ∧
    displayNameKey ≠ usernameKey ∧ createdByKey ≠ usernameKey ∧ createdByKey ≠ displayNameKey := by
  decide +kernel

/-- The text of a field without its line feed. -/
def fieldLine (key v : Text) : Text := key ++ [':', ' '] ++ v

/-- The line of a field, if it has one. -/
def fieldLines (key : Text) (v : Option Text) : List Text := (v.map (fieldLine key)).toList

/-- The lines of a frontmatter after the first. -/
def Frontmatter.lines (fm : Frontmatter) : List Text :=
  fieldLines usernameKey fm.username ++ fieldLines displayNameKey fm.displayName ++
    fieldLines createdByKey fm.createdBy

/-- A field is its lines. -/
theorem emitField_eq (key : Text) (v : Option Text) : emitField key v = unlines (fieldLines key v) := by
  cases v <;> simp [emitField, fieldLines, unlines, fieldLine]

/-- A file is a delimiter, lines, a delimiter and the body. -/
theorem emit_eq (R : Rfc3339) (fm : Frontmatter) (body : Text) :
    emit R fm body = delimiter ++
      (unlines (fieldLine updatedAtKey (R.format fm.updatedAt) :: fm.lines) ++ (delimiter ++ body)) := by
  simp only [emit, emitField_eq, Frontmatter.lines, fieldLines, unlines, Option.map_some, Option.toList_some,
    List.flatMap_append, List.flatMap_cons, List.flatMap_nil, List.append_nil, List.append_assoc]

/-- The line of a field is not a delimiter, whatever its value. -/
theorem delimiter_fieldLine {key : Text} (hk : key ∈ keys) (v t : Text) :
    delimiter.isPrefixOf (fieldLine key v ++ t) = false := by
  obtain ⟨_, _, _, hdash⟩ := keys_plain hk
  rw [Bool.eq_false_iff]
  intro hp
  obtain ⟨u, hu⟩ := List.isPrefixOf_iff_prefix.mp hp
  have hhead := congrArg List.head? hu
  cases key with
  | nil => simp [fieldLine, delimiter] at hhead
  | cons c key =>
    apply hdash
    simpa [fieldLine, delimiter] using hhead.symm

/-- What a line of a field looks like: it is a line, and not a delimiter. -/
theorem fieldLine_plain {key v : Text} (hk : key ∈ keys) (hv : v ≠ [] → Clean v) :
    '\n' ∉ fieldLine key v ∧ fieldLine key v ≠ [] ∧ (fieldLine key v).getLast? ≠ some '\r' ∧
      ∀ t, delimiter.isPrefixOf (fieldLine key v ++ t) = false := by
  obtain ⟨_, hnk, _, _⟩ := keys_plain hk
  refine ⟨?_, by simp [fieldLine], ?_, delimiter_fieldLine hk v⟩
  · by_cases h : v = []
    · simp [fieldLine, h, hnk]
    · simp [fieldLine, hnk, (hv h).2]
  · by_cases h : v = []
    · simp [fieldLine, h]
    · intro hlast
      rw [fieldLine, List.getLast?_append_of_ne_nil _ h] at hlast
      have := (hv h).1.2 _ hlast
      revert this
      decide

/-- There is one for each value. -/
theorem mem_fieldLines {key x : Text} {v : Option Text} : x ∈ fieldLines key v ↔ ∃ w, v = some w ∧ x = fieldLine key w := by
  cases v <;> simp [fieldLines]

/-- The lines of a frontmatter are lines of fields with its values. -/
theorem mem_frontmatter_lines {fm : Frontmatter} {x : Text} (hx : x ∈ fm.lines) :
    ∃ key v, key ∈ keys ∧ (fm.username = some v ∨ fm.displayName = some v ∨ fm.createdBy = some v) ∧
      x = fieldLine key v := by
  simp only [Frontmatter.lines, List.mem_append, mem_fieldLines] at hx
  rcases hx with (⟨v, hv, rfl⟩ | ⟨v, hv, rfl⟩) | ⟨v, hv, rfl⟩
  · exact ⟨_, v, by simp [keys], .inl hv, rfl⟩
  · exact ⟨_, v, by simp [keys], .inr (.inl hv), rfl⟩
  · exact ⟨_, v, by simp [keys], .inr (.inr hv), rfl⟩

/-- A value of a clean frontmatter is empty or clean. -/
theorem Frontmatter.Clean.value {fm : Frontmatter} (h : fm.Clean) {v : Text}
    (hv : fm.username = some v ∨ fm.displayName = some v ∨ fm.createdBy = some v) (hne : v ≠ []) : Memory.Clean v := by
  rcases hv with hv | hv | hv
  · exact h.username v (mem_nonempty.mpr ⟨hv, hne⟩)
  · exact h.displayName v (mem_nonempty.mpr ⟨hv, hne⟩)
  · exact h.createdBy v (mem_nonempty.mpr ⟨hv, hne⟩)

/-- Where every value is on one line, the frontmatter ends before the body. -/
theorem splitOnce_emit {R : Rfc3339} {fm : Frontmatter} (ht : FourDigitYear fm.updatedAt)
    (hv : ∀ v, fm.username = some v ∨ fm.displayName = some v ∨ fm.createdBy = some v → '\n' ∉ v) (body : Text) :
    (stripPrefix delimiter (emit R fm body)).bind (splitOnce ('\n' :: delimiter)) =
      some (fieldLine updatedAtKey (R.format fm.updatedAt) ++ moreLines fm.lines, body) := by
  have hline : ∀ x ∈ fieldLine updatedAtKey (R.format fm.updatedAt) :: fm.lines, '\n' ∉ x := by
    intro x hx
    rcases List.mem_cons.mp hx with rfl | hx
    · have hk : updatedAtKey ∈ keys := by simp [keys]
      simp [fieldLine, (keys_plain hk).2.1, R.format_one_line _ ht]
    · obtain ⟨key, v, hk, hmem, rfl⟩ := mem_frontmatter_lines hx
      simp [fieldLine, (keys_plain hk).2.1, hv v hmem]
  have hdelim : ∀ x ∈ fm.lines, ∀ t, delimiter.isPrefixOf (x ++ t) = false := by
    intro x hx t
    obtain ⟨key, v, hk, -, rfl⟩ := mem_frontmatter_lines hx
    exact delimiter_fieldLine hk v t
  have hbody : delimiter.isPrefixOf (delimiter ++ body) = true := List.isPrefixOf_iff_prefix.mpr (List.prefix_append _ _)
  rw [emit_eq, stripPrefix_eq_some.mpr rfl, Option.bind_some, splitOnce_unlines _ fm.lines hline hdelim hbody,
    List.drop_left]

/-! ## Reading the lines -/

/-- The line of a field is taken apart into its key and its value. -/
theorem splitOnce_fieldLine {key : Text} (hk : key ∈ keys) (v : Text) :
    splitOnce [':'] (fieldLine key v) = some (key, ' ' :: v) := by
  have : fieldLine key v = key ++ ':' :: ' ' :: v := by simp [fieldLine]
  rw [this, splitOnce_char (keys_plain hk).1]

/-- The blank before a value is cut off. -/
theorem trimChars_value {v : Text} (h : v ≠ [] → Clean v) : trimChars (' ' :: v) = v := by
  rw [trimChars_cons (by decide)]
  by_cases hv : v = []
  · rw [hv]
    rfl
  · exact trimChars_of_trimmed (h hv).1

variable {R : Rfc3339}

/-- The line of the time is read to the millisecond. -/
theorem parseLine_updatedAt {t : Instant} (ht : FourDigitYear t) (f : Fields) :
    parseLine R f (fieldLine updatedAtKey (R.format t)) = .ok { f with updatedAt := some (toMillis t) } := by
  have hk : updatedAtKey ∈ keys := by simp [keys]
  have hv := trimChars_value (fun _ => (⟨R.format_trimmed t ht, R.format_one_line t ht⟩ : Clean _))
  simp only [parseLine, splitOnce_fieldLine hk, hv, (keys_plain hk).2.2.1, if_true, R.parse_format t ht]

/-- The other keys, and what is read under them. -/
def Fields.set (f : Fields) (key v : Text) : Fields :=
  if key = usernameKey ∧ v ≠ [] then { f with username := some v }
  else if key = displayNameKey ∧ v ≠ [] then { f with displayName := some v }
  else if key = createdByKey ∧ v ≠ [] then { f with createdBy := some v }
  else f

/-- The line of another field is read as its value. -/
theorem parseLine_field {key v : Text} (hk : key ∈ keys) (hne : key ≠ updatedAtKey) (hv : v ≠ [] → Clean v) (f : Fields) :
    parseLine R f (fieldLine key v) = .ok (f.set key v) := by
  simp only [parseLine, splitOnce_fieldLine hk, trimChars_value hv, (keys_plain hk).2.2.1, if_neg hne, Fields.set]
  split
  · rfl
  split
  · rfl
  split
  · rfl
  · rfl

/-- The lines of an optional field. -/
theorem parseLines_field {key : Text} {v : Option Text} (hk : key ∈ keys) (hne : key ≠ updatedAtKey)
    (hv : ∀ w ∈ nonempty v, Clean w) (f : Fields) (rest : List Text) :
    parseLines R f (fieldLines key v ++ rest) = parseLines R ((nonempty v).elim f (f.set key)) rest := by
  cases v with
  | none => rfl
  | some w =>
    have hw : parseLine R f (fieldLine key w) = .ok (f.set key w) :=
      parseLine_field hk hne (fun h => hv w (mem_nonempty.mpr ⟨rfl, h⟩)) f
    have hlines : fieldLines key (some w) ++ rest = fieldLine key w :: rest := rfl
    rw [hlines, parseLines, hw]
    by_cases hnil : w = []
    · rw [hnil, nonempty_nil]
      simp [Fields.set]
    · rw [nonempty_some hnil]
      rfl

/-- The lines of a clean frontmatter give its values back. -/
theorem parseLines_frontmatter {fm : Frontmatter} (h : fm.Clean) (ht : FourDigitYear fm.updatedAt) :
    parseLines R .none (fieldLine updatedAtKey (R.format fm.updatedAt) :: fm.lines) =
      .ok ⟨some (toMillis fm.updatedAt), nonempty fm.username, nonempty fm.displayName, nonempty fm.createdBy⟩ := by
  obtain ⟨hu, hd, hc, hdu, hcu, hcd⟩ := keys_ne
  have hend : fm.lines = fieldLines usernameKey fm.username ++ (fieldLines displayNameKey fm.displayName ++
      (fieldLines createdByKey fm.createdBy ++ [])) := by
    simp [Frontmatter.lines]
  rw [parseLines, parseLine_updatedAt ht]
  dsimp only
  rw [hend, parseLines_field (by simp [keys]) hu h.username, parseLines_field (by simp [keys]) hd h.displayName,
    parseLines_field (by simp [keys]) hc h.createdBy, parseLines]
  -- what is left is the fields, set one after the other
  have hset : ∀ (f : Fields) (key : Text) (o : Option Text), (nonempty o).elim f (f.set key) =
      if key = usernameKey then { f with username := (nonempty o).or f.username }
      else if key = displayNameKey then { f with displayName := (nonempty o).or f.displayName }
      else if key = createdByKey then { f with createdBy := (nonempty o).or f.createdBy } else f := by
    intro f key o
    cases hn : nonempty o with
    | none => simp
    | some v =>
      have hv : v ≠ [] := (mem_nonempty.mp hn).2
      simp only [Option.elim_some, Fields.set, hv, ne_eq, not_false_eq_true, and_true, Option.some_or]
  rw [hset, if_pos rfl, hset, if_neg hdu, if_pos rfl, hset, if_neg hcu, if_neg hcd, if_pos rfl]
  simp only [Fields.none, Option.or_none]

/-- A frontmatter whose values are clean is read back, with the body. -/
theorem parse_emit {fm : Frontmatter} (h : fm.Clean) (ht : FourDigitYear fm.updatedAt) (body : Text) :
    parse R (emit R fm body) = .ok
      (⟨toMillis fm.updatedAt, nonempty fm.username, nonempty fm.displayName, nonempty fm.createdBy⟩, body) := by
  have hplain : ∀ x ∈ fieldLine updatedAtKey (R.format fm.updatedAt) :: fm.lines, '\n' ∉ x ∧ x ≠ [] ∧
      x.getLast? ≠ some '\r' := by
    intro x hx
    rcases List.mem_cons.mp hx with rfl | hx
    · have hk : updatedAtKey ∈ keys := by simp [keys]
      obtain ⟨hn, hne, hr, -⟩ := fieldLine_plain hk fun _ => ⟨R.format_trimmed _ ht, R.format_one_line _ ht⟩
      exact ⟨hn, hne, hr⟩
    · obtain ⟨key, v, hk, hv, rfl⟩ := mem_frontmatter_lines hx
      obtain ⟨hn, hne, hr, -⟩ := fieldLine_plain hk (h.value hv)
      exact ⟨hn, hne, hr⟩
  have hvalue : ∀ v, fm.username = some v ∨ fm.displayName = some v ∨ fm.createdBy = some v → '\n' ∉ v := by
    intro v hv
    by_cases hne : v = []
    · simp [hne]
    · exact (h.value hv hne).2
  have hsplit := splitOnce_emit (R := R) ht hvalue body
  have hlines := lines_moreLines (fieldLine updatedAtKey (R.format fm.updatedAt)) fm.lines hplain
  rw [emit_eq, stripPrefix_eq_some.mpr rfl, Option.bind_some] at hsplit
  rw [parse, emit_eq, stripPrefix_eq_some.mpr rfl]
  simp only [hsplit, hlines, parseLines_frontmatter h ht]

/-- Where every value is on one line, what is read after the frontmatter is the body. -/
theorem body_of_parse_emit {fm fm' : Frontmatter} (ht : FourDigitYear fm.updatedAt)
    (hv : ∀ v, fm.username = some v ∨ fm.displayName = some v ∨ fm.createdBy = some v → '\n' ∉ v) {body body' : Text}
    (h : parse R (emit R fm body) = .ok (fm', body')) : body' = body := by
  have hsplit := splitOnce_emit (R := R) ht hv body
  rw [emit_eq, stripPrefix_eq_some.mpr rfl, Option.bind_some] at hsplit
  rw [parse, emit_eq, stripPrefix_eq_some.mpr rfl] at h
  simp only [hsplit] at h
  split at h
  · cases h
  split at h
  · cases h
  · cases h
    rfl

/-! ## What is parsed is clean -/

/-- Every value that was read so far is clean. -/
structure Fields.Clean (f : Fields) : Prop where
  username : ∀ v ∈ f.username, Memory.Clean v ∧ v ≠ []
  displayName : ∀ v ∈ f.displayName, Memory.Clean v ∧ v ≠ []
  createdBy : ∀ v ∈ f.createdBy, Memory.Clean v ∧ v ≠ []

/-- A line is read as clean values. -/
theorem clean_parseLine {f f' : Fields} {line : Text} (hf : f.Clean) (hl : '\n' ∉ line)
    (h : parseLine R f line = .ok f') : f'.Clean := by
  unfold parseLine at h
  split at h
  · cases h
    exact hf
  · rename_i k v hs
    have hline := eq_of_splitOnce hs
    have hv : Memory.Clean (trimChars v) := by
      refine ⟨trimmed_trimChars v, fun hn => hl ?_⟩
      rw [hline]
      exact List.mem_append_right _ (trimChars_subset v hn)
    dsimp only at h
    split at h
    · split at h
      · cases h
      · cases h
        exact ⟨hf.username, hf.displayName, hf.createdBy⟩
    split at h
    · rename_i hne
      cases h
      refine ⟨?_, hf.displayName, hf.createdBy⟩
      rintro w ⟨rfl⟩
      exact ⟨hv, hne.2⟩
    split at h
    · rename_i hne
      cases h
      refine ⟨hf.username, ?_, hf.createdBy⟩
      rintro w ⟨rfl⟩
      exact ⟨hv, hne.2⟩
    split at h
    · rename_i hne
      cases h
      refine ⟨hf.username, hf.displayName, ?_⟩
      rintro w ⟨rfl⟩
      exact ⟨hv, hne.2⟩
    · cases h
      exact hf

/-- Lines are read as clean values. -/
theorem clean_parseLines {f f' : Fields} {ls : List Text} (hf : f.Clean) (hl : ∀ l ∈ ls, '\n' ∉ l)
    (h : parseLines R f ls = .ok f') : f'.Clean := by
  induction ls generalizing f with
  | nil =>
    cases h
    exact hf
  | cons l ls ih =>
    unfold parseLines at h
    split at h
    · cases h
    · rename_i g hg
      exact ih (clean_parseLine hf (hl l (by simp)) hg) (fun x hx => hl x (List.mem_cons_of_mem l hx)) h

/-- The values of every file that can be read are clean, and none is empty. -/
theorem clean_of_parse {raw : Text} {fm : Frontmatter} {body : Text} (h : parse R raw = .ok (fm, body)) :
    (∀ v ∈ fm.username, Clean v ∧ v ≠ []) ∧ (∀ v ∈ fm.displayName, Clean v ∧ v ≠ []) ∧
      ∀ v ∈ fm.createdBy, Clean v ∧ v ≠ [] := by
  unfold parse at h
  split at h
  · cases h
  split at h
  · cases h
  split at h
  · cases h
  · rename_i f hf
    have hclean : f.Clean := by
      refine clean_parseLines ⟨?_, ?_, ?_⟩ (fun l hl => newline_lines hl) hf
      · rintro v ⟨⟩
      · rintro v ⟨⟩
      · rintro v ⟨⟩
    split at h
    · cases h
    · cases h
      exact ⟨hclean.username, hclean.displayName, hclean.createdBy⟩

/-! ## Texts of instants -/

/-- The evening of a day in April 2026, as RFC 3339 writes it. -/
def eveningText : Text := "2026-04-28T18:42:00.000Z".toList

def evening : Instant := seconds 1777401720

/-- Milliseconds since the year 0. -/
def millisOf (t : Instant) : Nat := ((t - seconds (-62167219200)) / 1000000).toNat

theorem trimmed_eveningText : Trimmed eveningText := by decide +kernel

/-- Milliseconds are what is left of an instant of a year that RFC 3339 can write. -/
theorem seconds_add_millisOf {t : Instant} (h : seconds (-62167219200) ≤ t) :
    seconds (-62167219200) + millisOf t * 1000000 = toMillis t := by
  unfold toMillis millisOf seconds Instant at *
  omega

/-- Texts of instants for examples: RFC 3339 in that evening, and at any other time a number of milliseconds. -/
def Rfc3339.sample : Rfc3339 where
  format t := if toMillis t = evening then eveningText else Nat.toDigits 10 (millisOf t)
  parse s :=
    if s = eveningText then .ok evening
    else if s ≠ [] ∧ s.all Char.isDigit then .ok (seconds (-62167219200) + Nat.ofDigitChars 10 s 0 * 1000000)
    else .error "input contains invalid characters".toList
  format_ne_nil t _ := by
    split
    · decide
    · exact Nat.toDigits_ne_nil
  format_trimmed t _ := by
    split
    · exact trimmed_eveningText
    · constructor
      · intro c hc
        exact not_isWhitespace_of_isDigit (Nat.isDigit_of_mem_toDigits (by decide) (by decide) (List.mem_of_mem_head? hc))
      · intro c hc
        exact not_isWhitespace_of_isDigit (Nat.isDigit_of_mem_toDigits (by decide) (by decide) (List.mem_of_mem_getLast? hc))
  format_one_line t _ := by
    split
    · decide
    · intro h
      cases Nat.isDigit_of_mem_toDigits (by decide) (by decide) h
  parse_format t ht := by
    obtain ⟨hlo, _⟩ := ht
    by_cases h : toMillis t = evening
    · rw [if_pos h, if_pos rfl, h]
    · have hdigits : (Nat.toDigits 10 (millisOf t)).all Char.isDigit = true := by
        rw [List.all_eq_true]
        exact fun c hc => Nat.isDigit_of_mem_toDigits (by decide) (by decide) hc
      have hne : Nat.toDigits 10 (millisOf t) ≠ eveningText := by
        intro heq
        rw [heq] at hdigits
        revert hdigits
        decide
      rw [if_neg h, if_neg hne, if_pos ⟨Nat.toDigits_ne_nil, hdigits⟩, Nat.ofDigitChars_ten_toDigits,
        seconds_add_millisOf hlo]

end Twitch1337.Memory
