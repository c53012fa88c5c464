import Twitch1337.Ping.Trigger
import Twitch1337.Theorems.Outbound
import Twitch1337.Theorems.Pings

/-!
# Whom a fired ping reaches

The text of a ping goes through two substitutions and the cleaning of outbound messages. A mention is lost if it stands behind what
a message can hold, if its name is not clean, or if a placeholder begins in it.
-/

namespace Twitch1337.Pings

open Text ChatSender Machine

variable {p : Ping} {sender : Text}

/-! ## What is rendered -/

/-- Who is mentioned: every member, but for the sender where the template names them. -/
def Ping.Due (p : Ping) (sender member : Text) : Prop :=
  member ∈ p.members ∧ (Text.contains "{sender}".toList p.template = true → member ≠ sender)

/-- The mentions of a ping. -/
def Ping.mentions (p : Ping) (sender : Text) : Text :=
  [' '].intercalate ((p.members.filter fun m => !Text.contains "{sender}".toList p.template || m != sender).map fun m => '@' :: m)

theorem mention_mem {member : Text} (h : p.Due sender member) :
    '@' :: member ∈ (p.members.filter fun m => !Text.contains "{sender}".toList p.template || m != sender).map fun m => '@' :: m := by
  refine List.mem_map.mpr ⟨member, List.mem_filter.mpr ⟨h.1, ?_⟩, rfl⟩
  cases hc : Text.contains "{sender}".toList p.template with
  | false => rfl
  | true => simpa using h.2 hc

theorem render_eq_some {text : Text} (h : p.render sender = some text) : p.mentions sender ≠ [] ∧
    text = Text.replace "{sender}".toList ('@' :: sender) (Text.replace "{mentions}".toList (p.mentions sender) p.template) := by
  unfold Ping.render at h
  dsimp only at h
  split at h
  · cases h
  · rename_i hne
    exact ⟨by simpa [Ping.mentions, List.isEmpty_iff] using hne, (Option.some.inj h).symm⟩

/-- Somebody is mentioned where anything is rendered. -/
theorem exists_due {text : Text} (h : p.render sender = some text) : ∃ member, p.Due sender member := by
  obtain ⟨hne, -⟩ := render_eq_some h
  cases hdue : p.members.filter fun m => !Text.contains "{sender}".toList p.template || m != sender with
  | nil =>
    rw [Ping.mentions, hdue] at hne
    exact absurd rfl hne
  | cons member rest =>
    have hmem : member ∈ p.members.filter fun m => !Text.contains "{sender}".toList p.template || m != sender := by
      rw [hdue]
      exact List.mem_cons_self
    obtain ⟨hmember, hdue⟩ := List.mem_filter.mp hmem
    refine ⟨member, hmember, fun hc => ?_⟩
    rw [hc] at hdue
    exact bne_iff_ne.mp hdue

theorem render_of_fire {m : PingManager} {name sender text : Text} {default checked recorded : Nat} {isPublic saved : Bool}
    {utc : Int} (h : (m.tryRecordTrigger name sender default isPublic checked recorded utc saved).2 = .fire text) :
    ∃ p, m.store.lookup name = some p ∧ p.render sender = some text := by
  unfold PingManager.tryRecordTrigger at h
  split at h
  · cases h
  · split at h
    · cases h
    · split at h
      · cases h
      · rename_i rendered hrender
        obtain rfl := TriggerDecision.fire.inj h
        unfold PingManager.renderTemplate at hrender
        split at hrender
        · cases hrender
        · exact ⟨_, ‹_›, hrender⟩

/-! ## What keeps the mentions -/

/-- The text up to the end of the mentions, where `before` is in front of the first placeholder for them. -/
def Ping.opening (p : Ping) (sender before : Text) : Text :=
  Text.replace "{sender}".toList ('@' :: sender) before ++ p.mentions sender

/-- What is behind the mentions, before the sender is filled in. -/
def Ping.rest (p : Ping) (sender behind : Text) : Text := Text.replace "{mentions}".toList (p.mentions sender) behind

/-- Nothing happens to the mentions on their way. -/
structure Ping.Undamaged (p : Ping) (sender before behind : Text) : Prop where
  /-- Blanks in a name are single spaces. -/
  clean : ∀ member, p.Due sender member → Clean member
  /-- No placeholder for the sender begins in a mention. -/
  apart : ∀ x y, p.mentions sender ++ p.rest sender behind = x ++ "{sender}".toList ++ y → (p.mentions sender).length ≤ x.length
  /-- The mentions are among what a message that is cut can hold, or nothing is cut. -/
  fits : utf8Len (collapsed (p.opening sender before)) ≤ 477 ∨
    utf8Len (collapsed (p.opening sender before ++ Text.replace "{sender}".toList ('@' :: sender) (p.rest sender behind))) ≤ 480

theorem render_undamaged {text before behind : Text} (h : p.render sender = some text)
    (hsplit : splitOnce "{mentions}".toList p.template = some (before, behind)) (hu : p.Undamaged sender before behind) :
    text = p.opening sender before ++ Text.replace "{sender}".toList ('@' :: sender) (p.rest sender behind) := by
  obtain ⟨hne, rfl⟩ := render_eq_some h
  have hat : ∃ more, p.mentions sender = '@' :: more := by
    unfold Ping.mentions at hne ⊢
    generalize (p.members.filter fun m => !Text.contains "{sender}".toList p.template || m != sender) = due at hne
    cases due with
    | nil => exact absurd rfl hne
    | cons m due => exact ⟨_, List.intercalate_cons_cons_left⟩
  obtain ⟨more, hmore⟩ := hat
  rw [replace_of_splitOnce (by decide) hsplit, ← Ping.rest, List.append_assoc, Ping.opening, List.append_assoc,
    ← replace_append hu.apart]
  rw [hmore, List.cons_append]
  exact replace_append_cons (by decide) (by decide) _ _ _

/-- A mention of a clean name stays as it is. -/
theorem infix_collapsed {member : Text} (h : Clean member) (a b : Text) : '@' :: member <:+: collapsed (a ++ '@' :: member ++ b) := by
  obtain ⟨prev, hprev⟩ := Words.exists_squeeze_append isSpace ' ' false a ('@' :: (member ++ b))
  obtain ⟨prev', hprev'⟩ := Words.exists_squeeze_append isSpace ' ' false member b
  have hat : ∀ l, Words.squeeze isSpace ' ' prev ('@' :: l) = '@' :: Words.squeeze isSpace ' ' false l := fun l =>
    if_neg (by decide)
  have hsame : Words.squeeze isSpace ' ' false member = member := h.collapsed_eq
  rw [collapsed, List.append_assoc, List.cons_append, hprev, hat, hprev', hsame]
  exact ⟨Words.squeeze isSpace ' ' false a, Words.squeeze isSpace ' ' prev' b, by simp⟩

/-- The beginning of a text is sent if it leaves room for the ellipsis, or if nothing is cut. -/
theorem exists_outgoing {a b : Text} (hne : collapsed a ≠ [])
    (h : utf8Len (collapsed a) ≤ 477 ∨ utf8Len (collapsed (a ++ b)) ≤ 480) :
    ∃ out, outgoing (a ++ b) = some (some out) ∧ collapsed a <+: out := by
  obtain ⟨prev, hprev⟩ := Words.exists_squeeze_append isSpace ' ' false a b
  have hprefix : collapsed a <+: collapsed (a ++ b) := ⟨_, hprev.symm⟩
  suffices ∃ out, sanitizeOutbound (a ++ b) = some out ∧ collapsed a <+: out by
    obtain ⟨out, hout, hp⟩ := this
    have hfull : out.isEmpty = false := by
      rw [List.isEmpty_eq_false_iff]
      rintro rfl
      exact hne (List.prefix_nil.mp hp)
    refine ⟨out, ?_, hp⟩
    rw [outgoing, hout, Option.map_some, hfull]
    rfl
  obtain hlong | hshort := Nat.lt_or_ge 480 (utf8Len (collapsed (a ++ b)))
  · obtain ⟨cut, hcut, hout⟩ := exists_sanitizeOutbound_of_long hlong
    exact ⟨_, hout, (hcut.longest _ hprefix (h.resolve_right (by omega))).trans (List.prefix_append _ _)⟩
  · exact ⟨_, sanitizeOutbound_of_short hshort, hprefix⟩

/-- Undamaged mentions are all in what is sent. -/
theorem reaches_of_undamaged {text before behind : Text} (h : p.render sender = some text)
    (hsplit : splitOnce "{mentions}".toList p.template = some (before, behind)) (hu : p.Undamaged sender before behind) :
    ∃ out, outgoing text = some (some out) ∧ ∀ member, p.Due sender member → '@' :: member <:+: out := by
  have hmention : ∀ member, p.Due sender member → '@' :: member <:+: collapsed (p.opening sender before) := by
    intro member hdue
    obtain ⟨x, y, hxy⟩ := Words.infix_intercalate ' ' (mention_mem hdue)
    rw [Ping.opening, Ping.mentions, ← hxy, ← List.append_assoc, ← List.append_assoc]
    exact infix_collapsed (hu.clean member hdue) _ _
  have hne : collapsed (p.opening sender before) ≠ [] := by
    obtain ⟨member, hdue⟩ := exists_due h
    intro hnil
    have := hmention member hdue
    rw [hnil] at this
    simp at this
  rw [render_undamaged h hsplit hu]
  obtain ⟨out, hout, hp⟩ := exists_outgoing hne hu.fits
  exact ⟨out, hout, fun member hdue => (hmention member hdue).trans hp.isInfix⟩

/-! ## Runs -/

/-- A trigger that is answered with `Fire`, of a ping with a placeholder for the mentions. -/
structure FiresAt (lower : Text → Text) (m : PingManager) (e : Event) (p : Ping) (sender text before behind : Text) : Prop where
  trigger : ∃ name default isPublic, e.command = .tryRecordTrigger name sender default isPublic ∧ m.store.lookup name = some p
  fire : (m.handle lower e).2 = .decision (.fire text)
  placeholder : splitOnce "{mentions}".toList p.template = some (before, behind)

/-- Whatever fires finds the mentions undamaged. -/
def Safe (lower : Text → Text) (m : PingManager) : Move → Prop
  | .command e => ∀ p sender text before behind, FiresAt lower m e p sender text before behind → p.Undamaged sender before behind
  | .reorder _ _ => True

/-- Whatever fires mentions somebody, and what is sent has everybody's mention. -/
def ReachesAll (lower : Text → Text) (m : PingManager) : Move → Prop
  | .command e => ∀ p sender text before behind, FiresAt lower m e p sender text before behind →
      (∃ member, p.Due sender member) ∧
        ∃ out, outgoing text = some (some out) ∧ ∀ member, p.Due sender member → '@' :: member <:+: out
  | .reorder _ _ => True

theorem FiresAt.render {lower : Text → Text} {m : PingManager} {e : Event} {text before behind : Text}
    (h : FiresAt lower m e p sender text before behind) : p.render sender = some text := by
  obtain ⟨name, default, isPublic, hcommand, hlookup⟩ := h.trigger
  have hfire := h.fire
  simp only [PingManager.handle, hcommand, Reply.decision.injEq] at hfire
  obtain ⟨p', hp', hrender⟩ := render_of_fire hfire
  obtain rfl := Option.some.inj (hlookup.symm.trans hp')
  exact hrender

theorem reachesAll_of_safe {lower : Text → Text} {m : PingManager} {move : Move} (h : Safe lower m move) :
    ReachesAll lower m move := by
  cases move with
  | reorder => trivial
  | command e =>
    intro p sender text before behind hfires
    exact ⟨exists_due hfires.render, reaches_of_undamaged hfires.render hfires.placeholder (h p sender text before behind hfires)⟩

/-- In a run in which the mentions are undamaged whenever a ping fires, every fired ping reaches all its members. -/
theorem fired_reaches_all (lower : Text → Text) (stored : PingStore) {moves : List Move}
    (h : Meets (Move.step lower) (Safe lower) (.load stored) moves) :
    Meets (Move.step lower) (ReachesAll lower) (.load stored) moves :=
  h.mono fun _ _ => reachesAll_of_safe

/-- A ping with two members, which the first of them triggers. -/
theorem fired_reaches_all_two :
    Meets (Move.step toAsciiLowercase) (ReachesAll toAsciiLowercase) (.load ∅)
      ((setup 0 ++ [⟨.addMember "raid".toList "Amy".toList, 0, 0, 0, true⟩, trigger 0]).map Move.command) := by
  refine fired_reaches_all toAsciiLowercase ∅
    ⟨?_, fun m₁ h₁ => ⟨?_, fun m₂ h₂ => ⟨?_, fun m₃ h₃ => ⟨?_, fun _ _ => trivial⟩⟩⟩⟩
  · rintro p sender text before behind ⟨⟨_, _, _, hcommand, -⟩, -, -⟩
    cases hcommand
  · rintro p sender text before behind ⟨⟨_, _, _, hcommand, -⟩, -, -⟩
    cases hcommand
  · rintro p sender text before behind ⟨⟨_, _, _, hcommand, -⟩, -, -⟩
    cases hcommand
  · rintro p sender text before behind ⟨⟨_, _, _, hcommand, hlookup⟩, -, hsplit⟩
    cases hcommand
    obtain rfl := Option.some.inj h₁
    obtain rfl := Option.some.inj h₂
    obtain rfl := Option.some.inj h₃
    obtain rfl : p = ⟨"Hey {mentions}".toList, ["bob".toList, "amy".toList], none, "mod".toList, none, 0⟩ := by
      have : (some p : Option Ping) = some ⟨"Hey {mentions}".toList, ["bob".toList, "amy".toList], none, "mod".toList, none, 0⟩ :=
        hlookup.symm.trans (by rfl)
      exact Option.some.inj this
    obtain ⟨rfl, rfl⟩ : "Hey ".toList = before ∧ [] = behind := by
      have : some ("Hey ".toList, ([] : Text)) = some (before, behind) := Eq.trans (by rfl) hsplit
      exact Prod.mk.inj (Option.some.inj this)
    refine ⟨?_, fun x y hxy => ?_, .inl (by decide)⟩
    · rintro member ⟨hmember, -⟩
      have hsolid : ∀ c ∈ member, isSpace c = false := fun c hc => by
        have hall : ["bob".toList, "amy".toList].all (fun m => m.all fun c => !isSpace c) = true := by decide
        simpa using List.all_eq_true.mp (List.all_eq_true.mp hall member hmember) c hc
      refine ⟨fun c hc hb => ?_, Words.Spaced.of_solid hsolid⟩
      rw [hsolid c hc] at hb
      cases hb
    · have hno : ¬ "{sender}".toList <:+: "@bob @amy".toList := by decide
      exact absurd ⟨x, y, hxy.symm⟩ hno

/-- A ping for which twenty-five users with long names have signed up. -/
def crowd : List Event :=
  ⟨.createPing "raid".toList "{mentions}".toList "mod".toList none, 0, 0, 0, true⟩ ::
    (List.range 25).map fun i => ⟨.addMember "raid".toList (List.replicate 20 (Char.ofNat (97 + i))), 0, 0, 0, true⟩

/-- A moderator's trigger of it. -/
def crowdTrigger : Event := ⟨.tryRecordTrigger "raid".toList "mod".toList 0 true, 0, 0, 0, true⟩

/-- The last who signed up. -/
def latecomer : Text := List.replicate 20 'y'

/-- The manager when all have signed up, its ping, and the text that is fired. -/
def crowded : PingManager := (run (Move.step toAsciiLowercase) (.load ∅) (crowd.map Move.command)).getD (.load ∅)

def crowdedPing : Ping := (crowded.store.lookup "raid".toList).getD ⟨[], [], none, [], none, 0⟩

def crowdedText : Text := (crowdedPing.render "mod".toList).getD []

theorem crowded_facts :
    (run (Move.step toAsciiLowercase) (.load ∅) (crowd.map Move.command)).isSome = true ∧
      crowded.store.lookup "raid".toList = some crowdedPing ∧
      (crowded.handle toAsciiLowercase crowdTrigger).2 = .decision (.fire crowdedText) ∧
      splitOnce "{mentions}".toList crowdedPing.template = some ([], []) ∧ latecomer ∈ crowdedPing.members ∧
      Text.contains "{sender}".toList crowdedPing.template = false ∧
      (outgoing crowdedText).map (·.map (Text.contains ('@' :: latecomer))) = some (some false) := by
  decide +kernel

/-- The last mentions are cut off. -/
theorem not_reachesAll : ¬ Meets (Move.step toAsciiLowercase) (ReachesAll toAsciiLowercase) (.load ∅)
    ((crowd ++ [crowdTrigger]).map Move.command) := by
  intro h
  obtain ⟨hrun, hlookup, hfire, hsplit, hmember, hsender, hlost⟩ := crowded_facts
  rw [List.map_append, List.map_cons, List.map_nil] at h
  have hreach := h.at_run (Option.getD_of_ne_none (Option.isSome_iff_ne_none.mp hrun) (.load ∅)).symm
  obtain ⟨-, out, hout, hall⟩ := hreach crowdedPing "mod".toList crowdedText [] []
    ⟨⟨_, _, _, rfl, hlookup⟩, hfire, hsplit⟩
  have hin := hall latecomer ⟨hmember, fun hc => by rw [hsender] at hc; cases hc⟩
  rw [hout, Option.map_some, Option.map_some, Option.some.injEq, Option.some.injEq] at hlost
  rw [contains_iff.mpr hin] at hlost
  cases hlost

end Twitch1337.Pings
