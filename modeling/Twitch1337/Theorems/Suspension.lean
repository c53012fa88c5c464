import Twitch1337.Bot.Suspension

/-!
# What is suspended stays silent

`!suspend` stores a command under its normalised name, and the dispatcher looks the name up that the command answers with.
They are the same for every trigger that a command accepts, but for the mention that stands for `!ai`, and for `!dÖner`, in
upper and lower case of the ASCII letters: what was suspended as one of these still runs.
-/

namespace Twitch1337.Dispatch

open Dashboard RustStr

/-! ## Names -/

/-- No letter is an exclamation mark in lower case. -/
theorem toLower_beq_bang (c : Char) : (c.toLower == '!') = (c == '!') := by
  by_cases hc : c.toNat < 128
  · exact ascii_induction (P := fun c => (c.toLower == '!') = (c == '!')) (by decide) hc
  · rw [toLower_of_not_ascii hc]

/-- The normalised name depends on the name up to the case of ASCII letters. -/
theorem normalizeCommandName_congr {a b : String} (h : asciiFold a = asciiFold b) :
    normalizeCommandName a = normalizeCommandName b := by
  have hbang : ((· == '!') ∘ Char.toLower : Char → Bool) = (· == '!') := funext toLower_beq_bang
  have hfold (s : String) : asciiFold (String.ofList (s.toList.dropWhile (· == '!'))) = (asciiFold s).dropWhile (· == '!') := by
    rw [asciiFold, asciiFold, String.toList_ofList, List.dropWhile_map, hbang]
  have hlower := toAsciiLowercase_eq_iff.mpr ((hfold a).trans ((congrArg _ h).trans (hfold b).symm))
  rw [normalizeCommandName, normalizeCommandName, hlower]

/-- The mark before a word does not matter. -/
theorem normalizeCommandName_bang (w : String) : normalizeCommandName ("!" ++ w) = normalizeCommandName w := by
  have hdrop : ("!" ++ w).toList.dropWhile (· == '!') = w.toList.dropWhile (· == '!') := by
    rw [String.toList_append]
    rfl
  rw [normalizeCommandName, normalizeCommandName, hdrop]

/-- The manager looks names up as they were normalised. -/
@[simp] theorem toAsciiLowercase_normalizeCommandName (w : String) :
    toAsciiLowercase (normalizeCommandName w) = normalizeCommandName w := by
  unfold normalizeCommandName
  dsimp only
  split
  · decide
  · rw [toAsciiLowercase_toAsciiLowercase]

/-- It stays in lower case. -/
theorem asciiFold_bang (w : String) : asciiFold ("!" ++ w) = '!' :: asciiFold w := by
  rw [asciiFold, String.toList_append, List.map_append]
  rfl

/-- A word spells another one: with a `!` more or without, in any ASCII case. -/
def Spelling (w word : String) : Prop := eqIgnoreAsciiCase word w = true ∨ eqIgnoreAsciiCase word ("!" ++ w) = true

/-- The case of the letters of a word does not matter. -/
theorem normalizeCommandName_of_spelling {w word : String} (h : Spelling w word) :
    normalizeCommandName word = normalizeCommandName w := by
  rcases h with h | h
  · exact normalizeCommandName_congr (eqIgnoreAsciiCase_iff.mp h)
  · rw [normalizeCommandName_congr (eqIgnoreAsciiCase_iff.mp h), normalizeCommandName_bang]

/-! ## What the commands answer -/

/-- The triggers that a command answers with another name than theirs. -/
inductive Stray (r : Registry) (trigger : String) : Prop where
  | mention (hai : r.hasAi = true) (h : eqIgnoreAsciiCase trigger "@grok" = true)
  | umlaut (h : eqIgnoreAsciiCase trigger "!dÖner" = true)

variable {T : LowerTable} {r : Registry} {pingNames : List String}

/-- The words of the AI have its key, but for one. -/
theorem suspendKey_ai {trigger : String} (h : isAiTrigger trigger = true) :
    normalizeCommandName trigger = "ai" ∨ eqIgnoreAsciiCase trigger "@grok" = true := by
  rw [isAiTrigger, Bool.or_eq_true] at h
  rcases h with h | h
  · refine .inl ?_
    rw [normalizeCommandName_congr (eqIgnoreAsciiCase_iff.mp h)]
    decide
  · exact .inr h

/-- What is `doener` in lower case is so in ASCII lower case. -/
theorem asciiFold_of_doener {l : List Char} (h : T.lowerFrom [] l = "doener".toList) : l.map Char.toLower = "doener".toList := by
  have hletter : ∀ x ∈ "doener".toList, x.isLower = true ∧ x ≠ 'i' ∧ x ≠ 'k' := by simp
  have hascii : ∀ x ∈ "doener".toList, x ≠ 'ö' := by simp
  have hall := (LowerTable.lowerFrom_eq_iff fun x hx => .inl (hletter x hx)).mp h
  clear h hletter
  generalize "doener".toList = target at hall hascii
  induction hall with
  | nil => rfl
  | cons hlowers _ ih =>
    rw [List.map_cons, ih fun y hy => hascii y (List.mem_cons_of_mem _ hy)]
    rcases hlowers with hlower | ⟨-, humlaut⟩
    · rw [hlower]
    · exact absurd humlaut (hascii _ List.mem_cons_self)

/-- What is `döner` in lower case is so in ASCII lower case, or its umlaut is a capital. -/
theorem asciiFold_of_umlaut {l : List Char} (h : T.lowerFrom [] l = "döner".toList) :
    l.map Char.toLower = "döner".toList ∨ l.map Char.toLower = "dÖner".toList := by
  have hletter : ∀ x ∈ "döner".toList, (x.isLower = true ∧ x ≠ 'i' ∧ x ≠ 'k') ∨ x = 'ö' := by simp
  have hall := (LowerTable.lowerFrom_eq_iff hletter).mp h
  have htext : "döner".toList = ['d', 'ö', 'n', 'e', 'r'] := by decide
  rw [htext] at hall ⊢
  have hascii {c x : Char} (hx : x ≠ 'ö') (hc : Lowers c x) : c.toLower = x := by
    rcases hc with hc | ⟨-, hc⟩
    · exact hc
    · exact absurd hc hx
  rcases hall with _ | ⟨hd, _ | ⟨ho, _ | ⟨hn, _ | ⟨he, _ | ⟨hr, _ | _⟩⟩⟩⟩⟩
  simp only [List.map_cons, List.map_nil, hascii (by decide) hd, hascii (by decide) hn, hascii (by decide) he,
    hascii (by decide) hr]
  rcases ho with ho | ⟨rfl, -⟩
  · rw [ho]
    exact .inl rfl
  · exact .inr (by decide)

/-- The words of the other command have its key, but for one. -/
theorem suspendKey_doener {trigger : String} (h : matchesDoenerTrigger T trigger = true) :
    normalizeCommandName trigger = "doener" ∨ eqIgnoreAsciiCase trigger "!dÖner" = true := by
  unfold matchesDoenerTrigger at h
  split at h
  · rename_i stripped htrigger
    have hfold (name : String) (hname : stripped.map Char.toLower = name.toList) :
        asciiFold trigger = '!' :: name.toList := by
      rw [asciiFold, htrigger, List.map_cons, hname]
      rfl
    simp only [Bool.or_eq_true, beq_iff_eq, LowerTable.toLowercase, String.toList_ofList, ← String.toList_inj] at h
    rcases h with h | h
    · rcases asciiFold_of_umlaut h with h | h
      · refine .inl ((normalizeCommandName_congr (b := "!döner") ?_).trans (by decide))
        rw [hfold _ h]
        decide
      · refine .inr (eqIgnoreAsciiCase_iff.mpr ?_)
        rw [hfold _ h]
        decide
    · refine .inl ((normalizeCommandName_congr (b := "!doener") ?_).trans (by decide))
      rw [hfold _ (asciiFold_of_doener h)]
      decide
  · cases h

/-- Two commands answer with a name of their own, the others with the normalised trigger. -/
theorem mem_cmdList : ∀ c ∈ cmdList T r pingNames,
    c.suspendKey = normalizeCommandName ∨ c = doenerCalcCommand T ∨ c = aiCommand ∧ r.hasAi = true := by
  rw [cmdList, List.forall_mem_append, List.forall_mem_append, List.forall_mem_append]
  refine ⟨⟨⟨?_, ?_⟩, ?_⟩, ?_⟩
  · simp [Command.named, flightsAboveCommand]
  · split
    · simp [Command.named]
    · exact List.forall_mem_nil _
  · split
    · rename_i hai
      simp [Command.named, hai]
    · exact List.forall_mem_nil _
  · simp [pingTriggerCommand]

/-- Every command answers with the normalised trigger, when it is no stray one. -/
theorem suspendKey_eq_or_stray {c : Command} {trigger : String} (hc : c ∈ cmdList T r pingNames)
    (h : c.accepts trigger = true) : c.suspendKey trigger = normalizeCommandName trigger ∨ Stray r trigger := by
  rcases mem_cmdList c hc with hkey | rfl | ⟨rfl, hai⟩
  · exact .inl (congrFun hkey trigger)
  · rcases suspendKey_doener h with hkey | hstray
    · exact .inl hkey.symm
    · exact .inr (.umlaut hstray)
  · rcases suspendKey_ai h with hkey | hstray
    · exact .inl hkey.symm
    · exact .inr (.mention hai hstray)

/-! ## The manager and the calls -/

/-- When the suspension of a command expires, after these calls. The latest one that names the command decides. -/
def expiryOf (w : String) : List Call → Option Nat
  | [] => none
  | .suspend command expiry :: earlier =>
    if normalizeCommandName w = normalizeCommandName command then some expiry else expiryOf w earlier
  | .unsuspend command :: earlier =>
    if normalizeCommandName w = normalizeCommandName command then none else expiryOf w earlier

/-- The manager holds what the calls have left, and never one of the commands that cannot be suspended. -/
structure Consistent (running : Running) : Prop where
  lookup : ∀ w, AList.lookup (normalizeCommandName w) running.manager = expiryOf w running.calls
  exempt : ∀ key ∈ exemptCommands, AList.lookup key running.manager = none

/-- At the start nothing is suspended. -/
theorem consistent_new : Consistent .new where
  lookup _ := rfl
  exempt _ _ := rfl

/-- What `!suspend` is asked for is no exempt command. -/
theorem suspendRequest_eq_ok {settings : Settings} {m : Privmsg} {args : List String} {command : String} {duration : Nat}
    (h : suspendRequest settings m args = .ok (command, duration)) : normalizeCommandName command ∉ exemptCommands := by
  unfold suspendRequest at h
  split at h
  · cases h
  · split at h
    · cases h
    · split at h
      · cases h
      · rename_i hexempt
        rw [List.contains_iff_mem] at hexempt
        split at h
        · cases h
          exact hexempt
        · split at h
          · cases h
          · cases h
            exact hexempt

namespace Consistent

variable {running : Running} {settings : Settings} {m : Privmsg} {args : List String} {now : Nat}

/-- After a suspension, the calls and the suspensions are consistent. -/
theorem suspend (h : Consistent running) :
    Consistent ⟨(suspendExecute settings m args running.manager now).manager,
      (suspendExecute settings m args running.manager now).call.toList ++ running.calls⟩ := by
  unfold suspendExecute
  split
  · exact h
  · rename_i command duration hrequest
    constructor
    · intro w
      simp only [SuspensionManager.suspend, toAsciiLowercase_normalizeCommandName, Table.lookup_insert, h.lookup]
      rfl
    · intro key hkey
      simp only [SuspensionManager.suspend, toAsciiLowercase_normalizeCommandName, Table.lookup_insert, h.exempt key hkey]
      refine if_neg fun heq => ?_
      rw [heq] at hkey
      exact suspendRequest_eq_ok hrequest hkey

/-- After the end of a suspension, the calls and the suspensions are consistent. -/
theorem unsuspend (h : Consistent running) :
    Consistent ⟨(unsuspendExecute settings m args running.manager now).manager,
      (unsuspendExecute settings m args running.manager now).call.toList ++ running.calls⟩ := by
  unfold unsuspendExecute
  split
  · exact h
  · constructor
    · intro w
      simp only [SuspensionManager.unsuspend, toAsciiLowercase_normalizeCommandName, Table.lookup_erase, h.lookup]
      rfl
    · intro key hkey
      simp only [SuspensionManager.unsuspend, toAsciiLowercase_normalizeCommandName, Table.lookup_erase, h.exempt key hkey]
      exact ite_self none

variable {d : Dispatcher} {e : Incoming}

/-- Every message keeps it consistent. -/
theorem step (h : Consistent running) : Consistent (running.step T d r e) := by
  unfold Running.step
  split
  · exact h
  · unfold Running.execute
    split
    · exact h.suspend
    · split
      · exact h.unsuspend
      · exact h

end Consistent

/-- The calls and the suspensions are consistent after all messages. -/
theorem consistent_run (d : Dispatcher) (events : List Incoming) : Consistent (Running.run T d r events) :=
  List.foldlRecOn events _ consistent_new fun _ h _ _ => h.step

/-- The dispatcher finds a command suspended exactly while the calls have it so. -/
theorem isSuspended_isSome_iff {running : Running} (h : Consistent running) (w : String) (now : Nat) :
    (running.manager.isSuspended (normalizeCommandName w) now).isSome = true ↔
      ∃ expiry, expiryOf w running.calls = some expiry ∧ now ≤ expiry := by
  rw [SuspensionManager.isSuspended, toAsciiLowercase_normalizeCommandName, h.lookup]
  cases expiryOf w running.calls with
  | none => simp
  | some expiry => by_cases hnow : now ≤ expiry <;> simp [hnow]

/-! ## A message -/

variable {d : Dispatcher} {commands : List Command} {suspended : String → Bool} {m : Privmsg} {invocation : CommandInvocation}

/-- Nothing runs when every command that accepts the trigger is suspended. -/
theorem handle_suspended (hinv : commandInvocation m.messageText = some invocation)
    (h : ∀ c ∈ commands, c.accepts invocation.trigger = true → suspended (c.suspendKey invocation.trigger) = true) :
    (d.handle commands suspended m).executed = none := by
  unfold Dispatcher.handle
  split
  · rfl
  · unfold Dispatcher.execution
    dsimp only
    rw [hinv]
    dsimp only
    split
    · rfl
    · cases hfind : commands.find? fun c => c.enabled && c.accepts invocation.trigger with
      | none => rfl
      | some c =>
        have haccepts := List.find?_some hfind
        rw [Bool.and_eq_true] at haccepts
        exact if_pos (h c (List.mem_of_find?_eq_some hfind) haccepts.2)

/-- The first command that accepts the trigger runs when it is not suspended, where the channel lets it. -/
theorem handle_not_suspended {c : Command} (hinv : commandInvocation m.messageText = some invocation)
    (hfind : (commands.find? fun c => c.enabled && c.accepts invocation.trigger) = some c)
    (h : suspended (c.suspendKey invocation.trigger) = false) :
    (d.handle commands suspended m).executed =
      if d.isAdminChannel m && !m.isBroadcaster || d.isAiChannel m && !isAiTrigger invocation.trigger then none
      else some ⟨c, invocation⟩ := by
  unfold Dispatcher.handle
  split
  · rename_i hdropped
    rw [hdropped, Bool.true_or, if_pos rfl]
  · rename_i hkept
    rw [Bool.not_eq_true] at hkept
    rw [hkept, Bool.false_or]
    unfold Dispatcher.execution
    dsimp only
    rw [hinv]
    dsimp only
    split
    · rfl
    · rw [hfind]
      exact if_neg (by rw [h]; exact Bool.false_ne_true)

/-! ## Suspensions in force, and their effect -/

/-- `!suspend` got past its checks with a spelling of the word, no `!unsuspend` of the command has since, and what the latest
`!suspend` of the command was for has not run out. -/
structure InForce (calls : List Call) (w : String) (now : Nat) : Prop where
  suspended : ∃ later command expiry earlier, calls = later ++ .suspend command expiry :: earlier ∧ Spelling w command ∧
    ∀ lifted, .unsuspend lifted ∈ later → normalizeCommandName lifted ≠ normalizeCommandName w
  unexpired : ∃ expiry, expiryOf w calls = some expiry ∧ now ≤ expiry

/-- A suspension of the word keeps every message from running a command whose trigger spells it. -/
def Effective (T : LowerTable) (r : Registry) (w : String) : Prop :=
  ∀ (d : Dispatcher) (events : List Incoming) (e : Incoming) (invocation : CommandInvocation),
    InForce (Running.run T d r events).calls w e.checkedAt →
    commandInvocation e.message.messageText = some invocation → Spelling w invocation.trigger →
    ((Running.run T d r events).handle T d r e).executed = none

/-- The trigger runs the command of this name after every run, in the channels where the dispatcher lets it. -/
def StaysExecutable (T : LowerTable) (r : Registry) (trigger : String) : Prop :=
  ∀ (d : Dispatcher) (events : List Incoming) (e : Incoming) (invocation : CommandInvocation),
    commandInvocation e.message.messageText = some invocation → invocation.trigger = trigger →
    ((Running.run T d r events).handle T d r e).executed =
      if d.isAdminChannel e.message && !e.message.isBroadcaster || d.isAiChannel e.message then none
      else some ⟨.named trigger, invocation⟩

/-- A word that no stray trigger spells is suspended effectively. -/
theorem effective_of_not_stray {w : String} (h : ∀ trigger, Spelling w trigger → ¬ Stray r trigger) : Effective T r w := by
  intro d events e invocation hforce hinv htrigger
  refine handle_suspended hinv fun c hc haccepts => ?_
  rcases suspendKey_eq_or_stray hc haccepts with hkey | hstray
  · rw [hkey, normalizeCommandName_of_spelling htrigger]
    exact (isSuspended_isSome_iff (consistent_run d events) w e.checkedAt).mpr hforce.unexpired
  · exact absurd hstray (h _ htrigger)

/-- The three commands are the first that accept their names, and cannot be suspended. -/
theorem exempt_trigger {trigger : String} (h : trigger ∈ ["!suspend", "!unsuspend", "!p"]) :
    ((cmdList T r pingNames).find? fun c => c.enabled && c.accepts trigger) = some (.named trigger) ∧
      normalizeCommandName trigger ∈ exemptCommands ∧ isAiTrigger trigger = false := by
  rcases List.mem_cons.mp h with rfl | h
  · exact ⟨rfl, by decide, by simp [isAiTrigger, eqIgnoreAsciiCase, asciiFold, grokAliasTrigger]⟩
  · rcases List.mem_cons.mp h with rfl | h
    · exact ⟨rfl, by decide, by simp [isAiTrigger, eqIgnoreAsciiCase, asciiFold, grokAliasTrigger]⟩
    · obtain rfl := List.mem_singleton.mp h
      exact ⟨rfl, by decide, by simp [isAiTrigger, eqIgnoreAsciiCase, asciiFold, grokAliasTrigger]⟩

/-- The commands that suspend and those of pings cannot be suspended. -/
theorem staysExecutable {trigger : String} (h : trigger ∈ ["!suspend", "!unsuspend", "!p"]) : StaysExecutable T r trigger := by
  intro d events e invocation hinv htrigger
  subst htrigger
  obtain ⟨hfind, hexempt, hai⟩ := @exempt_trigger T r e.pingNames invocation.trigger h
  have hfree : ((Running.run T d r events).manager.isSuspended (normalizeCommandName invocation.trigger) e.checkedAt).isSome =
      false := by
    rw [SuspensionManager.isSuspended, toAsciiLowercase_normalizeCommandName, (consistent_run d events).exempt _ hexempt]
    rfl
  unfold Running.handle
  refine (handle_not_suspended hinv hfind ?_).trans ?_
  · dsimp only [Command.named]
    exact hfree
  · rw [hai, Bool.not_false, Bool.and_true]

/-! ## The stray triggers -/

/-- No channel apart, and no buffers. -/
def openChannels : Dispatcher := ⟨none, none, false, false⟩

/-- The broadcaster says something, while nothing is set and there are no pings. -/
def said (text : String) : Incoming where
  message :=
    { channelLogin := "chan", badges := ["broadcaster"], senderId := "1", senderLogin := "chan", senderName := "chan",
      messageText := text, serverTimestamp := 0 }
  pingNames := []
  settings := .compiledDefaults
  checkedAt := 0
  executedAt := 0

/-- A run of one `!suspend`. -/
theorem run_suspend {command : String} (hinv : commandInvocation ("!suspend " ++ command) = some ⟨"!suspend", [command]⟩)
    (hexempt : normalizeCommandName command ∉ exemptCommands) :
    (Running.run T openChannels r [said ("!suspend " ++ command)]).calls = [.suspend command (fromSecs 600)] := by
  have hexecuted : (Running.new.handle T openChannels r (said ("!suspend " ++ command))).executed =
      some ⟨.named "!suspend", ⟨"!suspend", [command]⟩⟩ :=
    staysExecutable (by simp) openChannels [] (said ("!suspend " ++ command)) ⟨"!suspend", [command]⟩ hinv rfl
  have hrequest : suspendRequest Settings.compiledDefaults (said ("!suspend " ++ command)).message [command] =
      .ok (command, fromSecs 600) := by
    rw [← List.contains_iff_mem, Bool.not_eq_true] at hexempt
    simp only [suspendRequest, isAdmin, said, hexempt]
    rfl
  have hcall (manager : SuspensionManager) : (suspendExecute Settings.compiledDefaults (said ("!suspend " ++ command)).message
      [command] manager 0).call = some (.suspend command (0 + fromSecs 600)) := by
    rw [suspendExecute, hrequest]
  have hstep : (Running.new.step T openChannels r (said ("!suspend " ++ command))).calls =
      (suspendExecute Settings.compiledDefaults (said ("!suspend " ++ command)).message [command] ∅ 0).call.toList ++ [] := by
    rw [Running.step, hexecuted]
    rfl
  rw [Running.run, List.foldl_cons, List.foldl_nil, hstep, hcall, Nat.zero_add]
  rfl

/-- A word is not suspended effectively when one spelling of it is suspended under another name than a command answers with
that accepts another spelling. -/
theorem not_effective {w command trigger key : String} {c : Command} (hcommand : Spelling w command) (htrigger : Spelling w trigger)
    (hinv : commandInvocation ("!suspend " ++ command) = some ⟨"!suspend", [command]⟩)
    (hexempt : normalizeCommandName command ∉ exemptCommands) (hinv' : commandInvocation trigger = some ⟨trigger, []⟩)
    (hfind : ((cmdList T r []).find? fun c => c.enabled && c.accepts trigger) = some c)
    (hkey : c.suspendKey trigger = normalizeCommandName key) (hne : normalizeCommandName key ≠ normalizeCommandName command) :
    ¬ Effective T r w := by
  intro heffective
  have hcalls := run_suspend (T := T) (r := r) hinv hexempt
  have hname := normalizeCommandName_of_spelling hcommand
  have hforce : InForce (Running.run T openChannels r [said ("!suspend " ++ command)]).calls w 0 := by
    rw [hcalls]
    constructor
    · exact ⟨[], command, fromSecs 600, [], rfl, hcommand, fun _ h => absurd h List.not_mem_nil⟩
    · exact ⟨fromSecs 600, if_pos hname.symm, Nat.zero_le _⟩
  have hsaid : commandInvocation (said trigger).message.messageText = some ⟨trigger, []⟩ := hinv'
  have hnone := heffective openChannels _ (said trigger) _ hforce hsaid htrigger
  have hfree : ((Running.run T openChannels r [said ("!suspend " ++ command)]).manager.isSuspended
      (normalizeCommandName key) 0).isSome = false := by
    rw [← Bool.not_eq_true, isSuspended_isSome_iff (consistent_run openChannels _), hcalls]
    rintro ⟨expiry, hexpiry, -⟩
    rw [expiryOf, if_neg hne] at hexpiry
    cases hexpiry
  have hsome : ((Running.run T openChannels r [said ("!suspend " ++ command)]).handle T openChannels r (said trigger)).executed =
      some ⟨c, ⟨trigger, []⟩⟩ := by
    unfold Running.handle
    refine (handle_not_suspended hsaid hfind ?_).trans ?_
    · dsimp only
      rw [hkey]
      exact hfree
    · rfl
  rw [hnone] at hsome
  cases hsome

/-- The mention is suspended under its own name, and answers with another one. -/
theorem not_effective_mention {w : String} (hai : r.hasAi = true) (h : eqIgnoreAsciiCase w "@grok" = true) : ¬ Effective T r w := by
  have hspelling : Spelling w "@grok" := .inl (by rw [eqIgnoreAsciiCase_comm, h])
  have hkey : "ai" = normalizeCommandName "ai" := by decide
  refine not_effective (c := aiCommand) hspelling hspelling (by decide +kernel) (by decide) (by decide +kernel) ?_ hkey (by decide)
  have hmention : isAiTrigger "@grok" = true := by decide +kernel
  by_cases htracker : r.hasTracker = true
  · simp [cmdList, Command.named, flightsAboveCommand, doenerCalcCommand, matchesDoenerTrigger, aiCommand, hai, hmention, htracker]
  · simp [cmdList, Command.named, flightsAboveCommand, doenerCalcCommand, matchesDoenerTrigger, aiCommand, hai, hmention, htracker]

/-- The word with a capital umlaut is one of the command. -/
theorem matchesDoenerTrigger_umlaut : matchesDoenerTrigger T "!dÖner" = true := by
  have htext : "!dÖner".toList = ['!', 'd', 'Ö', 'n', 'e', 'r'] := by decide
  have hletter : ∀ x ∈ ['d', 'ö', 'n', 'e', 'r'], (x.isLower = true ∧ x ≠ 'i' ∧ x ≠ 'k') ∨ x = 'ö' := by simp
  have hlower : T.lowerFrom [] ['d', 'Ö', 'n', 'e', 'r'] = ['d', 'ö', 'n', 'e', 'r'] := by
    refine (LowerTable.lowerFrom_eq_iff hletter).mpr (.cons (.inl (by decide)) (.cons (.inr ⟨rfl, rfl⟩) ?_))
    exact .cons (.inl (by decide)) (.cons (.inl (by decide)) (.cons (.inl (by decide)) .nil))
  rw [matchesDoenerTrigger, htext]
  simp only [LowerTable.toLowercase, String.toList_ofList, hlower]
  decide

/-- A capital umlaut is suspended under its own name, and answers with the one without. -/
theorem not_effective_umlaut {w : String} (h : eqIgnoreAsciiCase w "dÖner" = true ∨ eqIgnoreAsciiCase w "!dÖner" = true) :
    ¬ Effective T r w := by
  have hspelling : Spelling w "!dÖner" := by
    rcases h with h | h
    · exact .inr (eqIgnoreAsciiCase_iff.mpr ((asciiFold_bang "dÖner").trans
        ((congrArg _ (eqIgnoreAsciiCase_iff.mp h).symm).trans (asciiFold_bang w).symm)))
    · exact .inl (by rw [eqIgnoreAsciiCase_comm, h])
  have hkey : "doener" = normalizeCommandName "doener" := by decide
  refine not_effective (c := doenerCalcCommand T) hspelling hspelling (by decide +kernel) (by decide) (by decide +kernel) ?_ hkey
    (by decide)
  simp [cmdList, Command.named, flightsAboveCommand, doenerCalcCommand, matchesDoenerTrigger_umlaut]

/-- The words that a stray trigger spells. -/
theorem stray_of_spelling {w trigger : String} (h : Spelling w trigger) (hstray : Stray r trigger) :
    (r.hasAi = true ∧ eqIgnoreAsciiCase w "@grok" = true) ∨ eqIgnoreAsciiCase w "dÖner" = true ∨
      eqIgnoreAsciiCase w "!dÖner" = true := by
  have hfold : asciiFold trigger = asciiFold w ∨ asciiFold trigger = '!' :: asciiFold w := by
    rw [← asciiFold_bang, ← eqIgnoreAsciiCase_iff, ← eqIgnoreAsciiCase_iff]
    exact h
  cases hstray with
  | mention hai hmention =>
    rw [eqIgnoreAsciiCase_iff] at hmention
    rcases hfold with hfold | hfold
    · exact .inl ⟨hai, eqIgnoreAsciiCase_iff.mpr (hfold.symm.trans hmention)⟩
    · have hhead : asciiFold "@grok" = '@' :: "grok".toList := by decide
      rw [hmention, hhead, List.cons.injEq] at hfold
      exact absurd hfold.1 (by decide)
  | umlaut humlaut =>
    rw [eqIgnoreAsciiCase_iff] at humlaut
    rcases hfold with hfold | hfold
    · exact .inr (.inr (eqIgnoreAsciiCase_iff.mpr (hfold.symm.trans humlaut)))
    · have hcons := hfold.symm.trans (humlaut.trans (asciiFold_bang "dÖner"))
      exact .inr (.inl (eqIgnoreAsciiCase_iff.mpr (List.cons.inj hcons).2))

/-- A suspension is effective for every word but the mention, where there is an AI command, and the umlaut in the other case,
with a `!` or without; and the three commands that cannot be suspended stay executable. -/
theorem suspension_effective_iff (T : LowerTable) (r : Registry) :
    (∀ w, Effective T r w ↔ ¬ ((r.hasAi = true ∧ eqIgnoreAsciiCase w "@grok" = true) ∨ eqIgnoreAsciiCase w "dÖner" = true ∨
      eqIgnoreAsciiCase w "!dÖner" = true)) ∧
    ∀ trigger ∈ ["!suspend", "!unsuspend", "!p"], StaysExecutable T r trigger := by
  refine ⟨fun w => ⟨?_, ?_⟩, fun trigger h => staysExecutable h⟩
  · rintro heffective (⟨hai, h⟩ | h)
    · exact not_effective_mention hai h heffective
    · exact not_effective_umlaut h heffective
  · intro h
    exact effective_of_not_stray fun trigger hspelling hstray => h (stray_of_spelling hspelling hstray)

/-- `!suspend @grok`, and the mention still runs `!ai`. -/
theorem grok_still_runs : ¬ Effective .umlaut ⟨true, true, true⟩ "@grok" := not_effective_mention rfl (by simp)

end Twitch1337.Dispatch
