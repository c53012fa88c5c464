import Twitch1337.Lib.Chronicle
import Twitch1337.Web.Sessions

/-!
# Revoked sessions

A removal is in memory, and a crash takes it back when the file still has the session. A request that waits for the check of its
role has its session in hand, whatever becomes of it in the table. Where neither happens, who was removed stays out.
-/

namespace Twitch1337.Web

open Chronicle Pool

variable {broadcasterId : String} {w : WebState} {v v' : WebState × List WebPoint}

/-- The log says that a session was denied, or its user logged out. -/
def Revoked (log : List Obs) (id : SessionId) : Prop := .denied id ∈ log ∨ .loggedOut id ∈ log

instance (log : List Obs) (id : SessionId) : Decidable (Revoked log id) := inferInstanceAs (Decidable (_ ∨ _))

/-- Who is let in was not removed before. -/
def LetIn (past : List Obs) : Obs → Prop
  | .admitted id => ¬ Revoked past id
  | _ => True

/-- A process waits for the check of the role of a session. -/
def WebPoint.awaits (id : SessionId) : WebPoint → Bool
  | .rechecking sid _ => sid = id
  | _ => false

/-- No other process than one waits for the check of a session. -/
def Alone (procs : List WebPoint) (p : Nat) (id : SessionId) : Prop :=
  ∀ q < procs.length, q ≠ p → (procs[q]?.any (·.awaits id)) = false

instance (procs : List WebPoint) (p : Nat) (id : SessionId) : Decidable (Alone procs p id) :=
  inferInstanceAs (Decidable (∀ q < procs.length, q ≠ p → _ = false))

/-- Which session a step removes for good. -/
def removes (broadcasterId : String) (s : WebPoint) (io : WebIo) : Option SessionId :=
  match s with
  | .rechecking sid session => if recheck broadcasterId session io = some .deny then some sid else none
  | .dropping sid => some sid
  | _ => none

/-- A login is not given the id of a removed session. -/
def FreshId (log : List Obs) (s : WebPoint) (io : WebIo) : Prop :=
  match s with
  | .calling (.login _ _) => ¬ Revoked log io.newId
  | _ => True

instance (log : List Obs) (s : WebPoint) (io : WebIo) : Decidable (FreshId log s io) := by
  unfold FreshId
  split <;> infer_instance

/-- The server crashes only when no removed session is in the file, and a session is removed only when no other request waits for
the check of its role. -/
def Settled (broadcasterId : String) (v : WebState × List WebPoint) : WebEvent → Prop
  | .crash => ∀ e ∈ v.1.file.entries, ¬ Revoked v.1.log e.1
  | .pool (.spawn _) => True
  | .pool (.step p io) =>
    ∀ s ∈ v.2[p]?, (∀ id ∈ removes broadcasterId s io, Alone v.2 p id) ∧ FreshId v.1.log s io

instance (v : WebState × List WebPoint) : ∀ e, Decidable (Settled broadcasterId v e)
  | .crash => inferInstanceAs (Decidable (∀ e ∈ v.1.file.entries, _))
  | .pool (.spawn _) => .isTrue trivial
  | .pool (.step p io) =>
    inferInstanceAs (Decidable (∀ s ∈ v.2[p]?, (∀ id ∈ removes broadcasterId s io, Alone v.2 p id) ∧ FreshId v.1.log s io))

/-! ## The table -/

theorem not_revoked_of_admitted {log : List Obs} {id id' : SessionId} (h : ¬ Revoked log id) :
    ¬ Revoked (log ++ [.admitted id']) id := by
  simpa [Revoked] using h

theorem not_revoked_cons {log : List Obs} {id id' : SessionId} {o : Obs} (ho : o = .denied id' ∨ o = .loggedOut id')
    (hne : id ≠ id') (h : ¬ Revoked log id) : ¬ Revoked (log ++ [o]) id := by
  rcases ho with rfl | rfl <;> simpa [Revoked, hne] using h

/-- A session that is looked up stays or goes, and no other one comes. -/
theorem mem_getAndTouch {table : Sessions} {id id' : SessionId} {ttlSecs : Nat} {now : Chrono.Instant}
    (h : id' ∈ (getAndTouch table id ttlSecs now).1) : id' ∈ table := by
  unfold getAndTouch at h
  split at h
  · exact h
  · split at h
    · exact h
    · rename_i session hsession
      split at h
      · exact (AList.mem_erase.mp h).2
      · rcases (AList.mem_insert table).mp h with rfl | h
        · exact Table.mem_iff_lookup.mpr ⟨session, hsession⟩
        · exact h

/-- A session that is found is in the table. -/
theorem mem_of_getAndTouch {table : Sessions} {id : SessionId} {ttlSecs : Nat} {now : Chrono.Instant} {session : Session}
    (h : (getAndTouch table id ttlSecs now).2 = some session) : id ∈ table := by
  unfold getAndTouch at h
  split at h
  · cases h
  · split at h
    · cases h
    · rename_i s hs
      exact Table.mem_iff_lookup.mpr ⟨s, hs⟩

theorem mem_recordRoleCheck {table : Sessions} {id id' : SessionId} {now : Chrono.Instant}
    (h : id' ∈ recordRoleCheck table id now) : id' ∈ table := by
  unfold recordRoleCheck at h
  split at h
  · exact h
  · rename_i session hsession
    rcases (AList.mem_insert table).mp h with rfl | h
    · exact Table.mem_iff_lookup.mpr ⟨session, hsession⟩
    · exact h

theorem mem_load {file : Sessions} {id : SessionId} (h : id ∈ load file) : ∃ e ∈ file.entries, e.1 = id := by
  have hkey : id ∈ (load file).entries.keys := h
  simpa [load, List.keys] using hkey

/-! ## Runs -/

/-- No removed session is in the table or with a request that waits, and the log lets in no one who was removed. -/
structure KeptOut (v : WebState × List WebPoint) : Prop where
  table : ∀ id ∈ v.1.table, ¬ Revoked v.1.log id
  waiting : ∀ t ∈ v.2, ∀ id, t.awaits id = true → ¬ Revoked v.1.log id
  log : InOrder LetIn v.1.log

variable {p : Nat} {table file : Sessions} {s' : WebPoint}

/-- A step that lets no one in and removes no one. -/
theorem KeptOut.quiet (h : KeptOut v) (htable : ∀ id ∈ table, ¬ Revoked v.1.log id)
    (hs' : ∀ id, s'.awaits id = true → ¬ Revoked v.1.log id) : KeptOut (⟨table, file, v.1.log⟩, v.2.set p s') := by
  refine ⟨htable, fun t ht id hid => ?_, h.log⟩
  rcases List.mem_or_eq_of_mem_set ht with ht | rfl
  · exact h.waiting t ht id hid
  · exact hs' id hid

/-- A step that lets in a session that was not removed. -/
theorem KeptOut.admit (h : KeptOut v) {id : SessionId} (hid : ¬ Revoked v.1.log id) (htable : ∀ id ∈ table, ¬ Revoked v.1.log id)
    (hs' : ∀ id, s'.awaits id = false) : KeptOut (⟨table, file, v.1.log ++ [.admitted id]⟩, v.2.set p s') := by
  refine ⟨fun id' hid' => not_revoked_of_admitted (htable id' hid'), fun t ht id' hid' => ?_, h.log.snoc hid⟩
  rcases List.mem_or_eq_of_mem_set ht with ht | rfl
  · exact not_revoked_of_admitted (h.waiting t ht id' hid')
  · rw [hs'] at hid'
    cases hid'

/-- A step that removes a session no other request waits with. -/
theorem KeptOut.remove (h : KeptOut v) {id : SessionId} {o : Obs} (ho : o = .denied id ∨ o = .loggedOut id)
    (halone : Alone v.2 p id) (hs' : ∀ id, s'.awaits id = false) :
    KeptOut (⟨v.1.table.erase id, file, v.1.log ++ [o]⟩, v.2.set p s') := by
  refine ⟨fun id' hid' => ?_, fun t ht id' hid' => ?_, h.log.snoc ?_⟩
  · obtain ⟨hne, hmem⟩ := AList.mem_erase.mp hid'
    exact not_revoked_cons ho hne (h.table id' hmem)
  · obtain ⟨q, hq⟩ := List.mem_iff_getElem?.mp ht
    by_cases hqp : q = p
    · subst hqp
      have hlt : q < v.2.length := by simpa using (List.getElem?_eq_some_iff.mp hq).1
      rw [List.getElem?_set_self hlt, Option.some.injEq] at hq
      rw [← hq, hs'] at hid'
      cases hid'
    · rw [List.getElem?_set_ne (Ne.symm hqp)] at hq
      have hne : id' ≠ id := by
        rintro rfl
        have := halone q (List.getElem?_eq_some_iff.mp hq).1 hqp
        rw [hq, Option.any_some, hid'] at this
        cases this
      exact not_revoked_cons ho hne (h.waiting t (List.mem_of_getElem? hq) id' hid')
  · rcases ho with rfl | rfl <;> trivial

/-- What a lookup leaves of the table, and what it finds, was not removed. -/
theorem KeptOut.touched (h : KeptOut v) {id : SessionId} {ttlSecs : Nat} {now : Chrono.Instant} {found : Option Session}
    (htouch : getAndTouch v.1.table id ttlSecs now = (table, found)) :
    (∀ id ∈ table, ¬ Revoked v.1.log id) ∧ ∀ session, found = some session → ¬ Revoked v.1.log id := by
  have htable : (getAndTouch v.1.table id ttlSecs now).1 = table := congrArg Prod.fst htouch
  have hfound : (getAndTouch v.1.table id ttlSecs now).2 = found := congrArg Prod.snd htouch
  constructor
  · intro id' hid'
    exact h.table id' (mem_getAndTouch (htable ▸ hid'))
  · intro session hsession
    exact h.table id (mem_of_getAndTouch (hfound.trans hsession))

/-- Every step that meets the condition keeps it. -/
theorem KeptOut.step (h : KeptOut v) {e : WebEvent} (hok : Settled broadcasterId v e)
    (hstep : webStep broadcasterId v e = some v') : KeptOut v' := by
  cases e with
  | crash =>
    cases hstep
    refine ⟨fun id hid => ?_, fun t ht => (by cases ht), h.log⟩
    obtain ⟨e, he, rfl⟩ := mem_load hid
    exact hok e he
  | pool e =>
    rcases step_cases hstep with ⟨call, rfl, rfl⟩ | ⟨p, io, s, rfl, hs, hdone, _, rfl⟩
    · refine ⟨h.table, fun t ht id hid => ?_, h.log⟩
      rcases List.mem_append.mp ht with ht | ht
      · exact h.waiting t ht id hid
      · rw [List.mem_singleton.mp ht] at hid
        cases hid
    obtain ⟨halone, hfresh⟩ := hok s hs
    have hmem := List.mem_of_getElem? hs
    simp only [webServer]
    cases s with
    | calling call =>
      cases call with
      | request min sid =>
        cases htouch : getAndTouch v.1.table sid io.sessionTtlSecs io.now with
        | mk table found =>
          obtain ⟨hclean, hsid⟩ := h.touched htouch
          simp only [WebState.next, htouch]
          cases found with
          | none => exact h.quiet hclean fun _ hid => by cases hid
          | some session =>
            simp only
            split
            · exact h.quiet hclean fun _ hid => by cases hid
            · split
              · refine h.quiet hclean fun id hid => ?_
                have heq : sid = id := by simpa [WebPoint.awaits] using hid
                exact heq ▸ hsid session rfl
              · exact h.admit (hsid session rfl) hclean fun _ => rfl
      | logout sid csrf =>
        cases htouch : getAndTouch v.1.table sid io.sessionTtlSecs io.now with
        | mk table found =>
          obtain ⟨hclean, _⟩ := h.touched htouch
          simp only [WebState.next, htouch]
          cases found with
          | none => exact h.quiet hclean fun _ hid => by cases hid
          | some session =>
            simp only
            split
            · exact h.quiet hclean fun _ hid => by cases hid
            · exact h.quiet hclean fun _ hid => by cases hid
      | login userId role =>
        refine h.quiet (fun id hid => ?_) fun _ hid => by cases hid
        rcases (AList.mem_insert v.1.table).mp hid with rfl | hid
        · exact hfresh
        · exact h.table id hid
      | persist => exact h.quiet h.table fun _ hid => by cases hid
    | rechecking sid session =>
      have hsid : ¬ Revoked v.1.log sid := h.waiting _ hmem sid (by simp [WebPoint.awaits])
      simp only [WebState.next]
      split
      · exact h.admit hsid (fun id hid => h.table id (mem_recordRoleCheck hid)) fun _ => rfl
      · rename_i hdeny
        exact h.remove (.inl rfl) (halone sid (by simp [removes, hdeny])) fun _ => rfl
      · exact h.admit hsid h.table fun _ => rfl
    | dropping sid => exact h.remove (.inr rfl) (halone sid rfl) fun _ => rfl
    | persisting => exact h.quiet h.table fun _ hid => by cases hid
    | writing snapshot => exact h.quiet h.table fun _ hid => by cases hid
    | ended outcome => cases hdone

/-- In every run in which the server crashes only when no removed session is in the file, and a session is removed only when no
other request of it waits for its check, a session that was denied or logged out is never let in again. -/
theorem revoked_stays_out (broadcasterId : String) (es : List WebEvent) (v : WebState × List WebPoint)
    (hok : Machine.Meets (webStep broadcasterId) (Settled broadcasterId) webStart es)
    (h : Machine.run (webStep broadcasterId) webStart es = some v) : InOrder LetIn v.1.log := by
  have hstart : KeptOut webStart := ⟨fun _ hid => (by cases hid), fun _ ht => (by cases ht), inOrder_nil⟩
  exact (Machine.run_invariant_of_meets (fun _ _ _ hv hok hstep => hv.step hok hstep) hstart hok h).log

/-! ### A moderator who is denied -/

/-- What is read at some second, with an answer of Helix: the sessions live for two hours, and roles are checked every minute. -/
def readAt (now : Nat) (helix : Option Bool) : WebIo := ⟨Chrono.seconds now, 7200, 60, none, [], [], helix, "sid", []⟩

/-- Process `p` takes some steps at one time. -/
def goes (p now : Nat) (helix : Option Bool) (steps : Nat) : List WebEvent :=
  List.replicate steps (.pool (.step p (readAt now helix)))

/-- A moderator logs in, and is denied an hour later. -/
def deniedLater : List WebEvent :=
  [.pool (.spawn (.login "7" .mod))] ++ goes 0 0 none 3 ++ [.pool (.spawn (.request .mod "sid"))] ++
    goes 1 3600 (some false) 2

/-- When the sessions are saved before the crash, they stay out. -/
theorem revoked_stays_out_saved :
    ∃ v, Machine.run (webStep "1") webStart (deniedLater ++ [.pool (.spawn .persist)] ++ goes 2 3660 none 3 ++ [.crash] ++
        [.pool (.spawn (.request .mod "sid"))] ++ goes 0 3720 none 1) = some v ∧
      v.1.log = [.denied "sid"] ∧ InOrder LetIn v.1.log := by
  have hruns : (Machine.run (webStep "1") webStart (deniedLater ++ [.pool (.spawn .persist)] ++ goes 2 3660 none 3 ++
      [.crash] ++ [.pool (.spawn (.request .mod "sid"))] ++ goes 0 3720 none 1)).map (·.1.log) = some [.denied "sid"] := by
    decide +kernel
  have hok : Machine.Meets (webStep "1") (Settled "1") webStart (deniedLater ++ [.pool (.spawn .persist)] ++
      goes 2 3660 none 3 ++ [.crash] ++ [.pool (.spawn (.request .mod "sid"))] ++ goes 0 3720 none 1) := by
    decide +kernel
  obtain ⟨v, hv, hlog⟩ := Option.map_eq_some_iff.mp hruns
  exact ⟨v, hv, hlog, revoked_stays_out "1" _ v hok hv⟩

/-- When the server crashes first, and Helix fails after the start, they are let in again. -/
theorem denied_is_let_in :
    ∃ v, Machine.run (webStep "1") webStart
        (deniedLater ++ [.crash] ++ [.pool (.spawn (.request .mod "sid"))] ++ goes 0 3720 none 2) = some v ∧
      v.1.log = [.denied "sid", .admitted "sid"] ∧ ¬ InOrder LetIn v.1.log := by
  have hruns : (Machine.run (webStep "1") webStart
      (deniedLater ++ [.crash] ++ [.pool (.spawn (.request .mod "sid"))] ++ goes 0 3720 none 2)).map (·.1.log) =
        some [.denied "sid", .admitted "sid"] := by
    decide +kernel
  obtain ⟨v, hv, hlog⟩ := Option.map_eq_some_iff.mp hruns
  refine ⟨v, hv, hlog, fun hin => ?_⟩
  exact hin [.denied "sid"] (.admitted "sid") [] hlog (.inl (List.mem_singleton_self _))

end Twitch1337.Web
