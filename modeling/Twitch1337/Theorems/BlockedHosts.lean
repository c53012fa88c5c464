import Twitch1337.Content.Client

/-!
# Blocked addresses

A request reaches a blocked address only through a host in brackets: names are checked when they are resolved, and addresses
without brackets before the request. An address in brackets is not recognised by the check, but it is by the HTTP client.
-/

namespace Twitch1337.Content

open Net Text

variable {N : Internet} {url : Url}

/-- The host is a blocked address in brackets. -/
def BlockedInBrackets (url : Url) : Prop :=
  ∃ inner ip, url.hostStr = some ('[' :: (inner ++ [']'])) ∧ parseIpAddr inner = some ip ∧ isBlockedIp ip = true

/-- A request, with some redirects left, leads to a request of a URL. -/
inductive Requests (N : Internet) : Nat → Nat → Url → Url → Prop where
  | here (left n : Nat) (url : Url) : Requests N left n url url
  | there (left n : Nat) (url target last : Url) (addrs : List IpAddr)
    (hconnect : url.hostStr.bind (N.connect false .default n) = some addrs) (hreply : N.reply n = .redirect target)
    (hliteral : isBlockedHostLiteral target = false) (hhttp : target.isHttp = true)
    (h : Requests N left (n + 1) target last) : Requests N (left + 1) n url last

/-! ## One request -/

theorem resolve_not_blocked {host : Text} {addrs addrs' : List IpAddr}
    (h : resolve false .default host addrs = some addrs') : ∀ a ∈ addrs', isBlockedIp a = false := by
  unfold resolve at h
  split at h
  · cases h
  · rename_i hany
    cases h
    simpa [TrustedHost.default, TrustedHost.matchesName, TrustedHost.matchesIp] using hany

theorem redirectTargetTrusted_default (target : Url) :
    redirectTargetTrusted target .default = !isBlockedHostLiteral target := by
  unfold redirectTargetTrusted
  cases isBlockedHostLiteral target with
  | false => rfl
  | true =>
    simp only [Bool.not_true, Bool.false_eq_true, if_false]
    split
    · rfl
    · simp only [TrustedHost.default, TrustedHost.matchesName, TrustedHost.matchesIp, Option.any_none, Bool.false_eq_true,
        if_false]
      split <;> rfl

/-- The HTTP client takes the brackets off. -/
theorem literalIp_brackets (inner : Text) : literalIp ('[' :: (inner ++ [']'])) = parseIpAddr inner := by
  have hprefix : stripPrefix ['['] ('[' :: (inner ++ [']'])) = some (inner ++ [']']) := stripPrefix_eq_some.mpr rfl
  have hsuffix : stripSuffix [']'] (inner ++ [']']) = some inner := stripSuffix_eq_some.mpr rfl
  rw [literalIp, hprefix, Option.bind_some, hsuffix, Option.getD_some]

/-- A literal of the HTTP client is an address, or one in brackets. -/
theorem literalIp_cases {host : Text} {ip : IpAddr} (h : literalIp host = some ip) :
    parseIpAddr host = some ip ∨ ∃ inner, host = '[' :: (inner ++ [']']) ∧ parseIpAddr inner = some ip := by
  unfold literalIp at h
  cases hinner : (stripPrefix ['['] host).bind (stripSuffix [']']) with
  | none =>
    rw [hinner] at h
    exact .inl h
  | some inner =>
    rw [hinner] at h
    obtain ⟨rest, hrest, hsuffix⟩ := Option.bind_eq_some_iff.mp hinner
    rw [stripPrefix_eq_some.mp hrest, stripSuffix_eq_some.mp hsuffix]
    exact .inr ⟨inner, rfl, h⟩

/-- An address that passes the check of literals is not blocked. -/
theorem not_blocked_of_literal {host : Text} {ip : IpAddr} (hliteral : isBlockedHostLiteral url = false)
    (hhost : url.hostStr = some host) (hip : parseIpAddr host = some ip) : isBlockedIp ip = false := by
  simp only [isBlockedHostLiteral, hhost, hip] at hliteral
  split at hliteral
  · cases hliteral
  · exact hliteral

/-- A request that passes the check of literals opens a connection to a blocked address if and only if its host is one in
brackets. -/
theorem connect_blocked_iff {n : Nat} (hliteral : isBlockedHostLiteral url = false) :
    (∃ addrs, url.hostStr.bind (N.connect false .default n) = some addrs ∧ ∃ a ∈ addrs, isBlockedIp a = true) ↔
      BlockedInBrackets url := by
  constructor
  · rintro ⟨addrs, hconnect, a, ha, hblocked⟩
    obtain ⟨host, hhost, hconnect⟩ := Option.bind_eq_some_iff.mp hconnect
    unfold Internet.connect at hconnect
    cases hip : literalIp host with
    | some ip =>
      simp only [hip, Option.some.injEq] at hconnect
      subst hconnect
      cases List.mem_singleton.mp ha
      rcases literalIp_cases hip with hparse | ⟨inner, rfl, hparse⟩
      · rw [not_blocked_of_literal hliteral hhost hparse] at hblocked
        cases hblocked
      · exact ⟨inner, a, hhost, hparse, hblocked⟩
    | none =>
      simp only [hip] at hconnect
      obtain ⟨resolved, hresolved, rfl⟩ := Option.map_eq_some_iff.mp hconnect
      obtain ⟨answer, _, hanswer⟩ := Option.bind_eq_some_iff.mp hresolved
      rw [resolve_not_blocked hanswer a (List.mem_of_mem_take ha)] at hblocked
      cases hblocked
  · rintro ⟨inner, ip, hhost, hparse, hblocked⟩
    have hip : literalIp ('[' :: (inner ++ [']'])) = some ip := by rw [literalIp_brackets, hparse]
    refine ⟨[ip], ?_, ip, List.mem_singleton_self ip, hblocked⟩
    rw [hhost, Option.bind_some, Internet.connect, hip]

/-! ## All requests -/

/-- With redirects: some request has as host a blocked address in brackets. -/
theorem send_blocked_iff (N : Internet) (left n : Nat) (url : Url) (hliteral : isBlockedHostLiteral url = false) :
    (∃ a ∈ (N.send false .default left n url).1, isBlockedIp a = true) ↔
      ∃ last, Requests N left n url last ∧ BlockedInBrackets last := by
  induction left generalizing n url with
  | zero =>
    have hone : (∃ last, Requests N 0 n url last ∧ BlockedInBrackets last) ↔ BlockedInBrackets url := by
      constructor
      · rintro ⟨last, hlast, h⟩
        cases hlast
        exact h
      · exact fun h => ⟨url, .here 0 n url, h⟩
    rw [hone, ← connect_blocked_iff (N := N) (n := n) hliteral]
    unfold Internet.send
    cases hconnect : url.hostStr.bind (N.connect false .default n) with
    | none => simp
    | some addrs =>
      cases N.reply n with
      | failed => simp
      | answer => simp
      | redirect target =>
        cases hl : isBlockedHostLiteral target with
        | true => simp [redirectTargetTrusted_default, hl]
        | false => simp [redirectTargetTrusted_default, hl]
  | succ left ih =>
    have hmore : (∃ last, Requests N (left + 1) n url last ∧ BlockedInBrackets last) ↔ BlockedInBrackets url ∨
        ∃ target addrs, url.hostStr.bind (N.connect false .default n) = some addrs ∧ N.reply n = .redirect target ∧
          isBlockedHostLiteral target = false ∧ target.isHttp = true ∧
          ∃ last, Requests N left (n + 1) target last ∧ BlockedInBrackets last := by
      constructor
      · rintro ⟨last, hlast, h⟩
        cases hlast with
        | here => exact .inl h
        | there _ _ _ target _ addrs hconnect hreply hl hhttp hrest =>
          exact .inr ⟨target, addrs, hconnect, hreply, hl, hhttp, last, hrest, h⟩
      · rintro (h | ⟨target, addrs, hconnect, hreply, hl, hhttp, last, hrest, h⟩)
        · exact ⟨url, .here _ n url, h⟩
        · exact ⟨last, .there left n url target last addrs hconnect hreply hl hhttp hrest, h⟩
    rw [hmore, ← connect_blocked_iff (N := N) (n := n) hliteral]
    unfold Internet.send
    cases hconnect : url.hostStr.bind (N.connect false .default n) with
    | none => simp
    | some addrs =>
      cases hreply : N.reply n with
      | failed => simp
      | answer => simp
      | redirect target =>
        simp only [Bool.not_false, Bool.true_and, redirectTargetTrusted_default, Bool.not_not]
        cases hl : isBlockedHostLiteral target with
        | true => simp [hl]
        | false =>
          cases hhttp : target.isHttp with
          | false => simp [hhttp]
          | true =>
            have hih := ih (n + 1) target hl
            simp [hl, hhttp, or_and_right, exists_or, hih]

/-- With the bypass off, a call of `fetch_for_read` opens no connection to a blocked address if and only if no request it makes
has as host a blocked address in brackets. -/
theorem reader_avoids_blocked_iff (N : Internet) (rawUrl : Text) :
    (∀ a ∈ (N.fetchForRead false rawUrl).1, isBlockedIp a = false) ↔
      ∀ url, N.parse rawUrl = some url → url.isHttp = true → isBlockedHostLiteral url = false →
        ∀ last, Requests N 9 0 url last → ¬ BlockedInBrackets last := by
  unfold Internet.fetchForRead
  cases hparse : N.parse rawUrl with
  | none => simp
  | some url =>
    cases hhttp : url.isHttp with
    | false => simp [hhttp]
    | true =>
      cases hliteral : isBlockedHostLiteral url with
      | true => simp [hhttp, hliteral]
      | false =>
        have hsend := not_congr (send_blocked_iff N 9 0 url hliteral)
        simp only [not_exists, not_and, Bool.not_eq_true] at hsend
        simpa [hhttp, hliteral] using hsend

/-- An internet with one URL, `http://[::1]/`. -/
def loopbackUrl : Internet where
  parse _ := some ⟨"http", some "[::1]".toList⟩
  lookup _ _ := none
  tried _ := 0
  reply _ := .answer

/-- The reader connects to the loopback address. -/
theorem reader_connects_to_loopback :
    (loopbackUrl.fetchForRead false "http://[::1]/".toList).1 = [.v6 ⟨0, 0, 0, 0, 0, 0, 0, 1⟩] ∧
      isBlockedIp (.v6 ⟨0, 0, 0, 0, 0, 0, 0, 1⟩) = true := by
  decide +kernel

end Twitch1337.Content
