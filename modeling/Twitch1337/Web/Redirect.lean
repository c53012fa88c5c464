import Twitch1337.Lib.Text

/-!
# Redirects of a login

`error.rs` and `auth/routes.rs`: the page to go to after a login comes from a link, goes through a signed cookie, and is checked each
time. How it is encoded in a link is a parameter.
-/

namespace Twitch1337.Auth

open Text

def isSafeRedirect (path : Text) : Bool :=
  (path.head? == some '/') && utf8Len path ≤ 256 && !"//".toList.isPrefixOf path && !contains "://".toList path &&
    !path.any fun c => c == '\r' || c == '\n' || c == '\\'

section

variable (encode : Text → Text)

/-- The redirect of a request without a session. -/
def unauthenticated (next : Option Text) : Text :=
  match next.filter isSafeRedirect with
  | some path => "/login?next=".toList ++ encode path
  | none => "/login".toList

/-- The link of the login page. -/
def loginHref (next : Option Text) : Text :=
  match next.filter isSafeRedirect with
  | some next => "/auth/start?next=".toList ++ encode next
  | none => "/auth/start".toList

end

/-- The cookie that a login starts with. -/
def nextCookie (next : Option Text) : Option Text := next.filter isSafeRedirect

/-- The redirect after a login, by the cookie that comes back. -/
def nextPath (cookie : Option Text) : Text := (cookie.filter isSafeRedirect).getD ['/']

end Twitch1337.Auth
