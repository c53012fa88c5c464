import Twitch1337.Lib.Net

/-!
# The URL reader

`ai/content/client.rs`: which addresses are blocked, where that is checked, and the requests that `fetch_for_read` makes. What it
does with the body of the response is left out.
-/

namespace Twitch1337.Content

open Net Text

/-- The parts of a URL that are looked at. -/
structure Url where
  scheme : String
  hostStr : Option Text

def Url.isHttp (url : Url) : Bool := url.scheme = "http" || url.scheme = "https"

/-! ## Blocked targets -/

def isBlockedIpv4 (x : Ipv4Addr) : Bool :=
  x.isLoopback || x.isPrivate || x.isLinkLocal || x.isBroadcast || x.isUnspecified || x.isDocumentation

def isBlockedIp : IpAddr → Bool
  | .v4 x => isBlockedIpv4 x
  | .v6 x =>
    x.isLoopback || x.isUniqueLocal || x.isUnicastLinkLocal || x.isUnspecified || x.toIpv4Mapped.any isBlockedIpv4

def isLocalhost (host : Text) : Bool :=
  toAsciiLowercase host = "localhost".toList || ".localhost".toList.isSuffixOf (toAsciiLowercase host)

def isBlockedHostLiteral (url : Url) : Bool :=
  match url.hostStr with
  | none => true
  | some host =>
    if isLocalhost host then true
    else
      match parseIpAddr host with
      | some ip => isBlockedIp ip
      | none => false

/-- The host that may be blocked, of the search service. The client that reads URLs trusts none. -/
structure TrustedHost where
  name : Option Text
  ip : Option IpAddr

def TrustedHost.default : TrustedHost := ⟨none, none⟩

def TrustedHost.matchesName (trusted : TrustedHost) (host : Text) : Bool :=
  trusted.name.any fun name => toAsciiLowercase host = toAsciiLowercase name

def TrustedHost.matchesIp (trusted : TrustedHost) (ip : IpAddr) : Bool := trusted.ip.any (· = ip)

def redirectTargetTrusted (url : Url) (trusted : TrustedHost) : Bool :=
  if !isBlockedHostLiteral url then true
  else
    match url.hostStr with
    | none => false
    | some host =>
      if trusted.matchesName host then true
      else
        match parseIpAddr host with
        | some ip => trusted.matchesIp ip
        | none => false

/-- `SsrfSafeResolver::resolve`, with the answer of the name service. -/
def resolve (bypass : Bool) (trusted : TrustedHost) (host : Text) (addrs : List IpAddr) : Option (List IpAddr) :=
  if !bypass && !trusted.matchesName host && addrs.any fun a => isBlockedIp a && !trusted.matchesIp a then none
  else some addrs

/-! ## Requests -/

/-- What a request comes to, once a connection was tried. -/
inductive HttpReply where
  | failed
  | answer
  | redirect (target : Url)

/-- The world outside: what the URL library makes of a text, what the name service and the servers answer to the request of a
number, and how many of the addresses of a name the client tries. -/
structure Internet where
  parse : Text → Option Url
  lookup : Nat → Text → Option (List IpAddr)
  tried : Nat → Nat
  reply : Nat → HttpReply

/-- What the HTTP client takes for the address of a host: an address, in brackets or not. -/
def literalIp (host : Text) : Option IpAddr :=
  parseIpAddr (((stripPrefix ['['] host).bind (stripSuffix [']'])).getD host)

/-- The addresses to which a request opens connections. A host that is an address is not resolved. -/
def Internet.connect (N : Internet) (bypass : Bool) (trusted : TrustedHost) (n : Nat) (host : Text) : Option (List IpAddr) :=
  match literalIp host with
  | some ip => some [ip]
  | none => ((N.lookup n host).bind (resolve bypass trusted host)).map (·.take (N.tried n))

/-- A request, and those it is redirected to, as long as redirects are left: the connections, and whether a response came. -/
def Internet.send (N : Internet) (bypass : Bool) (trusted : TrustedHost) : Nat → Nat → Url → List IpAddr × Bool
  | left, n, url =>
    match url.hostStr.bind (N.connect bypass trusted n) with
    | none => ([], false)
    | some addrs =>
      match N.reply n with
      | .failed => (addrs, false)
      | .answer => (addrs, true)
      | .redirect target =>
        if !bypass && !redirectTargetTrusted target trusted then (addrs, false)
        else
          match left with
          -- `previous().len() >= 10`
          | 0 => (addrs, true)
          | left + 1 =>
            if target.isHttp then
              let (more, responded) := N.send bypass trusted left (n + 1) target
              (addrs ++ more, responded)
            else (addrs, false)

/-- `fetch_for_read`, up to the response: the connections, and the error if there is none. -/
def Internet.fetchForRead (N : Internet) (bypass : Bool) (rawUrl : Text) : List IpAddr × Except String Unit :=
  match N.parse rawUrl with
  | none => ([], .error "Invalid URL")
  | some url =>
    let scheme := url.scheme
    if !url.isHttp then ([], .error s!"Unsupported URL scheme: {scheme}")
    else if !bypass && isBlockedHostLiteral url then ([], .error "blocked target host")
    else
      let (connections, responded) := N.send bypass .default 9 0 url
      (connections, if responded then .ok () else .error "Failed to fetch URL")

end Twitch1337.Content
