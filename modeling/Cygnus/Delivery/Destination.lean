import Cygnus.Data.Result
import Cygnus.Data.Url

/-! Where deliveries may go: an address is validated against the hosts and ports of the configured
targets, first and at every redirect. -/

namespace Cygnus.Delivery

open Text Result Url

inductive DestinationError
  | policy (message : String)
  /-- The `ValueError` for a configured target. -/
  | targetHasNoHost (rawUrl : Chars)
  /-- Whatever `urlsplit` or reading the port raises. -/
  | value
  /-- Whatever the HTTP client raises. -/
  | transport
deriving DecidableEq

variable (unicode : Unicode)

section Validation

/-- `str.strip` of a list of characters. -/
def stripText (s : Chars) : Chars := (s.dropWhile isSpace).rdropWhile isSpace

/-- `hostname.lower().rstrip(".")`. -/
def normalizedHost (hostname : Chars) : Chars := (unicode.lower hostname).rdropWhile (· = '.')

def netloc (host : Chars) : Option Nat → Chars
  | none => host
  | some port => host ++ ':' :: (toString port).toList

def originOf (rawUrl : Chars) : Except DestinationError Chars := do
  let parts ← demand (urlsplit unicode (stripText rawUrl)) .value
  let hostname ← demand (parts.hostname unicode) (.targetHasNoHost rawUrl)
  let port ← demand parts.port .value
  return netloc (normalizedHost unicode hostname) port

/-- The allowlist: the hosts of the configured targets, each with its port. -/
def deliveryTargetOrigins (targets : List (Chars × Chars)) : Except DestinationError (List Chars) :=
  targets.mapM fun target => originOf unicode target.2

def isLabelChar (c : Char) : Bool := c.isLower || c.isDigit

/-- `[a-z0-9](?:[a-z0-9-]*[a-z0-9])?`. -/
def isDnsLabel (label : Chars) : Bool :=
  label.head?.any isLabelChar && label.getLast?.any isLabelChar &&
    label.all fun c => isLabelChar c || c = '-'

def invalidDnsName : DestinationError :=
  .policy "delivery destination host is not a valid DNS name"

def validateHostSyntax (host : Chars) : Except DestinationError Unit := do
  if isIpAddress host then return ()
  require (host ≠ [] ∧ host.length ≤ 253) invalidDnsName
  require (∀ label ∈ host.splitOn '.', label ≠ [] ∧ label.length ≤ 63 ∧ isDnsLabel label = true)
    invalidDnsName

def insecureScheme : Chars := ['h', 't', 't', 'p']

/-- `repr` of a text without quotes and backslashes. -/
def reprText (s : Chars) : String := "'" ++ String.ofList s ++ "'"

def urlOf (scheme netloc path : Chars) : Chars := scheme ++ ':' :: '/' :: '/' :: (netloc ++ path)

def validateDeliveryDestination (rawUrl : Chars) (allowedNetlocs : List Chars)
    (allowInsecureHttp : Bool) : Except DestinationError Chars := do
  let normalized := stripText rawUrl
  require (normalized ≠ []) (.policy "delivery destination must not be blank")
  let parts ← demand (urlsplit unicode normalized) .value
  require (parts.scheme ∈ schemes)
    (.policy ("delivery destination must use http or https, got " ++ reprText parts.scheme))
  require (¬ (parts.scheme = insecureScheme ∧ allowInsecureHttp = false))
    (.policy "HTTPS is required for delivery destinations outside local/test")
  require (parts.username = none ∧ parts.password = none)
    (.policy "delivery destination must not embed credentials")
  require (parts.query = [] ∧ parts.fragment = [])
    (.policy "delivery destination must not carry query or fragment")
  let hostname ← demand (parts.hostname unicode) (.policy "delivery destination has no host")
  let host := normalizedHost unicode hostname
  validateHostSyntax host
  let port ← demand parts.port .value
  require (netloc host port ∈ allowedNetlocs)
    (.policy s!"delivery destination {String.ofList (netloc host port)} is not allowlisted")
  return urlOf parts.scheme (netloc host port) (if parts.path = [] then ['/'] else parts.path)

end Validation

section Redirects

structure Reply where
  statusCode : Nat
  location : Option Chars

def maxRedirectHops : Nat := 5

def redirectStatuses : List Nat := [301, 302, 303, 307, 308]

/-- A POST, with the text that its address is the validated form of. -/
structure Post where
  rawUrl : Chars
  url : Chars

/-- The loop, with the rounds left to it: the POSTs that are made, and how it ends. The client answers
the POST of a round with a reply, or raises. -/
def postFrom (urljoin : Chars → Chars → Chars) (allowedOrigins : List Chars)
    (allowInsecureHttp : Bool) (client : Nat → Chars → Option Reply) :
    Nat → Post → List Post × Except DestinationError Reply
  | 0, _ => ([], .error (.policy "delivery redirect chain exceeded the bounded hop limit"))
  | left + 1, post =>
    match client left post.url with
    | none => ([post], .error .transport)
    | some response =>
      if response.statusCode ∉ redirectStatuses then ([post], .ok response)
      else
        let location := response.location.getD []
        if location = [] then
          ([post], .error (.policy "delivery redirect response has no Location header"))
        else
          let rawUrl := urljoin post.url location
          match validateDeliveryDestination unicode rawUrl allowedOrigins allowInsecureHttp with
          | .error error => ([post], .error error)
          | .ok url =>
            let rest := postFrom urljoin allowedOrigins allowInsecureHttp client left ⟨rawUrl, url⟩
            (post :: rest.1, rest.2)

def postWithRedirectValidation (urljoin : Chars → Chars → Chars) (allowedOrigins : List Chars)
    (allowInsecureHttp : Bool) (client : Nat → Chars → Option Reply) (post : Post) :
    List Post × Except DestinationError Reply :=
  postFrom unicode urljoin allowedOrigins allowInsecureHttp client (maxRedirectHops + 1) post

end Redirects

end Cygnus.Delivery
