import Cygnus.Data.Text

/-! Retrieval of a source from a public address: every hop of a redirect chain is validated, and its
connections are pinned to the addresses of that validation. -/

namespace Cygnus.Substrate

open Text Result

def maxRedirects : Nat := 5

inductive SourceUrlError
  | validation (message : String)
  | payloadTooLarge (message : String)
  | invalidArgument (message : String)
  /-- Whatever the HTTP client raises. -/
  | http

structure SplitUrl where
  scheme : String
  username : Option String
  password : Option String
  hostname : Option String
  port : Option Nat
  path : String
  query : String

/-- An address as the `ipaddress` module classifies it. -/
structure IpAddress where
  isGlobal : Bool
  isLoopback : Bool
  isPrivate : Bool
  isLinkLocal : Bool
  isMulticast : Bool
  isUnspecified : Bool
  isReserved : Bool

/-- What the code takes from the library: `ip_address` with the address that an IPv6 address maps,
`urlsplit` with the properties that may raise, `urlunsplit`, `urljoin`, the IDNA encoding and
`str.lower`. -/
structure Library where
  ipAddress : String → Option IpAddress
  ipv4Mapped : String → Option IpAddress
  urlsplit : String → Option SplitUrl
  urlunsplit : String → String → String → String → String
  urljoin : String → String → String
  idna : String → Option String
  lower : String → String

structure ValidatedSourceUrl where
  url : String
  host : String
  port : Nat
  addresses : List String

/-- One lookup: none where the host cannot be resolved, else the addresses of the records. -/
abbrev Dns := String → Nat → Option (List String)

section Validation

variable (lib : Library)

def isPublicAddress (address : String) : Bool :=
  match lib.ipAddress address with
  | none => false
  | some parsed =>
    let parsed := (lib.ipv4Mapped address).getD parsed
    parsed.isGlobal && !parsed.isLoopback && !parsed.isPrivate && !parsed.isLinkLocal &&
      !parsed.isMulticast && !parsed.isUnspecified && !parsed.isReserved

def resolvePublicAddresses (dns : Dns) (host : String) (port : Nat) :
    Except SourceUrlError (List String) :=
  match dns host port with
  | none => .error (.validation "Source URL host could not be resolved")
  | some records => do
    let addresses := records.eraseDups
    require (addresses ≠ []) (.validation "Source URL host did not resolve to an address")
    require (∀ address ∈ addresses, isPublicAddress lib address)
      (.validation "Source URL resolves to a non-public address")
    return addresses

def normalizedUrl (parts : SplitUrl) (host : String) : String :=
  let hostComponent := if ':' ∈ host.toList then "[" ++ host ++ "]" else host
  let hostComponent := parts.port.elim hostComponent fun port => s!"{hostComponent}:{port}"
  lib.urlunsplit (lib.lower parts.scheme) hostComponent (if parts.path = "" then "/" else parts.path)
    parts.query

/-- `str.rstrip(".")`. -/
def stripDots (host : String) : String := String.ofList (host.toList.rdropWhile (· = '.'))

/-- `port or default`. -/
def resolvedPort (lib : Library) (parts : SplitUrl) : Nat :=
  match parts.port with
  | some (n + 1) => n + 1
  | _ => if lib.lower parts.scheme = "https" then 443 else 80

/-- The value of a call that may raise. -/
def orRaise {α : Type} (value : Option α) (error : SourceUrlError) : Except SourceUrlError α :=
  value.elim (.error error) .ok

def validateSourceUrl (dns : Dns) (value : String) : Except SourceUrlError ValidatedSourceUrl := do
  require (value ≠ "" ∧ value = strip value)
    (.validation "Source URL must be non-empty and have no surrounding whitespace")
  require (¬ value.toList.any (·.toNat < 0x20))
    (.validation "Source URL contains control characters")
  let parts ← orRaise (lib.urlsplit value) (.validation "Source URL is invalid")
  require (lib.lower parts.scheme ∈ ["http", "https"])
    (.validation "Source URL must use http or https")
  require (parts.username = none ∧ parts.password = none)
    (.validation "Source URL credentials are not allowed")
  let host := parts.hostname.getD ""
  require (host ≠ "" ∧ '%' ∉ host.toList) (.validation "Source URL must include a valid host")
  let encoded ← orRaise (lib.idna (stripDots host)) (.validation "Source URL host is invalid")
  let normalizedHost := lib.lower encoded
  require (normalizedHost ≠ "") (.validation "Source URL must include a valid host")
  let port := resolvedPort lib parts
  let addresses ← resolvePublicAddresses lib dns normalizedHost port
  return ⟨normalizedUrl lib parts normalizedHost, normalizedHost, port, addresses⟩

end Validation

section Connection

/-- What comes of dialling one address. -/
inductive Dialled
  | connected
  /-- A refused connection or a timeout, after which the next address is tried. -/
  | refused
  | failed

/-- A TCP connection that is opened or attempted. -/
structure Connection where
  address : String
  port : Nat

variable (lib : Library)

/-- The addresses in turn, up to the first that answers. -/
def dialEach (dial : Connection → Dialled) (port : Nat) : List String → List Connection
  | [] => []
  | address :: addresses =>
    match dial ⟨address, port⟩ with
    | .refused => ⟨address, port⟩ :: dialEach dial port addresses
    | _ => [⟨address, port⟩]

/-- `connect_tcp` of the pinned backend, by the connections it attempts. -/
def connectTcp (target : ValidatedSourceUrl) (dial : Connection → Dialled) (host : String)
    (port : Nat) : List Connection :=
  if lib.lower (stripDots host) ≠ target.host ∨ port ≠ target.port then []
  else if target.addresses = [] then []
  else if target.addresses.any fun address => !isPublicAddress lib address then []
  else dialEach dial port target.addresses

/-- A response as it is streamed: the decoded chunks, and whether the stream breaks off. -/
structure Response where
  statusCode : Nat
  location : Option String
  contentLength : Option String
  contentType : Option String
  chunks : List (List UInt8)
  broken : Bool

/-- The HTTP client during one hop. It reaches the network only through the pinned backend, by any
calls of it, and ends with an exception or a response. -/
structure Client where
  calls : List (String × Nat)
  dial : Connection → Dialled
  response : Option Response

/-- The chunks onto what has been read. -/
def readChunks (maxBytes : Int) (payload : List UInt8) :
    List (List UInt8) → Except SourceUrlError (List UInt8)
  | [] => .ok payload
  | chunk :: chunks =>
    if maxBytes < payload.length + chunk.length then
      .error (.payloadTooLarge "Source URL response exceeds the byte limit")
    else readChunks maxBytes (payload ++ chunk) chunks

def readBoundedResponse (response : Response) (maxBytes : Int) :
    Except SourceUrlError (List UInt8) := do
  require (¬ ∃ declared ∈ response.contentLength.bind parseInt, maxBytes < declared)
    (.payloadTooLarge "Source URL response exceeds the byte limit")
  let payload ← readChunks maxBytes [] response.chunks
  require (response.broken = false) .http
  return payload

structure FetchedHop where
  statusCode : Nat
  location : Option String
  contentType : Option String
  payload : List UInt8

/-- A hop that was requested: its target and the connections made for it. -/
structure Hop where
  target : ValidatedSourceUrl
  connections : List Connection

def fetchOneHop (client : Client) (target : ValidatedSourceUrl) (maxBytes : Int) :
    Hop × Except SourceUrlError FetchedHop :=
  let connections := client.calls.flatMap fun call =>
    connectTcp lib target client.dial call.1 call.2
  let fetched : Except SourceUrlError FetchedHop :=
    match client.response with
    | none => .error .http
    | some response =>
      if 300 ≤ response.statusCode ∧ response.statusCode ≤ 399 then
        .ok ⟨response.statusCode, response.location, response.contentType, []⟩
      -- `raise_for_status` lets nothing but a success pass
      else if 200 ≤ response.statusCode ∧ response.statusCode ≤ 299 then do
        let payload ← readBoundedResponse response maxBytes
        return ⟨response.statusCode, response.location, response.contentType, payload⟩
      else .error .http
  (⟨target, connections⟩, fetched)

end Connection

section Fetch

structure SourceUrlResponse where
  url : String
  contentType : Option String
  payload : List UInt8

/-- The outside: the answer to each lookup and the client of each hop, in order. -/
structure Outside where
  dns : Nat → Dns
  client : Nat → Client

/-- The hops of a run and how it ends. -/
structure Fetch where
  hops : List Hop
  outcome : Except SourceUrlError SourceUrlResponse

variable (lib : Library)

/-- The redirect loop with `left` turns to go, at the hop of number `position`. -/
def fetchHops (outside : Outside) (maxBytes : Int) : (left position : Nat) →
    (visited : List String) → (currentUrl : String) → Fetch
  | 0, _, _, _ => ⟨[], .error (.validation "Source URL exceeded the redirect limit")⟩
  | left + 1, position, visited, currentUrl =>
    match validateSourceUrl lib (outside.dns position) currentUrl with
    | .error error => ⟨[], .error error⟩
    | .ok target =>
      if target.url ∈ visited then
        ⟨[], .error (.validation "Source URL redirect loop detected")⟩
      else
        match fetchOneHop lib (outside.client position) target maxBytes with
        | (hop, .error error) => ⟨[hop], .error error⟩
        | (hop, .ok fetched) =>
          if 300 ≤ fetched.statusCode ∧ fetched.statusCode < 400 then
            match fetched.location with
            | none | some "" =>
              ⟨[hop], .error (.validation "Source URL redirect is missing a location")⟩
            | some location =>
              let rest := fetchHops outside maxBytes left (position + 1) (target.url :: visited)
                (lib.urljoin target.url location)
              ⟨hop :: rest.hops, rest.outcome⟩
          else ⟨[hop], .ok ⟨target.url, fetched.contentType, fetched.payload⟩⟩

/-- `timeoutPositive` says whether the timeout is a positive number. -/
def fetchPublicSourceUrl (outside : Outside) (url : String) (maxBytes : Int)
    (timeoutPositive : Bool) : Fetch :=
  if maxBytes ≤ 0 then ⟨[], .error (.invalidArgument "max_bytes must be a positive integer")⟩
  else if !timeoutPositive then
    ⟨[], .error (.invalidArgument "timeout_seconds must be a positive number")⟩
  else fetchHops lib outside maxBytes (maxRedirects + 1) 0 [] url

end Fetch

section Safety

variable {lib : Library}

theorem resolvePublicAddresses_ok {dns : Dns} {host : String} {port : Nat} {addresses : List String}
    (h : resolvePublicAddresses lib dns host port = .ok addresses) :
    ∀ address ∈ addresses, isPublicAddress lib address := by
  unfold resolvePublicAddresses at h
  split at h
  · cases h
  · simp only [bind_ok, require_ok, pure_ok] at h
    obtain ⟨-, -, -, hpublic, rfl⟩ := h
    exact hpublic

theorem validateSourceUrl_public {dns : Dns} {value : String} {target : ValidatedSourceUrl}
    (h : validateSourceUrl lib dns value = .ok target) :
    ∀ address ∈ target.addresses, isPublicAddress lib address := by
  simp only [validateSourceUrl, bind_ok, pure_ok] at h
  obtain ⟨-, -, -, -, parts, -, -, -, -, -, -, -, encoded, -, -, -, addresses, haddresses, rfl⟩ := h
  exact resolvePublicAddresses_ok haddresses

theorem dialEach_address {dial : Connection → Dialled} {port : Nat} {addresses : List String}
    {connection : Connection} (h : connection ∈ dialEach dial port addresses) :
    connection.address ∈ addresses := by
  induction addresses with
  | nil => cases h
  | cons address addresses ih =>
    unfold dialEach at h
    split at h
    · rcases List.mem_cons.mp h with rfl | h
      · exact List.mem_cons_self
      · exact List.mem_cons_of_mem address (ih h)
    · obtain rfl := List.mem_singleton.mp h
      exact List.mem_cons_self

theorem connectTcp_address {target : ValidatedSourceUrl} {dial : Connection → Dialled}
    {host : String} {port : Nat} {connection : Connection}
    (h : connection ∈ connectTcp lib target dial host port) :
    connection.address ∈ target.addresses := by
  unfold connectTcp at h
  split at h
  · cases h
  · split at h
    · cases h
    · split at h
      · cases h
      · exact dialEach_address h

/-- What has been read stays within the limit. -/
theorem readChunks_length {maxBytes : Int} {payload out : List UInt8} {chunks : List (List UInt8)}
    (hpayload : payload.length ≤ maxBytes) (h : readChunks maxBytes payload chunks = .ok out) :
    out.length ≤ maxBytes := by
  induction chunks generalizing payload with
  | nil =>
    cases h
    exact hpayload
  | cons chunk chunks ih =>
    unfold readChunks at h
    split at h
    · cases h
    · rename_i hfits
      refine ih ?_ h
      rw [List.length_append]
      push_cast
      omega

theorem fetchOneHop_connections {client : Client} {target : ValidatedSourceUrl} {maxBytes : Int}
    {connection : Connection} (h : connection ∈ (fetchOneHop lib client target maxBytes).1.connections) :
    connection.address ∈ target.addresses := by
  obtain ⟨call, -, hcall⟩ := List.mem_flatMap.mp h
  exact connectTcp_address hcall

theorem fetchOneHop_payload {client : Client} {target : ValidatedSourceUrl} {maxBytes : Int}
    (hmax : 0 < maxBytes) {hop : Hop} {fetched : FetchedHop}
    (h : fetchOneHop lib client target maxBytes = (hop, .ok fetched)) :
    fetched.payload.length ≤ maxBytes := by
  unfold fetchOneHop at h
  obtain ⟨-, h⟩ := Prod.mk.inj h
  split at h
  · cases h
  · split at h
    · cases h
      exact hmax.le
    · split at h
      · simp only [bind_ok, pure_ok, readBoundedResponse] at h
        obtain ⟨payload, ⟨-, -, read, hread, -, -, rfl⟩, rfl⟩ := h
        exact @readChunks_length maxBytes [] _ _ hmax.le hread
      · cases h

/-- What a run may do: the connections of a hop go to the public addresses that the hop's own
validation has returned, the requests are few and no address is requested twice, and the payload is
within the limit. -/
structure SafeFrom (lib : Library) (outside : Outside) (maxBytes : Int) (limit position : Nat)
    (visited : List String) (fetch : Fetch) : Prop where
  validated : ∀ i hop, fetch.hops[i]? = some hop →
    ∃ url, validateSourceUrl lib (outside.dns (position + i)) url = .ok hop.target
  pinned : ∀ hop ∈ fetch.hops, ∀ connection ∈ hop.connections,
    connection.address ∈ hop.target.addresses ∧ isPublicAddress lib connection.address
  bounded : fetch.hops.length ≤ limit
  fresh : (fetch.hops.map fun hop => hop.target.url).Nodup ∧
    ∀ hop ∈ fetch.hops, hop.target.url ∉ visited
  payload : ∀ response, fetch.outcome = .ok response → response.payload.length ≤ maxBytes

variable {outside : Outside} {maxBytes : Int} {limit position : Nat} {visited : List String}

theorem SafeFrom.stopped (error : SourceUrlError) :
    SafeFrom lib outside maxBytes limit position visited ⟨[], .error error⟩ := by
  refine ⟨?_, ?_, Nat.zero_le _, ⟨List.nodup_nil, ?_⟩, ?_⟩
  · intro i hop h
    simp at h
  · intro hop h
    cases h
  · intro hop h
    cases h
  · intro response h
    cases h

/-- One hop in front of a safe rest. -/
theorem SafeFrom.cons {rest : Fetch} {currentUrl : String} {target : ValidatedSourceUrl}
    (hvalid : validateSourceUrl lib (outside.dns position) currentUrl = .ok target)
    (hnew : target.url ∉ visited)
    (hrest : SafeFrom lib outside maxBytes limit (position + 1) (target.url :: visited) rest) :
    SafeFrom lib outside maxBytes (limit + 1) position visited
      ⟨(fetchOneHop lib (outside.client position) target maxBytes).1 :: rest.hops, rest.outcome⟩ := by
  refine ⟨?_, ?_, Nat.succ_le_succ hrest.bounded, ⟨?_, ?_⟩, hrest.payload⟩
  · intro i hop h
    cases i with
    | zero =>
      cases h
      exact ⟨currentUrl, hvalid⟩
    | succ i =>
      obtain ⟨url, hurl⟩ := hrest.validated i hop h
      rw [Nat.add_assoc, Nat.add_comm 1] at hurl
      exact ⟨url, hurl⟩
  · intro hop h connection hconnection
    rcases List.mem_cons.mp h with rfl | h
    · have haddress := fetchOneHop_connections hconnection
      exact ⟨haddress, validateSourceUrl_public hvalid _ haddress⟩
    · exact hrest.pinned hop h connection hconnection
  · rw [List.map_cons, List.nodup_cons]
    refine ⟨?_, hrest.fresh.1⟩
    intro hmem
    obtain ⟨hop, hhop, hurl⟩ := List.mem_map.mp hmem
    exact hrest.fresh.2 hop hhop (hurl ▸ List.mem_cons_self)
  · intro hop h
    rcases List.mem_cons.mp h with rfl | h
    · exact hnew
    · exact fun hmem => hrest.fresh.2 hop h (List.mem_cons_of_mem _ hmem)

theorem fetchHops_safe (lib : Library) (outside : Outside) {maxBytes : Int} (hmax : 0 < maxBytes)
    (left position : Nat) (visited : List String) (currentUrl : String) :
    SafeFrom lib outside maxBytes left position visited
      (fetchHops lib outside maxBytes left position visited currentUrl) := by
  induction left generalizing position visited currentUrl with
  | zero => exact .stopped _
  | succ left ih =>
    unfold fetchHops
    split
    · exact .stopped _
    · rename_i target hvalid
      split
      · exact .stopped _
      · rename_i hnew
        have hlast : ∀ outcome : Except SourceUrlError SourceUrlResponse,
            (∀ response, outcome = .ok response → response.payload.length ≤ maxBytes) →
            SafeFrom lib outside maxBytes (left + 1) position visited
              ⟨[(fetchOneHop lib (outside.client position) target maxBytes).1], outcome⟩ := by
          intro outcome houtcome
          have hnone := @SafeFrom.stopped lib outside maxBytes left (position + 1)
            (target.url :: visited) .http
          exact @SafeFrom.cons lib outside maxBytes left position visited ⟨[], outcome⟩ _ _ hvalid hnew
            ⟨hnone.validated, hnone.pinned, hnone.bounded, hnone.fresh, houtcome⟩
        split
        · rename_i hop error hhop
          have hfirst := hlast (.error error) fun _ h => by cases h
          rwa [hhop] at hfirst
        · rename_i hop fetched hhop
          have hpayload := fetchOneHop_payload hmax hhop
          split
          · split
            · have hfirst := hlast
                (.error (.validation "Source URL redirect is missing a location"))
                fun _ h => by cases h
              rwa [hhop] at hfirst
            · have hfirst := hlast
                (.error (.validation "Source URL redirect is missing a location"))
                fun _ h => by cases h
              rwa [hhop] at hfirst
            · rename_i location _ _
              have hrest := SafeFrom.cons hvalid hnew
                (ih (position + 1) (target.url :: visited) (lib.urljoin target.url location))
              rwa [hhop] at hrest
          · have hfirst := hlast (.ok ⟨target.url, fetched.contentType, fetched.payload⟩) fun _ h => by
              cases h
              exact hpayload
            rwa [hhop] at hfirst

theorem fetchPublicSourceUrl_safe (lib : Library) (outside : Outside) (url : String)
    (maxBytes : Int) (timeoutPositive : Bool) :
    SafeFrom lib outside maxBytes (maxRedirects + 1) 0 []
      (fetchPublicSourceUrl lib outside url maxBytes timeoutPositive) := by
  unfold fetchPublicSourceUrl
  split
  · exact .stopped _
  · rename_i hmax
    split
    · exact .stopped _
    · exact fetchHops_safe lib outside (by omega) _ _ _ _

end Safety

end Cygnus.Substrate
