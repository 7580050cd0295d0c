import Cygnus.Access.Document
import Cygnus.Data.Result
import Cygnus.Data.Url

/-! Sign-in of MCP clients: registered clients, authorization codes with PKCE, and the bearer tokens
of employees. Each function is one database transaction. -/

namespace Cygnus.Integrations

open Text Result Url

abbrev Instant := Nat

/-- What the service takes from the settings and from the cryptographic libraries. -/
structure Vault where
  /-- the stack is a local or a test one -/
  dynamicRegistration : Bool
  unicode : Unicode
  /-- the password matches the stored hash -/
  verifyPassword : String → String → Bool
  /-- the HMAC-SHA256 of a token under the pepper -/
  hashToken : String → String
  /-- the SHA-256 of an ASCII text, in URL-safe base64 without padding -/
  digest : String → String

section Rows

structure OAuthClient where
  clientId : String
  name : String
  redirectUris : List String

structure OAuthAuthCode where
  id : Uuid
  code : String
  clientId : String
  employeeId : Uuid
  redirectUri : String
  codeChallenge : String
  codeChallengeMethod : String
  expiresAt : Instant
  used : Bool := false

/-- A row of `employees`. -/
structure Account extends Access.Employee where
  id : Uuid
  email : String
  passwordHash : Option String
  /-- raised whenever the portal sessions of the employee are revoked -/
  sessionVersion : Nat := 0
  isActive : Bool
  mcpTokenHash : Option String := none
  lastConnected : Option Instant := none

instance : Row OAuthAuthCode := ⟨OAuthAuthCode.id⟩
instance : Row Account := ⟨fun account => account.id⟩

structure Doors where
  clients : List OAuthClient := []
  codes : Table OAuthAuthCode := []
  employees : Table Account := []

inductive SignInError
  | http (statusCode : Nat) (detail : String)
  /-- the login form again, with a message -/
  | form (statusCode : Nat) (message : String)
  | integrityError (constraint : String)
  | unicodeEncodeError
  | multipleResultsFound

abbrev SigningIn := Except SignInError

/-- The constraint `employees_email_key`. -/
def requireFreeEmail (employees : Table Account) (id : Uuid) (email : String) : SigningIn Unit :=
  require (∀ other ∈ employees, other.id ≠ id → other.email ≠ email)
    (.integrityError "employees_email_key")

end Rows

section Clients

variable (vault : Vault)

def maxRedirectUrisPerClient : Nat := 16
def maxRedirectUriLength : Nat := 2000

/-- An absolute web address without fragment or user information. -/
def isRedirectUri (uri : String) : Bool :=
  match urlsplit vault.unicode uri.toList with
  | none => false
  | some parts => schemes.contains parts.scheme && (parts.hostname vault.unicode).isSome &&
    parts.fragment = [] && parts.username = none && parts.password = none

def validateRedirectUris (redirectUris : List String) : SigningIn Unit := do
  require (redirectUris ≠ []) (.http 400 "redirect_uris must be a non-empty list")
  require (redirectUris.length ≤ maxRedirectUrisPerClient)
    (.http 400 s!"redirect_uris must contain at most {maxRedirectUrisPerClient} entries")
  redirectUris.forM fun uri => do
    require (uri.length ≤ maxRedirectUriLength) (.http 400 "redirect_uri exceeds maximum length")
    require (isRedirectUri vault uri) (.http 400
      "redirect_uri must be an absolute http(s) URL without fragment or userinfo")

def registerClient (doors : Doors) (name : String) (redirectUris : List String)
    (clientId : String) : SigningIn (OAuthClient × Doors) := do
  require (vault.dynamicRegistration = true) (.http 403 "dynamic_client_registration_disabled")
  require (1 ≤ name.length ∧ name.length ≤ 200)
    (.http 400 "client_name must be 1-200 characters")
  validateRedirectUris vault redirectUris
  require (∀ client ∈ doors.clients, client.clientId ≠ clientId)
    (.integrityError "ix_oauth_clients_client_id")
  let client : OAuthClient := ⟨clientId, name, redirectUris⟩
  return (client, { doors with clients := doors.clients ++ [client] })

def getClient (doors : Doors) (clientId : String) : Option OAuthClient :=
  doors.clients.find? (·.clientId = clientId)

end Clients

section Codes

variable (vault : Vault)

/-- What the login limiter says to an attempt. -/
inductive LoginGate
  | allowed
  | exceeded
  | unavailable

structure AuthorizeRequest where
  clientId : String
  redirectUri : String
  state : String
  codeChallenge : String
  codeChallengeMethod : String
  email : String
  password : String

def authenticateEmployee (employees : Table Account) (email password : String) : Option Account :=
  (employees.find? fun account => account.email = email && account.isActive).filter fun account =>
    match account.passwordHash with
    | none => false
    | some hash => hash ≠ "" && vault.verifyPassword password hash

variable {vault} {account : Account} in
theorem authenticateEmployee_some {employees : Table Account} {email password : String}
    (h : authenticateEmployee vault employees email password = some account) :
    account ∈ employees ∧ account.email = email ∧ account.isActive = true ∧
      ∃ hash, account.passwordHash = some hash ∧ vault.verifyPassword password hash = true := by
  rw [authenticateEmployee, Option.filter_eq_some_iff] at h
  obtain ⟨hfound, hpassword⟩ := h
  have hrow := List.find?_some hfound
  rw [Bool.and_eq_true, decide_eq_true_eq] at hrow
  refine ⟨List.mem_of_find?_eq_some hfound, hrow.1, hrow.2, ?_⟩
  cases hhash : account.passwordHash with
  | none =>
    rw [hhash] at hpassword
    cases hpassword
  | some hash =>
    rw [hhash, Bool.and_eq_true] at hpassword
    exact ⟨hash, rfl, hpassword.2⟩

def authCodeLifetime : Instant := 10 * 60 * 1000000

def AuthorizeRequest.authCode (request : AuthorizeRequest) (id : Uuid) (code : String)
    (employeeId : Uuid) (now : Instant) : OAuthAuthCode :=
  { id := id, code := code, clientId := request.clientId, employeeId := employeeId,
    redirectUri := request.redirectUri, codeChallenge := request.codeChallenge,
    codeChallengeMethod := request.codeChallengeMethod, expiresAt := now + authCodeLifetime }

/-- `POST /oauth/authorize`: who signed in, the code that is sent to the redirect URI, and the rows
after. -/
def authorizePost (doors : Doors) (request : AuthorizeRequest) (gate : LoginGate) (id : Uuid)
    (code : String) (now : Instant) : SigningIn (Account × OAuthAuthCode × Doors) := do
  let client ← demand (getClient doors request.clientId) (.http 400 "invalid_client")
  require (request.redirectUri ∈ client.redirectUris) (.http 400 "invalid_client")
  require (request.codeChallengeMethod = "S256") (.http 400 "unsupported_code_challenge_method")
  require (request.state ≠ "" ∧ request.state.length ≤ 512) (.http 400 "invalid_state")
  require (request.codeChallenge ≠ "" ∧ request.codeChallenge.length ≤ 128)
    (.http 400 "invalid_code_challenge")
  match gate with
  | .unavailable => throw (.form 503 "Authentication service temporarily unavailable.")
  | .exceeded => throw (.form 401 "Invalid email or password.")
  | .allowed => do
    let account ← demand (authenticateEmployee vault doors.employees request.email request.password)
      (.form 401 "Invalid email or password.")
    require (∀ other ∈ doors.codes, other.code ≠ code) (.integrityError "ix_oauth_auth_codes_code")
    let authCode := request.authCode id code account.id now
    let codes ← doors.codes.insert (.integrityError "oauth_auth_codes_pkey") authCode
    return (account, authCode, { doors with codes := codes })

end Codes

section Tokens

variable (vault : Vault)

def tokenOf (secret : String) : String := "ark_" ++ secret

/-- `generate_token`: an `UPDATE` of the employee's row, if there is one. -/
def generateToken (doors : Doors) (employeeId : Uuid) (secret : String) :
    SigningIn (String × Doors) :=
  let token := tokenOf secret
  match doors.employees.get employeeId with
  | none => return (token, doors)
  | some account => do
    require (∀ other ∈ doors.employees, other.id ≠ employeeId →
        other.mcpTokenHash ≠ some (vault.hashToken token))
      (.integrityError "ix_employees_mcp_token_hash")
    return (token, { doors with
      employees := doors.employees.put
        { account with mcpTokenHash := some (vault.hashToken token) } })

/-- Whether there is such an employee, and the rows after. -/
def revokeToken (doors : Doors) (employeeId : Uuid) : Bool × Doors :=
  match doors.employees.get employeeId with
  | none => (false, doors)
  | some account =>
    (true, { doors with employees := doors.employees.put { account with mcpTokenHash := none } })

def verifyPkce (verifier challenge method : String) : SigningIn Bool :=
  if method ≠ "S256" then return false
  else do
    require (verifier.toList.all fun c => c.toNat < 128) .unicodeEncodeError
    return vault.digest verifier = challenge

structure TokenRequest where
  grantType : String
  code : String
  redirectUri : String
  clientId : String
  codeVerifier : String

def invalidGrant : SignInError := .http 400 "invalid_grant"

/-- `POST /oauth/token`: the employee the token is for, the token and the rows after. -/
def exchangeCode (doors : Doors) (request : TokenRequest) (secret : String) (now : Instant) :
    SigningIn (Uuid × String × Doors) := do
  require (request.grantType = "authorization_code") (.http 400 "unsupported_grant_type")
  let authCode ← demand (doors.codes.find? fun row =>
    row.code = request.code && row.clientId = request.clientId && !row.used) invalidGrant
  require (now ≤ authCode.expiresAt) invalidGrant
  require (authCode.redirectUri = request.redirectUri) invalidGrant
  let valid ← verifyPkce vault request.codeVerifier authCode.codeChallenge
    authCode.codeChallengeMethod
  require (valid = true) invalidGrant
  let (token, doors) ← generateToken vault
    { doors with codes := doors.codes.put { authCode with used := true } } authCode.employeeId secret
  return (authCode.employeeId, token, doors)

/-- `str.split()`. -/
def words (s : String) : List (List Char) := (s.toList.splitOnP isSpace).filter (· ≠ [])

/-- The token of an `Authorization` header. -/
def parseBearerToken (authorization : Option String) : Option String :=
  match authorization.map words with
  | some [scheme, token] =>
    if vault.unicode.lower scheme = "bearer".toList then some (String.ofList token) else none
  | _ => none

def lastConnectedDebounce : Instant := 60 * 1000000

/-- `verify_token`, up to the scope: the row the token is for, and the rows after. -/
def verifyToken (doors : Doors) (token : String) (now : Instant) :
    SigningIn (Option Account × Doors) :=
  match doors.employees.filter fun account =>
      account.mcpTokenHash = some (vault.hashToken token) && account.isActive with
  | [] => return (none, doors)
  | [account] =>
    if account.lastConnected.all fun previous => previous + lastConnectedDebounce < now then
      let bumped := { account with lastConnected := some now }
      return (some bumped, { doors with employees := doors.employees.put bumped })
    else return (some account, doors)
  | _ => throw .multipleResultsFound

/-- A request with an `Authorization` header; `none` where it is not that of an employee. -/
def connect (doors : Doors) (authorization : Option String) (now : Instant) :
    SigningIn (Option Account × Doors) :=
  match parseBearerToken vault authorization with
  | none => return (none, doors)
  | some token => verifyToken vault doors token now

end Tokens

end Cygnus.Integrations
