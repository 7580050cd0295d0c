import Cygnus.Data.Machine
import Cygnus.Integrations.OAuth

/-! Sessions of the portal: a login hands out a signed token with the session version of the
employee's row, and a logout or a new password raises the version. A request reads the row of its
employee first, and other requests may be served before it writes. -/

namespace Cygnus.Integrations

open Access Result

section Tokens

/-- The claims of a portal token. The times are whole seconds. -/
structure SessionClaims where
  sub : String
  role : String
  sessionVersion : Nat
  exp : Nat
  iat : Nat
  deriving DecidableEq

/-- The token library under the secret key of the server. -/
structure TokenSigner where
  encode : SessionClaims → String
  decode : String → Instant → Option SessionClaims

/-- A token that was signed here is decoded while it is valid. -/
def TokenSigner.Faithful (signer : TokenSigner) : Prop :=
  ∀ claims now, signer.decode (signer.encode claims) now =
    if claims.iat * 1000000 ≤ now ∧ now < claims.exp * 1000000 then some claims else none

def jwtExpireHours : Nat := 24

def sessionClaims (account : Account) (now : Instant) : SessionClaims :=
  { sub := account.id.text, role := account.role, sessionVersion := account.sessionVersion,
    exp := now / 1000000 + jwtExpireHours * 3600, iat := now / 1000000 }

variable (signer : TokenSigner)

def createAccessToken (account : Account) (now : Instant) : String :=
  signer.encode (sessionClaims account now)

def unauthorized (detail : String) : SignInError := .http 401 detail

def invalidToken : SignInError := unauthorized "Invalid or expired token"

/-- The row of the employee a token names. -/
def getCurrentUser (employees : Table Account) (token : String) (now : Instant) :
    SigningIn Account := do
  let claims ← demand (signer.decode token now) invalidToken
  let employeeId ← demand (Uuid.parse claims.sub) invalidToken
  let account ← demand (employees.get employeeId)
    (unauthorized "Account not found or deactivated")
  require (account.isActive = true) (unauthorized "Account not found or deactivated")
  require (claims.sessionVersion = account.sessionVersion) invalidToken
  return account

end Tokens

section Versions

/-- `advance_employee_session_version`: one `UPDATE` of the row, if it is there and holds the expected
hash. -/
def advanceSessionVersion (employees : Table Account) (employeeId : Uuid)
    (passwordHash expectedPasswordHash : Option String) : Option (Table Account) :=
  match (employees.get employeeId).filter fun account =>
      expectedPasswordHash.all fun expected => account.passwordHash = some expected with
  | none => none
  | some account => some (employees.put
      { account with
        sessionVersion := account.sessionVersion + 1,
        passwordHash := passwordHash.or account.passwordHash })

end Versions

section Requests

/-- What happened to the employees and their sessions. -/
inductive PortalEntry
  | signedIn (account : Account) (password : String) (now : Instant)
  | loggedOut (employeeId : Uuid)
  /-- The employee gave the password of the `verified` hash. -/
  | changed (employeeId : Uuid) (password verified : String) (passwordHash : String)
  | reset (employeeId : Uuid) (passwordHash : String)
  | hired (employeeId : Uuid) (passwordHash : String)
  | dismissed (employeeId : Uuid)

structure Portal where
  employees : Table Account := []
  /-- For each request that was let in, the row as it read it. -/
  current : List Account := []
  log : List PortalEntry := []

inductive PortalCall
  | login (email password : String) (gate : LoginGate) (now : Instant)
  | enter (token : String) (now : Instant)
  /-- The request with this number logs out. -/
  | logout (request : Nat)
  /-- `newHash` is a hash of the new password, with a salt of its own. -/
  | changePassword (request : Nat) (currentPassword newPassword newHash : String)
  | createEmployee (request : Nat) (id : Uuid) (profile : Access.Employee) (email : String)
      (password newHash : String)
  | updateEmployee (request : Nat) (id : Uuid) (profile : Access.Employee) (email : String)
      (newHash : Option String)
  | toggleEmployee (request : Nat) (id : Uuid)
  | deleteEmployee (request : Nat) (id : Uuid)
  /-- The first administrator, who is not created by a request. -/
  | bootstrap (id : Uuid) (profile : Access.Employee) (email newHash : String)

/-- `require_employee_management_admin`. -/
def requireAdmin (portal : Portal) (request : Nat) : SigningIn Unit := do
  let user ← demand portal.current[request]? (unauthorized "Not authenticated")
  require (user.role = "admin") (.http 403 "Admin access required")

def insertEmployee (portal : Portal) (id : Uuid) (profile : Access.Employee)
    (email newHash : String) : SigningIn Portal := do
  requireFreeEmail portal.employees id email
  let employees ← portal.employees.insert (.integrityError "employees_pkey")
    { toEmployee := profile, id := id, email := email, passwordHash := some newHash, isActive := true }
  return { portal with employees := employees, log := portal.log ++ [.hired id newHash] }

variable (vault : Vault) (signer : TokenSigner)

def PortalCall.perform : PortalCall → Portal → SigningIn Portal
  | .login email password gate now, portal =>
    match gate with
    | .unavailable => throw (.http 503 "Authentication service temporarily unavailable")
    | .exceeded => throw (unauthorized "Invalid email or password")
    | .allowed => do
      let account ← demand (authenticateEmployee vault portal.employees email password)
        (unauthorized "Invalid email or password")
      return { portal with log := portal.log ++ [.signedIn account password now] }
  | .enter token now, portal => do
    let account ← getCurrentUser signer portal.employees token now
    return { portal with current := portal.current ++ [account] }
  | .logout request, portal => do
    let user ← demand portal.current[request]? (unauthorized "Not authenticated")
    let employees ← demand (advanceSessionVersion portal.employees user.id none none)
      (unauthorized "Account not found or deactivated")
    return { portal with employees := employees, log := portal.log ++ [.loggedOut user.id] }
  | .changePassword request currentPassword newPassword newHash, portal => do
    let user ← demand portal.current[request]? (unauthorized "Not authenticated")
    let verified ← demand (user.passwordHash.filter (· ≠ ""))
      (.http 400 "No password set. Contact admin.")
    require (vault.verifyPassword currentPassword verified = true)
      (unauthorized "Current password is incorrect")
    require (6 ≤ newPassword.length) (.http 400 "New password must be at least 6 characters")
    let employees ← demand
      (advanceSessionVersion portal.employees user.id (some newHash) (some verified))
      (unauthorized "Current password is incorrect")
    return { portal with
      employees := employees,
      log := portal.log ++ [.changed user.id currentPassword verified newHash] }
  | .createEmployee request id profile email password newHash, portal => do
    requireAdmin portal request
    require (password ≠ "") (.http 400 "Password is required")
    require (8 ≤ password.length) (.http 400 "Password must be at least 8 characters")
    insertEmployee portal id profile email newHash
  | .updateEmployee request id profile email newHash, portal => do
    requireAdmin portal request
    let account ← demand (portal.employees.get id) (.http 404 "Employee not found")
    requireFreeEmail portal.employees id email
    let employees := portal.employees.put { account with toEmployee := profile, email := email }
    match newHash with
    | none => return { portal with employees := employees }
    | some hash => do
      let employees ← demand (advanceSessionVersion employees id (some hash) none)
        (.http 404 "Employee not found")
      return { portal with employees := employees, log := portal.log ++ [.reset id hash] }
  | .toggleEmployee request id, portal => do
    requireAdmin portal request
    let account ← demand (portal.employees.get id) (.http 404 "Employee not found")
    return { portal with
      employees := portal.employees.put { account with isActive := !account.isActive } }
  | .deleteEmployee request id, portal => do
    requireAdmin portal request
    let account ← demand (portal.employees.get id) (.http 404 "Employee not found")
    require (¬ (account.role = "admin" ∨ account.globalRole = some "admin"))
      (.http 400 "Cannot delete an administrator account")
    return { portal with
      employees := portal.employees.filter fun other => Row.key other ≠ id,
      log := portal.log ++ [.dismissed id] }
  | .bootstrap id profile email newHash, portal => insertEmployee portal id profile email newHash

/-- What a run from an empty database leaves. -/
def portalRun (calls : List PortalCall) : Portal :=
  Machine.run (PortalCall.perform vault signer) {} calls

end Requests

end Cygnus.Integrations
