import Cygnus.Data.Machine
import Cygnus.Data.Sequence
import Cygnus.Data.Table
import Cygnus.Integrations.OAuth

/-! Over any run of the sign-in service a code is redeemed at most once, by the client it was issued
to, and a bearer token is good for the employee whose last token it is. -/

namespace Cygnus.Integrations

open Result Sequence

section Calls

inductive DoorCall
  | register (name : String) (redirectUris : List String) (clientId : String)
  /-- An operator adds a client. -/
  | provision (client : OAuthClient)
  | authorize (request : AuthorizeRequest) (gate : LoginGate) (id : Uuid) (code : String)
      (now : Instant)
  | exchange (request : TokenRequest) (secret : String) (now : Instant)
  /-- An administrator or the employee rotates the token. -/
  | generate (employeeId : Uuid) (secret : String)
  | revoke (employeeId : Uuid)
  | toggle (employeeId : Uuid)
  /-- The other columns of an employee are edited. -/
  | edit (employeeId : Uuid) (profile : Access.Employee) (email : String)
      (passwordHash : Option String)
  /-- A new employee, who has no token. -/
  | hire (id : Uuid) (profile : Access.Employee) (email : String) (passwordHash : Option String)
      (isActive : Bool)
  /-- The row is deleted, with the codes issued for it. -/
  | dismiss (employeeId : Uuid)
  | connect (authorization : Option String) (now : Instant)

/-- A code that was issued, to whom and for what. -/
structure Grant where
  request : AuthorizeRequest
  account : Account
  authCode : OAuthAuthCode

structure Redemption where
  request : TokenRequest
  employeeId : Uuid
  now : Instant

/-- What is told of the transactions that took effect. -/
inductive DoorEntry
  | registered (client : OAuthClient)
  | granted (grant : Grant)
  | redeemed (redemption : Redemption)
  | issued (employeeId : Uuid) (token : String)
  | withdrawn (employeeId : Uuid)

structure SignIns where
  doors : Doors := {}
  log : List DoorEntry := []

def noEmployee : SignInError := .http 404 "Employee not found"

variable (vault : Vault)

def DoorCall.perform : DoorCall → SignIns → SigningIn SignIns
  | .register name redirectUris clientId, ⟨doors, log⟩ => do
    let (client, doors) ← registerClient vault doors name redirectUris clientId
    return ⟨doors, log ++ [.registered client]⟩
  | .provision client, ⟨doors, log⟩ => do
    require (∀ other ∈ doors.clients, other.clientId ≠ client.clientId)
      (.integrityError "ix_oauth_clients_client_id")
    return ⟨{ doors with clients := doors.clients ++ [client] }, log ++ [.registered client]⟩
  | .authorize request gate id code now, ⟨doors, log⟩ => do
    let (account, authCode, doors) ← authorizePost vault doors request gate id code now
    return ⟨doors, log ++ [.granted ⟨request, account, authCode⟩]⟩
  | .exchange request secret now, ⟨doors, log⟩ => do
    let (employeeId, token, doors) ← exchangeCode vault doors request secret now
    return ⟨doors, log ++ [.redeemed ⟨request, employeeId, now⟩] ++ [.issued employeeId token]⟩
  | .generate employeeId secret, ⟨doors, log⟩ => do
    require ((doors.employees.get employeeId).isSome) noEmployee
    let (token, doors) ← generateToken vault doors employeeId secret
    return ⟨doors, log ++ [.issued employeeId token]⟩
  | .revoke employeeId, ⟨doors, log⟩ => do
    let (found, doors) := revokeToken doors employeeId
    require (found = true) noEmployee
    return ⟨doors, log ++ [.withdrawn employeeId]⟩
  | .toggle employeeId, ⟨doors, log⟩ => do
    let account ← demand (doors.employees.get employeeId) noEmployee
    return ⟨{ doors with
      employees := doors.employees.put { account with isActive := !account.isActive } }, log⟩
  | .edit employeeId profile email passwordHash, ⟨doors, log⟩ => do
    let account ← demand (doors.employees.get employeeId) noEmployee
    requireFreeEmail doors.employees employeeId email
    return ⟨{ doors with employees := doors.employees.put { account with
      toEmployee := profile, email := email, passwordHash := passwordHash } }, log⟩
  | .hire id profile email passwordHash isActive, ⟨doors, log⟩ => do
    requireFreeEmail doors.employees id email
    let employees ← doors.employees.insert (.integrityError "employees_pkey")
      { toEmployee := profile, id := id, email := email, passwordHash := passwordHash,
        isActive := isActive }
    return ⟨{ doors with employees := employees }, log ++ [.withdrawn id]⟩
  | .dismiss employeeId, ⟨doors, log⟩ => do
    require ((doors.employees.get employeeId).isSome) noEmployee
    return ⟨{ doors with
      employees := doors.employees.filter fun account => Row.key account ≠ employeeId,
      codes := doors.codes.filter fun authCode => authCode.employeeId ≠ employeeId },
      log ++ [.withdrawn employeeId]⟩
  | .connect authorization now, ⟨doors, log⟩ => do
    let (_, doors) ← Integrations.connect vault doors authorization now
    return ⟨doors, log⟩

/-- What a run from an empty database leaves. -/
def signInRun (calls : List DoorCall) : SignIns := Machine.run (DoorCall.perform vault) {} calls

end Calls

variable {vault : Vault} {doors doors' : Doors} {log : List DoorEntry} {request : TokenRequest}
  {redemption : Redemption} {grant : Grant} {employeeId : Uuid} {token secret : String}
  {now : Instant}

section Codes

def DoorEntry.isAbout (code : String) : DoorEntry → Prop
  | .granted grant => grant.authCode.code = code
  | .redeemed redemption => redemption.request.code = code
  | _ => False

/-- The code went to a redirect URI that its client registered, and was neither redeemed nor issued
again since. -/
def Pending (log : List DoorEntry) (grant : Grant) : Prop :=
  ∃ earlier since, log = earlier ++ .granted grant :: since ∧
    (∃ client, .registered client ∈ earlier ∧ client.clientId = grant.authCode.clientId ∧
      grant.authCode.redirectUri ∈ client.redirectUris) ∧
    ∀ entry ∈ since, ¬ entry.isAbout grant.authCode.code

/-- The employee of the code signed in with the password, for the request. -/
structure Grant.Authentic (vault : Vault) (grant : Grant) : Prop where
  active : grant.account.isActive = true
  email : grant.account.email = grant.request.email
  password : ∃ hash, grant.account.passwordHash = some hash ∧
    vault.verifyPassword grant.request.password hash = true
  code : ∃ id code now,
    grant.authCode = grant.request.authCode id code grant.account.id now

/-- The request redeems the code as it was issued. -/
structure Redeems (vault : Vault) (redemption : Redemption) (grant : Grant) : Prop where
  code : grant.authCode.code = redemption.request.code
  client : grant.authCode.clientId = redemption.request.clientId
  redirect : grant.authCode.redirectUri = redemption.request.redirectUri
  challenge : grant.authCode.codeChallenge = vault.digest redemption.request.codeVerifier
  employee : grant.authCode.employeeId = redemption.employeeId
  alive : redemption.now ≤ grant.authCode.expiresAt

/-- Each redemption is the first of a code, as it was issued. -/
def RedeemedOnce (vault : Vault) (log : List DoorEntry) : Prop :=
  ∀ before redemption after, log = before ++ .redeemed redemption :: after →
    ∃ grant, Pending before grant ∧ grant.Authentic vault ∧ Redeems vault redemption grant

/-- The rows of the codes, and what is told of them. -/
structure CodesKept (vault : Vault) (doors : Doors) (log : List DoorEntry) : Prop where
  keyed : doors.codes.Keyed
  distinct : (doors.codes.map (·.code)).Nodup
  clients : ∀ client ∈ doors.clients, .registered client ∈ log
  unused : ∀ authCode ∈ doors.codes, authCode.used = false → ∃ grant, grant.authCode = authCode ∧
    grant.Authentic vault ∧ Pending log grant
  once : RedeemedOnce vault log

theorem Pending.append (h : Pending log grant) {entry : DoorEntry}
    (hother : ¬ entry.isAbout grant.authCode.code) : Pending (log ++ [entry]) grant := by
  obtain ⟨earlier, since, rfl, hclient, hsince⟩ := h
  refine ⟨earlier, since ++ [entry], by simp, hclient, ?_⟩
  intro other hmem
  rcases List.mem_append.mp hmem with hold | hnew
  · exact hsince other hold
  · rwa [List.mem_singleton.mp hnew]

/-- What one more entry changes. -/
theorem RedeemedOnce.append (h : RedeemedOnce vault log) {entry : DoorEntry}
    (hnew : ∀ redemption, entry = .redeemed redemption →
      ∃ grant, Pending log grant ∧ grant.Authentic vault ∧ Redeems vault redemption grant) :
    RedeemedOnce vault (log ++ [entry]) := by
  have hall := forall_split_append (P := fun before other => ∀ redemption,
    other = .redeemed redemption → ∃ grant, Pending before grant ∧ grant.Authentic vault ∧
      Redeems vault redemption grant)
    (fun before other after heq redemption hother => h before redemption after (hother ▸ heq)) hnew
  intro before redemption after heq
  exact hall before _ after heq redemption rfl

/-- An entry that tells nothing of a code. -/
theorem CodesKept.tell (h : CodesKept vault doors log) {entry : DoorEntry}
    (hclients : doors'.clients = doors.clients) (hcodes : doors'.codes = doors.codes)
    (hother : ∀ code, ¬ entry.isAbout code) : CodesKept vault doors' (log ++ [entry]) := by
  refine ⟨hcodes ▸ h.keyed, hcodes ▸ h.distinct, ?_, ?_, h.once.append ?_⟩
  · intro client hmem
    exact List.mem_append_left _ (h.clients client (hclients ▸ hmem))
  · intro authCode hmem hunused
    obtain ⟨grant, hgrant, hauthentic, hpending⟩ := h.unused authCode (hcodes ▸ hmem) hunused
    exact ⟨grant, hgrant, hauthentic, hpending.append (hother _)⟩
  · rintro redemption rfl
    exact absurd rfl (hother redemption.request.code)

theorem CodesKept.same (h : CodesKept vault doors log) (hclients : doors'.clients = doors.clients)
    (hcodes : doors'.codes = doors.codes) : CodesKept vault doors' log := by
  refine ⟨hcodes ▸ h.keyed, hcodes ▸ h.distinct, ?_, ?_, h.once⟩
  · rw [hclients]
    exact h.clients
  · rw [hcodes]
    exact h.unused

end Codes

section Transactions

variable {authorize : AuthorizeRequest} {gate : LoginGate} {id : Uuid} {code : String}
  {account : Account} {authCode : OAuthAuthCode}

/-- What a granted code went through. -/
structure Grants (vault : Vault) (doors : Doors) (grant : Grant) (doors' : Doors) : Prop where
  authentic : grant.Authentic vault
  client : ∃ client ∈ doors.clients, client.clientId = grant.authCode.clientId ∧
    grant.authCode.redirectUri ∈ client.redirectUris
  fresh : ∀ other ∈ doors.codes, other.code ≠ grant.authCode.code
  free : doors.codes.get grant.authCode.id = none
  after : doors' = { doors with codes := doors.codes ++ [grant.authCode] }

theorem authorizePost_ok
    (h : authorizePost vault doors authorize gate id code now = .ok (account, authCode, doors')) :
    Grants vault doors ⟨authorize, account, authCode⟩ doors' := by
  simp only [authorizePost, bind_ok, demand_ok, require_ok] at h
  obtain ⟨client, hclient, -, hredirect, -, -, -, -, -, -, h⟩ := h
  cases gate with
  | exceeded => cases h
  | unavailable => cases h
  | allowed =>
    simp only [bind_ok, demand_ok, require_ok, pure_ok, Prod.mk.injEq] at h
    obtain ⟨found, hfound, -, hfresh, codes, hinsert, rfl, rfl, rfl⟩ := h
    obtain ⟨-, hemail, hactive, hpassword⟩ := authenticateEmployee_some hfound
    obtain ⟨hfree, rfl⟩ := Table.insert_ok hinsert
    refine ⟨⟨hactive, hemail, hpassword, id, code, now, rfl⟩, ?_, hfresh, hfree, rfl⟩
    have hid := List.find?_some hclient
    exact ⟨client, List.mem_of_find?_eq_some hclient, of_decide_eq_true hid, hredirect⟩

theorem verifyPkce_true {verifier challenge method : String}
    (h : verifyPkce vault verifier challenge method = .ok true) :
    method = "S256" ∧ vault.digest verifier = challenge := by
  unfold verifyPkce at h
  split at h
  · cases h
  · rename_i hmethod
    simp only [bind_ok, require_ok, pure_ok, decide_eq_true_eq] at h
    obtain ⟨-, -, hdigest⟩ := h
    exact ⟨not_not.mp hmethod, hdigest⟩

theorem generateToken_ok {doors' : Doors}
    (h : generateToken vault doors employeeId secret = .ok (token, doors')) :
    token = tokenOf secret ∧ doors'.clients = doors.clients ∧ doors'.codes = doors.codes := by
  unfold generateToken at h
  cases hget : doors.employees.get employeeId with
  | none =>
    rw [hget] at h
    simp only [pure_ok, Prod.mk.injEq] at h
    obtain ⟨rfl, rfl⟩ := h
    exact ⟨rfl, rfl, rfl⟩
  | some account =>
    rw [hget] at h
    simp only [bind_ok, require_ok, pure_ok, Prod.mk.injEq] at h
    obtain ⟨-, -, rfl, rfl⟩ := h
    exact ⟨rfl, rfl, rfl⟩

/-- What a redeemed code went through. -/
theorem exchangeCode_ok
    (h : exchangeCode vault doors request secret now = .ok (employeeId, token, doors')) :
    ∃ authCode ∈ doors.codes, authCode.code = request.code ∧ authCode.clientId = request.clientId ∧
      authCode.used = false ∧ now ≤ authCode.expiresAt ∧
      authCode.redirectUri = request.redirectUri ∧
      authCode.codeChallenge = vault.digest request.codeVerifier ∧
      authCode.employeeId = employeeId ∧
      generateToken vault { doors with codes := doors.codes.put { authCode with used := true } }
        employeeId secret = .ok (token, doors') := by
  simp only [exchangeCode, bind_ok, demand_ok, require_ok, pure_ok, Prod.exists,
    Prod.mk.injEq] at h
  obtain ⟨-, -, authCode, hfound, -, halive, -, hredirect, valid, hpkce, -, rfl, issued, doors'',
    hissue, rfl, rfl, rfl⟩ := h
  have hrow := List.find?_some hfound
  simp only [Bool.and_eq_true, decide_eq_true_eq, Bool.not_eq_true'] at hrow
  exact ⟨authCode, List.mem_of_find?_eq_some hfound, hrow.1.1, hrow.1.2, hrow.2, halive, hredirect,
    (verifyPkce_true hpkce).2.symm, rfl, hissue⟩

end Transactions

section Kept

/-- A client is registered. -/
theorem CodesKept.afterRegister (h : CodesKept vault doors log) (client : OAuthClient) :
    CodesKept vault { doors with clients := doors.clients ++ [client] }
      (log ++ [.registered client]) := by
  refine ⟨h.keyed, h.distinct, ?_, ?_, h.once.append (by simp)⟩
  · intro other hmem
    rcases List.mem_append.mp hmem with hold | hnew
    · exact List.mem_append_left _ (h.clients other hold)
    · rw [List.mem_singleton.mp hnew]
      exact List.mem_append_right _ List.mem_cons_self
  · intro authCode hmem hunused
    obtain ⟨grant, hgrant, hauthentic, hpending⟩ := h.unused authCode hmem hunused
    exact ⟨grant, hgrant, hauthentic, hpending.append id⟩

/-- A code is issued. -/
theorem CodesKept.afterGrant (h : CodesKept vault doors log) {grant : Grant}
    (hgrants : Grants vault doors grant doors') : CodesKept vault doors' (log ++ [.granted grant]) := by
  obtain ⟨hauthentic, hclient, hfresh, hfree, rfl⟩ := hgrants
  have hpending : Pending (log ++ [.granted grant]) grant := by
    obtain ⟨client, hmem, hid, hredirect⟩ := hclient
    exact ⟨log, [], rfl, ⟨client, h.clients client hmem, hid, hredirect⟩, by simp⟩
  refine ⟨h.keyed.append hfree, ?_, ?_, ?_, h.once.append (by simp)⟩
  · rw [List.map_append, List.nodup_append]
    refine ⟨h.distinct, by simp, ?_⟩
    intro code hcode code' hcode'
    obtain ⟨other, hother, rfl⟩ := List.mem_map.mp hcode
    rw [List.map_singleton, List.mem_singleton] at hcode'
    rw [hcode']
    exact hfresh other hother
  · intro client hmem
    exact List.mem_append_left _ (h.clients client hmem)
  · intro authCode hmem hunused
    rcases List.mem_append.mp hmem with hold | hnew
    · obtain ⟨other, rfl, hother, hotherPending⟩ := h.unused authCode hold hunused
      refine ⟨other, rfl, hother, hotherPending.append ?_⟩
      exact fun heq => hfresh other.authCode hold heq.symm
    · rw [List.mem_singleton.mp hnew]
      exact ⟨grant, rfl, hauthentic, hpending⟩

/-- A code is redeemed. -/
theorem CodesKept.afterRedeem (h : CodesKept vault doors log)
    (hexchange : exchangeCode vault doors request secret now = .ok (employeeId, token, doors')) :
    CodesKept vault doors' (log ++ [.redeemed ⟨request, employeeId, now⟩]) := by
  obtain ⟨authCode, hmem, hcode, hclient, hunused, halive, hredirect, hchallenge, hemployee,
    hissue⟩ := exchangeCode_ok hexchange
  obtain ⟨-, hclients, hcodes⟩ := generateToken_ok hissue
  obtain ⟨grant, rfl, hauthentic, hpending⟩ := h.unused authCode hmem hunused
  have hget := h.keyed.get_of_mem hmem
  have hsame : (doors.codes.put { grant.authCode with used := true }).map (·.code)
      = doors.codes.map (·.code) :=
    Table.map_put h.keyed (show doors.codes.get grant.authCode.id = _ from hget) rfl
  refine ⟨?_, ?_, ?_, ?_, ?_⟩
  · rw [hcodes]
    exact h.keyed.put _
  · rw [hcodes]
    exact hsame ▸ h.distinct
  · rw [hclients]
    intro client hmem
    exact List.mem_append_left _ (h.clients client hmem)
  · rw [hcodes]
    intro other hother hotherUnused
    rcases Table.mem_put hother with rfl | ⟨hold, hkey⟩
    · cases hotherUnused
    · obtain ⟨kept, rfl, hkept, hkeptPending⟩ := h.unused other hold hotherUnused
      refine ⟨kept, rfl, hkept, hkeptPending.append ?_⟩
      -- two rows with one code are one row
      intro heq
      have hrow := List.inj_on_of_nodup_map h.distinct hold hmem (heq.symm.trans hcode.symm)
      rw [hrow] at hkey
      exact hkey rfl
  · apply h.once.append
    intro redemption heq
    cases heq
    exact ⟨grant, hpending, hauthentic, ⟨hcode, hclient, hredirect, hchallenge, hemployee, halive⟩⟩

/-- An employee is deleted, and the codes that were issued for it. -/
theorem CodesKept.filter (h : CodesKept vault doors log) (keep : OAuthAuthCode → Bool)
    (hclients : doors'.clients = doors.clients)
    (hcodes : doors'.codes = doors.codes.filter keep) : CodesKept vault doors' log := by
  refine ⟨hcodes ▸ h.keyed.filter keep, ?_, hclients ▸ h.clients, ?_, h.once⟩
  · rw [hcodes]
    exact h.distinct.sublist (List.filter_sublist.map _)
  · intro authCode hmem
    rw [hcodes] at hmem
    exact h.unused authCode (List.mem_filter.mp hmem).1

theorem CodesKept.empty : CodesKept vault {} [] where
  keyed := List.nodup_nil
  distinct := List.nodup_nil
  clients := by simp
  unused := by simp
  once := by
    intro before redemption after h
    cases before <;> cases h

end Kept

section Runs

theorem revokeToken_codes (doors : Doors) (employeeId : Uuid) :
    (revokeToken doors employeeId).2.clients = doors.clients ∧
      (revokeToken doors employeeId).2.codes = doors.codes := by
  unfold revokeToken
  split <;> exact ⟨rfl, rfl⟩

theorem connect_codes {authorization : Option String} {found : Option Account}
    (h : connect vault doors authorization now = .ok (found, doors')) :
    doors'.clients = doors.clients ∧ doors'.codes = doors.codes := by
  unfold connect verifyToken at h
  split at h
  · cases h
    exact ⟨rfl, rfl⟩
  · split at h
    · cases h
      exact ⟨rfl, rfl⟩
    · split at h
      all_goals
        cases h
        exact ⟨rfl, rfl⟩
    · cases h

theorem perform_codesKept : Machine.Preserves (DoorCall.perform vault) (fun _ _ => True)
    fun s => CodesKept vault s.doors s.log := by
  rintro ⟨doors, log⟩ s' call h - hcall
  cases call with
  | register name redirectUris clientId =>
    simp only [DoorCall.perform, registerClient, bind_ok, require_ok, pure_ok] at hcall
    obtain ⟨⟨client, doors'⟩, ⟨-, -, -, -, -, -, -, -, hpair⟩, rfl⟩ := hcall
    cases hpair
    exact h.afterRegister _
  | provision client =>
    simp only [DoorCall.perform, bind_ok, require_ok, pure_ok] at hcall
    obtain ⟨-, -, rfl⟩ := hcall
    exact h.afterRegister client
  | authorize request gate id code now =>
    simp only [DoorCall.perform, bind_ok, pure_ok] at hcall
    obtain ⟨⟨account, authCode, doors'⟩, hpost, rfl⟩ := hcall
    exact h.afterGrant (authorizePost_ok hpost)
  | exchange request secret now =>
    simp only [DoorCall.perform, bind_ok, pure_ok] at hcall
    obtain ⟨⟨employeeId, token, doors'⟩, hexchange, rfl⟩ := hcall
    exact (h.afterRedeem hexchange).tell rfl rfl fun _ => id
  | generate employeeId secret =>
    simp only [DoorCall.perform, bind_ok, require_ok, pure_ok] at hcall
    obtain ⟨-, -, ⟨token, doors'⟩, hissue, rfl⟩ := hcall
    obtain ⟨-, hclients, hcodes⟩ := generateToken_ok hissue
    exact h.tell hclients hcodes fun _ => id
  | revoke employeeId =>
    simp only [DoorCall.perform, bind_ok, require_ok, pure_ok] at hcall
    obtain ⟨-, -, rfl⟩ := hcall
    obtain ⟨hclients, hcodes⟩ := revokeToken_codes doors employeeId
    exact h.tell hclients hcodes fun _ => id
  | toggle employeeId =>
    simp only [DoorCall.perform, bind_ok, demand_ok, pure_ok] at hcall
    obtain ⟨account, -, rfl⟩ := hcall
    exact h.same rfl rfl
  | edit employeeId profile email passwordHash =>
    simp only [DoorCall.perform, bind_ok, demand_ok, pure_ok] at hcall
    obtain ⟨account, -, -, -, rfl⟩ := hcall
    exact h.same rfl rfl
  | hire id profile email passwordHash isActive =>
    simp only [DoorCall.perform, bind_ok, pure_ok] at hcall
    obtain ⟨-, -, employees, -, rfl⟩ := hcall
    exact h.tell rfl rfl fun _ h => h
  | dismiss employeeId =>
    simp only [DoorCall.perform, bind_ok, require_ok, pure_ok] at hcall
    obtain ⟨-, -, rfl⟩ := hcall
    have hkept : CodesKept vault { doors with
        employees := doors.employees.filter fun account => Row.key account ≠ employeeId,
        codes := doors.codes.filter fun authCode => authCode.employeeId ≠ employeeId } log :=
      h.filter _ rfl rfl
    exact hkept.tell rfl rfl fun _ => id
  | connect authorization now =>
    simp only [DoorCall.perform, bind_ok, pure_ok] at hcall
    obtain ⟨⟨found, doors'⟩, hconnect, rfl⟩ := hcall
    obtain ⟨hclients, hcodes⟩ := connect_codes hconnect
    exact h.same hclients hcodes

theorem signInRun_codesKept (vault : Vault) (calls : List DoorCall) :
    CodesKept vault (signInRun vault calls).doors (signInRun vault calls).log :=
  perform_codesKept.run CodesKept.empty (Machine.meets_of_forall (fun _ _ => trivial) _ calls)

/-- In every run a code is redeemed once for each time it was issued, within ten minutes, by the
client it was issued to, at a redirect URI of this client and with the verifier of the challenge, for
the employee who had signed in. -/
theorem signInRun_redeemed (vault : Vault) (calls : List DoorCall) :
    RedeemedOnce vault (signInRun vault calls).log :=
  (signInRun_codesKept vault calls).once

end Runs

end Cygnus.Integrations
