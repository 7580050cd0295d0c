import Cygnus.Data.Sequence
import Cygnus.Integrations.PortalSessions
import Mathlib.Logic.Encodable.Basic
import Mathlib.Logic.Equiv.List

/-! Over any interleaving of requests to the portal a token is accepted until the sessions of its
employee are revoked, and a password is replaced by an administrator or by who knows it. -/

namespace Cygnus.Integrations

open Access Sequence Result

section Entries

def PortalEntry.revokes (id : Uuid) : PortalEntry → Bool
  | .loggedOut employeeId => employeeId = id
  | .changed employeeId _ _ _ => employeeId = id
  | .reset employeeId _ => employeeId = id
  | _ => false

def PortalEntry.passwordFor (id : Uuid) : PortalEntry → Option String
  | .changed employeeId _ _ hash => if employeeId = id then some hash else none
  | .reset employeeId hash => if employeeId = id then some hash else none
  | .hired employeeId hash => if employeeId = id then some hash else none
  | _ => none

def PortalEntry.concerns (id : Uuid) : PortalEntry → Prop
  | .signedIn account _ _ => account.id = id
  | .loggedOut employeeId => employeeId = id
  | .changed employeeId _ _ _ => employeeId = id
  | .reset employeeId _ => employeeId = id
  | .hired employeeId _ => employeeId = id
  | .dismissed employeeId => employeeId = id

def revocations (log : List PortalEntry) (id : Uuid) : Nat := log.countP (·.revokes id)

/-- The hash of the password that was set last. -/
def lastHash (log : List PortalEntry) (id : Uuid) : Option String := latest (·.passwordFor id) log

theorem revocations_append (log : List PortalEntry) (entry : PortalEntry) (id : Uuid) :
    revocations (log ++ [entry]) id = revocations log id + if entry.revokes id then 1 else 0 := by
  rw [revocations, revocations, List.countP_append, List.countP_singleton]

theorem lastHash_append (log : List PortalEntry) (entry : PortalEntry) (id : Uuid) :
    lastHash (log ++ [entry]) id = (entry.passwordFor id).or (lastHash log id) :=
  latest_append _ log entry

theorem revocations_fresh {log : List PortalEntry} {id : Uuid}
    (h : ∀ entry ∈ log, ¬ entry.concerns id) : revocations log id = 0 := by
  rw [revocations, List.countP_eq_zero]
  intro entry hmem hrevokes
  apply h entry hmem
  cases entry <;> simp_all [PortalEntry.revokes, PortalEntry.concerns]

end Entries

section Statements

variable (vault : Vault) (signer : TokenSigner)

/-- The password of the employee was given. -/
def GivesPassword (log : List PortalEntry) (id : Uuid) (password : String) : Prop :=
  ∃ hash, lastHash log id = some hash ∧ vault.verifyPassword password hash = true

/-- The token was handed out to someone who gave the password, less than a day ago, and the sessions
of the employee were not revoked since. -/
def LiveSession (log : List PortalEntry) (token : String) (now : Instant) (id : Uuid) : Prop :=
  ∃ before account password issued after,
    log = before ++ .signedIn account password issued :: after ∧
    account.id = id ∧ GivesPassword vault before id password ∧
    token = createAccessToken signer account issued ∧
    issued / 1000000 * 1000000 ≤ now ∧
    now < (issued / 1000000 + jwtExpireHours * 3600) * 1000000 ∧
    ∀ entry ∈ after, entry.revokes id = false

/-- Nobody else has the secret key: what is decoded was handed out at a login. -/
def Unforged (log : List PortalEntry) (token : String) : Prop :=
  ∀ claims now, signer.decode token now = some claims →
    ∃ account password issued, .signedIn account password issued ∈ log ∧
      token = createAccessToken signer account issued

/-- The hash in each row is that of the password set last, and whoever changed a password by a
request of their own gave the one that it replaced. -/
structure PasswordsOwned (portal : Portal) : Prop where
  stored : ∀ account ∈ portal.employees, account.passwordHash = lastHash portal.log account.id
  replaced : ∀ before id password verified hash after,
    portal.log = before ++ .changed id password verified hash :: after →
      lastHash before id = some verified ∧ vault.verifyPassword password verified = true

/-- A new row has an identifier of its own. -/
def PortalCall.Fresh (portal : Portal) : PortalCall → Prop
  | .createEmployee _ id _ _ _ _ => ∀ entry ∈ portal.log, ¬ entry.concerns id
  | .bootstrap id _ _ _ => ∀ entry ∈ portal.log, ¬ entry.concerns id
  | _ => True

end Statements

variable {vault : Vault} {signer : TokenSigner} {portal portal' : Portal} {log : List PortalEntry}
  {employees employees' : Table Account} {account : Account} {id : Uuid} {now : Instant}
  {token password email newHash : String}

section Invariant

/-- The rows, and what is told of them. -/
structure RowsKept (employees : Table Account) (log : List PortalEntry) : Prop where
  keyed : employees.Keyed
  versions : ∀ account ∈ employees, account.sessionVersion = revocations log account.id
  hashes : ∀ account ∈ employees, account.passwordHash = lastHash log account.id

/-- A sign-in is of a row as it was then, a change of a password replaces the one it was then. -/
def PortalEntry.Sound (vault : Vault) (before : List PortalEntry) : PortalEntry → Prop
  | .signedIn account password _ =>
    account.sessionVersion = revocations before account.id ∧
      GivesPassword vault before account.id password
  | .changed id password verified _ =>
    lastHash before id = some verified ∧ vault.verifyPassword password verified = true
  | _ => True

structure PortalKept (vault : Vault) (portal : Portal) : Prop where
  rows : RowsKept portal.employees portal.log
  entries : ∀ before entry after, portal.log = before ++ entry :: after → entry.Sound vault before

/-- An entry that tells nothing of a version or a password. -/
theorem RowsKept.tell (h : RowsKept employees log) {entry : PortalEntry}
    (hrevokes : ∀ id, entry.revokes id = false) (hpassword : ∀ id, entry.passwordFor id = none) :
    RowsKept employees (log ++ [entry]) := by
  refine ⟨h.keyed, ?_, ?_⟩
  · intro account hmem
    rw [revocations_append, hrevokes, h.versions account hmem]
    rfl
  · intro account hmem
    rw [lastHash_append, hpassword, h.hashes account hmem]
    rfl

/-- A row is rewritten, but for its version and its password. -/
theorem RowsKept.put (h : RowsKept employees log) {old row : Account}
    (hget : employees.get old.id = some old) (hid : row.id = old.id)
    (hversion : row.sessionVersion = old.sessionVersion)
    (hhash : row.passwordHash = old.passwordHash) : RowsKept (employees.put row) log := by
  have hold := Table.get_mem hget
  refine ⟨h.keyed.put row, ?_, ?_⟩
  · intro account hmem
    rcases Table.mem_put hmem with rfl | ⟨hkept, -⟩
    · rw [hversion, hid, h.versions old hold]
    · exact h.versions account hkept
  · intro account hmem
    rcases Table.mem_put hmem with rfl | ⟨hkept, -⟩
    · rw [hhash, hid, h.hashes old hold]
    · exact h.hashes account hkept

theorem advanceSessionVersion_some {passwordHash expected : Option String}
    (h : advanceSessionVersion employees id passwordHash expected = some employees') :
    ∃ account, employees.get id = some account ∧
      (∀ hash, expected = some hash → account.passwordHash = some hash) ∧
      employees' = employees.put { account with
        sessionVersion := account.sessionVersion + 1,
        passwordHash := passwordHash.or account.passwordHash } := by
  unfold advanceSessionVersion at h
  split at h
  · cases h
  · rename_i account hfound
    obtain ⟨hget, hexpected⟩ := Option.filter_eq_some_iff.mp hfound
    refine ⟨account, hget, ?_, (Option.some.inj h).symm⟩
    rintro hash rfl
    simpa using hexpected

/-- The sessions of an employee are revoked, and the password may be another. -/
theorem RowsKept.advance (h : RowsKept employees log) {passwordHash expected : Option String}
    (hadvance : advanceSessionVersion employees id passwordHash expected = some employees')
    {entry : PortalEntry} (hrevokes : ∀ other, entry.revokes other = decide (id = other))
    (hpassword : ∀ other, entry.passwordFor other = if id = other then passwordHash else none) :
    RowsKept employees' (log ++ [entry]) := by
  obtain ⟨account, hget, -, rfl⟩ := advanceSessionVersion_some hadvance
  obtain rfl : account.id = id := Table.get_key hget
  have hold := Table.get_mem hget
  refine ⟨h.keyed.put _, ?_, ?_⟩
  · intro row hmem
    rcases Table.mem_put hmem with rfl | ⟨hkept, hne⟩
    · rw [revocations_append, hrevokes, ← h.versions account hold]
      simp
    · have hother : ¬ account.id = row.id := fun heq => hne heq.symm
      rw [revocations_append, hrevokes, h.versions row hkept]
      simp [hother]
  · intro row hmem
    rcases Table.mem_put hmem with rfl | ⟨hkept, hne⟩
    · rw [lastHash_append, hpassword, if_pos rfl, ← h.hashes account hold]
    · have hother : ¬ account.id = row.id := fun heq => hne heq.symm
      rw [lastHash_append, hpassword, if_neg hother, h.hashes row hkept]
      rfl

/-- A new row, under an identifier of its own. -/
theorem RowsKept.hire (h : RowsKept employees log) {row : Account}
    (hfree : employees.get row.id = none) (hfresh : ∀ entry ∈ log, ¬ entry.concerns row.id)
    (hversion : row.sessionVersion = 0) (hhash : row.passwordHash = some newHash) :
    RowsKept (employees ++ [row]) (log ++ [.hired row.id newHash]) := by
  have hne : ∀ other ∈ employees, other.id ≠ row.id := Table.get_eq_none.mp hfree
  refine ⟨h.keyed.append hfree, ?_, ?_⟩
  · intro account hmem
    rw [revocations_append]
    rcases List.mem_append.mp hmem with hold | hnew
    · exact h.versions account hold
    · rw [List.mem_singleton.mp hnew, hversion, revocations_fresh hfresh]
      rfl
  · intro account hmem
    rw [lastHash_append, PortalEntry.passwordFor]
    rcases List.mem_append.mp hmem with hold | hnew
    · rw [if_neg (hne account hold).symm]
      exact h.hashes account hold
    · rw [List.mem_singleton.mp hnew, if_pos rfl]
      exact hhash

theorem RowsKept.dismiss (h : RowsKept employees log) (id : Uuid) :
    RowsKept (employees.filter fun other => Row.key other ≠ id) (log ++ [.dismissed id]) := by
  have hrows : RowsKept (employees.filter fun other => Row.key other ≠ id) log :=
    ⟨h.keyed.filter _, fun account hmem => h.versions account (List.mem_filter.mp hmem).1,
      fun account hmem => h.hashes account (List.mem_filter.mp hmem).1⟩
  exact hrows.tell (fun _ => rfl) (fun _ => rfl)

theorem PortalKept.tell (h : PortalKept vault portal) {entry : PortalEntry} {current : List Account}
    (hrows : RowsKept employees (portal.log ++ [entry])) (hsound : entry.Sound vault portal.log) :
    PortalKept vault { employees := employees, current := current, log := portal.log ++ [entry] } :=
  ⟨hrows, forall_split_append h.entries hsound⟩

end Invariant

section Runs

theorem getCurrentUser_ok :
    getCurrentUser signer employees token now = .ok account ↔
      ∃ claims, signer.decode token now = some claims ∧ Uuid.parse claims.sub = some account.id ∧
        employees.get account.id = some account ∧ account.isActive = true ∧
        claims.sessionVersion = account.sessionVersion := by
  simp only [getCurrentUser, bind_ok, demand_ok, require_ok, pure_ok]
  constructor
  · rintro ⟨claims, hclaims, id, hid, found, hfound, -, hactive, -, hversion, rfl⟩
    obtain rfl : found.id = id := Table.get_key hfound
    exact ⟨claims, hclaims, hid, hfound, hactive, hversion⟩
  · rintro ⟨claims, hclaims, hid, hfound, hactive, hversion⟩
    exact ⟨claims, hclaims, account.id, hid, account, hfound, (), hactive, (), hversion, rfl⟩

theorem insertEmployee_kept {profile : Access.Employee} (h : PortalKept vault portal)
    (hfresh : ∀ entry ∈ portal.log, ¬ entry.concerns id)
    (hinsert : insertEmployee portal id profile email newHash = .ok portal') :
    PortalKept vault portal' := by
  simp only [insertEmployee, bind_ok, pure_ok] at hinsert
  obtain ⟨-, -, employees, hinserted, rfl⟩ := hinsert
  obtain ⟨hfree, rfl⟩ := Table.insert_ok hinserted
  exact h.tell (h.rows.hire hfree hfresh rfl rfl) trivial

theorem perform_portalKept : Machine.Preserves (PortalCall.perform vault signer)
    (fun portal call => call.Fresh portal) (PortalKept vault) := by
  intro portal portal' call h hfresh hcall
  cases call with
  | login email password gate now =>
    cases gate with
    | unavailable => cases hcall
    | exceeded => cases hcall
    | allowed =>
      simp only [PortalCall.perform, bind_ok, demand_ok, pure_ok] at hcall
      obtain ⟨account, hfound, rfl⟩ := hcall
      obtain ⟨hmem, -, -, hash, hhash, hverify⟩ := authenticateEmployee_some hfound
      have hsound : (PortalEntry.signedIn account password now).Sound vault portal.log :=
        ⟨h.rows.versions account hmem, hash, h.rows.hashes account hmem ▸ hhash, hverify⟩
      exact h.tell (h.rows.tell (fun _ => rfl) (fun _ => rfl)) hsound
  | enter token now =>
    simp only [PortalCall.perform, bind_ok, pure_ok] at hcall
    obtain ⟨account, -, rfl⟩ := hcall
    exact ⟨h.rows, h.entries⟩
  | logout request =>
    simp only [PortalCall.perform, bind_ok, demand_ok, pure_ok] at hcall
    obtain ⟨user, -, employees, hadvance, rfl⟩ := hcall
    have hrows : RowsKept employees (portal.log ++ [.loggedOut user.id]) :=
      h.rows.advance hadvance (fun _ => rfl) (fun other => by split <;> rfl)
    exact h.tell hrows trivial
  | changePassword request currentPassword newPassword newHash =>
    simp only [PortalCall.perform, bind_ok, demand_ok, require_ok, pure_ok] at hcall
    obtain ⟨user, -, verified, -, -, hverify, -, -, employees, hadvance, rfl⟩ := hcall
    obtain ⟨account, hget, hexpected, -⟩ := advanceSessionVersion_some hadvance
    have hid : account.id = user.id := Table.get_key hget
    have hsound : (PortalEntry.changed user.id currentPassword verified newHash).Sound vault
        portal.log := by
      refine ⟨?_, hverify⟩
      rw [← hid, ← h.rows.hashes account (Table.get_mem hget)]
      exact hexpected verified rfl
    exact h.tell (h.rows.advance hadvance (fun _ => rfl) (fun _ => rfl)) hsound
  | createEmployee request id profile email password newHash =>
    simp only [PortalCall.perform, bind_ok, require_ok] at hcall
    obtain ⟨-, -, -, -, -, -, hinsert⟩ := hcall
    exact insertEmployee_kept h hfresh hinsert
  | updateEmployee request id profile email newHash =>
    simp only [PortalCall.perform, bind_ok, demand_ok] at hcall
    obtain ⟨-, -, account, hget, -, -, hcall⟩ := hcall
    obtain rfl : account.id = id := Table.get_key hget
    have hedited : RowsKept
        (portal.employees.put { account with toEmployee := profile, email := email }) portal.log :=
      h.rows.put hget rfl rfl rfl
    cases newHash with
    | none =>
      obtain rfl := pure_ok.mp hcall
      exact ⟨hedited, h.entries⟩
    | some hash =>
      simp only [bind_ok, demand_ok, pure_ok] at hcall
      obtain ⟨employees, hadvance, rfl⟩ := hcall
      exact h.tell (hedited.advance hadvance (fun _ => rfl) (fun _ => rfl)) trivial
  | toggleEmployee request id =>
    simp only [PortalCall.perform, bind_ok, demand_ok, pure_ok] at hcall
    obtain ⟨-, -, account, hget, rfl⟩ := hcall
    obtain rfl : account.id = id := Table.get_key hget
    exact ⟨h.rows.put hget rfl rfl rfl, h.entries⟩
  | deleteEmployee request id =>
    simp only [PortalCall.perform, bind_ok, demand_ok, require_ok, pure_ok] at hcall
    obtain ⟨-, -, account, -, -, -, rfl⟩ := hcall
    exact h.tell (h.rows.dismiss id) trivial
  | bootstrap id profile email newHash => exact insertEmployee_kept h hfresh hcall

theorem portalRun_kept {calls : List PortalCall}
    (hfresh : Machine.Meets (PortalCall.perform vault signer)
      (fun portal call => call.Fresh portal) {} calls) :
    PortalKept vault (portalRun vault signer calls) := by
  apply perform_portalKept.run _ hfresh
  refine ⟨⟨List.nodup_nil, by simp, by simp⟩, ?_⟩
  intro before entry after heq
  cases before <;> cases heq

/-- The sessions of an employee were revoked since as often as the version was raised. -/
theorem PortalKept.revoked (h : PortalKept vault portal) (hmem : account ∈ portal.employees)
    {before after : List PortalEntry} {signed : Account} {issued : Instant}
    (heq : portal.log = before ++ .signedIn signed password issued :: after)
    (hid : signed.id = account.id) :
    signed.sessionVersion = account.sessionVersion ↔
      ∀ entry ∈ after, entry.revokes account.id = false := by
  have hsigned := (h.entries _ _ _ heq).1
  have hversion := h.rows.versions account hmem
  have hcount : revocations portal.log account.id =
      revocations before account.id + after.countP (·.revokes account.id) := by
    rw [heq, revocations, List.countP_append,
      List.countP_cons_of_neg (by simp [PortalEntry.revokes])]
    rfl
  rw [hsigned, hversion, hcount, hid, Nat.left_eq_add, List.countP_eq_zero]
  simp only [Bool.not_eq_true]

/-- After any interleaving of requests a token is accepted for an employee exactly if the row is
active and the token was handed out to someone who had given the password, less than a day ago and
with no logout, change or reset of the password since. -/
theorem portalRun_accepts (hfaithful : signer.Faithful) (calls : List PortalCall)
    (hfresh : Machine.Meets (PortalCall.perform vault signer)
      (fun portal call => call.Fresh portal) {} calls)
    (token : String) (hunforged : Unforged signer (portalRun vault signer calls).log token)
    (now : Instant) (account : Account) :
    getCurrentUser signer (portalRun vault signer calls).employees token now = .ok account ↔
      account ∈ (portalRun vault signer calls).employees ∧ account.isActive = true ∧
        LiveSession vault signer (portalRun vault signer calls).log token now account.id := by
  have hkept := portalRun_kept hfresh
  generalize portalRun vault signer calls = portal at hunforged hkept ⊢
  rw [getCurrentUser_ok]
  constructor
  · rintro ⟨claims, hclaims, hsub, hget, hactive, hversion⟩
    obtain ⟨signed, password, issued, hmem, rfl⟩ := hunforged claims now hclaims
    rw [createAccessToken, hfaithful] at hclaims
    obtain ⟨⟨hfrom, huntil⟩, hsame⟩ := Option.ite_none_right_eq_some.mp hclaims
    obtain rfl := Option.some.inj hsame
    obtain ⟨before, after, heq⟩ := List.append_of_mem hmem
    have hid : signed.id = account.id :=
      Option.some.inj ((Uuid.parse_text signed.id).symm.trans hsub)
    have hrow := Table.get_mem hget
    refine ⟨hrow, hactive, before, signed, password, issued, after, heq, hid, ?_, rfl, hfrom,
      huntil, ?_⟩
    · exact hid ▸ (hkept.entries _ _ _ heq).2
    · exact (hkept.revoked hrow heq hid).mp hversion
  · rintro ⟨hrow, hactive, before, signed, password, issued, after, heq, hid, -, rfl, hfrom, huntil,
      hkeeps⟩
    refine ⟨sessionClaims signed issued, ?_, ?_, hkept.rows.keyed.get_of_mem hrow, hactive, ?_⟩
    · rw [createAccessToken, hfaithful]
      exact if_pos ⟨hfrom, huntil⟩
    · rw [← hid]
      exact Uuid.parse_text signed.id
    · exact (hkept.revoked hrow heq hid).mpr hkeeps

end Runs

section Sample

/-- The claims as one number. -/
def sampleEncode (claims : SessionClaims) : String :=
  toString (Encodable.encode (claims.sub.toList.map Char.toNat, claims.role.toList.map Char.toNat,
    claims.sessionVersion, claims.exp, claims.iat))

def sampleDecode (token : String) : Option SessionClaims :=
  (Text.parseInt token).bind fun code =>
    (Encodable.decode code.toNat : Option (List Nat × List Nat × Nat × Nat × Nat)).map
      fun (sub, role, rest) => ⟨String.ofList (sub.map Char.ofNat),
        String.ofList (role.map Char.ofNat), rest.1, rest.2.1, rest.2.2⟩

def sampleSigner : TokenSigner where
  encode := sampleEncode
  decode token now := (sampleDecode token).filter fun claims =>
    claims.iat * 1000000 ≤ now && now < claims.exp * 1000000

theorem lower_plain (s : Url.Chars) (_ : ∀ c ∈ s, c.toNat < 128) :
    List.map Char.toLower s = s.map Char.toLower := rfl

def sampleVault : Vault where
  dynamicRegistration := true
  unicode := ⟨List.map Char.toLower, fun s => s, lower_plain⟩
  verifyPassword password hash := hash = "hash of " ++ password
  hashToken token := token
  digest verifier := verifier

theorem sampleSigner_faithful : sampleSigner.Faithful := by
  intro claims now
  have hchars : ∀ s : String, String.ofList (s.toList.map (Char.ofNat ∘ Char.toNat)) = s := by
    intro s
    simp [Function.comp_def]
  have hdecode : sampleDecode (sampleEncode claims) = some claims := by
    simp only [sampleDecode, sampleEncode, Text.parseInt_toString, Option.bind_eq_bind,
      Option.pure_def, Option.bind_some, Int.toNat_natCast, Encodable.encodek, Option.map_some,
      List.map_map, hchars]
  simp only [sampleSigner, hdecode, Option.filter_some, Bool.and_eq_true, decide_eq_true_eq]

def sampleCalls : List PortalCall := [
  .bootstrap 1 ⟨"admin", none, []⟩ "root@example.com" "hash of secret",
  .login "root@example.com" "secret" .allowed 0]

def sampleAccount : Account :=
  { toEmployee := ⟨"admin", none, []⟩, id := 1, email := "root@example.com",
    passwordHash := some "hash of secret", isActive := true }

theorem sample_calls : portalRun sampleVault sampleSigner sampleCalls =
    ⟨[sampleAccount], [], [.hired 1 "hash of secret", .signedIn sampleAccount "secret" 0]⟩ := rfl

theorem sample_fresh : Machine.Meets (PortalCall.perform sampleVault sampleSigner)
    (fun portal call => call.Fresh portal) {} sampleCalls := by
  refine ⟨?_, trivial, trivial⟩
  intro entry hmem
  cases hmem

theorem sample_unforged : Unforged sampleSigner (portalRun sampleVault sampleSigner sampleCalls).log
    (createAccessToken sampleSigner sampleAccount 0) := by
  intro claims now _
  refine ⟨sampleAccount, "secret", 0, ?_, rfl⟩
  rw [sample_calls]
  exact List.mem_cons_of_mem _ List.mem_cons_self

theorem sample_let_in :
    getCurrentUser sampleSigner (portalRun sampleVault sampleSigner sampleCalls).employees
      (createAccessToken sampleSigner sampleAccount 0) 0 = .ok sampleAccount := by
  rw [portalRun_accepts sampleSigner_faithful sampleCalls sample_fresh _ sample_unforged 0
    sampleAccount, sample_calls]
  refine ⟨List.mem_cons_self, rfl, [.hired 1 "hash of secret"], sampleAccount, "secret", 0, [],
    rfl, rfl, ⟨"hash of secret", rfl, rfl⟩, rfl, le_rfl, ?_, ?_⟩
  · norm_num [jwtExpireHours]
  · intro entry hmem
    cases hmem

end Sample

end Cygnus.Integrations
