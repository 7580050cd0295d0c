import Cygnus.Data.Sequence
import Cygnus.Integrations.OAuthRuns

/-! Over any run of the sign-in service a bearer token identifies the one employee whose last token
it is, while the row is active and the token is not withdrawn. -/

namespace Cygnus.Integrations

open Sequence Result

section LastToken

/-- What an entry tells of the token of an employee. -/
def DoorEntry.tokenFor (id : Uuid) : DoorEntry → Option (Option String)
  | .issued employeeId token => if employeeId = id then some (some token) else none
  | .withdrawn employeeId => if employeeId = id then some none else none
  | _ => none

/-- The token issued last, unless it was withdrawn since. -/
def lastToken (log : List DoorEntry) (id : Uuid) : Option String :=
  (latest (·.tokenFor id) log).join

variable (log : List DoorEntry) (id employeeId : Uuid) (token : String)

theorem lastToken_append (entry : DoorEntry) :
    lastToken (log ++ [entry]) id = (entry.tokenFor id).getD (lastToken log id) := by
  rw [lastToken, lastToken, latest_append]
  cases entry.tokenFor id <;> rfl

theorem lastToken_issued :
    lastToken (log ++ [.issued employeeId token]) id
      = if employeeId = id then some token else lastToken log id := by
  rw [lastToken_append, DoorEntry.tokenFor]
  split <;> rfl

theorem lastToken_withdrawn :
    lastToken (log ++ [.withdrawn employeeId]) id
      = if employeeId = id then none else lastToken log id := by
  rw [lastToken_append, DoorEntry.tokenFor]
  split <;> rfl

end LastToken

section Kept

variable {vault : Vault} {doors doors' : Doors} {log : List DoorEntry} {employeeId : Uuid}
  {token secret : String} {account : Account} {now : Instant}

/-- The hash of a row is that of the last token of the employee, and of no other row. -/
structure TokensKept (vault : Vault) (employees : Table Account) (log : List DoorEntry) : Prop where
  keyed : employees.Keyed
  last : ∀ account ∈ employees,
    account.mcpTokenHash = (lastToken log account.id).map vault.hashToken
  distinct : ∀ account ∈ employees, ∀ other ∈ employees, ∀ hash,
    account.mcpTokenHash = some hash → other.mcpTokenHash = some hash → account = other

theorem TokensKept.tell (h : TokensKept vault doors.employees log) {entry : DoorEntry}
    (hother : ∀ id, entry.tokenFor id = none) :
    TokensKept vault doors.employees (log ++ [entry]) := by
  refine ⟨h.keyed, ?_, h.distinct⟩
  intro account hmem
  rw [lastToken_append, hother, h.last account hmem]
  rfl

variable {employees : Table Account}

/-- A row is written whose hash is that of the last token, and no other row's. -/
theorem TokensKept.put (h : TokensKept vault employees log) {log' : List DoorEntry}
    {row : Account} (hrow : row.mcpTokenHash = (lastToken log' row.id).map vault.hashToken)
    (hothers : ∀ id, id ≠ row.id → lastToken log' id = lastToken log id)
    (hfree : ∀ other ∈ employees, other.id ≠ row.id → ∀ hash, row.mcpTokenHash = some hash →
      other.mcpTokenHash ≠ some hash) : TokensKept vault (employees.put row) log' := by
  refine ⟨h.keyed.put row, ?_, ?_⟩
  · intro account hmem
    rcases Table.mem_put hmem with rfl | ⟨hold, hne⟩
    · exact hrow
    · rw [hothers account.id hne]
      exact h.last account hold
  · intro account hmem other hmem' hash haccount hother
    rcases Table.mem_put hmem with rfl | ⟨hold, hne⟩
    · rcases Table.mem_put hmem' with rfl | ⟨hold', hne'⟩
      · rfl
      · exact absurd hother (hfree other hold' hne' hash haccount)
    · rcases Table.mem_put hmem' with rfl | ⟨hold', hne'⟩
      · exact absurd haccount (hfree account hold hne hash hother)
      · exact h.distinct account hold other hold' hash haccount hother

/-- A row is rewritten, but for its token. -/
theorem TokensKept.edit (h : TokensKept vault employees log) {old row : Account}
    (hget : employees.get old.id = some old) (hid : row.id = old.id)
    (hhash : row.mcpTokenHash = old.mcpTokenHash) : TokensKept vault (employees.put row) log := by
  have hmem := Table.get_mem hget
  apply h.put
  · rw [hid, hhash]
    exact h.last old hmem
  · intro id hne
    rfl
  · intro other hother hne hash hrow heq
    rw [hhash] at hrow
    have hsame := h.distinct other hother old hmem hash heq hrow
    exact hne (hid ▸ congrArg Account.id hsame)

theorem TokensKept.afterGenerate (h : TokensKept vault doors.employees log)
    (hissue : generateToken vault doors employeeId secret = .ok (token, doors')) :
    TokensKept vault doors'.employees (log ++ [.issued employeeId token]) := by
  unfold generateToken at hissue
  cases hget : doors.employees.get employeeId with
  | none =>
    rw [hget] at hissue
    simp only [pure_ok, Prod.mk.injEq] at hissue
    obtain ⟨rfl, rfl⟩ := hissue
    refine ⟨h.keyed, ?_, h.distinct⟩
    intro account hmem
    have hne : ¬ employeeId = account.id := fun heq =>
      Table.get_eq_none.mp hget account hmem heq.symm
    rw [lastToken_issued, if_neg hne]
    exact h.last account hmem
  | some account =>
    have hid : account.id = employeeId := Table.get_key hget
    rw [hget] at hissue
    simp only [bind_ok, require_ok, pure_ok, Prod.mk.injEq] at hissue
    obtain ⟨-, hfree, rfl, rfl⟩ := hissue
    apply h.put
    · rw [hid, lastToken_issued, if_pos rfl]
      rfl
    · intro id hne
      rw [lastToken_issued, if_neg]
      exact fun heq => hne (heq.symm.trans hid.symm)
    · intro other hother hne hash hrow
      rw [← Option.some.inj hrow]
      exact hfree other hother (hid ▸ hne)

theorem TokensKept.afterRevoke (h : TokensKept vault doors.employees log)
    (hfound : (revokeToken doors employeeId).1 = true) :
    TokensKept vault (revokeToken doors employeeId).2.employees (log ++ [.withdrawn employeeId]) := by
  unfold revokeToken at hfound ⊢
  cases hget : doors.employees.get employeeId with
  | none =>
    rw [hget] at hfound
    cases hfound
  | some account =>
    have hid : account.id = employeeId := Table.get_key hget
    apply h.put
    · rw [hid, lastToken_withdrawn, if_pos rfl]
      rfl
    · intro id hne
      rw [lastToken_withdrawn, if_neg]
      exact fun heq => hne (heq.symm.trans hid.symm)
    · intro other hother hne hash hrow
      cases hrow

/-- A new row, whose employee has no token. -/
theorem TokensKept.hire (h : TokensKept vault employees log) (row : Account)
    (hfree : employees.get row.id = none) (hnone : row.mcpTokenHash = none) :
    TokensKept vault (employees ++ [row]) (log ++ [.withdrawn row.id]) := by
  have hne : ∀ other ∈ employees, other.id ≠ row.id := Table.get_eq_none.mp hfree
  refine ⟨h.keyed.append hfree, ?_, ?_⟩
  · intro account hmem
    rw [lastToken_withdrawn]
    rcases List.mem_append.mp hmem with hold | hnew
    · rw [if_neg (hne account hold).symm]
      exact h.last account hold
    · rw [List.mem_singleton.mp hnew, if_pos rfl, hnone]
      rfl
  · intro account hmem other hmem' hash haccount hother
    rcases List.mem_append.mp hmem with hold | hnew
    · rcases List.mem_append.mp hmem' with hold' | hnew'
      · exact h.distinct account hold other hold' hash haccount hother
      · rw [List.mem_singleton.mp hnew', hnone] at hother
        cases hother
    · rw [List.mem_singleton.mp hnew, hnone] at haccount
      cases haccount

theorem TokensKept.dismiss (h : TokensKept vault employees log) (employeeId : Uuid) :
    TokensKept vault (employees.filter fun account => Row.key account ≠ employeeId)
      (log ++ [.withdrawn employeeId]) := by
  refine ⟨h.keyed.filter _, ?_, ?_⟩
  · intro account hmem
    obtain ⟨hold, hkept⟩ := List.mem_filter.mp hmem
    have hne : account.id ≠ employeeId := of_decide_eq_true hkept
    rw [lastToken_withdrawn, if_neg hne.symm]
    exact h.last account hold
  · intro account hmem other hmem'
    exact h.distinct account (List.mem_filter.mp hmem).1 other (List.mem_filter.mp hmem').1

/-- The row that a hash finds, if there is one. -/
theorem TokensKept.find (h : TokensKept vault employees log) (hash : String) :
    (employees.filter fun account => account.mcpTokenHash = some hash && account.isActive) = [] ∨
      ∃ account ∈ employees, account.mcpTokenHash = some hash ∧ account.isActive = true ∧
        (employees.filter fun account =>
          account.mcpTokenHash = some hash && account.isActive) = [account] := by
  have hnodup : (employees.filter fun account =>
      account.mcpTokenHash = some hash && account.isActive).Nodup :=
    (List.Nodup.of_map _ h.keyed).filter _
  have hrow : ∀ account ∈ employees.filter fun account =>
      account.mcpTokenHash = some hash && account.isActive,
      account ∈ employees ∧ account.mcpTokenHash = some hash ∧ account.isActive = true := by
    intro account hmem
    simpa using hmem
  generalize employees.filter (fun account =>
    account.mcpTokenHash = some hash && account.isActive) = found at hnodup hrow
  match found with
  | [] => exact .inl rfl
  | [account] =>
    obtain ⟨hmem, hhash, hactive⟩ := hrow account List.mem_cons_self
    exact .inr ⟨account, hmem, hhash, hactive, rfl⟩
  | account :: other :: _ =>
    obtain ⟨hmem, hhash, -⟩ := hrow account List.mem_cons_self
    obtain ⟨hmem', hhash', -⟩ := hrow other (List.mem_cons_of_mem _ List.mem_cons_self)
    have hsame := h.distinct account hmem other hmem' hash hhash hhash'
    rw [hsame] at hnodup
    exact absurd List.mem_cons_self (List.nodup_cons.mp hnodup).1

end Kept

section Runs

variable {vault : Vault} {doors doors' : Doors} {log : List DoorEntry}
  {authorization : Option String} {found : Option Account} {now : Instant}

/-- What a request with a header does: it is no employee's, or the row that the token finds is
stamped at most. -/
theorem TokensKept.connect (h : TokensKept vault doors.employees log)
    (authorization : Option String) (now : Instant) :
    ∃ found doors', connect vault doors authorization now = .ok (found, doors') ∧
      TokensKept vault doors'.employees log ∧
      ∀ id, found.map Account.id = some id ↔
        ∃ token, parseBearerToken vault authorization = some token ∧
          ∃ account ∈ doors.employees, account.id = id ∧ account.isActive = true ∧
            account.mcpTokenHash = some (vault.hashToken token) := by
  unfold Integrations.connect
  cases hparse : parseBearerToken vault authorization with
  | none => exact ⟨none, doors, rfl, h, by simp⟩
  | some token =>
    simp only [verifyToken, Option.some.injEq]
    rcases h.find (vault.hashToken token) with hnone | ⟨account, hmem, hhash, hactive, hone⟩
    · refine ⟨none, doors, by rw [hnone]; rfl, h, ?_⟩
      intro id
      simp only [Option.map_none, reduceCtorEq, exists_eq_left', false_iff]
      rintro ⟨account, hmem, -, hactive, hhash⟩
      exact absurd (show account ∈ [] from hnone ▸ List.mem_filter.mpr ⟨hmem, by simp [*]⟩) (by simp)
    · -- the row that the hash finds is the only one with this hash
      have hid : ∀ id, some account.id = some id ↔
          ∃ shown, some token = some shown ∧ ∃ other ∈ doors.employees, other.id = id ∧
            other.isActive = true ∧ other.mcpTokenHash = some (vault.hashToken shown) := by
        intro id
        constructor
        · intro heq
          exact ⟨token, rfl, account, hmem, Option.some.inj heq, hactive, hhash⟩
        · rintro ⟨shown, hshown, other, hother, rfl, -, hotherHash⟩
          cases hshown
          rw [h.distinct account hmem other hother _ hhash hotherHash]
      rw [hone]
      by_cases hstamp : account.lastConnected.all fun previous =>
        decide (previous + lastConnectedDebounce < now)
      · refine ⟨some { account with lastConnected := some now }, _, if_pos hstamp, ?_, ?_⟩
        · exact h.edit (h.keyed.get_of_mem hmem) rfl rfl
        · simpa using hid
      · exact ⟨some account, doors, if_neg hstamp, h, by simpa using hid⟩

theorem perform_tokensKept : Machine.Preserves (DoorCall.perform vault) (fun _ _ => True)
    fun s => TokensKept vault s.doors.employees s.log := by
  rintro ⟨doors, log⟩ s' call h - hcall
  cases call with
  | register name redirectUris clientId =>
    simp only [DoorCall.perform, registerClient, bind_ok, require_ok, pure_ok] at hcall
    obtain ⟨⟨client, doors'⟩, ⟨-, -, -, -, -, -, -, -, hpair⟩, rfl⟩ := hcall
    cases hpair
    exact h.tell fun _ => rfl
  | provision client =>
    simp only [DoorCall.perform, bind_ok, require_ok, pure_ok] at hcall
    obtain ⟨-, -, rfl⟩ := hcall
    exact h.tell fun _ => rfl
  | authorize request gate id code now =>
    simp only [DoorCall.perform, bind_ok, pure_ok] at hcall
    obtain ⟨⟨account, authCode, doors'⟩, hpost, rfl⟩ := hcall
    obtain ⟨-, -, -, -, rfl⟩ := authorizePost_ok hpost
    exact h.tell fun _ => rfl
  | exchange request secret now =>
    simp only [DoorCall.perform, bind_ok, pure_ok] at hcall
    obtain ⟨⟨employeeId, token, doors'⟩, hexchange, rfl⟩ := hcall
    obtain ⟨authCode, -, -, -, -, -, -, -, -, hissue⟩ := exchangeCode_ok hexchange
    have htold : TokensKept vault
        { doors with codes := doors.codes.put { authCode with used := true } }.employees
        (log ++ [.redeemed ⟨request, employeeId, now⟩]) := h.tell fun _ => rfl
    exact htold.afterGenerate hissue
  | generate employeeId secret =>
    simp only [DoorCall.perform, bind_ok, require_ok, pure_ok] at hcall
    obtain ⟨-, -, ⟨token, doors'⟩, hissue, rfl⟩ := hcall
    exact h.afterGenerate hissue
  | revoke employeeId =>
    simp only [DoorCall.perform, bind_ok, require_ok, pure_ok] at hcall
    obtain ⟨-, hfound, rfl⟩ := hcall
    exact h.afterRevoke hfound
  | toggle employeeId =>
    simp only [DoorCall.perform, bind_ok, demand_ok, pure_ok] at hcall
    obtain ⟨account, hget, rfl⟩ := hcall
    obtain rfl : account.id = employeeId := Table.get_key hget
    exact h.edit hget rfl rfl
  | edit employeeId profile email passwordHash =>
    simp only [DoorCall.perform, bind_ok, demand_ok, pure_ok] at hcall
    obtain ⟨account, hget, -, -, rfl⟩ := hcall
    obtain rfl : account.id = employeeId := Table.get_key hget
    exact h.edit hget rfl rfl
  | hire id profile email passwordHash isActive =>
    simp only [DoorCall.perform, bind_ok, pure_ok] at hcall
    obtain ⟨-, -, employees, hinsert, rfl⟩ := hcall
    obtain ⟨hfree, rfl⟩ := Table.insert_ok hinsert
    exact h.hire _ hfree rfl
  | dismiss employeeId =>
    simp only [DoorCall.perform, bind_ok, require_ok, pure_ok] at hcall
    obtain ⟨-, -, rfl⟩ := hcall
    exact h.dismiss employeeId
  | connect authorization now =>
    simp only [DoorCall.perform, bind_ok, pure_ok] at hcall
    obtain ⟨⟨found, doors'⟩, hconnect, rfl⟩ := hcall
    obtain ⟨_, _, hsame, hkept, -⟩ := h.connect authorization now
    rw [hconnect] at hsame
    cases hsame
    exact hkept

theorem signInRun_tokensKept (vault : Vault) (calls : List DoorCall) :
    TokensKept vault (signInRun vault calls).doors.employees (signInRun vault calls).log :=
  perform_tokensKept.run ⟨List.nodup_nil, by simp, by simp⟩
    (Machine.meets_of_forall (fun _ _ => trivial) _ calls)

/-- After any run a request is always answered, and it is the request of an employee exactly if the
row is active and the header holds the last token that was issued for it and not withdrawn. -/
theorem signInRun_connected (vault : Vault) (calls : List DoorCall)
    (authorization : Option String) (now : Instant) :
    ∃ found doors', connect vault (signInRun vault calls).doors authorization now
        = .ok (found, doors') ∧
      ∀ id, found.map Account.id = some id ↔
        (∃ account ∈ (signInRun vault calls).doors.employees,
          account.id = id ∧ account.isActive = true) ∧
        ∃ shown issued, parseBearerToken vault authorization = some shown ∧
          lastToken (signInRun vault calls).log id = some issued ∧
          vault.hashToken issued = vault.hashToken shown := by
  have hkept := signInRun_tokensKept vault calls
  obtain ⟨found, doors', hconnect, -, hid⟩ := hkept.connect authorization now
  refine ⟨found, doors', hconnect, ?_⟩
  intro id
  rw [hid]
  constructor
  · rintro ⟨shown, hparse, account, hmem, rfl, hactive, hhash⟩
    rw [hkept.last account hmem, Option.map_eq_some_iff] at hhash
    obtain ⟨issued, hlast, hsame⟩ := hhash
    exact ⟨⟨account, hmem, rfl, hactive⟩, shown, issued, hparse, hlast, hsame⟩
  · rintro ⟨⟨account, hmem, rfl, hactive⟩, shown, issued, hparse, hlast, hsame⟩
    refine ⟨shown, hparse, account, hmem, rfl, hactive, ?_⟩
    rw [hkept.last account hmem, hlast, Option.map_some, hsame]

end Runs

end Cygnus.Integrations
