import Cygnus.Data.Sequence
import Cygnus.Integrations.OAuth
import Mathlib.Data.String.Basic

/-! What an MCP client may read. The grants of an identity are worked out when the token is verified,
and the filter that they build runs over the tables as they are then. -/

namespace Cygnus.Integrations

open Access Sequence

section Scope

/-- A row of `sources` with its knowledge type. -/
structure CatalogSource extends Access.Source where
  knowledgeTypeId : Option Uuid

structure KnowledgeType where
  id : Uuid
  slug : String

structure Library where
  links : List SourceDepartment
  sources : List CatalogSource
  knowledgeTypes : List KnowledgeType

/-- In the lists of grants, `none` means all. -/
structure ResolvedIdentity where
  employeeId : Uuid
  departmentIds : List Uuid
  allowedKnowledgeTypes : Option (List String) := none
  allowedSourceIds : Option (List String) := none
  isAdmin : Bool := false
  permissions : List String

def getEffectivePermissions (user : Access.Employee) : List String :=
  sortedBy id ((getUserPermissions user).filter (· ∈ allPermissions))

def Library.selectIds (library : Library) (clause : Clause) : List String :=
  (library.sources.filter fun row => clause library.links row.toSource = .true).map (·.id.text)

def getDepartmentSourceIds (library : Library) (departmentIds : List Uuid) : List String :=
  let globalIds := library.selectIds globalClause
  if departmentIds = [] then globalIds
  else (globalIds ++ library.selectIds fun links source => Sql.all [
    validScopeClause links source, memberDepartmentLink departmentIds links source]).eraseDups

def resolveScope (library : Library) (account : Account) : ResolvedIdentity :=
  let permissions := getEffectivePermissions account.toEmployee
  let identity : ResolvedIdentity :=
    { employeeId := account.id, departmentIds := account.departmentIds, permissions := permissions }
  if account.role = "admin" then { identity with isAdmin := true }
  else
    match getScopeLevel permissions "doc" "read" with
    | some "all" => identity
    | some "own_dept" => { identity with
        allowedSourceIds := some (getDepartmentSourceIds library account.departmentIds) }
    | _ => { identity with allowedSourceIds := some [] }

/-- A condition over a row of `sources`, whose subqueries read the other tables. -/
abbrev Condition := Library → CatalogSource → Sql.Truth

def wellScoped : Condition := fun library row => validScopeClause library.links row.toSource

def knowledgeTypeIn (slugs : List String) : Condition := fun library row =>
  Sql.isIn row.knowledgeTypeId
    ((library.knowledgeTypes.filter fun type => Sql.isIn (some type.slug) slugs = .true).map (·.id))

/-- What the filter adds to a query over `sources`; `none` is the `ValueError` of a grant that is no
identifier. -/
def applyScopeFilter (identity : ResolvedIdentity) : Option (List Condition) := do
  let scope := if identity.isAdmin then [] else [wellScoped]
  if identity.allowedSourceIds = none ∧ identity.allowedKnowledgeTypes = none then return scope
  let granted : List Condition ← match identity.allowedSourceIds with
    | none => pure []
    | some sourceIds => do
      let ids ← sourceIds.mapM Uuid.parse
      pure [fun _ row => Sql.isIn (some row.id) ids]
  let typed : List Condition := (identity.allowedKnowledgeTypes.map knowledgeTypeIn).toList
  return scope ++ [fun library row =>
    Sql.any ((granted ++ typed).map fun condition => condition library row)]

/-- The query returns the row. -/
def Reads (filter : List Condition) (library : Library) (row : CatalogSource) : Prop :=
  ∀ condition ∈ filter, condition library row = .true

end Scope

section Grants

variable {library : Library} {account : Account} {user : Access.Employee}

theorem mem_getEffectivePermissions {permission : String} :
    permission ∈ getEffectivePermissions user ↔ permission ∈ getUserPermissions user := by
  rw [getEffectivePermissions, mem_sortedBy, List.mem_filter, decide_eq_true_eq, and_iff_left_iff_imp]
  have hpresets : ∀ preset ∈ [allPermissions, viewerPermissions, contributorPermissions,
      knowledgeManagerPermissions], preset ⊆ allPermissions := by decide +kernel
  intro hmem
  rcases getUserPermissions_cases user with h | h | h | h
  all_goals
    rw [h] at hmem
    exact hpresets _ (by simp) hmem

theorem mem_selectIds {clause : Clause} {text : String} :
    text ∈ library.selectIds clause ↔ ∃ row ∈ library.sources,
      clause library.links row.toSource = .true ∧ row.id.text = text := by
  simp only [Library.selectIds, List.mem_map, List.mem_filter, decide_eq_true_eq, and_assoc]

/-- An own-department grant lists the sources that an own-department reader may see. -/
theorem mem_getDepartmentSourceIds {text : String} :
    text ∈ getDepartmentSourceIds library user.departmentIds ↔ ∃ row ∈ library.sources,
      OwnDepartmentAccess library.links user row.toSource ∧ row.id.text = text := by
  unfold getDepartmentSourceIds
  split
  · rename_i hnone
    simp only [mem_selectIds, globalClause_eq_true, OwnDepartmentAccess, hnone, List.not_mem_nil,
      false_and, exists_false, and_false, or_false]
  · rw [List.mem_eraseDups, List.mem_append, mem_selectIds, mem_selectIds, ← exists_or]
    apply exists_congr
    intro row
    simp only [globalClause_eq_true, Sql.all_cons, Sql.all_nil, Sql.and_eq_true, and_true,
      validScopeClause_eq_true, memberDepartmentLink_eq_true, OwnDepartmentAccess]
    tauto

end Grants

section Reading

variable {before now : Library} {account : Account} {row : CatalogSource}

/-- The grants of an identity are identifiers, and parse. -/
theorem mapM_parse {texts : List String} (h : ∀ text ∈ texts, ∃ id : Uuid, id.text = text) :
    ∃ ids, texts.mapM Uuid.parse = some ids ∧ ∀ id, id ∈ ids ↔ id.text ∈ texts := by
  induction texts with
  | nil => exact ⟨[], rfl, by simp⟩
  | cons text texts ih =>
    obtain ⟨ids, hids, hmem⟩ := ih fun other hother => h other (List.mem_cons_of_mem _ hother)
    obtain ⟨first, rfl⟩ := h text List.mem_cons_self
    refine ⟨first :: ids, ?_, ?_⟩
    · rw [List.mapM_cons, Uuid.parse_text, hids]
      rfl
    · intro id
      rw [List.mem_cons, List.mem_cons, hmem, Uuid.text_injective.eq_iff]

theorem reads_ids {ids : List Uuid} :
    Reads [wellScoped, fun _ row => Sql.any [Sql.isIn (some row.id) ids]] now row ↔
      wellScoped now row = .true ∧ row.id ∈ ids := by
  simp only [Reads, List.forall_mem_cons, List.not_mem_nil, false_imp_iff, forall_true_iff, and_true,
    Sql.any_cons, Sql.any_nil, Sql.or_eq_true, Sql.isIn_eq_true, Option.some.injEq, reduceCtorEq,
    or_false, exists_eq_right']

/-- The filter of an identity with a list of sources and no other grant. -/
theorem applyScopeFilter_ids (now : Library) {identity : ResolvedIdentity} {texts : List String}
    (hadmin : identity.isAdmin = false) (htypes : identity.allowedKnowledgeTypes = none)
    (hids : identity.allowedSourceIds = some texts)
    (htexts : ∀ text ∈ texts, ∃ id : Uuid, id.text = text) :
    ∃ filter, applyScopeFilter identity = some filter ∧
      ∀ row, Reads filter now row ↔ wellScoped now row = .true ∧ row.id.text ∈ texts := by
  obtain ⟨ids, hparse, hmem⟩ := mapM_parse htexts
  refine ⟨[wellScoped, fun _ row => Sql.any [Sql.isIn (some row.id) ids]], ?_, ?_⟩
  · simp only [applyScopeFilter, hadmin, htypes, hids, hparse]
    rfl
  · intro row
    rw [reads_ids, hmem]

/-- The filter built from the grants of a token never fails. To an administrator it leaves every row;
to anyone else the rows whose scope is sound now, and that the employee could read when the grants
were worked out. -/
theorem resolveScope_reads (before now : Library) (account : Account) :
    ∃ filter, applyScopeFilter (resolveScope before account) = some filter ∧
      ∀ row, Reads filter now row ↔ account.role = "admin" ∨
        (wellScoped now row = .true ∧
          (permission "doc" "read" "all" ∈ getUserPermissions account.toEmployee ∨
            ∃ old ∈ before.sources, old.id = row.id ∧
              canAccessDocument before.links account.toEmployee old.toSource "read" = true)) := by
  by_cases hadmin : account.role = "admin"
  · refine ⟨[], ?_, ?_⟩
    · simp [resolveScope, applyScopeFilter, hadmin]
    · simp [Reads, hadmin]
  by_cases hall : permission "doc" "read" "all" ∈ getUserPermissions account.toEmployee
  · refine ⟨[wellScoped], ?_, ?_⟩
    · simp [resolveScope, applyScopeFilter, getScopeLevel, mem_getEffectivePermissions, hadmin, hall]
    · simp [Reads, hadmin, hall]
  by_cases hown : permission "doc" "read" "own_dept" ∈ getUserPermissions account.toEmployee
  · have hresolve : (resolveScope before account).allowedSourceIds
        = some (getDepartmentSourceIds before account.departmentIds) := by
      simp [resolveScope, getScopeLevel, mem_getEffectivePermissions, hadmin, hall, hown]
    have hplain : (resolveScope before account).isAdmin = false ∧
        (resolveScope before account).allowedKnowledgeTypes = none := by
      simp [resolveScope, getScopeLevel, mem_getEffectivePermissions, hadmin, hall, hown]
    obtain ⟨filter, hfilter, hreads⟩ := applyScopeFilter_ids now hplain.1 hplain.2 hresolve (by
      intro text htext
      obtain ⟨old, -, -, htext⟩ := mem_getDepartmentSourceIds.mp htext
      exact ⟨old.id, htext⟩)
    refine ⟨filter, hfilter, ?_⟩
    intro row
    simp only [hreads, mem_getDepartmentSourceIds, Uuid.text_injective.eq_iff, hadmin, hall, false_or,
      canAccessDocument_ownDepartment hadmin hall hown, and_comm]
  · have hresolve : (resolveScope before account).allowedSourceIds = some [] := by
      simp [resolveScope, getScopeLevel, mem_getEffectivePermissions, hadmin, hall, hown]
    have hplain : (resolveScope before account).isAdmin = false ∧
        (resolveScope before account).allowedKnowledgeTypes = none := by
      simp [resolveScope, getScopeLevel, mem_getEffectivePermissions, hadmin, hall, hown]
    obtain ⟨filter, hfilter, hreads⟩ :=
      applyScopeFilter_ids now hplain.1 hplain.2 hresolve (by simp)
    refine ⟨filter, hfilter, ?_⟩
    intro row
    simp [hreads, hadmin, hall, hown, canAccessDocument]

end Reading

end Cygnus.Integrations
