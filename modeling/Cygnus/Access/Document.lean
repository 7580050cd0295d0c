import Cygnus.Access.Permissions
import Cygnus.Data.Sql

namespace Cygnus.Access

/-- The columns of `sources` that decide access. Rows written before the scope columns were
required may carry no scope type at all. -/
structure Source where
  id : Uuid
  scopeType : Option String
  scopeId : Option Uuid
  deriving DecidableEq

structure SourceDepartment where
  sourceId : Uuid
  departmentId : Uuid
  deriving DecidableEq

def permission (resource action scope : String) : String := s!"{resource}:{action}:{scope}"

def getScopeLevel (permissions : List String) (resource action : String) : Option String :=
  if permission resource action "all" ∈ permissions then some "all"
  else if permission resource action "own_dept" ∈ permissions then some "own_dept"
  else none

def sourceDeptIds (links : List SourceDepartment) (source : Source) : List Uuid :=
  (links.filter (·.sourceId = source.id)).map (·.departmentId)

def canAccessDocument (links : List SourceDepartment) (user : Employee) (source : Source)
    (action : String) : Bool :=
  if user.role = "admin" then true
  else if permission "doc" action "all" ∈ getUserPermissions user then true
  else if permission "doc" action "own_dept" ∉ getUserPermissions user then false
  else
    let departments := sourceDeptIds links source
    let overlap := user.departmentIds.any (· ∈ departments)
    if departments = [] then source.scopeType = some "global" && source.scopeId = none
    else if source.scopeType = some "global" then
      if source.scopeId ≠ none then false else overlap
    else if source.scopeType = some "department" then
      if ∀ d ∈ departments, source.scopeId ≠ some d then false else overlap
    else false

/-- A clause over one row of `sources`, whose subqueries read `source_departments`. -/
abbrev Clause := List SourceDepartment → Source → Sql.Truth

def linksOf (links : List SourceDepartment) (source : Source)
    (condition : SourceDepartment → Sql.Truth) : Sql.Truth :=
  Sql.existsIn links fun link =>
    Sql.all [Sql.equals (some link.sourceId) (some source.id), condition link]

def hasDepartmentLinks : Clause := fun links source =>
  Sql.existsIn links fun link => Sql.equals (some link.sourceId) (some source.id)

def declaredDepartmentLink : Clause := fun links source =>
  linksOf links source fun link => Sql.equals (some link.departmentId) source.scopeId

def memberDepartmentLink (departmentIds : List Uuid) : Clause := fun links source =>
  linksOf links source fun link => Sql.isIn (some link.departmentId) departmentIds

def globalClause : Clause := fun links source => Sql.all [
  Sql.equals source.scopeType (some "global"),
  Sql.isNull source.scopeId,
  (hasDepartmentLinks links source).not]

def validScopeClause : Clause := fun links source => Sql.any [
  Sql.all [Sql.equals source.scopeType (some "global"), Sql.isNull source.scopeId],
  Sql.all [Sql.equals source.scopeType (some "department"), declaredDepartmentLink links source]]

/-- `none` is the missing filter of a caller who reads every row. -/
def buildDocumentScopeClause (user : Employee) (action : String) : Option Clause :=
  if user.role = "admin" then none
  else
    let scopeLevel := getScopeLevel (getUserPermissions user) "doc" action
    if scopeLevel = some "all" then none
    else if scopeLevel = some "own_dept" then
      if user.departmentIds = [] then some globalClause
      else some fun links source => Sql.any [
        globalClause links source,
        Sql.all [
          validScopeClause links source,
          memberDepartmentLink user.departmentIds links source]]
    else some fun _ source => Sql.isNull (some source.id)

def Satisfies (links : List SourceDepartment) (source : Source) : Option Clause → Prop
  | none => True
  | some clause => clause links source = .true

theorem mem_sourceDeptIds {links : List SourceDepartment} {source : Source} {d : Uuid} :
    d ∈ sourceDeptIds links source ↔ ⟨source.id, d⟩ ∈ links := by
  simp only [sourceDeptIds, List.mem_map, List.mem_filter, decide_eq_true_eq]
  constructor
  · rintro ⟨⟨id, department⟩, ⟨hmem, rfl⟩, rfl⟩
    exact hmem
  · intro hmem
    exact ⟨⟨source.id, d⟩, ⟨hmem, rfl⟩, rfl⟩

section Clauses

variable {links : List SourceDepartment} {source : Source}

@[simp] theorem linksOf_eq_true {condition : SourceDepartment → Sql.Truth} :
    linksOf links source condition = .true ↔
      ∃ d ∈ sourceDeptIds links source, condition ⟨source.id, d⟩ = .true := by
  simp only [linksOf, Sql.existsIn_eq_true, Sql.all_cons, Sql.all_nil, Sql.and_eq_true,
    Sql.equals_some_eq_true, Option.some.injEq, and_true, mem_sourceDeptIds]
  constructor
  · rintro ⟨⟨id, d⟩, hmem, rfl, hcondition⟩
    exact ⟨d, hmem, hcondition⟩
  · rintro ⟨d, hmem, hcondition⟩
    exact ⟨⟨source.id, d⟩, hmem, rfl, hcondition⟩

theorem not_hasDepartmentLinks :
    (hasDepartmentLinks links source).not = .true ↔ sourceDeptIds links source = [] := by
  simp only [hasDepartmentLinks, Sql.not_existsIn_eq_true, ne_eq, Sql.equals_some_eq_true,
    Option.some.injEq, List.eq_nil_iff_forall_not_mem, mem_sourceDeptIds]
  constructor
  · intro h d hmem
    exact h _ hmem rfl
  · rintro h ⟨id, d⟩ hmem rfl
    exact h d hmem

theorem declaredDepartmentLink_eq_true :
    declaredDepartmentLink links source = .true ↔
      ∃ d ∈ sourceDeptIds links source, source.scopeId = some d := by
  simp only [declaredDepartmentLink, linksOf_eq_true, Sql.equals_eq_true, Option.some.injEq]
  simp

theorem memberDepartmentLink_eq_true {departmentIds : List Uuid} :
    memberDepartmentLink departmentIds links source = .true ↔
      ∃ d ∈ departmentIds, d ∈ sourceDeptIds links source := by
  simp only [memberDepartmentLink, linksOf_eq_true, Sql.isIn_eq_true, Option.some.injEq]
  constructor
  · rintro ⟨d, hlink, e, hmem, rfl⟩
    exact ⟨d, hmem, hlink⟩
  · rintro ⟨d, hmem, hlink⟩
    exact ⟨d, hlink, d, hmem, rfl⟩

theorem globalClause_eq_true :
    globalClause links source = .true ↔
      source.scopeType = some "global" ∧ source.scopeId = none ∧
        sourceDeptIds links source = [] := by
  simp [globalClause, not_hasDepartmentLinks]

theorem validScopeClause_eq_true :
    validScopeClause links source = .true ↔
      source.scopeType = some "global" ∧ source.scopeId = none ∨
        source.scopeType = some "department" ∧
          ∃ d ∈ sourceDeptIds links source, source.scopeId = some d := by
  simp [validScopeClause, declaredDepartmentLink_eq_true]

end Clauses

/-- What an `own_dept` reader may see: an unlinked source that declares itself global, or a source
whose declared scope is sound and which shares a department with the reader. -/
def OwnDepartmentAccess (links : List SourceDepartment) (user : Employee) (source : Source) :
    Prop :=
  (source.scopeType = some "global" ∧ source.scopeId = none ∧ sourceDeptIds links source = []) ∨
    ((source.scopeType = some "global" ∧ source.scopeId = none ∨
        source.scopeType = some "department" ∧
          ∃ d ∈ sourceDeptIds links source, source.scopeId = some d) ∧
      ∃ d ∈ user.departmentIds, d ∈ sourceDeptIds links source)

theorem canAccessDocument_ownDepartment {links : List SourceDepartment} {user : Employee}
    {source : Source} {action : String} (hadmin : user.role ≠ "admin")
    (hall : permission "doc" action "all" ∉ getUserPermissions user)
    (hown : permission "doc" action "own_dept" ∈ getUserPermissions user) :
    canAccessDocument links user source action = true ↔ OwnDepartmentAccess links user source := by
  have hoverlap (h : sourceDeptIds links source = []) :
      ¬ ∃ d ∈ user.departmentIds, d ∈ sourceDeptIds links source := by simp [h]
  simp only [canAccessDocument, hadmin, hall, hown, OwnDepartmentAccess, if_false, not_true]
  by_cases hlinks : sourceDeptIds links source = []
  · simp [hlinks]
  by_cases hglobal : source.scopeType = some "global"
  · by_cases hscope : source.scopeId = none <;> simp [hlinks, hglobal, hscope]
  by_cases hdepartment : source.scopeType = some "department"
  · by_cases hdeclared : ∃ d ∈ sourceDeptIds links source, source.scopeId = some d
    · have hsome : ¬ ∀ d ∈ sourceDeptIds links source, source.scopeId ≠ some d := by
        intro hnone
        obtain ⟨d, hmem, heq⟩ := hdeclared
        exact hnone d hmem heq
      simp only [hlinks, hdepartment, hsome, hdeclared, if_false]
      simp
    · simp [hlinks, hdepartment, hdeclared]
  · simp [hlinks, hglobal, hdepartment]

theorem buildDocumentScopeClause_ownDepartment {links : List SourceDepartment} {user : Employee}
    {source : Source} {action : String} (hadmin : user.role ≠ "admin")
    (hall : permission "doc" action "all" ∉ getUserPermissions user)
    (hown : permission "doc" action "own_dept" ∈ getUserPermissions user) :
    Satisfies links source (buildDocumentScopeClause user action) ↔
      OwnDepartmentAccess links user source := by
  simp only [buildDocumentScopeClause, getScopeLevel, hadmin, hall, hown, if_true, if_false,
    Option.some.injEq, String.reduceEq]
  by_cases hmember : user.departmentIds = []
  · simp [hmember, Satisfies, globalClause_eq_true, OwnDepartmentAccess]
  · simp [hmember, Satisfies, globalClause_eq_true, validScopeClause_eq_true,
      memberDepartmentLink_eq_true, OwnDepartmentAccess]

/-- The point check and the list query admit the same sources. -/
theorem canAccessDocument_iff_satisfies (links : List SourceDepartment) (user : Employee)
    (source : Source) (action : String) :
    canAccessDocument links user source action = true ↔
      Satisfies links source (buildDocumentScopeClause user action) := by
  by_cases hadmin : user.role = "admin"
  · simp [canAccessDocument, buildDocumentScopeClause, hadmin, Satisfies]
  by_cases hall : permission "doc" action "all" ∈ getUserPermissions user
  · simp [canAccessDocument, buildDocumentScopeClause, getScopeLevel, hadmin, hall, Satisfies]
  by_cases hown : permission "doc" action "own_dept" ∈ getUserPermissions user
  · rw [canAccessDocument_ownDepartment hadmin hall hown,
      buildDocumentScopeClause_ownDepartment hadmin hall hown]
  · simp [canAccessDocument, buildDocumentScopeClause, getScopeLevel, hadmin, hall, hown,
      Satisfies]

end Cygnus.Access
