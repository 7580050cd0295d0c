import Cygnus.Access.Permissions

namespace Cygnus.Access

inductive SkillStatus
  | active
  | processing
  | deleting
  | deprecated
  | archived
  deriving DecidableEq

structure Skill where
  id : Uuid
  name : String
  status : SkillStatus
  scopeType : String
  scopeId : Option Uuid
  departments : List Uuid
  deriving DecidableEq

def skillPermission (action scope : String) : String := s!"skill:{action}:{scope}"

def sharesDepartment (user : Employee) (skill : Skill) : Bool :=
  user.departmentIds.any (· ∈ skill.departments)

def canAccessSkill (user : Employee) (skill : Skill) (action : String) : Bool :=
  if user.role = "admin" then true
  else if skillPermission action "all" ∈ getUserPermissions user then true
  else if skill.departments = [] then true
  else sharesDepartment user skill

/-- The pair returned for listing: whether a filter is needed, and the departments it admits.
`(true, none)` stands for "no permission at all". -/
def buildSkillFilter (user : Employee) (action : String) : Bool × Option (List Uuid) :=
  if user.role = "admin" then (false, some [])
  else if skillPermission action "all" ∈ getUserPermissions user then (false, some [])
  else if skillPermission action "own_dept" ∈ getUserPermissions user then
    (true, some user.departmentIds)
  else (true, none)

structure SkillQuery where
  q : Option String := none
  departmentId : Option Uuid := none
  scopeType : Option String := none
  scopeId : Option Uuid := none
  ids : Option (List Uuid) := none
  allowedDepartmentIds : Option (List Uuid) := none

section Query

-- PostgreSQL's `ILIKE`, with the pattern first
variable (ilike : String → String → Bool)

def SkillQuery.admitsDepartments (query : SkillQuery) (skill : Skill) : Bool :=
  match query.allowedDepartmentIds with
  | none => true
  | some allowed => skill.departments.isEmpty || skill.departments.any (· ∈ allowed)

def SkillQuery.admitsIds (query : SkillQuery) (skill : Skill) : Bool :=
  match query.ids with
  | none => true
  | some ids => ids.isEmpty || skill.id ∈ ids

def SkillQuery.admitsName (query : SkillQuery) (skill : Skill) : Bool :=
  match query.q with
  | none => true
  | some q => q.isEmpty || ilike s!"%{q}%" skill.name

def SkillQuery.admitsDepartment (query : SkillQuery) (skill : Skill) : Bool :=
  match query.departmentId with
  | none => true
  | some d => d ∈ skill.departments

def SkillQuery.admitsScope (query : SkillQuery) (skill : Skill) : Bool :=
  match query.scopeType with
  | none => true
  | some t =>
    t.isEmpty || (skill.scopeType == t && match query.scopeId with
      | none => true
      | some s => skill.scopeId == some s)

def applySkillFilters (query : SkillQuery) (skill : Skill) : Bool :=
  query.admitsDepartments skill && decide (skill.status ≠ .deleting) && query.admitsIds skill &&
    query.admitsName ilike skill && query.admitsDepartment skill && query.admitsScope skill

/-- Whether the listing endpoint, called without further filters, returns the row. -/
def listsSkill (user : Employee) (skill : Skill) : Bool :=
  match buildSkillFilter user "read" with
  | (true, none) => false
  | (needsFilter, allowed) =>
    applySkillFilters ilike { allowedDepartmentIds := if needsFilter then allowed else none } skill

end Query

/-- The rule the docstring of `can_access_skill` states. -/
def SkillRule (user : Employee) (skill : Skill) (action : String) : Prop :=
  user.role = "admin" ∨ skillPermission action "all" ∈ getUserPermissions user ∨
    (skillPermission action "own_dept" ∈ getUserPermissions user ∧
      (skill.departments = [] ∨ sharesDepartment user skill = true))

instance : Decidable (SkillRule user skill action) :=
  inferInstanceAs (Decidable (_ ∨ _ ∨ (_ ∧ (_ ∨ _))))

/-- No variant of `skill:{action}` is granted to the user. -/
def NoSkillGrant (user : Employee) (action : String) : Prop :=
  user.role ≠ "admin" ∧ skillPermission action "all" ∉ getUserPermissions user ∧
    skillPermission action "own_dept" ∉ getUserPermissions user

instance : Decidable (NoSkillGrant user action) :=
  inferInstanceAs (Decidable (_ ∧ _ ∧ _))

/-- The three copies of the rule agree at one user, skill and action. -/
structure SkillAccessAgrees (ilike : String → String → Bool) (user : Employee) (skill : Skill)
    (action : String) : Prop where
  rule : canAccessSkill user skill action = true ↔ SkillRule user skill action
  refused : NoSkillGrant user action → canAccessSkill user skill action = false
  listed : action = "read" →
    (listsSkill ilike user skill = true ↔
      skill.status ≠ .deleting ∧ canAccessSkill user skill action = true)

theorem canAccessSkill_iff (user : Employee) (skill : Skill) (action : String) :
    canAccessSkill user skill action = true ↔
      user.role = "admin" ∨ skillPermission action "all" ∈ getUserPermissions user ∨
        skill.departments = [] ∨ sharesDepartment user skill = true := by
  unfold canAccessSkill
  split
  · simp [*]
  · split
    · simp [*]
    · split <;> simp [*]

theorem sharesDepartment_iff (user : Employee) (skill : Skill) :
    sharesDepartment user skill = true ↔ ∃ d ∈ skill.departments, d ∈ user.departmentIds := by
  simp only [sharesDepartment, List.any_eq_true, decide_eq_true_eq]
  constructor
  · rintro ⟨d, hu, hs⟩
    exact ⟨d, hs, hu⟩
  · rintro ⟨d, hs, hu⟩
    exact ⟨d, hu, hs⟩

/-- Every preset grants some variant of reading skills. -/
theorem read_granted (user : Employee) :
    skillPermission "read" "all" ∈ getUserPermissions user ∨
      skillPermission "read" "own_dept" ∈ getUserPermissions user := by
  rcases getUserPermissions_cases user with h | h | h | h <;> rw [h] <;> decide

@[simp] theorem applySkillFilters_allowed (ilike : String → String → Bool)
    (allowed : Option (List Uuid)) (skill : Skill) :
    applySkillFilters ilike { allowedDepartmentIds := allowed } skill = true ↔
      skill.status ≠ .deleting ∧
        ∀ ds, allowed = some ds → skill.departments = [] ∨ ∃ d ∈ skill.departments, d ∈ ds := by
  cases allowed <;>
    simp [applySkillFilters, SkillQuery.admitsDepartments, SkillQuery.admitsIds,
      SkillQuery.admitsName, SkillQuery.admitsDepartment, SkillQuery.admitsScope, and_comm]

theorem listsSkill_iff (ilike : String → String → Bool) (user : Employee) (skill : Skill) :
    listsSkill ilike user skill = true ↔
      skill.status ≠ .deleting ∧ SkillRule user skill "read" := by
  unfold listsSkill buildSkillFilter SkillRule
  by_cases hadmin : user.role = "admin"
  · simp [hadmin]
  · by_cases hall : skillPermission "read" "all" ∈ getUserPermissions user
    · simp [hadmin, hall]
    · have hown := (read_granted user).resolve_left hall
      simp [hadmin, hall, hown, sharesDepartment_iff]

/-- The point check grants beyond the rule exactly when no variant is granted and the skill is
global or shares a department with the user. -/
theorem canAccessSkill_iff_rule (user : Employee) (skill : Skill) (action : String) :
    (canAccessSkill user skill action = true ↔ SkillRule user skill action) ↔
      ¬ (NoSkillGrant user action ∧
        (skill.departments = [] ∨ sharesDepartment user skill = true)) := by
  rw [canAccessSkill_iff]
  unfold SkillRule NoSkillGrant
  tauto

theorem skillAccessAgrees_iff (ilike : String → String → Bool) (user : Employee) (skill : Skill)
    (action : String) :
    SkillAccessAgrees ilike user skill action ↔
      ¬ (NoSkillGrant user action ∧
        (skill.departments = [] ∨ sharesDepartment user skill = true)) := by
  constructor
  · intro h
    exact (canAccessSkill_iff_rule user skill action).mp h.rule
  · intro h
    have hrule := (canAccessSkill_iff_rule user skill action).mpr h
    refine ⟨hrule, ?_, ?_⟩
    · intro hno
      rw [Bool.eq_false_iff, Ne, hrule]
      rintro (hadmin | hall | ⟨hown, -⟩)
      · exact hno.1 hadmin
      · exact hno.2.1 hall
      · exact hno.2.2 hown
    · rintro rfl
      rw [listsSkill_iff, hrule]

/-- A viewer may edit a global skill, although no preset of theirs grants `skill:edit`. -/
theorem viewer_edits_global_skill :
    ¬ SkillAccessAgrees (fun _ _ => false)
      ⟨"employee", some "viewer", []⟩ ⟨0, "document-generator", .active, "global", none, []⟩
      "edit" := by
  intro h
  have hgranted : canAccessSkill ⟨"employee", some "viewer", []⟩
      ⟨0, "document-generator", .active, "global", none, []⟩ "edit" = true := by decide
  have hrefused := h.refused (by decide)
  rw [hgranted] at hrefused
  cases hrefused

end Cygnus.Access
