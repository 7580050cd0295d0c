import Cygnus.Data.Table

namespace Cygnus.Access

def allPermissions : List String := [
  "doc:read:own_dept", "doc:read:all", "doc:create:own_dept", "doc:create:all",
  "doc:edit:own_dept", "doc:edit:all", "doc:delete:own_dept", "doc:delete:all",
  "wiki:read:own_dept", "wiki:read:all", "wiki:write:own_dept", "wiki:write:all",
  "wiki:delete:own_dept", "wiki:delete:all",
  "skill:read:own_dept", "skill:read:all", "skill:create:own_dept", "skill:create:all",
  "skill:edit:own_dept", "skill:edit:all", "skill:delete:own_dept", "skill:delete:all",
  "skill:contribution:review",
  "org:departments:read", "org:departments:manage", "org:employees:read", "org:employees:manage",
  "org:roles:read", "org:roles:manage", "org:settings:read", "org:settings:manage",
  "org:audit:read",
  "workspace:view:all"]

def viewerPermissions : List String := [
  "doc:read:own_dept", "wiki:read:own_dept", "skill:read:own_dept",
  "org:departments:read", "org:employees:read"]

def contributorPermissions : List String := [
  "doc:read:own_dept", "doc:create:own_dept", "wiki:read:own_dept", "wiki:write:own_dept",
  "skill:read:own_dept", "skill:create:own_dept", "org:departments:read", "org:employees:read"]

def knowledgeManagerPermissions : List String := [
  "doc:read:all", "doc:create:all", "doc:edit:all", "doc:delete:all",
  "wiki:read:all", "wiki:write:all", "wiki:delete:all",
  "skill:read:all", "skill:create:all", "skill:edit:all", "skill:delete:all",
  "skill:contribution:review",
  "org:departments:read", "org:departments:manage", "org:employees:read", "org:employees:manage",
  "org:audit:read"]

def rolePermissionsMap : List (String × List String) := [
  ("viewer", viewerPermissions),
  ("contributor", contributorPermissions),
  ("knowledge_manager", knowledgeManagerPermissions),
  ("admin", allPermissions)]

structure Employee where
  role : String
  globalRole : Option String
  departmentIds : List Uuid
  deriving DecidableEq

/-- `getattr(user, "global_role", "viewer") or "viewer"`: a missing or empty value reads as viewer. -/
def Employee.effectiveRole (user : Employee) : String :=
  match user.globalRole with
  | none => "viewer"
  | some role => if role = "" then "viewer" else role

def getUserPermissions (user : Employee) : List String :=
  if user.role = "admin" ∨ user.globalRole = some "admin" then allPermissions
  else (rolePermissionsMap.lookup user.effectiveRole).getD viewerPermissions

/-- The permission set of a user is one of the four presets, whatever the stored role string is. -/
theorem getUserPermissions_cases (user : Employee) :
    getUserPermissions user = allPermissions ∨ getUserPermissions user = viewerPermissions ∨
      getUserPermissions user = contributorPermissions ∨
      getUserPermissions user = knowledgeManagerPermissions := by
  unfold getUserPermissions
  split
  · exact .inl rfl
  · simp only [rolePermissionsMap, List.lookup_cons, List.lookup_nil]
    split
    · exact .inr (.inl rfl)
    · split
      · exact .inr (.inr (.inl rfl))
      · split
        · exact .inr (.inr (.inr rfl))
        · split
          · exact .inl rfl
          · exact .inr (.inl rfl)

end Cygnus.Access
