import ScopedAccess.Model
import ScopedAccess.Store.Change

namespace ScopedAccess

structure Assignment where
  user : String
  resourceType : String
  resourceId : String
  role : String
deriving DecidableEq, Repr

namespace Assignment

-- The order of the assignments of one user: by type, then by instance, then by role.
def before (a b : Assignment) : Bool :=
  if a.resourceType ≠ b.resourceType then a.resourceType < b.resourceType
  else if a.resourceId ≠ b.resourceId then a.resourceId < b.resourceId
  else a.role ≤ b.role

def values (a : Assignment) : List (String × String) :=
  [("user_id", a.user), ("resource_type", a.resourceType), ("resource_id", a.resourceId), ("role", a.role)]

def ofRow : Row → Except StoreFault Assignment
  | [id, user, resourceType, resourceId, role, createdAt] => do
    let _ ← Store.numberOf "id" id
    let user ← Store.textOf "user_id" user
    let resourceType ← Store.textOf "resource_type" resourceType
    let resourceId ← Store.textOf "resource_id" resourceId
    let role ← Store.textOf "role" role
    let _ ← Store.wholeOf 64 "created_at" createdAt
    .ok { user, resourceType, resourceId, role }
  | _ => .error (.emptyValue (.named "id"))

end Assignment

namespace Store

-- With whether the assignment is new. When it was made plays no part here.
def insertAssignment (s : Store) (a : Assignment) : Except StoreFault (Store × Bool) := do
  let columns := a.values.map (·.1)
  let row : Row := a.values.map (.text ·.2) ++ [.integer 0]
  let (next, written) ← s.insertInto OwnTable.assignments.name (columns ++ ["created_at"]) (some columns) [row]
  .ok (next, 0 < written)

def deleteAssignment (s : Store) (a : Assignment) : Except StoreFault (Store × Bool) := do
  let (next, deleted) ← s.deleteMatching .assignments a.values
  .ok (next, 0 < deleted)

def assignments (s : Store) : Except StoreFault (List Assignment) := do
  let rows ← s.readAll .assignments
  rows.mapM Assignment.ofRow

def assignmentsOf (s : Store) (user : String) : Except StoreFault (List Assignment) := do
  let rows ← s.read .assignments (OwnTable.assignments.columns.map (·.name)) fun t => t.holds "user_id" (.text user)
  let found ← rows.mapM Assignment.ofRow
  .ok (found.mergeSort Assignment.before)

end Store

-- What becomes of assignments whose role the policy does not declare on their type.
inductive OrphanPolicy where
  | reject
  | prune
deriving DecidableEq, Repr

structure SyncReport where
  roles : Nat
  permissions : Nat
  grants : Nat
  implications : Nat
  pruned : Nat
deriving DecidableEq, Repr

structure RoleSummary where
  name : String
  resourceType : String
  permissions : OrderedSet String
  implies : OrderedSet String

namespace Model

def declaresRole (m : Model) (role resourceType : String) : Bool :=
  (m.roles.find? role).any fun r => r.resourceType = resourceType

def permissionRows (m : Model) : List Row :=
  m.permissions.toList.mapIdx fun i p => [.integer (i + 1), .text p.resourceType, .text p.action]

def roleRows (m : Model) : List Row := m.roles.values.map fun r => [.text r.name, .text r.resourceType]

def implicationRows (m : Model) : List Row :=
  (m.roles.values.flatMap fun r => r.implies.toList.map (r.name, ·)).mapIdx fun i e =>
    [.integer (i + 1), .text e.1, .text e.2]

def grants (m : Model) : List (String × Permission) := m.roles.values.flatMap fun r => r.permissions.map (r.name, ·)

def grantRows (m : Model) : Except Failure (List Row) :=
  m.grants.zipIdx.mapM fun ((role, p), i) =>
    match m.permissions.toList.findIdx? (· = p) with
    | some k => .ok [.integer (i + 1), .text role, .integer (k + 1)]
    | none => .error (.schema (.unknownGrant role p))

end Model

namespace Store

def orphanOfRow : Row → Except StoreFault Orphan
  | [role, resourceType] => do
    let role ← textOf (.position 0) role
    let resourceType ← textOf (.position 1) resourceType
    .ok ⟨role, resourceType⟩
  | _ => .error (.emptyValue (.position 0))

def orphans (s : Store) (m : Model) : Except StoreFault (List Orphan) := do
  let rows ← s.read .assignments ["role", "resource_type"] fun _ _ => true
  let held ← rows.eraseDups.mapM orphanOfRow
  .ok (held.filter fun o => !m.declaresRole o.role o.resourceType)

def forget (progress : Store × Nat) (o : Orphan) : Except StoreFault (Store × Nat) := do
  let (s, deleted) ← progress.1.deleteMatching .assignments [("role", o.role), ("resource_type", o.resourceType)]
  .ok (s, progress.2 + deleted)

def reconcile (s : Store) (m : Model) (policy : OrphanPolicy) : Except Failure (Store × Nat) := do
  match ← (s.orphans m).mapError .store, policy with
  | [], _ => .ok (s, 0)
  | orphans, .reject => .error (.orphanedAssignments orphans)
  | orphans, .prune => (orphans.foldlM forget (s, 0)).mapError .store

-- Rows go before the rows they refer to, and come after them.
def clearRoles (s : Store) : Except StoreFault Store := do
  let s ← s.clear .grants
  let s ← s.clear .implications
  let s ← s.clear .roles
  s.clear .permissions

def fill (s : Store) (t : OwnTable) (rows : List Row) : Except StoreFault Store := do
  if rows.isEmpty then .ok s
  else
    let (next, _) ← s.insertInto t.name (t.columns.map (·.name)) none rows
    .ok next

def writeRoles (s : Store) (m : Model) (grants : List Row) : Except StoreFault Store := do
  let s ← s.fill .permissions m.permissionRows
  let s ← s.fill .roles m.roleRows
  let s ← s.fill .grants grants
  s.fill .implications m.implicationRows

-- All or nothing: a failure leaves the caller with the store it had.
def synchronize (s : Store) (m : Model) (policy : OrphanPolicy) : Except Failure (Store × SyncReport) := do
  let (s, pruned) ← s.reconcile m policy
  let s ← s.clearRoles.mapError .store
  let grants ← m.grantRows
  let s ← (s.writeRoles m grants).mapError .store
  .ok (s, { roles := m.roleRows.length
            permissions := m.permissionRows.length
            grants := grants.length
            implications := m.implicationRows.length
            pruned })

def pairOf (first second : String) : Row → Except StoreFault (String × String)
  | [a, b] => do
    let a ← textOf first a
    let b ← textOf second b
    .ok (a, b)
  | _ => .error (.emptyValue first)

def numberedPairOf (first second : String) : Row → Except StoreFault (Int × String × String)
  | [id, a, b] => do
    let id ← numberOf "id" id
    let pair ← pairOf first second [a, b]
    .ok (id, pair)
  | _ => .error (.emptyValue (.named "id"))

def grantOf : Row → Except StoreFault (String × Int)
  | [id, role, permission] => do
    let _ ← numberOf "id" id
    let role ← textOf "role" role
    let permission ← numberOf "permission_id" permission
    .ok (role, permission)
  | _ => .error (.emptyValue (.named "id"))

def rolesByName (s : Store) : Except StoreFault (List (String × String)) := do
  let rows ← s.readAll .roles
  let roles ← rows.mapM (pairOf "name" "resource_type")
  .ok (roles.mergeSort fun a b => a.1 ≤ b.1)

-- Permissions under the numbers that grants name them by.
def numberedPermissions (s : Store) : Except StoreFault (List (Int × Permission)) := do
  let rows ← s.readAll .permissions
  let found ← rows.mapM (numberedPairOf "resource_type" "name")
  .ok (found.map fun (id, resourceType, action) => (id, ⟨resourceType, action⟩))

def heldGrants (s : Store) : Except StoreFault (List (String × Int)) := do
  let rows ← s.readAll .grants
  rows.mapM grantOf

def heldImplications (s : Store) : Except StoreFault (List (String × String)) := do
  let rows ← s.readAll .implications
  let found ← rows.mapM (numberedPairOf "from_role" "to_role")
  .ok (found.map (·.2))

def roleIndex (s : Store) : Except StoreFault (List RoleSummary) := do
  let roles ← s.rolesByName
  let permissions ← s.numberedPermissions
  let grants ← s.heldGrants
  let implications ← s.heldImplications
  let granted (role : String) : List Permission :=
    (grants.filter (·.1 = role)).filterMap fun g => (permissions.find? (·.1 = g.2)).map (·.2)
  .ok (roles.map fun (name, resourceType) =>
    { name
      resourceType
      permissions := .ofList ((granted name).map Permission.describe)
      implies := .ofList ((implications.filter (·.1 = name)).map (·.2)) })

end Store

-- A store during a transaction: as everyone else sees it, and as the statements so far have left it.
structure Connection where
  committed : Store
  working : Store

-- A failure keeps the connection as it was left.
abbrev Transaction (α : Type) := ExceptT Failure (StateM Connection) α

namespace Transaction

def execute {α : Type} (statement : Store → Except StoreFault (Store × α)) : Transaction α := fun c =>
  match statement c.working with
  | .ok (next, a) => (.ok a, { c with working := next })
  | .error fault => (.error (.store fault), c)

def ask {α : Type} (question : Store → Except StoreFault α) : Transaction α :=
  execute fun s => (question s).map (s, ·)

def change (statement : Store → Except StoreFault Store) : Transaction Unit :=
  execute fun s => (statement s).map (·, ())

def forgetAll (orphans : List Orphan) : Transaction Nat :=
  orphans.foldlM (fun deleted o => execute fun s => Store.forget (s, deleted) o) 0

def settle (policy : OrphanPolicy) (orphans : List Orphan) : Transaction Nat :=
  match orphans, policy with
  | [], _ => pure 0
  | orphans, .reject => throw (.orphanedAssignments orphans)
  | orphans, .prune => forgetAll orphans

def reconcile (m : Model) (policy : OrphanPolicy) : Transaction Nat := do
  let orphans ← ask (·.orphans m)
  settle policy orphans

def clearRoles : Transaction Unit := do
  change (·.clear .grants)
  change (·.clear .implications)
  change (·.clear .roles)
  change (·.clear .permissions)

def writeRoles (m : Model) (grants : List Row) : Transaction Unit := do
  change (·.fill .permissions m.permissionRows)
  change (·.fill .roles m.roleRows)
  change (·.fill .grants grants)
  change (·.fill .implications m.implicationRows)

def replaceRoles (m : Model) (policy : OrphanPolicy) : Transaction SyncReport := do
  let pruned ← reconcile m policy
  clearRoles
  let grants ← (m.grantRows : Except Failure (List Row))
  writeRoles m grants
  pure { roles := m.roleRows.length
         permissions := m.permissionRows.length
         grants := grants.length
         implications := m.implicationRows.length
         pruned }

end Transaction

def Store.transact {α : Type} (s : Store) (t : Transaction α) : Except Failure α × Store :=
  match t ⟨s, s⟩ with
  | (.ok a, c) => (.ok a, c.working)
  | (.error failure, c) => (.error failure, c.committed)

end ScopedAccess
