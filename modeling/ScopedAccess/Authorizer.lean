import ScopedAccess.PolicySource
import ScopedAccess.Snapshot
import ScopedAccess.Store.RoleTables

namespace ScopedAccess

structure AuthorizerOptions where
  timeout : Duration
  orphans : OrphanPolicy
deriving DecidableEq, Repr

structure Instance where
  resourceType : String
  id : String
deriving DecidableEq, Repr

-- The version is that of the policy put in force last, and stays where a compilation fails.
structure Authorizer where
  store : Store
  source : PolicySource
  options : AuthorizerOptions
  snapshot : Option Snapshot
  version : Nat

namespace Authorizer

def start (store : Store) (source : PolicySource) (options : AuthorizerOptions) : Authorizer :=
  ⟨store, source, options, none, 0⟩

def current (a : Authorizer) : Except Failure Snapshot :=
  match a.snapshot with
  | some s => .ok s
  | none => .error .notConfigured

def refusal : PolicyFault → Failure
  | .schema fault => .schema fault
  | .implicationCycle path => .implicationCycle path

-- The snapshot is put in force only after the store has taken its roles.
def compileDeclarations (a : Authorizer) (d : Declarations) : Authorizer × Except Failure Snapshot :=
  match Snapshot.compile d (a.version + 1) with
  | .error fault => (a, .error (refusal fault))
  | .ok snapshot =>
    match a.store.transact (Transaction.replaceRoles snapshot.model a.options.orphans) with
    | (.error failure, store) => ({ a with store }, .error failure)
    | (.ok _, store) => ({ a with store, snapshot := some snapshot, version := snapshot.version }, .ok snapshot)

def compile (a : Authorizer) : Authorizer × Except Failure Snapshot :=
  match a.source.load with
  | .error failure => (a, .error failure)
  | .ok d => a.compileDeclarations d

-- Nothing can be found in no time at all. Other deadlines are not missed here.
def run (a : Authorizer) (deadline : Option Duration) (statement : Query.Statement) : Except Failure (List Row) :=
  let limit := deadline.getD a.options.timeout
  if limit.isZero then .error (.deadlineExceeded limit) else (a.store.query statement).mapError .store

def requireType (s : Snapshot) (resourceType : String) : Except Failure Unit :=
  if s.model.resources.contains resourceType then .ok () else .error (.unknownResourceType resourceType)

def check (a : Authorizer) (user action : String) (i : Instance) (deadline : Option Duration) : Except Failure Bool := do
  let s ← a.current
  requireType s i.resourceType
  match (s.relevantRoles? i.resourceType action).map (·.toList) with
  | none => .ok false
  | some [] => .ok false
  | some roles =>
    let rows ← a.run deadline (AncestorWalk.pointCheck s.walk user i.resourceType i.id roles)
    .ok !rows.isEmpty

def idOfRow (row : Row) : Except StoreFault String := Store.textOf "resource_id" (row.getD 0 .null)

-- One id that cannot be read fails the whole.
def idsOf (rows : List Row) : Except Failure (OrderedSet String) :=
  ((rows.mapM idOfRow).mapError .store).map .ofList

def filter (a : Authorizer) (user action resourceType : String) (deadline : Option Duration) :
    Except Failure (OrderedSet String) := do
  let s ← a.current
  match s.tables.find? resourceType with
  | none => .error (.unknownResourceType resourceType)
  | some t =>
    match (s.relevantRoles? resourceType action).map (·.toList) with
    | none => .ok .empty
    | some [] => .ok .empty
    | some roles =>
      let rows ← a.run deadline (AncestorWalk.bulkFilter s.walk t user roles)
      idsOf rows

def approve (a : Authorizer) (x : Assignment) : Except Failure Unit := do
  let s ← a.current
  requireType s x.resourceType
  match s.model.roles.find? x.role with
  | none => .error (.unknownRole x.role)
  | some role =>
    if role.resourceType ≠ x.resourceType then .error (.roleMismatch x.role role.resourceType x.resourceType)
    else .ok ()

-- A statement by itself is a transaction.
def execute {α : Type} (a : Authorizer) (statement : Store → Except StoreFault (Store × α)) : Authorizer × Except Failure α :=
  match a.store.transact (Transaction.execute statement) with
  | (answer, store) => ({ a with store }, answer)

def assign (a : Authorizer) (x : Assignment) : Authorizer × Except Failure Bool :=
  match a.approve x with
  | .error failure => (a, .error failure)
  | .ok () => a.execute (·.insertAssignment x)

def revoke (a : Authorizer) (x : Assignment) : Authorizer × Except Failure Bool := a.execute (·.deleteAssignment x)

def assignmentsOf (a : Authorizer) (user : String) : Except Failure (List Assignment) :=
  (a.store.assignmentsOf user).mapError .store

def roleIndex (a : Authorizer) : Except Failure (List RoleSummary) := a.store.roleIndex.mapError .store

def instanceOfRow (row : Row) : Except StoreFault Instance := do
  let resourceType ← Store.textOf "resource_type" (row.getD 0 .null)
  let id ← Store.textOf "resource_id" (row.getD 1 .null)
  .ok ⟨resourceType, id⟩

def instancesOf (rows : List Row) : Except Failure (List Instance) := (rows.mapM instanceOfRow).mapError .store

def ancestors (a : Authorizer) (i : Instance) : Except Failure (List Instance) := do
  let s ← a.current
  requireType s i.resourceType
  let rows ← a.run none (AncestorWalk.chain s.walk i.resourceType i.id)
  instancesOf rows

end Authorizer

inductive Operation where
  | compile
  | compileDeclarations (d : Declarations)
  | snapshot
  | check (user action : String) (i : Instance) (deadline : Option Duration)
  | filter (user action resourceType : String) (deadline : Option Duration)
  | assign (a : Assignment)
  | revoke (a : Assignment)
  | list (user : String)
  | roles
  | ancestors (i : Instance)

inductive Answer where
  | compiled (s : Snapshot)
  | allowed (yes : Bool)
  | instances (ids : OrderedSet String)
  | assigned (new : Bool)
  | revoked (existed : Bool)
  | assignments (found : List Assignment)
  | roles (index : List RoleSummary)
  | chain (instances : List Instance)

namespace Authorizer

def answering {α : Type} (answer : α → Answer) (outcome : Authorizer × Except Failure α) : Authorizer × Except Failure Answer :=
  (outcome.1, outcome.2.map answer)

def perform (a : Authorizer) : Operation → Authorizer × Except Failure Answer
  | .compile => answering .compiled a.compile
  | .compileDeclarations d => answering .compiled (a.compileDeclarations d)
  | .snapshot => (a, a.current.map .compiled)
  | .check user action i deadline => (a, (a.check user action i deadline).map .allowed)
  | .filter user action resourceType deadline => (a, (a.filter user action resourceType deadline).map .instances)
  | .assign x => answering .assigned (a.assign x)
  | .revoke x => answering .revoked (a.revoke x)
  | .list user => (a, (a.assignmentsOf user).map .assignments)
  | .roles => (a, a.roleIndex.map .roles)
  | .ancestors i => (a, (a.ancestors i).map .chain)

end Authorizer

end ScopedAccess
