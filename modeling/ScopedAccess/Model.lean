import ScopedAccess.Declarations
import ScopedAccess.Identifier

namespace ScopedAccess

structure InstanceTable where
  resourceType : String
  table : String
  idColumn : String
deriving DecidableEq, Repr

structure Resource where
  instances : InstanceTable
  actions : OrderedSet String
  roles : OrderedSet String
deriving DecidableEq

structure Role where
  name : String
  resourceType : String
  permissions : List Permission
  implies : OrderedSet String
deriving DecidableEq

-- The parent of a child row is the parent row whose `references` equals the child row's `field`.
structure ParentLink where
  child : InstanceTable
  parent : InstanceTable
  field : String
  references : String
deriving DecidableEq, Repr

-- `links` is keyed by child type: a type has at most one parent type.
structure Model where
  resources : OrderedMap String Resource
  permissions : OrderedSet Permission
  roles : OrderedMap String Role
  links : OrderedMap String ParentLink

def firstRepeat {α : Type} [DecidableEq α] (seen : List α) : List α → Option α
  | [] => none
  | a :: rest => if a ∈ seen then some a else firstRepeat (a :: seen) rest

namespace Model

def declareResource (resources : OrderedMap String Resource) (d : ResourceDeclaration) :
    Except SchemaFault (OrderedMap String Resource) := do
  require (isTypeTag d.resourceType) (.invalidTypeTag d.resourceType)
  require (isIdentifier d.table) (.invalidIdentifier d.table d.resourceType)
  require (isIdentifier d.idColumn) (.invalidIdentifier d.idColumn d.resourceType)
  require (!resources.contains d.resourceType) (.duplicateResource d.resourceType)
  match firstRepeat [] d.actions.items with
  | some action => .error (.duplicateAction action d.resourceType)
  | none =>
    .ok (resources.insert d.resourceType
      { instances := ⟨d.resourceType, d.table, d.idColumn⟩
        actions := .ofList d.actions.items
        roles := .ofList (d.roles.items.map (·.name)) })

def resourcesOf (d : Declarations) : Except SchemaFault (OrderedMap String Resource) :=
  d.resources.foldlM declareResource .empty

-- A restricted type grants only its listed actions; any other type grants every action.
def resolveGrant (resources : OrderedMap String Resource) (restricts : String → Bool)
    (ownType role text : String) : Except SchemaFault Permission :=
  match Permission.parse? ownType text with
  | none => .error (.unreadableGrant text role)
  | some p =>
    match resources.find? p.resourceType with
    | none => .error (.grantOnUndeclaredType role text p.resourceType)
    | some target =>
      if restricts p.resourceType && !(p.action ∈ target.actions) then
        .error (.grantOfUndeclaredAction role p.action p.resourceType)
      else .ok p

def declareRole (resources : OrderedMap String Resource) (restricts : String → Bool)
    (roles : OrderedMap String Role) (d : String × RoleDeclaration) :
    Except SchemaFault (OrderedMap String Role) := do
  let ⟨resourceType, role⟩ := d
  require (!roles.contains role.name) (.duplicateRole role.name)
  let granted ← (role.permissions.getD []).mapM (resolveGrant resources restricts resourceType role.name)
  .ok (roles.insert role.name
    { name := role.name
      resourceType := resourceType
      permissions := granted.eraseDups
      implies := .ofList (role.implies.getD []) })

-- The first implication, by role and then by implied name, whose target is not declared.
def undeclaredImplication? (roles : OrderedMap String Role) : Option (String × String) :=
  roles.entries.findSome? fun (name, role) =>
    (role.implies.toList.find? fun implied => !roles.contains implied).map (name, ·)

def rolesOf (resources : OrderedMap String Resource) (d : Declarations) :
    Except SchemaFault (OrderedMap String Role) := do
  let roles ← d.roles.foldlM (declareRole resources d.restricts) .empty
  match undeclaredImplication? roles with
  | some (name, implied) => .error (.undeclaredImplication name implied)
  | none => .ok roles

-- Declared actions, and whatever some role grants on an unrestricted type.
def permissionsOf (resources : OrderedMap String Resource) (roles : OrderedMap String Role) :
    OrderedSet Permission :=
  .ofList (resources.entries.flatMap (fun (name, r) => r.actions.toList.map (⟨name, ·⟩)) ++
    roles.values.flatMap (·.permissions))

def declareLink (resources : OrderedMap String Resource) (links : OrderedMap String ParentLink)
    (d : LinkDeclaration) : Except SchemaFault (OrderedMap String ParentLink) := do
  match resources.find? d.child with
  | none => .error (.undeclaredLinkType d.child d.parent d.child)
  | some child =>
    match resources.find? d.parent with
    | none => .error (.undeclaredLinkType d.child d.parent d.parent)
    | some parent =>
      require (!links.contains d.child) (.secondParent d.child)
      require (isIdentifier d.field) (.invalidIdentifier d.field d.child)
      let references := d.references.getD parent.instances.idColumn
      require (isIdentifier references) (.invalidIdentifier references d.parent)
      .ok (links.insert d.child ⟨child.instances, parent.instances, d.field, references⟩)

-- The types passed from `current` upwards, given those already passed, up to and including the
-- first that repeats. A step leaves a type that has a link and was not passed before, so `budget`
-- steps are enough as soon as there are no more links than that.
def climb (links : OrderedMap String ParentLink) : Nat → List String → String → Option (List String)
  | 0, _, _ => none
  | budget + 1, passed, current =>
    match links.find? current with
    | none => none
    | some link =>
      let next := link.parent.resourceType
      if next ∈ passed then some (passed ++ [next]) else climb links budget (passed ++ [next]) next

def hierarchyCycle? (links : OrderedMap String ParentLink) : Option (List String) :=
  links.keys.findSome? fun start => climb links links.size [start] start

def linksOf (resources : OrderedMap String Resource) (d : Declarations) :
    Except SchemaFault (OrderedMap String ParentLink) := do
  let links ← d.links.foldlM (declareLink resources) .empty
  match hierarchyCycle? links with
  | some path => .error (.hierarchyCycle path)
  | none => .ok links

end Model

def Model.ofDeclarations (d : Declarations) : Except SchemaFault Model := do
  let resources ← Model.resourcesOf d
  let roles ← Model.rolesOf resources d
  let links ← Model.linksOf resources d
  .ok { resources, permissions := Model.permissionsOf resources roles, roles, links }

end ScopedAccess
