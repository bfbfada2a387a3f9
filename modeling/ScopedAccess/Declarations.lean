import ScopedAccess.Ordered
import ScopedAccess.Utf8

namespace ScopedAccess

structure Permission where
  resourceType : String
  action : String
deriving DecidableEq, Repr

namespace Permission

def describe (p : Permission) : String := p.resourceType ++ ":" ++ p.action

instance : LT Permission :=
  ⟨fun p q => p.resourceType < q.resourceType ∨ p.resourceType = q.resourceType ∧ p.action < q.action⟩

instance : DecidableLT Permission := fun p q =>
  inferInstanceAs (Decidable (p.resourceType < q.resourceType ∨ p.resourceType = q.resourceType ∧ p.action < q.action))

instance : Key Permission where
  decEq := inferInstance
  decLt := inferInstance
  irrefl p below := below.elim (String.lt_irrefl _) fun later => String.lt_irrefl _ later.2
  trans {p q r} left right := by
    rcases left with byType | ⟨sameType, byAction⟩
    · rcases right with byType' | ⟨sameType', _⟩
      · exact .inl (String.lt_trans byType byType')
      · exact .inl (sameType' ▸ byType)
    · rcases right with byType' | ⟨sameType', byAction'⟩
      · exact .inl (sameType ▸ byType')
      · exact .inr ⟨sameType.trans sameType', String.lt_trans byAction byAction'⟩
  connected {p q} different := by
    by_cases sameType : p.resourceType = q.resourceType
    · have actions : p.action ≠ q.action := fun same => different (by cases p; cases q; simp_all)
      rcases Key.connected actions with below | above
      · exact .inl (.inr ⟨sameType, below⟩)
      · exact .inr (.inr ⟨sameType.symm, above⟩)
    · rcases Key.connected sameType with below | above
      · exact .inl (.inl below)
      · exact .inr (.inl above)

-- A bare action names the reader's own type. Neither part may be empty.
def parse? (ownType text : String) : Option Permission :=
  let parts := match splitAtLast ':' text.toList with
    | some (before, after) => (String.ofList before, String.ofList after)
    | none => (ownType, text)
  if parts.1.isEmpty || parts.2.isEmpty then none else some ⟨parts.1, parts.2⟩

end Permission

-- `unrestricted` leaves the set open; `only []` closes it to nothing.
inductive Listing (α : Type) where
  | unrestricted
  | only (items : List α)
deriving DecidableEq, Repr

namespace Listing

def items {α : Type} : Listing α → List α
  | unrestricted => []
  | only items => items

def isClosed {α : Type} : Listing α → Bool
  | unrestricted => false
  | only _ => true

end Listing

-- A permission is written `action` for the role's own type or `Type:action` for another.
structure RoleDeclaration where
  name : String
  permissions : Option (List String)
  implies : Option (List String)
deriving DecidableEq, Repr

structure ResourceDeclaration where
  resourceType : String
  table : String
  idColumn : String
  actions : Listing String
  roles : Listing RoleDeclaration
deriving DecidableEq, Repr

-- Without `references` the field holds the parent's id.
structure LinkDeclaration where
  child : String
  parent : String
  field : String
  references : Option String
deriving DecidableEq, Repr

structure Declarations where
  resources : List ResourceDeclaration
  links : List LinkDeclaration
deriving DecidableEq, Repr

namespace Declarations

def empty : Declarations := ⟨[], []⟩

def append (d e : Declarations) : Declarations := ⟨d.resources ++ e.resources, d.links ++ e.links⟩

instance : Append Declarations := ⟨append⟩

def roles (d : Declarations) : List (String × RoleDeclaration) :=
  d.resources.flatMap fun r => r.roles.items.map (r.resourceType, ·)

-- A type is restricted when its actions are listed, even as an empty list.
def restricts (d : Declarations) (resourceType : String) : Bool :=
  d.resources.any fun r => r.resourceType = resourceType && r.actions.isClosed

end Declarations

inductive SchemaFault where
  | unnamedResource
  | missingTable (resourceType : String)
  | strayResourceChild (child resourceType : String)
  | strayRolesChild (child resourceType : String)
  | unnamedRole (resourceType : String)
  | strayRoleChild (role child : String)
  | idleRole (role : String)
  | missingLinkProperty (key : String)
  | missingDirectory (path : String)
  | invalidTypeTag (tag : String)
  | invalidIdentifier (name context : String)
  | duplicateResource (resourceType : String)
  | duplicateAction (action resourceType : String)
  | duplicateRole (role : String)
  | unreadableGrant (text role : String)
  | grantOnUndeclaredType (role text resourceType : String)
  | grantOfUndeclaredAction (role action resourceType : String)
  | undeclaredImplication (role implied : String)
  | undeclaredLinkType (child parent missing : String)
  | secondParent (child : String)
  | hierarchyCycle (path : List String)
  | unknownGrant (role : String) (permission : Permission)
  -- reported in its own words by whoever supplied the policy
  | reported (text : String)
deriving DecidableEq, Repr

namespace SchemaFault

def quoted (name : String) : String := "`" ++ name ++ "`"

def message : SchemaFault → String
  | unnamedResource => "resource node requires a string argument (e.g. resource \"Repo\" table=\"repos\")"
  | missingTable t => "resource " ++ quoted t ++ " missing `table` property"
  | strayResourceChild c t => "unexpected child " ++ quoted c ++ " in resource " ++ quoted t ++ " (expected `actions` or `roles`)"
  | strayRolesChild c t => "unexpected child " ++ quoted c ++ " in roles of " ++ quoted t ++ " (expected `role`)"
  | unnamedRole t => "role in " ++ quoted t ++ " requires a name (e.g. role \"owner\")"
  | strayRoleChild r c => "role definition " ++ quoted r ++ " contains invalid key " ++ quoted c
  | idleRole r => "role " ++ quoted r ++ " must define permissions or implications"
  | missingLinkProperty k =>
    "relationship missing " ++ quoted k ++ " property (e.g. relationship child=\"Repo\" parent=\"Org\" field=\"org_id\")"
  | missingDirectory p => "policies directory " ++ quoted p ++ " does not exist or is not a directory"
  | invalidTypeTag t => "invalid resource type name " ++ quoted t
  | invalidIdentifier n c => quoted n ++ " in " ++ quoted c ++ " is not a valid table or column name"
  | duplicateResource t => "duplicate resource type " ++ quoted t
  | duplicateAction a t => "duplicate action " ++ quoted a ++ " for " ++ quoted t
  | duplicateRole r => "duplicate role name " ++ quoted r
  | unreadableGrant text r =>
    "invalid permission " ++ quoted text ++ " in role " ++ quoted r ++ " (expected \"action\" or \"Type:action\")"
  | grantOnUndeclaredType r text t =>
    "role " ++ quoted r ++ " grants " ++ quoted text ++ " on undeclared resource type " ++ quoted t
  | grantOfUndeclaredAction r a t => "role " ++ quoted r ++ " grants undeclared action " ++ quoted a ++ " on " ++ quoted t
  | undeclaredImplication r i => "role " ++ quoted r ++ " implies undeclared role " ++ quoted i
  | undeclaredLinkType c p missing =>
    "relationship " ++ quoted c ++ " -> " ++ quoted p ++ " references undeclared resource type " ++ quoted missing
  | secondParent c => "ambiguous hierarchy: resource type " ++ quoted c ++ " declares more than one parent"
  | hierarchyCycle path => "resource hierarchy cycle: " ++ " -> ".intercalate path
  | unknownGrant r p => "role " ++ quoted r ++ " grants unknown permission " ++ quoted p.describe
  | reported text => text

end SchemaFault

def require {ε : Type} (holds : Bool) (fault : ε) : Except ε Unit := if holds then .ok () else .error fault

end ScopedAccess
