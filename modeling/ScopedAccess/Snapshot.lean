import ScopedAccess.AncestorWalk

namespace ScopedAccess

section

variable {α : Type} [DecidableEq α]

def among (targets nodes : List α) : List α := nodes.filter (· ∈ targets)

def outside (targets nodes : List α) : List α := nodes.filter (· ∉ targets)

-- `unseen` holds the nodes not reached yet. A step takes one node off the frontier and moves the
-- unseen nodes it leads to onto it, so twice the unseen plus the frontier shrinks.
def reach (next : α → List α) (unseen frontier : List α) : List α :=
  match frontier with
  | [] => []
  | node :: rest =>
    let found := among (next node) unseen
    found ++ reach next (outside (next node) unseen) (rest ++ found)
termination_by 2 * unseen.length + frontier.length
decreasing_by
  have parts : unseen.length = (among (next node) unseen).length + (outside (next node) unseen).length := by
    simpa only [List.countP_eq_length_filter, among, outside, decide_not, Bool.decide_eq_true] using
      List.length_eq_countP_add_countP (· ∈ next node)
  simp only [List.length_append, List.length_cons]
  omega

end

inductive ImplicationFault where
  | undeclared (role implied : String)
  | cycle (path : List String)
deriving DecidableEq, Repr

namespace ImplicationGraph

def impliedBy (roles : OrderedMap String Role) (role : String) : List String :=
  ((roles.find? role).map (·.implies.toList)).getD []

-- The roles that imply a role, and those that grant a permission, each list in the order of the names.
def implyingRoles (roles : OrderedMap String Role) : OrderedMap String (List String) :=
  .gather (roles.entries.flatMap fun e => e.2.implies.toList.map (·, e.1))

def grantingRoles (roles : OrderedMap String Role) : OrderedMap Permission (List String) :=
  .gather (roles.entries.flatMap fun e => e.2.permissions.map (·, e.1))

def implying (roles : OrderedMap String Role) (role : String) : List String := ((implyingRoles roles).find? role).getD []

def granting (roles : OrderedMap String Role) (p : Permission) : List String :=
  (((grantingRoles roles).find? p).getD []).eraseDups

def undeclared? (roles : OrderedMap String Role) : Option (String × String) :=
  roles.entries.findSome? fun (name, role) =>
    (role.implies.toList.find? fun implied => !roles.contains implied).map (name, ·)

-- Depth-first search from `name`. `path` leads from the root of the search to `name`, and `visited`
-- holds the roles entered so far; a role met on the path closes a cycle. The path repeats no role,
-- so `depth` need not exceed the number of roles.
def search (roles : OrderedMap String Role) :
    Nat → List String → List String → String → Except (List String) (List String)
  | 0, _, visited, _ => .ok visited
  | depth + 1, path, visited, name =>
    let here := path ++ [name]
    (impliedBy roles name).foldlM (fun visited implied =>
      if implied ∈ here then .error (here.dropWhile (· ≠ implied) ++ [implied])
      else if implied ∈ visited then .ok visited
      else search roles depth here visited implied) (name :: visited)

def cycle? (roles : OrderedMap String Role) : Option (List String) :=
  match roles.keys.foldlM (fun visited name =>
      if name ∈ visited then .ok visited else search roles roles.size [] visited name) [] with
  | .error path => some path
  | .ok _ => none

end ImplicationGraph

structure ImplicationGraph where
  roles : OrderedMap String Role
  declared : ImplicationGraph.undeclared? roles = none
  acyclic : ImplicationGraph.cycle? roles = none

namespace ImplicationGraph

def ofRoles (roles : OrderedMap String Role) : Except ImplicationFault ImplicationGraph :=
  match declared : undeclared? roles with
  | some (role, implied) => .error (.undeclared role implied)
  | none =>
    match acyclic : cycle? roles with
    | some path => .error (.cycle path)
    | none => .ok ⟨roles, declared, acyclic⟩

def relevantRoles (g : ImplicationGraph) (p : Permission) : OrderedSet String :=
  let direct := granting g.roles p
  .ofList (direct ++ reach (implying g.roles) (g.roles.keys.filter (· ∉ direct)) direct)

def impliedClosure (g : ImplicationGraph) (role : String) : OrderedSet String :=
  .ofList (reach (impliedBy g.roles) g.roles.keys [role])

def permissionIndex (g : ImplicationGraph) (permissions : List Permission) :
    OrderedMap Permission (OrderedSet String) :=
  .ofList (permissions.map fun p => (p, g.relevantRoles p))

end ImplicationGraph

inductive PolicyFault where
  | schema (fault : SchemaFault)
  | implicationCycle (path : List String)
deriving DecidableEq, Repr

-- Never changed once made; a later compilation makes a new one with a higher version.
structure Snapshot where
  version : Nat
  model : Model
  relevant : OrderedMap Permission (OrderedSet String)
  walk : List WalkStep
  tables : OrderedMap String FilterTarget

namespace Snapshot

def graphOf (model : Model) : Except PolicyFault ImplicationGraph :=
  match ImplicationGraph.ofRoles model.roles with
  | .ok graph => .ok graph
  | .error (.undeclared role implied) => .error (.schema (.undeclaredImplication role implied))
  | .error (.cycle path) => .error (.implicationCycle path)

def compile (d : Declarations) (version : Nat) : Except PolicyFault Snapshot := do
  let model ← (Model.ofDeclarations d).mapError .schema
  let graph ← graphOf model
  .ok { version
        model
        relevant := graph.permissionIndex model.permissions.toList
        walk := AncestorWalk.stepsOf model.links.values
        tables := model.resources.map .ofResource }

def relevantRoles? (s : Snapshot) (resourceType action : String) : Option (OrderedSet String) :=
  s.relevant.find? ⟨resourceType, action⟩

end Snapshot

end ScopedAccess
