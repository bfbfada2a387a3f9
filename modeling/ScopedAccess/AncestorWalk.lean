import ScopedAccess.Model
import ScopedAccess.Query.Statement

namespace ScopedAccess

-- What the walk takes along of a link, and what a filter takes along of a resource type.
structure WalkStep where
  childType : String
  parentType : String
  childTable : String
  childId : String
  parentTable : String
  parentId : String
  field : String
  references : String
deriving DecidableEq, Repr

structure FilterTarget where
  resourceType : String
  table : String
  idColumn : String
deriving DecidableEq, Repr

def WalkStep.ofLink (l : ParentLink) : WalkStep :=
  { childType := l.child.resourceType
    parentType := l.parent.resourceType
    childTable := l.child.table
    childId := l.child.idColumn
    parentTable := l.parent.table
    parentId := l.parent.idColumn
    field := l.field
    references := l.references }

def WalkStep.link (s : WalkStep) : ParentLink :=
  ⟨⟨s.childType, s.childTable, s.childId⟩, ⟨s.parentType, s.parentTable, s.parentId⟩, s.field, s.references⟩

-- Nothing of a link is lost.
theorem WalkStep.link_ofLink (l : ParentLink) : (WalkStep.ofLink l).link = l := rfl

def FilterTarget.ofResource (r : Resource) : FilterTarget := ⟨r.instances.resourceType, r.instances.table, r.instances.idColumn⟩

namespace AncestorWalk

open Query

def stepsOf (links : List ParentLink) : List WalkStep := links.map .ofLink

instance : Coe (List ParentLink) (List WalkStep) := ⟨stepsOf⟩

instance : Coe (List WalkStep) (List ParentLink) := ⟨List.map WalkStep.link⟩

def name : String := "walk"
def assignments : Source := ⟨"user_roles", some "ur"⟩

def origin : Term := .column name "origin"
def resourceId : Term := .column name "resource_id"
def resourceType : Term := .column name "resource_type"
def depth : Term := .column name "depth"

def assigned (column : String) : Term := .column assignments.label column

def bindText (s : String) : Term := .bound (.text s)

-- Where a walk starts: at one instance, which need not exist, or at every instance of a table.
def startAt (type id : String) : Select :=
  { outputs := [.term (.asText (bindText id)), .term (.asText (bindText id)), .term (.asText (bindText type)),
      .term (.bound (.number 0))] }

def startAll (t : FilterTarget) : Select :=
  let id : Term := .asText (.column "r" t.idColumn)
  { outputs := [.term id, .term id, .term (.asText (bindText t.resourceType)), .term (.bound (.number 0))]
    source := some ⟨t.table, some "r"⟩ }

def isChild (s : WalkStep) : Condition := .equal resourceType (bindText s.childType)

def parentLookup (s : WalkStep) : Lookup :=
  { value := .asText (.column "p" s.parentId)
    source := ⟨s.childTable, some "c"⟩
    join := ⟨⟨s.parentTable, some "p"⟩, [.equal (.column "c" s.field) (.column "p" s.references)]⟩
    condition := .equal (.asText (.column "c" s.childId)) resourceId }

def step (steps : List WalkStep) : Select :=
  { outputs :=
      [.term origin,
       .dispatch (steps.map fun s => (isChild s, .lookup (parentLookup s))),
       .dispatch (steps.map fun s => (isChild s, .term (.asText (bindText s.parentType)))),
       .term (.sum depth (.bound (.number 1)))]
    source := some ⟨name, none⟩
    conditions := [.present resourceId, .among resourceType (steps.map fun s => .text s.childType)] }

-- Without a link there is nothing to step along. A walk passes each link at most once.
def walk (steps : List WalkStep) (start : Select) : Walk :=
  { name
    columns := ["origin", "resource_id", "resource_type", "depth"]
    start
    step := if steps.isEmpty then none else some (step steps)
    rounds := steps.length }

def matching (user : String) (roles : List String) (s : Select) : Select :=
  { s with
    source := some assignments
    join := some ⟨⟨name, none⟩,
      [.equal (assigned "resource_type") resourceType, .equal (assigned "resource_id") resourceId]⟩
    conditions := [.equal (assigned "user_id") (bindText user), .among (assigned "role") (roles.map .text)] }

-- An instance and its ancestors, nearest first.
def chain (steps : List WalkStep) (type id : String) : Statement :=
  { walk := walk steps (startAt type id)
    body :=
      { outputs := [.named resourceType "resource_type", .named resourceId "resource_id"]
        source := some ⟨name, none⟩
        conditions := [.present resourceId]
        order := some depth } }

-- A row exactly if the user holds one of `roles` on the instance or an ancestor.
def pointCheck (steps : List WalkStep) (user type id : String) (roles : List String) : Statement :=
  { walk := walk steps (startAt type id)
    body := matching user roles { outputs := [.named (assigned "role") "role"], limit := some 1 } }

def bulkFilter (steps : List WalkStep) (t : FilterTarget) (user : String) (roles : List String) : Statement :=
  { walk := walk steps (startAll t)
    body := matching user roles
      { distinct := true, outputs := [.named origin "resource_id"], order := some origin } }

end AncestorWalk

end ScopedAccess
