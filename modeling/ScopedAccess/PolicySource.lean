import ScopedAccess.Failure
import ScopedAccess.FileTree
import ScopedAccess.Kdl.Reader
import ScopedAccess.Model

namespace ScopedAccess

section

open Kdl (Node)

namespace PolicyDocument

-- A list is written as children named `-`; those whose first argument is not text do not count.
def dashes (n : Node) : List String := ((n.children.getD []).filter (·.name = "-")).filterMap Node.label?

def required {α : Type} (value : Option α) (fault : SchemaFault) : Except SchemaFault α :=
  match value with
  | some v => .ok v
  | none => .error fault

-- A later list of the same kind replaces an earlier one.
def readRoleChild (role : RoleDeclaration) (child : Node) : Except SchemaFault RoleDeclaration :=
  match child.name with
  | "permissions" => .ok { role with permissions := some (dashes child) }
  | "implies" => .ok { role with implies := some (dashes child) }
  | other => .error (.strayRoleChild role.name other)

def readRole (resourceType : String) (n : Node) : Except SchemaFault RoleDeclaration := do
  require (n.name = "role") (.strayRolesChild n.name resourceType)
  let name ← required n.label? (.unnamedRole resourceType)
  let role ← (n.children.getD []).foldlM readRoleChild ⟨name, none, none⟩
  require (!((role.permissions.getD []).isEmpty && (role.implies.getD []).isEmpty)) (.idleRole name)
  .ok role

def readResourceChild (r : ResourceDeclaration) (child : Node) : Except SchemaFault ResourceDeclaration :=
  match child.name with
  | "actions" =>
    match firstRepeat [] (dashes child) with
    | some action => .error (.duplicateAction action r.resourceType)
    | none => .ok { r with actions := .only (dashes child) }
  | "roles" => do
    let roles ← (child.children.getD []).mapM (readRole r.resourceType)
    .ok { r with roles := .only roles }
  | other => .error (.strayResourceChild other r.resourceType)

def readResource (n : Node) : Except SchemaFault ResourceDeclaration := do
  let resourceType ← required n.label? .unnamedResource
  let table ← required (n.textProperty? "table") (.missingTable resourceType)
  (n.children.getD []).foldlM readResourceChild
    { resourceType, table, idColumn := (n.textProperty? "id").getD "id", actions := .unrestricted, roles := .unrestricted }

def readLink (n : Node) : Except SchemaFault LinkDeclaration := do
  let child ← required (n.textProperty? "child") (.missingLinkProperty "child")
  let parent ← required (n.textProperty? "parent") (.missingLinkProperty "parent")
  let field ← required (n.textProperty? "field") (.missingLinkProperty "field")
  .ok { child, parent, field, references := n.textProperty? "references" }

def readNode (d : Declarations) (n : Node) : Except SchemaFault Declarations :=
  match n.name with
  | "resource" => do
    let r ← readResource n
    .ok { d with resources := d.resources ++ [r] }
  | "relationship" => do
    let l ← readLink n
    .ok { d with links := d.links ++ [l] }
  | _ => .ok d

end PolicyDocument

def Declarations.ofDocument (nodes : List Node) : Except SchemaFault Declarations :=
  nodes.foldlM PolicyDocument.readNode .empty

end

structure PolicyFolder where
  path : String
  content : Option FileTree

inductive PolicySource where
  | declared (d : Declarations)
  | document (text : String)
  | folder (f : PolicyFolder)

namespace PolicySource

def readDocument (text : String) : Except Failure Declarations :=
  match Kdl.parse? text with
  | none => .error .malformedDocument
  | some nodes => (Declarations.ofDocument nodes).mapError .schema

-- The text after the last point of a name; a point in front of everything else starts no extension.
def extension? (name : String) : Option String :=
  match splitAtLast '.' name.toList with
  | some (_ :: _, after) => some (String.ofList after)
  | _ => none

def readFile (folder : String) (d : Declarations) (file : String × FileTree) : Except Failure Declarations :=
  let path := FilePath.entry folder file.1
  match file.2 with
  | .folder _ => .error (.unreadablePolicy path "Is a directory (os error 21)")
  | .file bytes =>
    match String.fromUTF8? bytes with
    | none => .error (.unreadablePolicy path "stream did not contain valid UTF-8")
    | some text => do
      let e ← readDocument text
      .ok (d ++ e)

def readFolder (f : PolicyFolder) : Except Failure Declarations :=
  match f.content with
  | some (.folder entries) =>
    let documents := OrderedMap.ofList (entries.filter fun e => extension? e.1 = some "kdl")
    documents.entries.foldlM (readFile f.path) .empty
  | _ => .error (.schema (.missingDirectory f.path))

def load : PolicySource → Except Failure Declarations
  | declared d => .ok d
  | document text => readDocument text
  | folder f => readFolder f

end PolicySource

end ScopedAccess
