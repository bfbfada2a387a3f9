import ScopedAccess.Authorizer
import ScopedAccess.Http.Body

namespace ScopedAccess

namespace Http

inductive Payload where
  | boolean (b : Bool)
  | number (n : Nat)
  | text (s : String)
  | list (items : List Payload)
  | object (members : List (String × Payload))

inductive Content where
  | text (s : String)
  | payload (p : Payload)

-- `allow` lists the methods that the path takes when it does not take the one asked for.
structure Response where
  status : Nat
  allow : Option String
  content : Content

namespace Payload

def texts (items : List String) : Payload := list (items.map text)

def ofAssignment (a : Assignment) : Payload := object
  [("user_id", text a.user), ("resource_type", text a.resourceType), ("resource_id", text a.resourceId),
   ("role", text a.role)]

def ofRole (r : RoleSummary) : Payload := object
  [("name", text r.name), ("resource_type", text r.resourceType), ("permissions", texts r.permissions.toList),
   ("implies", texts r.implies.toList)]

def ofInstance (i : Instance) : Payload := object [("resource_type", text i.resourceType), ("resource_id", text i.id)]

def ofAnswer : Answer → Payload
  | .compiled s => object
    [("version", number s.version), ("resources", number s.model.resources.size), ("roles", number s.model.roles.size),
     ("permissions", number s.model.permissions.size), ("relationships", number s.model.links.size)]
  | .allowed yes => object [("allowed", boolean yes)]
  | .instances ids => object [("resource_ids", texts ids.toList)]
  | .assigned new => object [("created", boolean new)]
  | .revoked existed => object [("removed", boolean existed)]
  | .assignments found => object [("assignments", list (found.map ofAssignment))]
  | .roles index => object [("roles", list (index.map ofRole))]
  | .chain instances => object [("chain", list (instances.map ofInstance))]

end Payload

namespace Response

def plain (status : Nat) (text : String) : Response := ⟨status, none, .text text⟩

def ofAnswer (answer : Answer) : Response :=
  let status := match answer with
    | .assigned true => 201
    | _ => 200
  ⟨status, none, .payload (.ofAnswer answer)⟩

def ofFailure (f : Failure) : Response :=
  let d := f.diagnostic
  ⟨d.kind.status?.getD 500, none, .payload (.object [("error", .text d.message)])⟩

def ofResult : Except Failure Answer → Response
  | .ok answer => ofAnswer answer
  | .error f => ofFailure f

def withoutContent (r : Response) : Response := { r with content := .text "" }

end Response

structure Request where
  method : String
  path : String
  contentType : Option String
  body : String
deriving DecidableEq, Repr

def isSchemeChar (c : Char) : Bool := c.isAlphanum || c = '+' || c = '-' || c = '.'

def endsPath (c : Char) : Bool := c = '?' || c = '#'

-- A target may name a scheme and a host in front of the path.
def withoutHost (target : List Char) : List Char :=
  match target.dropWhile isSchemeChar with
  | ':' :: '/' :: '/' :: located => located.dropWhile fun c => c ≠ '/' && !endsPath c
  | _ => target

def Request.segments (r : Request) : List String :=
  (((withoutHost r.path.toList).takeWhile (!endsPath ·)).splitOn '/').map String.ofList

-- Parameters are segments of the path, as written. The last segment of a path is not empty.
inductive Endpoint where
  | check
  | filter
  | assignments
  | assignmentsOf (user : String)
  | compile
  | roles
  | ancestors (resourceType id : String)
  | health
deriving DecidableEq, Repr

namespace Endpoint

def ofSegments? : List String → Option Endpoint
  | ["", "v1", "check"] => some check
  | ["", "v1", "filter"] => some filter
  | ["", "v1", "assignments"] => some assignments
  | ["", "v1", "assignments", user] => if user.isEmpty then none else some (assignmentsOf user)
  | ["", "v1", "compile"] => some compile
  | ["", "v1", "roles"] => some roles
  | ["", "v1", "ancestors", resourceType, id] =>
    if id.isEmpty then none else some (ancestors resourceType id)
  | ["", "healthz"] => some health
  | _ => none

-- What can be read can also be asked for without its content.
def methods : Endpoint → List String
  | check => ["POST"]
  | filter => ["POST"]
  | compile => ["POST"]
  | assignments => ["POST", "DELETE"]
  | _ => ["GET", "HEAD"]

end Endpoint

def checkShape : List (String × FieldKind) :=
  [("user_id", .text), ("action", .text), ("resource_type", .text), ("resource_id", .text), ("timeout_ms", .count)]

def filterShape : List (String × FieldKind) :=
  [("user_id", .text), ("action", .text), ("resource_type", .text), ("timeout_ms", .count)]

def assignmentShape : List (String × FieldKind) :=
  [("user_id", .text), ("resource_type", .text), ("resource_id", .text), ("role", .text)]

def deadline (fields : Fields) : Option Duration := (fields.count? "timeout_ms").map Duration.ofMillis

def checkOf (fields : Fields) : Option Operation := do
  let user ← fields.text? "user_id"
  let action ← fields.text? "action"
  let resourceType ← fields.text? "resource_type"
  let id ← fields.text? "resource_id"
  some (.check user action ⟨resourceType, id⟩ (deadline fields))

def filterOf (fields : Fields) : Option Operation := do
  let user ← fields.text? "user_id"
  let action ← fields.text? "action"
  let resourceType ← fields.text? "resource_type"
  some (.filter user action resourceType (deadline fields))

def assignmentOf (fields : Fields) : Option Assignment := do
  let user ← fields.text? "user_id"
  let resourceType ← fields.text? "resource_type"
  let resourceId ← fields.text? "resource_id"
  let role ← fields.text? "role"
  some { user, resourceType, resourceId, role }

namespace BodyFault

def response : BodyFault → Response
  | malformed => .plain 400 "Failed to parse the request body as JSON"
  | mismatched => .plain 422 "Failed to deserialize the JSON body into the target type"

end BodyFault

namespace Request

def isJson (r : Request) : Bool := ((r.contentType.bind MediaType.parse?).map MediaType.isJson).getD false

def readBody {α : Type} (r : Request) (shape : List (String × FieldKind)) (ofFields : Fields → Option α) :
    Except Response α :=
  if r.isJson then (Body.read shape ofFields r.body).mapError BodyFault.response
  else .error (.plain 415 "Expected request with `Content-Type: application/json`")

end Request

def parameter (name segment : String) : Except Response String :=
  match PercentEncoding.decode? segment with
  | some text => .ok text
  | none => .error (.plain 400 ("Invalid URL: Invalid UTF-8 in `" ++ name ++ "`"))

def operation (r : Request) : Endpoint → Except Response Operation
  | .check => r.readBody checkShape checkOf
  | .filter => r.readBody filterShape filterOf
  | .assignments =>
    (r.readBody assignmentShape assignmentOf).map fun a => if r.method = "POST" then .assign a else .revoke a
  | .assignmentsOf user => (parameter "user_id" user).map .list
  | .compile => .ok .compile
  | .roles => .ok .roles
  | .ancestors resourceType id => do
    let resourceType ← parameter "resource_type" resourceType
    let id ← parameter "resource_id" id
    .ok (.ancestors ⟨resourceType, id⟩)
  | .health => .error (.plain 200 "ok")

def respond (a : Authorizer) (r : Request) (endpoint : Endpoint) : Authorizer × Response :=
  match operation r endpoint with
  | .error response => (a, response)
  | .ok operation =>
    let (next, result) := a.perform operation
    (next, .ofResult result)

def serve (a : Authorizer) (r : Request) : Authorizer × Response :=
  match Endpoint.ofSegments? r.segments with
  | none => (a, .plain 404 "")
  | some endpoint =>
    if r.method ∈ endpoint.methods then
      let (next, response) := respond a r endpoint
      (next, if r.method = "HEAD" then response.withoutContent else response)
    else (a, ⟨405, some (",".intercalate endpoint.methods), .text ""⟩)

end Http

end ScopedAccess
