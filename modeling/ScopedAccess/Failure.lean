import ScopedAccess.Declarations

namespace ScopedAccess

structure Duration where
  nanos : Nat
deriving DecidableEq, Repr

namespace Duration

def ofMillis (n : Nat) : Duration := ⟨n * 1000000⟩

def isZero (d : Duration) : Bool := d.nanos = 0

-- `n / unit` in decimals, where `unit` is the power of ten with `places` zeros.
def inUnits (n unit places : Nat) : String :=
  let digits := (Nat.toDigits 10 (n % unit))
  let padded := List.replicate (places - digits.length) '0' ++ digits
  let fraction := (padded.reverse.dropWhile (· = '0')).reverse
  toString (n / unit) ++ (if n % unit = 0 then "" else String.ofList ('.' :: fraction))

def describe (d : Duration) : String :=
  if d.nanos ≥ 1000000000 then inUnits d.nanos 1000000000 9 ++ "s"
  else if d.nanos ≥ 1000000 then inUnits d.nanos 1000000 6 ++ "ms"
  else if d.nanos ≥ 1000 then inUnits d.nanos 1000 3 ++ "µs"
  else toString d.nanos ++ "ns"

end Duration

inductive ErrorKind where
  | unreadablePolicy
  | malformedDocument
  | policySchema
  | implicationCycle
  | orphanedAssignments
  | notConfigured
  | unknownResourceType
  | unknownRole
  | roleMismatch
  | backingStore
  | deadlineExceeded
  | inputOutput
  | serviceInputOutput
  | serviceConfiguration
  | serviceDatabase
deriving DecidableEq, Repr

namespace ErrorKind

def code : ErrorKind → String
  | unreadablePolicy => "arbor::authz::policy_load"
  | malformedDocument => "arbor::authz::kdl_parse"
  | policySchema => "arbor::authz::policy_schema"
  | implicationCycle => "arbor::authz::implication_cycle"
  | orphanedAssignments => "arbor::authz::orphaned_assignments"
  | notConfigured => "arbor::authz::not_configured"
  | unknownResourceType => "arbor::authz::unknown_resource_type"
  | unknownRole => "arbor::authz::unknown_role"
  | roleMismatch => "arbor::authz::role_mismatch"
  | backingStore => "arbor::authz::backing_store"
  | deadlineExceeded => "arbor::authz::deadline_exceeded"
  | inputOutput => "arbor::authz::io"
  | serviceInputOutput => "arbor::io"
  | serviceConfiguration => "arbor::config"
  | serviceDatabase => "arbor::db"

def help? : ErrorKind → Option String
  | unreadablePolicy => some "Check that the file exists and contains valid KDL syntax"
  | malformedDocument => some "Check your KDL file syntax (see https://kdl.dev)"
  | policySchema =>
    some "Policy files may contain `resource` and `relationship` nodes; every role, resource type and relationship they reference must be declared"
  | implicationCycle => some "Check the `implies` lists in your role definitions for circular references"
  | orphanedAssignments =>
    some "Revoke the listed assignments first, or set `authz.orphaned_assignments = \"prune\"` to delete them during compilation"
  | notConfigured => some "Call `compile` (or POST /v1/compile) before checking permissions"
  | deadlineExceeded => some "The query is safe to retry; consider raising `authz.query_timeout_ms`"
  | _ => none

-- The requester can mend what is answered with 400. Service errors are never answered.
def status? : ErrorKind → Option Nat
  | malformedDocument => some 400
  | policySchema => some 400
  | implicationCycle => some 400
  | orphanedAssignments => some 400
  | unknownResourceType => some 400
  | unknownRole => some 400
  | roleMismatch => some 400
  | notConfigured => some 503
  | deadlineExceeded => some 504
  | unreadablePolicy => some 500
  | backingStore => some 500
  | inputOutput => some 500
  | serviceInputOutput => none
  | serviceConfiguration => none
  | serviceDatabase => none

end ErrorKind

structure Diagnostic where
  kind : ErrorKind
  message : String
  cause : Option String
deriving DecidableEq, Repr

namespace Diagnostic

def unreadablePolicy (path cause : String) : Diagnostic :=
  ⟨.unreadablePolicy, "Failed to load policy file `" ++ path ++ "`", some cause⟩

def malformedDocument (detail : String) : Diagnostic := ⟨.malformedDocument, "KDL parse error: " ++ detail, none⟩

def policySchema (detail : String) : Diagnostic := ⟨.policySchema, "Invalid policy schema: " ++ detail, none⟩

def implicationCycle (detail : String) : Diagnostic :=
  ⟨.implicationCycle, "Cyclic role implication detected: " ++ detail, none⟩

def orphanedAssignments (detail : String) : Diagnostic :=
  ⟨.orphanedAssignments, "Role assignments reference roles missing from the new policy: " ++ detail, none⟩

def notConfigured : Diagnostic := ⟨.notConfigured, "Authorization policy has not been compiled yet", none⟩

def unknownResourceType (name : String) : Diagnostic :=
  ⟨.unknownResourceType, "Undefined resource type `" ++ name ++ "`", none⟩

def unknownRole (name : String) : Diagnostic := ⟨.unknownRole, "Undefined role `" ++ name ++ "`", none⟩

def roleMismatch (role roleType resourceType : String) : Diagnostic :=
  ⟨.roleMismatch,
    "Role `" ++ role ++ "` is declared on `" ++ roleType ++ "` and cannot be assigned on `" ++ resourceType ++ "`", none⟩

def backingStore (cause : String) : Diagnostic := ⟨.backingStore, "Backing store error: " ++ cause, some cause⟩

def deadlineExceeded (limit : Duration) : Diagnostic :=
  ⟨.deadlineExceeded, "Authorization query exceeded its deadline of " ++ limit.describe, none⟩

def inputOutput (cause : String) : Diagnostic := ⟨.inputOutput, "I/O error: " ++ cause, some cause⟩

def serviceInputOutput (cause : String) : Diagnostic := ⟨.serviceInputOutput, "I/O error: " ++ cause, some cause⟩

def serviceConfiguration (cause : String) : Diagnostic :=
  ⟨.serviceConfiguration, "Config error: " ++ cause, some cause⟩

def serviceDatabase (cause : String) : Diagnostic := ⟨.serviceDatabase, "Database error: " ++ cause, some cause⟩

end Diagnostic

-- What the database refuses. `qualifier` is the name a query gives to the table it reads.
inductive DatabaseFault where
  | unexpected (token : String)
  | missingTable (table : String)
  | missingColumn (qualifier column : String)
  -- the walk's own name used as the name of a table, in its start and in its step
  | circularReference (name : String)
  | repeatedReference (name : String)
  | tableExists (table : String)
  | namesIndex (name : String)
  | namesTable (name : String)
  | reservedName (name : String)
  | repeatedColumn (column : String)
  | unknownColumn (table column : String)
  | wrongCount (table : String) (columns values : Nat)
  | unwritable (table : String)
  | undroppable (table : String)
  | noConflictKey
  | unkeyedReference (child parent : String)
  | brokenForeignKey
  | missingValue (column : String)
  | duplicateKey (columns : List String)
  | duplicateEntry (columns : List String)
  | notWhole
  | exhausted
deriving DecidableEq, Repr

namespace DatabaseFault

def code : DatabaseFault → Nat
  | exhausted => 13
  | notWhole => 20
  | brokenForeignKey => 787
  | missingValue _ => 1299
  | duplicateKey _ => 1555
  | duplicateEntry _ => 2067
  | _ => 1

def quotedName (name : String) : String := "\"" ++ name.replace "\"" "\"\"" ++ "\""

def detail : DatabaseFault → String
  | unexpected token => "near \"" ++ token ++ "\": syntax error"
  | missingTable t => "no such table: " ++ t
  | missingColumn q c => "no such column: " ++ q ++ "." ++ c
  | circularReference n => "circular reference: " ++ n
  | repeatedReference n => "multiple recursive references: " ++ n
  | tableExists t => "table " ++ quotedName t ++ " already exists"
  | namesIndex n => "there is already an index named " ++ n
  | namesTable n => "there is already a table named " ++ n
  | reservedName n => "object name reserved for internal use: " ++ n
  | repeatedColumn c => "duplicate column name: " ++ c
  | unknownColumn t c => "table " ++ t ++ " has no column named " ++ c
  | wrongCount t columns values =>
    "table " ++ t ++ " has " ++ toString columns ++ " columns but " ++ toString values ++ " values were supplied"
  | unwritable t => "table " ++ t ++ " may not be modified"
  | undroppable t => "table " ++ t ++ " may not be dropped"
  | noConflictKey => "ON CONFLICT clause does not match any PRIMARY KEY or UNIQUE constraint"
  | unkeyedReference child parent =>
    "foreign key mismatch - " ++ quotedName child ++ " referencing " ++ quotedName parent
  | brokenForeignKey => "FOREIGN KEY constraint failed"
  | missingValue c => "NOT NULL constraint failed: " ++ c
  | duplicateKey columns => "UNIQUE constraint failed: " ++ ", ".intercalate columns
  | duplicateEntry columns => "UNIQUE constraint failed: " ++ ", ".intercalate columns
  | notWhole => "datatype mismatch"
  | exhausted => "database or disk is full"

end DatabaseFault

inductive Access where
  | query
  | execution
deriving DecidableEq, Repr

inductive Storage where
  | integer
  | real
  | text
  | blob
deriving DecidableEq, Repr

def Storage.name : Storage → String
  | integer => "INTEGER"
  | real => "REAL"
  | text => "TEXT"
  | blob => "BLOB"

inductive Wanted where
  | text
  | number (bits : Nat)
deriving DecidableEq, Repr

def Wanted.describe : Wanted → String
  | text => "`core::option::Option<alloc::string::String>` (as SQL type `TEXT`)"
  | number bits => "`core::option::Option<i" ++ toString bits ++ ">` (as SQL type `INTEGER`)"

inductive ResultColumn where
  | named (name : String)
  | position (place : Nat)
deriving DecidableEq, Repr

def ResultColumn.describe : ResultColumn → String
  | named name => "\"" ++ name ++ "\""
  | position place => toString place

instance : Coe String ResultColumn := ⟨.named⟩

-- A statement is refused, a value that has to be there is not or cannot be read, or the tables were changed by steps
-- that are not known.
inductive StoreFault where
  | refused (access : Access) (fault : DatabaseFault)
  | emptyValue (column : ResultColumn)
  | undecodable (column : ResultColumn) (broken : Option Utf8.Break)
  | mistyped (column : ResultColumn) (wanted : Wanted) (found : Storage)
  | unknownMigrations (versions : List String)
deriving DecidableEq, Repr

namespace StoreFault

def unread (column : ResultColumn) (cause : String) : String :=
  "Query Error: error occurred while decoding column " ++ column.describe ++ ": " ++ cause

def message : StoreFault → String
  | refused access fault =>
    (match access with
      | .query => "Query Error"
      | .execution => "Execution Error") ++
      ": error returned from database: (code: " ++ toString fault.code ++ ") " ++ fault.detail
  | emptyValue column => "Type Error: A null value was encountered while decoding " ++ column.describe
  | undecodable column broken => unread column ((broken.map Utf8.Break.describe).getD "")
  | mistyped column wanted found =>
    unread column ("mismatched types; Rust type " ++ wanted.describe ++ " is not compatible with SQL type `" ++ found.name ++ "`")
  | unknownMigrations versions =>
    "Custom Error: " ++ "\n".intercalate (versions.map fun v =>
      "Migration file of version '" ++ v ++ "' is missing, this migration has been applied but its file is missing")

end StoreFault

structure Orphan where
  role : String
  resourceType : String
deriving DecidableEq, Repr

def Orphan.describe (o : Orphan) : String := o.role ++ " on " ++ o.resourceType

inductive Failure where
  | unreadablePolicy (path cause : String)
  | malformedDocument
  | schema (fault : SchemaFault)
  | implicationCycle (path : List String)
  | orphanedAssignments (orphans : List Orphan)
  | notConfigured
  | unknownResourceType (name : String)
  | unknownRole (name : String)
  | roleMismatch (role roleType resourceType : String)
  | store (fault : StoreFault)
  | deadlineExceeded (limit : Duration)
deriving DecidableEq, Repr

namespace Failure

def diagnostic : Failure → Diagnostic
  | unreadablePolicy path cause => .unreadablePolicy path cause
  | malformedDocument => .malformedDocument "Failed to parse KDL document"
  | schema fault => .policySchema fault.message
  | implicationCycle path => .implicationCycle (" -> ".intercalate path)
  | orphanedAssignments orphans => .orphanedAssignments (", ".intercalate (orphans.map Orphan.describe))
  | notConfigured => .notConfigured
  | unknownResourceType name => .unknownResourceType name
  | unknownRole name => .unknownRole name
  | roleMismatch role roleType resourceType => .roleMismatch role roleType resourceType
  | store fault => .backingStore fault.message
  | deadlineExceeded limit => .deadlineExceeded limit

end Failure

end ScopedAccess
