import ScopedAccess.Cell
import ScopedAccess.Failure

namespace ScopedAccess

inductive ColumnType where
  | integer
  | bigInteger
  | varchar
  | text
deriving DecidableEq, Repr

namespace ColumnType

def name : ColumnType → String
  | integer => "integer"
  | bigInteger => "bigint"
  | varchar => "varchar"
  | text => "text"

def affinity : ColumnType → Affinity
  | integer => .integer
  | bigInteger => .integer
  | varchar => .text
  | text => .text

end ColumnType

structure ColumnSchema where
  name : String
  type : Option ColumnType
  required : Bool
  isKey : Bool
deriving DecidableEq, Repr

namespace ColumnSchema

def key (name : String) (type : ColumnType) : ColumnSchema := ⟨name, some type, true, true⟩

def plain (name : String) (type : ColumnType) : ColumnSchema := ⟨name, some type, true, false⟩

def free (name : String) (type : Option ColumnType) : ColumnSchema := ⟨name, type, false, false⟩

-- A key of whole numbers is the number of its row.
def isNumber (c : ColumnSchema) : Bool := c.isKey && c.type = some .integer

def column (c : ColumnSchema) : Column := ⟨c.name, c.type.map ColumnType.affinity⟩

end ColumnSchema

structure IndexSchema where
  name : String
  isUnique : Bool
  columns : List String
deriving DecidableEq, Repr

structure ForeignKey where
  column : String
  parent : String
  references : String
deriving DecidableEq, Repr

-- `isCounted` tables never give one row number twice. Indexes stand with the newest first.
structure TableSchema where
  columns : List ColumnSchema
  indexes : List IndexSchema
  foreignKeys : List ForeignKey
  isCounted : Bool
deriving DecidableEq, Repr

namespace TableSchema

def columnIndex? (t : TableSchema) (name : String) : Option Nat := t.columns.findIdx? fun c => sameName c.name name

def hasColumn (t : TableSchema) (name : String) : Bool := (t.columnIndex? name).isSome

def identifies (t : TableSchema) (column : String) : Bool :=
  (t.columns.any fun c => c.isKey && sameName c.name column) ||
    t.indexes.any fun i => i.isUnique && i.columns.length = 1 && i.columns.all (sameName column)

def distinguishes (t : TableSchema) (columns : List String) : Bool :=
  (columns.length = 1 && columns.all t.identifies) ||
    t.indexes.any fun i => i.isUnique && i.columns.length = columns.length && i.columns.all fun c => columns.any (sameName c)

end TableSchema

inductive OwnTable where
  | migrations
  | roles
  | permissions
  | grants
  | implications
  | assignments
  | counters
deriving DecidableEq, Repr

namespace OwnTable

def all : List OwnTable := [migrations, roles, permissions, grants, implications, assignments, counters]

def shown : List OwnTable := [permissions, roles, grants, implications, assignments]

def name : OwnTable → String
  | migrations => "seaql_migrations"
  | roles => "roles"
  | permissions => "permissions"
  | grants => "role_permissions"
  | implications => "role_implications"
  | assignments => "user_roles"
  | counters => "sqlite_sequence"

def named? (name : String) : Option OwnTable := all.find? fun t => sameName t.name name

def columns : OwnTable → List ColumnSchema
  | migrations => [.key "version" .varchar, .plain "applied_at" .bigInteger]
  | roles => [.key "name" .varchar, .plain "resource_type" .varchar]
  | permissions => [.key "id" .integer, .plain "resource_type" .varchar, .plain "name" .varchar]
  | grants => [.key "id" .integer, .plain "role" .varchar, .plain "permission_id" .integer]
  | implications => [.key "id" .integer, .plain "from_role" .varchar, .plain "to_role" .varchar]
  | assignments =>
    [.key "id" .integer, .plain "user_id" .varchar, .plain "resource_type" .varchar, .plain "resource_id" .varchar,
      .plain "role" .varchar, .plain "created_at" .bigInteger]
  | counters => [.free "name" none, .free "seq" none]

def indexes : OwnTable → List IndexSchema
  | permissions => [⟨"idx_permissions_type_name", true, ["resource_type", "name"]⟩]
  | assignments =>
    [⟨"idx_user_roles_resource", false, ["resource_type", "resource_id"]⟩,
      ⟨"idx_user_roles_unique", true, ["user_id", "resource_type", "resource_id", "role"]⟩]
  | _ => []

-- Assignments refer to nothing: they outlive the roles of any one policy.
def foreignKeys : OwnTable → List ForeignKey
  | grants => [⟨"permission_id", permissions.name, "id"⟩, ⟨"role", roles.name, "name"⟩]
  | implications => [⟨"from_role", roles.name, "name"⟩, ⟨"to_role", roles.name, "name"⟩]
  | _ => []

def schema (t : OwnTable) : TableSchema := ⟨t.columns, t.indexes, t.foreignKeys, t = assignments⟩

end OwnTable

structure NumberedRow where
  number : Int
  cells : Row
deriving DecidableEq, Repr

structure Table where
  name : String
  schema : TableSchema
  rows : List NumberedRow
deriving DecidableEq, Repr

namespace Table

-- The number of a row can be asked for by these names, unless a column has the name.
def numberNames : List String := ["rowid", "oid", "_rowid_"]

-- Every cell in the form its column prefers; what is not given is null.
def settle (columns : List ColumnSchema) (row : Row) : Row :=
  columns.mapIdx fun i c =>
    let cell := row.getD i .null
    match c.type with
    | some type => cell.prefer type.affinity
    | none => cell

def relation (t : Table) : Relation :=
  { columns := t.schema.columns.map ColumnSchema.column ++ numberNames.map (⟨·, some .integer⟩)
    rows := t.rows.map fun r => r.cells ++ numberNames.map fun _ => .integer r.number }

-- The value of a row under a quoted name, which stands for itself if it names nothing in the table.
def value (t : Table) (name : String) (r : NumberedRow) : Cell × Option Affinity :=
  match t.schema.columnIndex? name with
  | some i => (r.cells.getD i .null, (t.schema.columns[i]?).bind (·.column.affinity))
  | none =>
    if numberNames.any (sameName name) then (.integer r.number, some .integer) else (.text name, none)

def cell (t : Table) (name : String) (r : NumberedRow) : Cell := (t.value name r).1

-- Whether a row holds a value under a name; here null does match null.
def holds (t : Table) (name : String) (value : Cell) (r : NumberedRow) : Bool :=
  (t.cell name r = .null && value = .null) || Cell.equal (t.value name r) (value, none)

def qualified (t : Table) (column : String) : String := t.name ++ "." ++ column

def lastNumber? (t : Table) : Option Int := t.rows.getLast?.map (·.number)

def largestNumber : Int := twoTo 63 - 1

-- Numbers go up by one from the last row. A table that counts goes past the largest number it ever gave and is full
-- when there is none left; another one takes some free number then, for which the next one stands.
def nextNumber? (t : Table) (counter : Int) : Option Int :=
  let next := match t.lastNumber? with
    | some n => n + 1
    | none => 1
  if t.schema.isCounted then
    let counted := max next (counter + 1)
    if counted ≤ largestNumber then some counted else none
  else some next

-- The row with its number, which is either given as the key or the next one.
def numbered (t : Table) (counter : Int) (row : Row) : Except DatabaseFault NumberedRow :=
  let cells := settle t.schema.columns row
  match t.schema.columns.findIdx? ColumnSchema.isNumber with
  | none => ((t.nextNumber? counter).map (⟨·, cells⟩)).elim (.error .exhausted) .ok
  | some i =>
    match cells.getD i .null with
    | .null => ((t.nextNumber? counter).map fun n => ⟨n, cells.set i (.integer n)⟩).elim (.error .exhausted) .ok
    | .integer n => .ok ⟨n, cells⟩
    | _ => .error .notWhole

def missingValue? (t : Table) (r : NumberedRow) : Option String :=
  (t.schema.columns.find? fun c => c.required && t.cell c.name r = .null).map (·.name)

structure Clash where
  columns : List String
  isKey : Bool
deriving DecidableEq, Repr

def Clash.fault (t : Table) (c : Clash) : DatabaseFault :=
  if c.isKey then .duplicateKey (c.columns.map t.qualified) else .duplicateEntry (c.columns.map t.qualified)

def agree (t : Table) (columns : List String) (a b : NumberedRow) : Bool :=
  columns.all fun c => Cell.same (t.cell c a) (t.cell c b)

-- The key goes before the indexes.
def clash? (t : Table) (r : NumberedRow) : Option Clash :=
  let keys := (t.schema.columns.filter (·.isKey)).map fun c => (⟨[c.name], true⟩ : Clash)
  let entries := (t.schema.indexes.filter (·.isUnique)).map fun i => (⟨i.columns, false⟩ : Clash)
  (keys ++ entries).find? fun c => t.rows.any (t.agree c.columns r)

def add (t : Table) (r : NumberedRow) : Table :=
  { t with rows := t.rows.filter (·.number < r.number) ++ r :: t.rows.filter (r.number < ·.number) }

end Table

structure Store where
  own : OwnTable → Option Table
  application : List Table

namespace Store

def migration : String := "m20250301_000001_authorization_schema"

def emptyTable (t : OwnTable) : Table := ⟨t.name, t.schema, []⟩

-- Every own table is there, and only the step that made them is recorded.
def fresh (application : List Table) : Store :=
  { own := fun t => some
      (match t with
        | .migrations => { emptyTable t with rows := [⟨1, [.text migration, .integer 0]⟩] }
        | _ => emptyTable t)
    application }

def find? (s : Store) (name : String) : Option Table :=
  match OwnTable.named? name with
  | some t => s.own t
  | none => s.application.find? fun t => sameName t.name name

def put (s : Store) (table : Table) : Store :=
  match OwnTable.named? table.name with
  | some t => { s with own := fun u => if u = t then some table else s.own u }
  | none =>
    if s.application.any fun t => sameName t.name table.name then
      { s with application := s.application.map fun t => if sameName t.name table.name then table else t }
    else { s with application := s.application ++ [table] }

def remove (s : Store) (name : String) : Store :=
  match OwnTable.named? name with
  | some t => { s with own := fun u => if u = t then none else s.own u }
  | none => { s with application := s.application.filter fun t => !sameName t.name name }

def ownTables (s : Store) : List Table := OwnTable.all.filterMap s.own

def tables (s : Store) : List Table := s.ownTables ++ s.application

def indexNames (s : Store) : List String := s.tables.flatMap fun t => t.schema.indexes.map (·.name)

-- The named columns of the rows that are chosen. The table and all columns have to be there.
def read (s : Store) (own : OwnTable) (columns : List String) (chosen : Table → NumberedRow → Bool) :
    Except StoreFault (List Row) :=
  match s.own own with
  | none => .error (.refused .query (.missingTable own.name))
  | some t =>
    match columns.find? fun c => !t.schema.hasColumn c with
    | some c => .error (.refused .query (.missingColumn own.name c))
    | none => .ok ((t.rows.filter (chosen t)).map fun r => columns.map fun c => t.cell c r)

def readAll (s : Store) (own : OwnTable) : Except StoreFault (List Row) :=
  s.read own (own.columns.map (·.name)) fun _ _ => true

def textOf (column : ResultColumn) : Cell → Except StoreFault String
  | .text s => .ok s
  | .garbled g => .error (.undecodable column (Utf8.break? g.bytes))
  | .null => .error (.emptyValue column)
  | .integer _ => .error (.mistyped column .text .integer)
  | .real _ => .error (.mistyped column .text .real)
  | .blob _ => .error (.mistyped column .text .blob)

theorem textOf_eq_ok_iff {column : ResultColumn} {c : Cell} {s : String} : textOf column c = .ok s ↔ c = .text s := by
  cases c <;> simp [textOf]

def wholeOf (bits : Nat) (column : ResultColumn) : Cell → Except StoreFault Int
  | .integer n => .ok n
  | .null => .error (.emptyValue column)
  | .real _ => .error (.mistyped column (.number bits) .real)
  | .text _ => .error (.mistyped column (.number bits) .text)
  | .garbled _ => .error (.mistyped column (.number bits) .text)
  | .blob _ => .error (.mistyped column (.number bits) .blob)

def numberOf : ResultColumn → Cell → Except StoreFault Int := wholeOf 32

end Store

end ScopedAccess
