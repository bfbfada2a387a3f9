import ScopedAccess.Query.Evaluation
import ScopedAccess.Store.State

namespace ScopedAccess

namespace Store

def catalogName : String := "sqlite_master"

def catalogNames : List String := [catalogName, "sqlite_schema"]

def isCatalog (name : String) : Bool := catalogNames.any (sameName name)

def catalogColumns : List ColumnSchema :=
  [.free "type" (some .text), .free "name" (some .text), .free "tbl_name" (some .text), .free "rootpage" (some .integer),
    .free "sql" (some .text)]

-- A key that is not the number of the row has an index of its own.
def keyIndexes (t : Table) : List String :=
  if t.schema.columns.any fun c => c.isKey && !c.isNumber then ["sqlite_autoindex_" ++ t.name ++ "_1"] else []

def catalogEntries (t : Table) : List (String × String × String) :=
  ("table", t.name, t.name) ::
    (keyIndexes t ++ (t.schema.indexes.map (·.name)).reverse).map fun index => ("index", index, t.name)

-- The first page is the catalog's own.
def catalog (s : Store) : Table :=
  { name := catalogName
    schema := ⟨catalogColumns, [], [], false⟩
    rows := (s.tables.flatMap catalogEntries).mapIdx fun i (kind, name, table) =>
      ⟨i + 1, [.text kind, .text name, .text table, .integer (i + 2), .null]⟩ }

def database (s : Store) : Query.Database := fun name =>
  if isCatalog name then some s.catalog.relation else (s.find? name).map Table.relation

def query (s : Store) (statement : Query.Statement) : Except StoreFault (List Row) :=
  (statement.rows s.database).mapError (.refused .query)

def refuse {α : Type} (fault : DatabaseFault) : Except StoreFault α := .error (.refused .execution fault)

def writable (s : Store) (name : String) : Except StoreFault Table :=
  if isCatalog name then refuse (.unwritable catalogName)
  else
    match s.find? name with
    | some t => .ok t
    | none => refuse (.missingTable name)

-- A changed table has to find the tables it refers to, by columns that identify their rows.
def referenceFault? (s : Store) (t : Table) : Option DatabaseFault :=
  t.schema.foreignKeys.findSome? fun k =>
    match s.find? k.parent with
    | none => some (.missingTable ("main." ++ k.parent))
    | some parent => if parent.schema.identifies k.references then none else some (.unkeyedReference t.name k.parent)

def referencesTo (s : Store) (t : Table) : List (Table × ForeignKey) :=
  s.ownTables.flatMap fun child =>
    (child.schema.foreignKeys.filter fun k => sameName k.parent t.name).map (child, ·)

def refersTo (child : Table) (k : ForeignKey) (parent : Table) (c p : NumberedRow) : Bool :=
  Cell.equal (child.value k.column c) (parent.value k.references p)

def isAnchored (s : Store) (t : Table) (r : NumberedRow) : Bool :=
  t.schema.foreignKeys.all fun k =>
    t.cell k.column r = .null || ((s.find? k.parent).map fun parent => parent.rows.any (refersTo t k parent r)).getD false

-- Whether rows of other tables refer to a row. What is referred to by no key is not looked at.
def isReferenced (s : Store) (t : Table) (r : NumberedRow) : Bool :=
  (s.referencesTo t).any fun (child, k) =>
    t.schema.identifies k.references && child.rows.any fun c => refersTo child k t c r

def counter (s : Store) (name : String) : Int :=
  match s.own .counters with
  | none => 0
  | some t =>
    match (t.rows.find? (t.holds "name" (.text name))).map fun r => (t.cell "seq" r).toNumber with
    | some (.integer n) => n
    | _ => 0

def setCounter (s : Store) (name : String) (n : Int) : Store :=
  match s.own .counters with
  | none => s
  | some t =>
    let row (number : Int) : NumberedRow := ⟨number, [.text name, .integer n]⟩
    match t.rows.find? (t.holds "name" (.text name)) with
    | some found => s.put { t with rows := t.rows.map fun r => if r.number = found.number then row r.number else r }
    | none => s.put (t.add (row ((t.lastNumber?.getD 0) + 1)))

structure Progress where
  table : Table
  counter : Int
  added : List NumberedRow

-- A clash on the columns of `passing` leaves the row out.
def Progress.step (passing : Option (List String)) (p : Progress) (row : Row) : Except DatabaseFault Progress := do
  let r ← p.table.numbered p.counter row
  let counter := max p.counter r.number
  match p.table.missingValue? r with
  | some column => .error (.missingValue (p.table.qualified column))
  | none =>
    match p.table.clash? r with
    | none => .ok ⟨p.table.add r, counter, p.added ++ [r]⟩
    | some clash =>
      if passing = some clash.columns then .ok { p with counter } else .error (clash.fault p.table)

-- The values of a row in the order of the table's columns. `given` names those that have a value.
def arrange (t : Table) (given : List String) (values : Row) : Row :=
  t.schema.columns.map fun c => ((given.zip values).find? fun v => sameName v.1 c.name).elim .null (·.2)

def insertRows (s : Store) (t : Table) (passing : Option (List String)) (rows : List Row) :
    Except StoreFault (Store × Nat) := do
  if (passing.map t.schema.distinguishes).getD true then
    match s.referenceFault? t with
    | some fault => refuse fault
    | none =>
      let p ← (rows.foldlM (Progress.step passing) ⟨t, s.counter t.name, []⟩).mapError (.refused .execution)
      let next := s.put p.table
      let next := if t.schema.isCounted then next.setCounter t.name p.counter else next
      if p.added.all (next.isAnchored p.table) then .ok (next, p.added.length) else refuse .brokenForeignKey
  else refuse .noConflictKey

-- Rows of values for the named columns; the other columns get none.
def insertInto (s : Store) (name : String) (columns : List String) (passing : Option (List String)) (rows : List Row) :
    Except StoreFault (Store × Nat) := do
  let t ← s.writable name
  match columns.find? fun c => !t.schema.hasColumn c with
  | some c => refuse (.unknownColumn name c)
  | none => s.insertRows t passing (rows.map (arrange t columns))

def insertRow (s : Store) (name : String) (row : Row) : Except StoreFault Store := do
  if row.isEmpty then refuse (.unexpected ")")
  else
    let t ← s.writable name
    if row.length ≠ t.schema.columns.length then refuse (.wrongCount name t.schema.columns.length row.length)
    else
      let (next, _) ← s.insertRows t none [row]
      .ok next

def deleteWhere (s : Store) (t : Table) (chosen : NumberedRow → Bool) : Except StoreFault (Store × Nat) :=
  match s.referenceFault? t with
  | some fault => refuse fault
  | none =>
    match (s.referencesTo t).find? fun (_, k) => !t.schema.identifies k.references with
    | some (child, k) => refuse (.unkeyedReference child.name k.parent)
    | none =>
      let gone := t.rows.filter chosen
      if gone.any (s.isReferenced t) then refuse .brokenForeignKey
      else .ok (s.put { t with rows := t.rows.filter fun r => !chosen r }, gone.length)

-- The rows that hold a value under a name, whether or not it names a column.
def deleteRows (s : Store) (name column : String) (value : Cell) : Except StoreFault (Store × Nat) := do
  let t ← s.writable name
  s.deleteWhere t (t.holds column value)

def deleteMatching (s : Store) (own : OwnTable) (criteria : List (String × String)) : Except StoreFault (Store × Nat) := do
  let t ← s.writable own.name
  match criteria.find? fun c => !t.schema.hasColumn c.1 with
  | some c => refuse (.missingColumn own.name c.1)
  | none => s.deleteWhere t fun r => criteria.all fun c => t.holds c.1 (.text c.2) r

def clear (s : Store) (own : OwnTable) : Except StoreFault Store := do
  let (next, _) ← s.deleteMatching own []
  .ok next

def isReserved (name : String) : Bool := "sqlite_".toList.isPrefixOf (name.toList.map Char.toLower)

def createTable (s : Store) (name : String) (columns : List ColumnSchema) : Except StoreFault Store :=
  if isReserved name then refuse (.reservedName name)
  else if (s.find? name).isSome then refuse (.tableExists name)
  else if s.indexNames.any (sameName name) then refuse (.namesIndex name)
  else if columns.isEmpty then refuse (.unexpected ")")
  else
    match (columns.zipIdx).find? fun (c, i) => (columns.take i).any fun d => sameName d.name c.name with
    | some (c, _) => refuse (.repeatedColumn c.name)
    | none => .ok (s.put ⟨name, ⟨columns, [], [], false⟩, []⟩)

-- The rows go in one after the other; those before one that is refused stay.
def insertEach (s : Store) (name : String) : List Row → Store × Except StoreFault Unit
  | [] => (s, .ok ())
  | row :: rest =>
    match s.insertRow name row with
    | .ok next => next.insertEach name rest
    | .error fault => (s, .error fault)

def createFilled (s : Store) (name : String) (columns : List ColumnSchema) (rows : List Row) :
    Store × Except StoreFault Unit :=
  match s.createTable name columns with
  | .ok next => next.insertEach name rows
  | .error fault => (s, .error fault)

-- A counted table takes its counter with it.
def dropTable (s : Store) (name : String) : Except StoreFault Store :=
  if isCatalog name then refuse (.undroppable catalogName)
  else
    match s.find? name with
    | none => refuse (.missingTable name)
    | some t =>
      if isReserved t.name then refuse (.undroppable t.name)
      else if t.rows.any (s.isReferenced t) then refuse .brokenForeignKey
      else
        let next := s.remove name
        .ok (match t.schema.isCounted, next.own .counters with
          | true, some c => next.put { c with rows := c.rows.filter fun r => !c.holds "name" (.text t.name) r }
          | _, _ => next)

end Store

end ScopedAccess
