import ScopedAccess.Store.Change

namespace ScopedAccess

namespace Store

def provide (s : Store) (t : OwnTable) : Store :=
  if (s.own t).isSome then s else s.put ⟨t.name, { t.schema with indexes := [] }, []⟩

def hasRepeats (t : Table) (columns : List String) : Bool :=
  t.rows.zipIdx.any fun (r, i) => (t.rows.take i).any (t.agree columns r)

def provideIndex (s : Store) (own : OwnTable) (i : IndexSchema) : Except StoreFault Store :=
  match s.own own with
  | none => refuse (.missingTable own.name)
  | some t =>
    if (s.find? i.name).isSome then refuse (.namesTable i.name)
    else if s.indexNames.any (sameName i.name) then .ok s
    else if i.isUnique && hasRepeats t i.columns then refuse (Table.Clash.fault t ⟨i.columns, false⟩)
    else .ok (s.put { t with schema := { t.schema with indexes := i :: t.schema.indexes } })

-- The first step that fails decides, and the state it left behind stays.
def inTurn {α : Type} (step : Store → α → Except StoreFault Store) (s : Store) : List α → Store × Except StoreFault Unit
  | [] => (s, .ok ())
  | a :: rest =>
    match step s a with
    | .ok next => inTurn step next rest
    | .error fault => (s, .error fault)

inductive Construction where
  | table (t : OwnTable)
  | index (t : OwnTable) (i : IndexSchema)

def constructions : List Construction :=
  [OwnTable.roles, .permissions, .grants, .implications, .assignments].flatMap fun t =>
    .table t :: t.schema.indexes.reverse.map (.index t)

def construct (s : Store) : Construction → Except StoreFault Store
  | .table t =>
    let next := s.provide t
    .ok (if t.schema.isCounted then next.provide .counters else next)
  | .index t i => s.provideIndex t i

-- Whether the step was taken. A record of any other step is a fault.
def isMigrated (s : Store) : Except StoreFault Bool := do
  let rows ← s.readAll .migrations
  let versions ← rows.mapM fun row => textOf "version" (row.getD 0 .null)
  match versions.filter (· ≠ migration) with
  | [] => .ok (versions.contains migration)
  | unknown => .error (.unknownMigrations unknown)

def after (outcome : Store × Except StoreFault Unit) (last : Store → Except StoreFault Store) :
    Store × Except StoreFault Unit :=
  match outcome with
  | (s, .error fault) => (s, .error fault)
  | (s, .ok _) =>
    match last s with
    | .ok next => (next, .ok ())
    | .error fault => (s, .error fault)

def migrate (s : Store) : Store × Except StoreFault Unit :=
  let s := s.provide .migrations
  match s.isMigrated with
  | .error fault => (s, .error fault)
  | .ok true => (s, .ok ())
  | .ok false =>
    after (inTurn construct s constructions) fun s => do
      let (next, _) ← s.insertInto OwnTable.migrations.name ["version", "applied_at"] none [[.text migration, .integer 0]]
      .ok next

-- Tables go before those they refer to.
def revert (s : Store) : Store × Except StoreFault Unit :=
  let s := s.provide .migrations
  match s.isMigrated with
  | .error fault => (s, .error fault)
  | .ok false => (s, .ok ())
  | .ok true =>
    after (inTurn (fun s (t : OwnTable) => s.dropTable t.name) s
        [.assignments, .implications, .grants, .permissions, .roles]) fun s => do
      let (next, _) ← s.deleteMatching .migrations [("version", migration)]
      .ok next

end Store

end ScopedAccess
