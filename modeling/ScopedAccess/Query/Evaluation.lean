import ScopedAccess.Failure
import ScopedAccess.Query.Statement

namespace ScopedAccess.Query

abbrev Database := String → Option Relation

namespace Resolution

-- The walk's name may stand for the walk in the body and as the source of the step, and nowhere else.
def sourceFault? (db : Database) (walk : String) (onWalk : Option DatabaseFault) (s : Source) : Option DatabaseFault :=
  if sameName s.table walk then onWalk
  else if (db s.table).isSome then none
  else some (.missingTable s.table)

def sources (s : Select) : List Source := s.source.toList ++ s.join.toList.map (·.source)

def lookups (s : Select) : List Lookup :=
  s.outputs.flatMap fun
    | .dispatch arms => arms.filterMap fun
      | (_, .lookup l) => some l
      | _ => none
    | _ => []

def stepTableFault? (db : Database) (w : Walk) (step : Select) : Option DatabaseFault :=
  (sources step).findSome? (sourceFault? db w.name none) <|>
    ((lookups step).flatMap fun l => [l.source, l.join.source]).findSome?
      (sourceFault? db w.name (some (.repeatedReference w.name)))

def walkTableFault? (db : Database) (w : Walk) : Option DatabaseFault :=
  (sources w.start).findSome? (sourceFault? db w.name (some (.circularReference w.name))) <|>
    (w.step >>= stepTableFault? db w)

def tableFault? (db : Database) (s : Statement) : Option DatabaseFault :=
  (sources s.body).findSome? fun source =>
    if sameName source.table s.walk.name then walkTableFault? db s.walk
    else sourceFault? db s.walk.name none source

abbrev Scope := List (String × List String)

def columnNames (db : Database) (w : Walk) (table : String) : List String :=
  if sameName table w.name then w.columns
  else ((db table).map fun t => t.columns.map (·.name)).getD []

def scopeOf (db : Database) (w : Walk) (sources : List Source) : Scope :=
  sources.map fun s => (s.label, columnNames db w s.table)

def termFault? (scope : Scope) : Term → Option DatabaseFault
  | .column source name =>
    match scope.find? fun e => sameName e.1 source with
    | some (_, columns) => if columns.any (sameName name) then none else some (.missingColumn source name)
    | none => some (.missingColumn source name)
  | .bound _ => none
  | .asText t => termFault? scope t
  | .sum left right => termFault? scope left <|> termFault? scope right

def conditionFault? (scope : Scope) : Condition → Option DatabaseFault
  | .equal left right => termFault? scope left <|> termFault? scope right
  | .present t => termFault? scope t
  | .among _ [] => none
  | .among t _ => termFault? scope t

def lookupFault? (db : Database) (w : Walk) (outer : Scope) (l : Lookup) : Option DatabaseFault :=
  let scope := scopeOf db w [l.source, l.join.source] ++ outer
  termFault? scope l.value <|> conditionFault? scope l.condition <|> l.join.on.findSome? (conditionFault? scope)

def outputFault? (db : Database) (w : Walk) (scope : Scope) : Output → Option DatabaseFault
  | .term t => termFault? scope t
  | .named t _ => termFault? scope t
  | .dispatch arms => arms.findSome? fun (condition, value) =>
    conditionFault? scope condition <|>
      match value with
      | .term t => termFault? scope t
      | .lookup l => lookupFault? db w scope l

def selectFault? (db : Database) (w : Walk) (s : Select) : Option DatabaseFault :=
  let scope := scopeOf db w (sources s)
  s.outputs.findSome? (outputFault? db w scope) <|>
    s.conditions.findSome? (conditionFault? scope) <|>
    (s.join.toList.flatMap (·.on)).findSome? (conditionFault? scope) <|>
    (s.order >>= termFault? scope)

def columnFault? (db : Database) (s : Statement) : Option DatabaseFault :=
  (s.walk.step >>= selectFault? db s.walk) <|> selectFault? db s.walk s.walk.start <|> selectFault? db s.walk s.body

end Resolution

def Statement.fault? (db : Database) (s : Statement) : Option DatabaseFault :=
  Resolution.tableFault? db s <|> Resolution.columnFault? db s

structure Binding where
  label : String
  columns : List Column
  row : Row

abbrev Environment := List Binding

namespace Environment

def find? (env : Environment) (source column : String) : Option (Cell × Option Affinity) := do
  let b ← List.find? (fun b : Binding => sameName b.label source) env
  let i ← Relation.columnIndex? b.columns column
  let c ← b.columns[i]?
  some (b.row.getD i .null, c.affinity)

end Environment

def Bound.cell : Bound → Cell
  | .text s => .text s
  | .number n => .integer n

def Term.eval (env : Environment) : Term → Cell × Option Affinity
  | .column source name => (env.find? source name).getD (.null, none)
  | .bound v => (v.cell, none)
  | .asText t => ((t.eval env).1.toText, some .text)
  | .sum left right =>
    match (left.eval env).1, (right.eval env).1 with
    | .integer m, .integer n => (.integer (m + n), none)
    | _, _ => (.null, none)

def Condition.holds (env : Environment) : Condition → Bool
  | .equal left right => Cell.equal (left.eval env) (right.eval env)
  | .present t => (t.eval env).1 ≠ .null
  | .among t values => values.any fun v => Cell.equal (t.eval env) (v.cell, none)

def Source.bindings (db : Database) (s : Source) : List Binding :=
  match db s.table with
  | some t => t.rows.map fun row => ⟨s.label, t.columns, row⟩
  | none => []

def Join.extend (db : Database) (j : Join) (env : Environment) : List Environment :=
  ((j.source.bindings db).map fun b => b :: env).filter fun env => j.on.all (Condition.holds env)

def Lookup.eval (db : Database) (env : Environment) (l : Lookup) : Cell :=
  let pairs := (l.source.bindings db).flatMap fun b => l.join.extend db (b :: env)
  match pairs.find? fun env => l.condition.holds env with
  | some env => (l.value.eval env).1
  | none => .null

def Value.eval (db : Database) (env : Environment) : Value → Cell
  | .term t => (t.eval env).1
  | .lookup l => l.eval db env

def Output.eval (db : Database) (env : Environment) : Output → Cell
  | .term t => (t.eval env).1
  | .named t _ => (t.eval env).1
  | .dispatch arms =>
    match arms.find? fun a => a.1.holds env with
    | some (_, value) => value.eval db env
    | none => .null

-- Without a source there is one empty row.
def Select.environments (db : Database) (s : Select) : List Environment :=
  let first : List Environment := match s.source with
    | none => [[]]
    | some source => (source.bindings db).map fun b => [b]
  let joined := match s.join with
    | none => first
    | some j => first.flatMap (j.extend db)
  joined.filter fun env => s.conditions.all (Condition.holds env)

def Select.rows (db : Database) (s : Select) : List Row :=
  let found := s.environments db
  let ordered := match s.order with
    | none => found
    | some t => found.mergeSort fun a b => Cell.before (t.eval a).1 (t.eval b).1
  let rows := ordered.map fun env => s.outputs.map (Output.eval db env)
  let rows := if s.distinct then rows.eraseDups else rows
  match s.limit with
  | none => rows
  | some n => rows.take n

namespace Walk

-- A column of the walk prefers the form that its start gives it.
def columnsOf (w : Walk) : List Column :=
  List.zipWith (fun name (output : Output) => ⟨name, match output with
    | .term (.asText _) => some .text
    | _ => none⟩) w.columns w.start.outputs

def relation (w : Walk) (rows : List Row) : Relation := ⟨w.columnsOf, rows⟩

def shadow (w : Walk) (db : Database) (rows : List Row) : Database :=
  fun name => if sameName name w.name then some (w.relation rows) else db name

def advance (w : Walk) (db : Database) (step : Select) (seen latest : List Row) : List Row :=
  ((step.rows (w.shadow db latest)).filter (· ∉ seen)).eraseDups

def grow (w : Walk) (db : Database) (step : Select) : Nat → List Row → List Row → List Row
  | 0, seen, _ => seen
  | rounds + 1, seen, latest =>
    match w.advance db step seen latest with
    | [] => seen
    | fresh => grow w db step rounds (seen ++ fresh) fresh

def rows (w : Walk) (db : Database) : List Row :=
  let start := w.start.rows db
  match w.step with
  | none => start
  | some step => grow w db step w.rounds start.eraseDups start.eraseDups

end Walk

def Statement.rows (db : Database) (s : Statement) : Except DatabaseFault (List Row) :=
  match s.fault? db with
  | some fault => .error fault
  | none => .ok (s.body.rows (s.walk.shadow db (s.walk.rows db)))

end ScopedAccess.Query
