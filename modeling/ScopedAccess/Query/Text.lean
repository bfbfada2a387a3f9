import ScopedAccess.Query.Statement

namespace ScopedAccess.Query

inductive Dialect where
  | sqlite
  | postgres
  | mysql
deriving DecidableEq, Repr

namespace Dialect

def textType : Dialect → String
  | mysql => "CHAR"
  | _ => "TEXT"

def quote : Dialect → Char
  | mysql => '`'
  | _ => '"'

def groupsUnion : Dialect → Bool
  | sqlite => false
  | _ => true

def placeholder (d : Dialect) (position : Nat) : String :=
  match d with
  | postgres => "$" ++ toString position
  | _ => "?"

-- A quote inside a name is written twice.
def quoted (d : Dialect) (name : String) : String :=
  let q := d.quote
  String.ofList (q :: name.toList.flatMap (fun c => if c = q then [q, q] else [c]) ++ [q])

end Dialect

inductive Fragment where
  | plain (s : String)
  | quoted (s : String)
  | hole (v : Bound)
deriving DecidableEq, Repr

open Fragment (plain quoted hole)

def separated (separator : String) : List (List Fragment) → List Fragment
  | [] => []
  | [part] => part
  | part :: rest => part ++ plain separator :: separated separator rest

def Term.fragments (d : Dialect) : Term → List Fragment
  | .column source c => [quoted source, plain ".", quoted c]
  | .bound v => [hole v]
  | .asText t => plain "CAST(" :: t.fragments d ++ [plain (" AS " ++ d.textType ++ ")")]
  | .sum left right => left.fragments d ++ plain " + " :: right.fragments d

-- No value is among none, which is written as an equation that fails.
def Condition.fragments (d : Dialect) : Condition → List Fragment
  | .equal left right => left.fragments d ++ plain " = " :: right.fragments d
  | .present t => t.fragments d ++ [plain " IS NOT NULL"]
  | .among _ [] => [hole (.number 1), plain " = ", hole (.number 2)]
  | .among t values => t.fragments d ++ plain " IN (" :: separated ", " (values.map fun v => [hole v]) ++ [plain ")"]

def conjunction (d : Dialect) (conditions : List Condition) : List Fragment :=
  separated " AND " (conditions.map (Condition.fragments d))

def Source.fragments (s : Source) : List Fragment :=
  match s.renamed with
  | none => [quoted s.table]
  | some name => [quoted s.table, plain " AS ", quoted name]

def Join.fragments (d : Dialect) (j : Join) : List Fragment :=
  plain " INNER JOIN " :: j.source.fragments ++ plain " ON " :: conjunction d j.on

def Lookup.fragments (d : Dialect) (l : Lookup) : List Fragment :=
  plain "(SELECT " :: l.value.fragments d ++ plain " FROM " :: l.source.fragments ++ l.join.fragments d ++
    plain " WHERE " :: l.condition.fragments d ++ [plain ")"]

def Value.fragments (d : Dialect) : Value → List Fragment
  | .term t => t.fragments d
  | .lookup l => l.fragments d

def arm (d : Dialect) (a : Condition × Value) : List Fragment :=
  plain " WHEN (" :: a.1.fragments d ++ plain ") THEN " :: a.2.fragments d

def Output.fragments (d : Dialect) : Output → List Fragment
  | .term t => t.fragments d
  | .named t label => t.fragments d ++ [plain " AS ", quoted label]
  | .dispatch arms => plain "(CASE" :: arms.flatMap (arm d) ++ [plain " END)"]

def clause {α : Type} (opening : String) (write : α → List Fragment) : Option α → List Fragment
  | none => []
  | some a => plain opening :: write a

def Select.fragments (d : Dialect) (s : Select) : List Fragment :=
  plain (if s.distinct then "SELECT DISTINCT " else "SELECT ") ::
    separated ", " (s.outputs.map (Output.fragments d)) ++
    clause " FROM " Source.fragments s.source ++
    (match s.join with
      | none => []
      | some j => j.fragments d) ++
    (if s.conditions.isEmpty then [] else plain " WHERE " :: conjunction d s.conditions) ++
    clause " ORDER BY " (fun t => t.fragments d ++ [plain " ASC"]) s.order ++
    clause " LIMIT " (fun n => [hole (.number n)]) s.limit

def Walk.fragments (d : Dialect) (w : Walk) : List Fragment :=
  [plain "WITH RECURSIVE ", quoted w.name, plain " ("] ++ separated ", " (w.columns.map fun c => [quoted c]) ++
    plain ") AS (" :: w.start.fragments d ++
    (match w.step with
      | none => []
      | some step =>
        if d.groupsUnion then plain " UNION (" :: step.fragments d ++ [plain ")"]
        else plain " UNION " :: step.fragments d) ++
    [plain ")"]

def Statement.fragments (d : Dialect) (s : Statement) : List Fragment :=
  s.walk.fragments d ++ plain " " :: s.body.fragments d

-- Holes are numbered from `position` on.
def assemble (d : Dialect) : Nat → List Fragment → List String
  | _, [] => []
  | position, plain s :: rest => s :: assemble d position rest
  | position, quoted s :: rest => d.quoted s :: assemble d position rest
  | position, hole _ :: rest => d.placeholder position :: assemble d (position + 1) rest

def holes : List Fragment → List Bound
  | [] => []
  | hole v :: rest => v :: holes rest
  | _ :: rest => holes rest

def Statement.text (d : Dialect) (s : Statement) : String := String.join (assemble d 1 (s.fragments d))

def Statement.values (d : Dialect) (s : Statement) : List Bound := holes (s.fragments d)

end ScopedAccess.Query
