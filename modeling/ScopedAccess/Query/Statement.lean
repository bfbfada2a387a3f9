import ScopedAccess.Cell

namespace ScopedAccess.Query

inductive Bound where
  | text (s : String)
  | number (n : Nat)
deriving DecidableEq, Repr

inductive Term where
  | column (source name : String)
  | bound (v : Bound)
  | asText (t : Term)
  | sum (left right : Term)
deriving DecidableEq, Repr

inductive Condition where
  | equal (left right : Term)
  | present (t : Term)
  | among (t : Term) (values : List Bound)
deriving DecidableEq, Repr

-- A table, and the name a query gives to it if that name is another than its own.
structure Source where
  table : String
  renamed : Option String
deriving DecidableEq, Repr

def Source.label (s : Source) : String := s.renamed.getD s.table

structure Join where
  source : Source
  on : List Condition
deriving DecidableEq, Repr

-- The first value among the pairs of rows that meet both conditions, or null.
structure Lookup where
  value : Term
  source : Source
  join : Join
  condition : Condition
deriving DecidableEq, Repr

inductive Value where
  | term (t : Term)
  | lookup (l : Lookup)
deriving DecidableEq, Repr

-- A dispatch takes the value of the first arm whose condition holds, or null.
inductive Output where
  | term (t : Term)
  | named (t : Term) (name : String)
  | dispatch (arms : List (Condition × Value))
deriving DecidableEq, Repr

structure Select where
  distinct : Bool := false
  outputs : List Output
  source : Option Source := none
  join : Option Join := none
  conditions : List Condition := []
  order : Option Term := none
  limit : Option Nat := none
deriving DecidableEq, Repr

-- `rounds` bounds the steps that can still find something new.
structure Walk where
  name : String
  columns : List String
  start : Select
  step : Option Select
  rounds : Nat
deriving DecidableEq, Repr

structure Statement where
  walk : Walk
  body : Select
deriving DecidableEq, Repr

end ScopedAccess.Query
