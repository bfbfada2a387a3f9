import ScopedAccess.Toml.Scalar

namespace ScopedAccess.Toml

-- What is wrong with a document, with its place: a count of characters, or later a position.
inductive Fault (place : Type) where
  | at (p : place)
  | tooDeep
deriving DecidableEq, Repr

def Fault.map {α β : Type} (f : α → β) : Fault α → Fault β
  | .at p => .at (f p)
  | .tooDeep => .tooDeep

-- How a table came about decides what may be added to it later.
inductive TableOrigin where
  -- by a header of its own
  | header
  -- on the way of a header
  | passed
  -- on the way of a dotted key
  | dotted
  | inline
deriving DecidableEq, Repr

-- An array of tables is open to more headers of its name; a written array is not.
inductive Value where
  | scalar (s : Scalar)
  | misread (fault : NumberFault)
  | array (isOpen : Bool) (items : List Value)
  | table (origin : TableOrigin) (entries : List (String × Value))

abbrev Entries := List (String × Value)

structure Key where
  name : String
  place : Nat
deriving DecidableEq, Repr

namespace Key

def partsLimit : Nat := 80

def ofRaw (raw : Raw) : Except (Fault Nat) Key := (raw.key.map (⟨·, raw.start⟩)).mapError .at

def path (raws : List Raw) : Except (Fault Nat) (List Key) := do
  let keys ← raws.mapM ofRaw
  if partsLimit < keys.length then .error .tooDeep else .ok keys

end Key

namespace Entries

def set (name : String) (v : Value) : Entries → Entries
  | [] => [(name, v)]
  | e :: rest =>
    if e.1 = name then (name, v) :: rest
    else if name < e.1 then (name, v) :: e :: rest
    else e :: set name v rest

-- Closes the table of a header: puts its entries where the keys lead.
def close (isArray : Bool) (inner : Entries) : List Key → Entries → Except (Fault Nat) Entries
  | [], entries => .ok entries
  | [key], entries =>
    match entries.lookup key.name, isArray with
    | none, false => .ok (set key.name (.table .header inner) entries)
    | none, true => .ok (set key.name (.array true [.table .header inner]) entries)
    | some (.table .passed _), false => .ok (set key.name (.table .header inner) entries)
    | some (.array true items), true => .ok (set key.name (.array true (items ++ [.table .header inner])) entries)
    | some _, _ => .error (.at key.place)
  | key :: rest, entries =>
    match entries.lookup key.name with
    | none => (close isArray inner rest []).map fun made => set key.name (.table .passed made) entries
    | some (.table origin outer) =>
      if origin = .inline then .error (.at key.place)
      else (close isArray inner rest outer).map fun made => set key.name (.table origin made) entries
    | some (.array true items) =>
      match items.getLast? with
      | some (.table origin outer) =>
        (close isArray inner rest outer).map fun made =>
          set key.name (.array true (items.dropLast ++ [.table origin made])) entries
      | _ => .error (.at key.place)
    | some _ => .error (.at key.place)

def passedAt : List Key → Entries → Entries
  | [], entries => entries
  | [key], entries =>
    match entries.lookup key.name with
    | some (.table .passed inner) => inner
    | _ => []
  | key :: rest, entries =>
    match entries.lookup key.name with
    | some (.table _ inner) => passedAt rest inner
    | some (.array true items) =>
      match items.getLast? with
      | some (.table _ inner) => passedAt rest inner
      | _ => []
    | _ => []

-- Puts a value under a dotted key. The last table on its way is made by such keys alone.
def insert (v : Value) : List Key → Entries → Except (Fault Nat) Entries
  | [], entries => .ok entries
  | [key], entries =>
    match entries.lookup key.name with
    | none => .ok (set key.name v entries)
    | some _ => .error (.at key.place)
  | key :: next :: rest, entries =>
    match entries.lookup key.name with
    | none => (insert v (next :: rest) []).map fun inner => set key.name (.table .dotted inner) entries
    | some (.table .dotted inner) =>
      (insert v (next :: rest) inner).map fun inner => set key.name (.table .dotted inner) entries
    | some (.table .passed inner) =>
      if rest.isEmpty then .error (.at next.place)
      else (insert v (next :: rest) inner).map fun inner => set key.name (.table .passed inner) entries
    | some (.array true items) =>
      match items.getLast? with
      | some (.table origin inner) =>
        if rest.isEmpty then .error (.at next.place)
        else (insert v (next :: rest) inner).map fun inner =>
          set key.name (.array true (items.dropLast ++ [.table origin inner])) entries
      | _ => .error (.at key.place)
    | some _ => .error (.at key.place)

end Entries

def Value.ofOutcome : Except NumberFault Scalar → Value
  | .ok s => .scalar s
  | .error fault => .misread fault

mutual

def Value.ofRaw : RawValue → Except (Fault Nat) Value
  | .scalar raw => ((Scalar.ofRaw raw).map Value.ofOutcome).mapError .at
  | .array items => (Value.ofItems items).map (.array false)
  | .table entries unset => do
    let entries ← Value.ofEntries entries []
    let _ ← Key.path unset
    .ok (.table .inline entries)

def Value.ofItems : List RawValue → Except (Fault Nat) (List Value)
  | [] => .ok []
  | item :: rest => do
    let first ← Value.ofRaw item
    let others ← Value.ofItems rest
    .ok (first :: others)

def Value.ofEntries : List (List Raw × RawValue) → Entries → Except (Fault Nat) Entries
  | [], made => .ok made
  | (raws, raw) :: rest, made => do
    let keys ← Key.path raws
    let value ← Value.ofRaw raw
    let made ← made.insert value keys
    Value.ofEntries rest made

end

structure Document where
  closed : Entries
  header : Option (Bool × List Key)
  entries : Entries

namespace Document

def finish (d : Document) : Except (Fault Nat) Entries :=
  match d.header with
  | some (isArray, keys) => Entries.close isArray d.entries keys d.closed
  | none => .ok d.entries

-- A table must be new where its header stands, a table of an array where it is closed.
def add (d : Document) : Statement → Except (Fault Nat) Document
  | .header isArray raws => do
    let closed ← d.finish
    let keys ← Key.path raws
    if isArray then .ok ⟨closed, some (true, keys), []⟩
    else
      let _ ← Entries.close false [] keys closed
      .ok ⟨closed, some (false, keys), closed.passedAt keys⟩
  | .entry raws raw => do
    let keys ← Key.path raws
    let value ← Value.ofRaw raw
    let entries ← d.entries.insert value keys
    .ok { d with entries }

def ofChars (text : List Char) : Except (Fault Nat) Entries := do
  let statements ← (Statement.ofTokens (Token.ofText text)).mapError .at
  let d ← statements.foldlM add ⟨[], none, []⟩
  d.finish

end Document

structure Position where
  line : Nat
  column : Nat
deriving DecidableEq, Repr

namespace Position

-- The end of a text lies right behind its last character, even when that ends a line.
def ofPlace (text : List Char) (place : Nat) : Position :=
  let last := min place (text.length - 1)
  let before := text.take last
  let line := before.reverse.takeWhile (· ≠ '\n')
  -- A column in front of a character beyond ASCII counts bytes.
  let width (c : Char) : Nat := if (text[last]?).any (127 < ·.toNat) && place < text.length then c.utf8Size else 1
  ⟨before.count '\n' + 1, line.foldl (fun n c => n + width c) (place - last + 1)⟩

end Position

-- Up to two byte order marks in front are no part of the text.
def read (text : String) : Except (Fault Position) Entries :=
  let chars := match text.toList with
    | '\uFEFF' :: '\uFEFF' :: rest => rest
    | '\uFEFF' :: rest => rest
    | chars => chars
  (Document.ofChars chars).mapError (Fault.map (Position.ofPlace chars))

end ScopedAccess.Toml
