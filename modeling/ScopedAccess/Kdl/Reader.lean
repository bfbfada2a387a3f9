import ScopedAccess.Kdl.Token

namespace ScopedAccess.Kdl

namespace Token

def skipBlanks (tokens : List Token) : List Token := tokens.dropWhile (· = blank)

def skipLines (tokens : List Token) : List Token := tokens.dropWhile fun t => t = blank || t = lineEnd

-- A node ends with its line, at a semicolon, or where the enclosing block ends. Without any of these
-- it has to be the last of its block.
def endNode? (tokens : List Token) : Option (List Token) :=
  match skipBlanks tokens with
  | [] => some []
  | lineEnd :: rest => some rest
  | semicolon :: rest => some rest
  | closeBrace :: rest => some (closeBrace :: rest)
  | _ => none

-- An annotation is text in parentheses; it is dropped.
def skipAnnotation? (tokens : List Token) : Option (List Token) :=
  match tokens with
  | openParen :: rest =>
    match skipBlanks rest with
    | value (.text _) :: rest =>
      match skipBlanks rest with
      | closeParen :: rest => some (skipBlanks rest)
      | _ => none
    | _ => none
  | _ => some tokens

def annotatedValue? (tokens : List Token) : Option (Value × List Token) := do
  match ← skipAnnotation? tokens with
  | value v :: rest => some (v, rest)
  | _ => none

-- Text before an equals sign is a key, unless it is annotated.
def entry? (tokens : List Token) : Option (Entry × List Token) :=
  let argument := (annotatedValue? tokens).map fun (v, rest) => (⟨none, v⟩, rest)
  match tokens with
  | value (.text key) :: rest =>
    match skipBlanks rest with
    | equals :: rest => (annotatedValue? (skipBlanks rest)).map fun (v, rest) => (⟨some key, v⟩, rest)
    | _ => argument
  | _ => argument

-- Passes an entry that a slashdash removes. A slashdash inside it removes an entry of its own first,
-- and the entry behind that, if there is one, goes too.
def passRemovedEntry : Nat → List Token → Option (List Token)
  | 0, _ => none
  | budget + 1, tokens =>
    match skipBlanks tokens with
    | slashdash :: rest => do
      let rest ← passRemovedEntry budget (skipLines rest)
      some ((passRemovedEntry budget rest).getD rest)
    | rest => do
      let (_, rest) ← entry? rest
      some rest

end Token

open Token

-- How much of a node is still to come: entries and a block, a block only, or removed blocks only.
inductive Phase where
  | entries
  | block
  | done
deriving DecidableEq

-- Every call passes at least one token or goes one level deeper into a call that does, so a small
-- multiple of the number of tokens is enough budget.
mutual

def readNodes : Nat → List Token → Option (List Node × List Token)
  | 0, _ => none
  | budget + 1, tokens => do
    match ← passRemoved budget tokens with
    | [] => some ([], [])
    | closeBrace :: rest => some ([], closeBrace :: rest)
    | tokens => do
      let (node, rest) ← readNode budget tokens
      match endNode? rest with
      | some rest => do
        let (nodes, rest) ← readNodes budget rest
        some (node :: nodes, rest)
      | none => (passRemoved budget rest).map ([node], ·)

def passRemoved : Nat → List Token → Option (List Token)
  | 0, _ => none
  | budget + 1, tokens =>
    match skipLines tokens with
    | slashdash :: rest => do
      let (_, rest) ← readNode budget (skipLines rest)
      passRemoved budget rest
    | rest => some rest

def readNode : Nat → List Token → Option (Node × List Token)
  | 0, _ => none
  | budget + 1, tokens =>
    match annotatedValue? tokens with
    | some (.text name, rest) => do
      let (entries, children, rest) ← readContent budget .entries rest
      some (.mk name entries children, rest)
    | _ => none

def readContent : Nat → Phase → List Token → Option (List Entry × Option (List Node) × List Token)
  | 0, _, _ => none
  | budget + 1, phase, tokens =>
    match skipBlanks tokens with
    | slashdash :: rest =>
      match skipLines rest with
      | openBrace :: inside => do
        let (_, rest) ← readBlock budget inside
        readContent budget (if phase = .entries then .block else phase) rest
      | removed =>
        if phase = .entries then do
          let rest ← passRemovedEntry budget removed
          readContent budget .entries rest
        else some ([], none, slashdash :: rest)
    | openBrace :: rest =>
      if phase = .done then none
      else do
        let (children, rest) ← readBlock budget rest
        let (_, _, rest) ← readContent budget .done rest
        some ([], some children, rest)
    | value v :: rest => readEntry budget phase (value v :: rest)
    | openParen :: rest => readEntry budget phase (openParen :: rest)
    | rest => some ([], none, rest)

def readEntry : Nat → Phase → List Token → Option (List Entry × Option (List Node) × List Token)
  | 0, _, _ => none
  | budget + 1, phase, tokens =>
    if phase = .entries then do
      let (entry, rest) ← entry? tokens
      let (entries, children, rest) ← readContent budget .entries rest
      some (entry :: entries, children, rest)
    else some ([], none, tokens)

def readBlock : Nat → List Token → Option (List Node × List Token)
  | 0, _ => none
  | budget + 1, tokens => do
    match ← readNodes budget tokens with
    | (nodes, closeBrace :: rest) => some (nodes, rest)
    | _ => none

end

def parse? (text : String) : Option (List Node) := do
  let tokens ← Token.ofText? text
  match ← readNodes (4 * tokens.length + 4) tokens with
  | (nodes, []) => some nodes
  | _ => none

end ScopedAccess.Kdl
