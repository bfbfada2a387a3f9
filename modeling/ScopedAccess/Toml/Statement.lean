namespace ScopedAccess.Toml

inductive TokenKind where
  | openBracket
  | closeBracket
  | openBrace
  | closeBrace
  | dot
  | equals
  | comma
  | blank
  | lineEnd
  | comment
  | atom
  | basic
  | literal
  | longBasic
  | longLiteral
  | ending
deriving DecidableEq, Repr

structure Token where
  kind : TokenKind
  start : Nat
  text : List Char
deriving DecidableEq, Repr

namespace Token

def stop (t : Token) : Nat := t.start + t.text.length

def isQuoted (t : Token) : Bool :=
  match t.kind with
  | .basic => true
  | .literal => true
  | .longBasic => true
  | .longLiteral => true
  | _ => false

-- The length of a quoted text up to its closing quote, or up to the end of the line.
def basicLength : List Char → Nat
  | [] => 0
  | '"' :: _ => 1
  | '\n' :: _ => 0
  | '\\' :: '"' :: rest => basicLength rest + 2
  | '\\' :: '\\' :: rest => basicLength rest + 2
  | _ :: rest => basicLength rest + 1

def literalLength : List Char → Nat
  | [] => 0
  | '\'' :: _ => 1
  | '\n' :: _ => 0
  | _ :: rest => literalLength rest + 1

-- Three quotes close a long text; up to two more belong to it.
def closingLength (quote : Char) (text : List Char) : Nat := min 5 (text.takeWhile (· = quote)).length

def longBasicLength : List Char → Nat
  | [] => 0
  | '"' :: '"' :: '"' :: rest => 3 + closingLength '"' (rest.take 2)
  | '\\' :: '"' :: rest => longBasicLength rest + 2
  | '\\' :: '\\' :: rest => longBasicLength rest + 2
  | _ :: rest => longBasicLength rest + 1

def longLiteralLength : List Char → Nat
  | [] => 0
  | '\'' :: '\'' :: '\'' :: rest => 3 + closingLength '\'' (rest.take 2)
  | _ :: rest => longLiteralLength rest + 1

def isBlankChar (c : Char) : Bool := c = ' ' || c = '\t'

-- An atom may hold quotes: the opening one may have been forgotten.
def endsAtom (c : Char) : Bool := isBlankChar c || ".=,[]\x7b\x7d#\r\n".toList.contains c

-- A carriage return ends a comment, with or without a line feed behind it.
def commentLength (text : List Char) : Nat := (text.takeWhile fun c => c ≠ '\n' && c ≠ '\r').length

def measure (c : Char) (rest : List Char) : TokenKind × Nat :=
  match c, rest with
  | '[', _ => (.openBracket, 1)
  | ']', _ => (.closeBracket, 1)
  | '\x7b', _ => (.openBrace, 1)
  | '\x7d', _ => (.closeBrace, 1)
  | '.', _ => (.dot, 1)
  | '=', _ => (.equals, 1)
  | ',', _ => (.comma, 1)
  | '\n', _ => (.lineEnd, 1)
  | '\r', '\n' :: _ => (.lineEnd, 2)
  | '\r', _ => (.lineEnd, 1)
  | '#', _ => (.comment, 1 + commentLength rest)
  | '"', '"' :: '"' :: text => (.longBasic, 3 + longBasicLength text)
  | '"', _ => (.basic, 1 + basicLength rest)
  | '\'', '\'' :: '\'' :: text => (.longLiteral, 3 + longLiteralLength text)
  | '\'', _ => (.literal, 1 + literalLength rest)
  | _, _ =>
    if isBlankChar c then (.blank, 1 + (rest.takeWhile isBlankChar).length)
    else (.atom, 1 + (rest.takeWhile (!endsAtom ·)).length)

-- Every token takes a character, so the length of the text bounds their number.
def scan : Nat → Nat → List Char → List Token
  | 0, start, _ => [⟨.ending, start, []⟩]
  | _, start, [] => [⟨.ending, start, []⟩]
  | budget + 1, start, c :: rest =>
    let (kind, length) := measure c rest
    ⟨kind, start, (c :: rest).take length⟩ :: scan budget (start + length) ((c :: rest).drop length)

def ofText (text : List Char) : List Token := scan text.length 0 text

def isControl (c : Char) : Bool := (c.toNat < 0x20 && c ≠ '\t') || c.toNat = 0x7F

-- The place of what is wrong with a comment or a line end: a control character, or what stands where a
-- carriage return misses its line feed.
def stray? (t : Token) : Option Nat :=
  match t.kind with
  | .comment =>
    let sound := t.text.takeWhile (!isControl ·)
    if sound.length < t.text.length then some (t.start + sound.length) else none
  | .lineEnd => if t.text = ['\r'] then some (t.start + 1) else none
  | _ => none

def requireSound (t : Token) : Except Nat Unit :=
  match t.stray? with
  | some place => .error place
  | none => .ok ()

def isMeaningful (t : Token) : Bool :=
  match t.kind with
  | .blank => false
  | .lineEnd => false
  | .comment => false
  | .ending => false
  | _ => true

def lastStop (tokens : List Token) : Nat := tokens.foldl (fun place t => if t.isMeaningful then t.stop else place) 0

end Token

-- Text of a key or a scalar as written. A missing one is an atom without characters.
structure Raw where
  kind : TokenKind
  start : Nat
  text : List Char
deriving DecidableEq, Repr

-- The last keys of a table may lack a value; they then set nothing.
inductive RawValue where
  | scalar (raw : Raw)
  | array (items : List RawValue)
  | table (entries : List (List Raw × RawValue)) (unset : List Raw)

inductive Statement where
  | header (isArray : Bool) (keys : List Raw)
  | entry (keys : List Raw) (value : RawValue)

namespace Statement

def Raw.ofToken (t : Token) : Raw := ⟨t.kind, t.start, t.text⟩

def absent (place : Nat) : Raw := ⟨.atom, place, []⟩

def skipBlanks (tokens : List Token) : List Token := tokens.dropWhile fun t => t.kind = .blank

def place : List Token → Nat
  | [] => 0
  | t :: _ => t.start

def isKey (t : Token) : Bool := t.isQuoted || t.kind = .atom

def readKey (tokens : List Token) : Raw × List Token :=
  match skipBlanks tokens with
  | t :: rest => if isKey t then (Raw.ofToken t, rest) else (absent t.start, t :: rest)
  | [] => (absent 0, [])

-- The keys behind dots. They end at a token that is neither, after an absent key.
def moreKeys : Nat → List Token → List Raw × List Token
  | 0, tokens => ([], tokens)
  | budget + 1, tokens =>
    match skipBlanks tokens with
    | ⟨.dot, _, _⟩ :: rest =>
      let (key, after) := readKey rest
      let (keys, after) := moreKeys budget after
      (key :: keys, after)
    | _ => ([], tokens)

def readKeys (tokens : List Token) : List Raw × List Token :=
  let (key, rest) := readKey tokens
  let (keys, rest) := moreKeys tokens.length rest
  (key :: keys, rest)

-- Atoms and dots in a row are one scalar, and so are those behind blanks: the text then lacks quotes,
-- or is a date and a time.
def scalarText : List Token → List Char × List Token
  | ⟨.atom, _, text⟩ :: rest => let (more, after) := scalarText rest; (text ++ more, after)
  | ⟨.dot, _, text⟩ :: rest => let (more, after) := scalarText rest; (text ++ more, after)
  | ⟨.blank, start, blanks⟩ :: ⟨.atom, next, text⟩ :: rest =>
    let (more, after) := scalarText (⟨.atom, next, text⟩ :: rest)
    if more.isEmpty then ([], ⟨.blank, start, blanks⟩ :: ⟨.atom, next, text⟩ :: rest) else (blanks ++ more, after)
  | tokens => ([], tokens)

inductive Expecting where
  | item
  | separator
deriving DecidableEq, Repr

-- The next part of an array or an inline table: blanks, line ends and comments may stand in front. What
-- has no end ends at `finish`.
def next (finish : Nat) : List Token → Except Nat (Token × List Token)
  | [] => .error finish
  | t :: rest =>
    match t.kind with
    | .blank => next finish rest
    | .comment => do
      t.requireSound
      next finish rest
    | .lineEnd => do
      t.requireSound
      next finish rest
    | .ending => .error finish
    | _ => .ok (t, rest)

def passLine : List Token → Except Nat (List Token)
  | [] => .ok []
  | t :: rest =>
    match t.kind with
    | .ending => .ok (t :: rest)
    | .lineEnd => do
      t.requireSound
      .ok rest
    | .comment => do
      t.requireSound
      passLine rest
    | _ => passLine rest

def depthLimit : Nat := 80

-- `depth` counts the brackets around. Every call takes a token, or is followed by one that does.
mutual

def readValue : Nat → Nat → Nat → List Token → Except Nat (RawValue × List Token)
  | 0, _, _, tokens => .error (place tokens)
  | budget + 1, finish, depth, tokens =>
    match skipBlanks tokens with
    | [] => .error finish
    | t :: rest =>
      match t.kind with
      | .openBracket => do
        if depth = depthLimit then .error t.start
        let (items, rest) ← readItems budget finish (depth + 1) .item rest
        .ok (.array items, rest)
      | .openBrace => do
        if depth = depthLimit then .error t.start
        let (entries, unset, rest) ← readEntries budget finish (depth + 1) rest
        .ok (.table entries unset, rest)
      | .atom =>
        let (text, rest) := scalarText (t :: rest)
        .ok (.scalar ⟨.atom, t.start, text⟩, rest)
      | .dot =>
        let (text, rest) := scalarText (t :: rest)
        .ok (.scalar ⟨.atom, t.start, text⟩, rest)
      | .comment => .ok (.scalar (absent t.start), t :: rest)
      | .comma => .ok (.scalar (absent t.start), t :: rest)
      | .lineEnd => .ok (.scalar (absent t.start), t :: rest)
      | .ending => .ok (.scalar (absent t.start), t :: rest)
      | _ => if t.isQuoted then .ok (.scalar (Raw.ofToken t), rest) else .error t.start

def readItems : Nat → Nat → Nat → Expecting → List Token → Except Nat (List RawValue × List Token)
  | 0, _, _, _, tokens => .error (place tokens)
  | budget + 1, finish, depth, expecting, tokens => do
    let (t, rest) ← next finish tokens
    match t.kind, expecting with
    | .closeBracket, _ => return ([], rest)
    | .comma, .separator => readItems budget finish depth .item rest
    | .comma, .item => throw t.start
    | _, .separator => throw t.start
    | _, .item => do
      let (item, rest) ← readValue budget finish depth (t :: rest)
      let (items, rest) ← readItems budget finish depth .separator rest
      return (item :: items, rest)

def readEntries : Nat → Nat → Nat → List Token →
    Except Nat (List (List Raw × RawValue) × List Raw × List Token)
  | 0, _, _, tokens => .error (place tokens)
  | budget + 1, finish, depth, tokens => do
    let (t, rest) ← next finish tokens
    if t.kind = .closeBrace then return ([], [], rest)
    unless isKey t || t.kind = .dot || t.kind = .equals do throw t.start
    let (keys, rest) := readKeys (t :: rest)
    let (t, rest) ← next finish rest
    if t.kind = .closeBrace then return ([], keys, rest)
    unless t.kind = .equals do throw t.start
    let (t, rest) ← next finish rest
    if t.kind = .closeBrace then return ([], keys, rest)
    if t.kind = .comma then throw t.start
    let (value, rest) ← readValue budget finish depth (t :: rest)
    let (t, rest) ← next finish rest
    if t.kind = .closeBrace then return ([(keys, value)], [], rest)
    unless t.kind = .comma do throw t.start
    let (entries, unset, rest) ← readEntries budget finish depth rest
    return ((keys, value) :: entries, unset, rest)

end

-- Nothing but blanks and a comment may stand on the rest of the line.
def readLineEnd (tokens : List Token) : Except Nat (List Token) := do
  match skipBlanks tokens with
  | [] => .ok []
  | t :: rest =>
    match t.kind with
    | .ending => .ok (t :: rest)
    | .comment => passLine (t :: rest)
    | .lineEnd => passLine (t :: rest)
    | _ => .error t.start

-- Keys that end where a key should stand are incomplete.
def areComplete (keys : List Raw) : Bool := keys.getLast?.all (!·.text.isEmpty)

-- A header behind its first bracket. A header that is not closed lacks it right behind its last key; of
-- one that lacks a key too, only the key is missed, when its keys are read.
def readHeader (tokens : List Token) : Except Nat (Statement × List Token) := do
  let (isArray, tokens) := match tokens with
    | ⟨.openBracket, _, _⟩ :: rest => (true, rest)
    | _ => (false, tokens)
  let (keys, rest) := readKeys tokens
  match skipBlanks rest, isArray with
  | ⟨.closeBracket, _, _⟩ :: rest, false => do
    let rest ← readLineEnd rest
    .ok (.header false keys, rest)
  | ⟨.closeBracket, _, _⟩ :: ⟨.closeBracket, _, _⟩ :: rest, true => do
    let rest ← readLineEnd rest
    .ok (.header true keys, rest)
  | ⟨.closeBracket, start, _⟩ :: _, true => .error (start + 1)
  | _, _ => do
    if areComplete keys then .error (place rest)
    let rest ← passLine rest
    .ok (.header isArray keys, rest)

def readEntry (finish : Nat) (tokens : List Token) : Except Nat (Statement × List Token) := do
  let (keys, rest) := readKeys tokens
  match skipBlanks rest with
  | ⟨.equals, _, _⟩ :: rest => do
    let (value, rest) ← readValue (2 * tokens.length) finish 0 rest
    let rest ← readLineEnd rest
    .ok (.entry keys value, rest)
  | rest => .error (place rest)

def readAll : Nat → Nat → List Token → Except Nat (List Statement)
  | 0, _, _ => .ok []
  | budget + 1, finish, tokens =>
    match tokens with
    | [] => .ok []
    | t :: rest =>
      match t.kind with
      | .blank => readAll budget finish rest
      | .lineEnd => do
        t.requireSound
        readAll budget finish rest
      | .comment => do
        t.requireSound
        readAll budget finish rest
      | .ending => .ok []
      | .openBracket => do
        let (first, rest) ← readHeader rest
        let statements ← readAll budget finish rest
        .ok (first :: statements)
      | .closeBracket => .error t.start
      | .comma => .error t.start
      | .openBrace => .error t.start
      | .closeBrace => .error t.start
      | _ => do
        let (first, rest) ← readEntry finish (t :: rest)
        let statements ← readAll budget finish rest
        .ok (first :: statements)

def ofTokens (tokens : List Token) : Except Nat (List Statement) :=
  readAll tokens.length (Token.lastStop tokens) tokens

end Statement

end ScopedAccess.Toml
