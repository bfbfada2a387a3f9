import ScopedAccess.Number

namespace ScopedAccess.Kdl

inductive Value where
  | text (content : String)
  | number (lexeme : String)
  | boolean (flag : Bool)
  | null
deriving DecidableEq, Repr

def Value.text? : Value → Option String
  | text content => some content
  | _ => none

structure Entry where
  key : Option String
  value : Value
deriving DecidableEq, Repr

-- `children` tells a node without a block from one whose block is empty.
inductive Node where
  | mk (name : String) (entries : List Entry) (children : Option (List Node))
deriving Repr

namespace Node

def name : Node → String
  | mk name _ _ => name

def entries : Node → List Entry
  | mk _ entries _ => entries

def children : Node → Option (List Node)
  | mk _ _ children => children

def property? (n : Node) (key : String) : Option Value :=
  (n.entries.reverse.find? fun e => e.key = some key).map (·.value)

def textProperty? (n : Node) (key : String) : Option String := n.property? key >>= Value.text?

def label? (n : Node) : Option String := (n.entries.find? fun e => e.key.isNone) >>= fun e => e.value.text?

end Node

def within (ranges : List (Nat × Nat)) (c : Char) : Bool := ranges.any fun (low, high) => low ≤ c.toNat && c.toNat ≤ high

def isBlank (c : Char) : Bool :=
  within [(0x09, 0x09), (0x20, 0x20), (0xA0, 0xA0), (0x1680, 0x1680), (0x2000, 0x200A), (0x202F, 0x202F),
    (0x205F, 0x205F), (0x3000, 0x3000)] c

def isLineEnd (c : Char) : Bool := within [(0x0A, 0x0D), (0x85, 0x85), (0x2028, 0x2029)] c

-- Controls, direction marks and a byte order mark may only be written as escapes.
def isForbidden (c : Char) : Bool :=
  within [(0x00, 0x08), (0x0E, 0x1F), (0x200E, 0x200F), (0x202A, 0x202E), (0x2066, 0x2069), (0xFEFF, 0xFEFF)] c

def isPunctuation (c : Char) : Bool := "\\/(){};[]\"#=".toList.contains c

def isWordChar (c : Char) : Bool := !(isBlank c || isLineEnd c || isForbidden c || isPunctuation c)

def digitRun (isDigit : Char → Bool) : List Char → Option (List Char × List Char)
  | [] => none
  | c :: rest =>
    if isDigit c then
      let run := rest.takeWhile fun d => isDigit d || d = '_'
      some (c :: run.filter isDigit, rest.drop run.length)
    else none

-- Every run of digits has to fit a signed 128-bit integer before any sign is applied.
def fits (base : Nat) (digits : List Char) : Bool :=
  digits.foldl (fun n d => n * base + (hexValue? d).getD 0) 0 < twoTo 127

def isHexDigit (c : Char) : Bool := (hexValue? c).isSome

def isWhole (base : Nat) (isDigit : Char → Bool) (text : List Char) : Bool :=
  match digitRun isDigit text with
  | some (digits, []) => fits base digits
  | _ => false

def unsigned : List Char → List Char
  | '+' :: rest => rest
  | '-' :: rest => rest
  | text => text

def isExponent : List Char → Bool
  | c :: rest => (c = 'e' || c = 'E') && isWhole 10 Char.isDigit (unsigned rest)
  | [] => false

def isDecimal (text : List Char) : Bool :=
  match digitRun Char.isDigit text with
  | none => false
  | some (digits, rest) =>
    fits 10 digits &&
      match rest with
      | [] => true
      | '.' :: fraction =>
        match digitRun Char.isDigit fraction with
        | some (digits, tail) => fits 10 digits && (tail.isEmpty || isExponent tail)
        | none => false
      | tail => isExponent tail

def isNumber (word : List Char) : Bool :=
  match unsigned word with
  | '0' :: base :: digits =>
    match base.toLower with
    | 'x' => isWhole 16 isHexDigit digits
    | 'o' => isWhole 8 (fun c => '0' ≤ c && c ≤ '7') digits
    | 'b' => isWhole 2 (fun c => c = '0' || c = '1') digits
    | _ => isDecimal ('0' :: base :: digits)
  | text => isDecimal text

-- A digit, also behind a sign, a point or both, announces a number.
def announcesNumber (word : List Char) : Bool :=
  match unsigned word with
  | '.' :: c :: _ => c.isDigit
  | c :: _ => c.isDigit
  | [] => false

-- Words too close to a keyword to be text.
def reservedWords : List String := ["true", "false", "null", "inf", "nan"]

def wordValue? (word : List Char) : Option Value :=
  let content := String.ofList word
  if announcesNumber word then (if isNumber word then some (.number content) else none)
  else if content ∈ reservedWords then none
  else some (.text content)

def keyword? (word : List Char) : Option Value :=
  match String.ofList word with
  | "true" => some (.boolean true)
  | "false" => some (.boolean false)
  | "null" => some .null
  | "inf" => some (.number "inf")
  | "-inf" => some (.number "-inf")
  | "nan" => some (.number "nan")
  | _ => none

inductive Piece where
  | plain (c : Char)
  | escaped (c : Char)
  | lineEnd
deriving DecidableEq, Repr

namespace Piece

def char : Piece → Char
  | plain c => c
  | escaped c => c
  | lineEnd => '\n'

def isIndent : Piece → Bool
  | plain c => isBlank c
  | _ => false

end Piece

-- Where a reader stands inside a body: on plain text, after a backslash, inside the run of white
-- space that a backslash swallows, or inside a code point escape.
inductive Mode where
  | plain
  | escape
  | swallow
  | codeOpen
  | code (digits : List Char)

def escapeOf? : Char → Option Char
  | 'n' => some '\n'
  | 'r' => some '\r'
  | 't' => some '\t'
  | '\\' => some '\\'
  | '"' => some '"'
  | 'b' => some '\x08'
  | 'f' => some '\x0c'
  | 's' => some ' '
  | _ => none

def codePoint? (digits : List Char) : Option Char :=
  let n := digits.foldl (fun n d => n * 16 + (hexValue? d).getD 0) 0
  if digits.isEmpty || digits.length > 6 then none
  else if valid : n.isValidChar then some (Char.ofNatAux n valid) else none

-- The pieces up to `close`, and what follows it. `multiline` admits line ends as they stand.
def escapedBody (close : List Char) (multiline : Bool) : Mode → List Char → Option (List Piece × List Char)
  | _, [] => none
  | .escape, c :: rest =>
    if isBlank c || isLineEnd c then escapedBody close multiline .swallow rest
    else if c = 'u' then escapedBody close multiline .codeOpen rest
    else match escapeOf? c with
      | some d => (escapedBody close multiline .plain rest).map fun (pieces, after) => (.escaped d :: pieces, after)
      | none => none
  | .codeOpen, c :: rest => if c = '{' then escapedBody close multiline (.code []) rest else none
  | .code digits, c :: rest =>
    if isHexDigit c then escapedBody close multiline (.code (digits ++ [c])) rest
    else if c = '}' then
      match codePoint? digits with
      | some d => (escapedBody close multiline .plain rest).map fun (pieces, after) => (.escaped d :: pieces, after)
      | none => none
    else none
  | mode, c :: rest =>
    let swallowing := match mode with | .swallow => true | _ => false
    if swallowing && (isBlank c || isLineEnd c) then escapedBody close multiline .swallow rest
    else if close.isPrefixOf (c :: rest) then some ([], (c :: rest).drop close.length)
    else if c = '\\' then escapedBody close multiline .escape rest
    else if isLineEnd c then
      if multiline then
        -- A carriage return before a line feed belongs to the same line end.
        if c = '\r' && rest.head? = some '\n' then escapedBody close multiline .plain rest
        else (escapedBody close multiline .plain rest).map fun (pieces, after) => (.lineEnd :: pieces, after)
      else none
    else if isForbidden c then none
    else (escapedBody close multiline .plain rest).map fun (pieces, after) => (.plain c :: pieces, after)

def rawBody (close : List Char) (multiline : Bool) : List Char → Option (List Piece × List Char)
  | [] => none
  | c :: rest =>
    if close.isPrefixOf (c :: rest) then some ([], (c :: rest).drop close.length)
    else if isLineEnd c then
      if multiline then
        if c = '\r' && rest.head? = some '\n' then rawBody close multiline rest
        else (rawBody close multiline rest).map fun (pieces, after) => (.lineEnd :: pieces, after)
      else none
    else if isForbidden c then none
    else (rawBody close multiline rest).map fun (pieces, after) => (.plain c :: pieces, after)

def splitLines : List Piece → List (List Piece)
  | [] => [[]]
  | .lineEnd :: rest => [] :: splitLines rest
  | piece :: rest =>
    match splitLines rest with
    | line :: lines => (piece :: line) :: lines
    | [] => [[piece]]

-- A line of nothing but indentation is empty; any other has to start with `indent`.
def dedent (indent line : List Piece) : Option (List Char) :=
  if line.all Piece.isIndent then some []
  else if indent.isPrefixOf line then some ((line.drop indent.length).map Piece.char)
  else none

-- The lines before the closing one, which holds nothing but the indentation.
def unindented (pieces : List Piece) : Option (List Char) :=
  let lines := splitLines pieces
  let indent := lines.getLastD []
  if indent.all Piece.isIndent then
    (lines.dropLast.mapM (dedent indent)).map fun texts => List.intercalate ['\n'] texts
  else none

def afterLineEnd : List Char → Option (List Char)
  | '\r' :: '\n' :: rest => some rest
  | c :: rest => if isLineEnd c then some rest else none
  | [] => none

def openedLines? : List Char → Option (List Char)
  | '"' :: '"' :: rest => afterLineEnd rest
  | _ => none

def quoted (text : List Char) : Option (String × List Char) :=
  match openedLines? text with
  | some body => do
    let (pieces, after) ← escapedBody ['"', '"', '"'] true .plain body
    let content ← unindented pieces
    some (String.ofList content, after)
  | none => do
    let (pieces, after) ← escapedBody ['"'] false .plain text
    some (String.ofList (pieces.map Piece.char), after)

-- Reads what follows the first quote of raw text opened by `hashes`. Raw text that is one quote would
-- look like an opening of several lines, so it cannot be written.
def rawQuoted (hashes text : List Char) : Option (String × List Char) := do
  let (content, after) ← match openedLines? text with
    | some body => do
      let (pieces, after) ← rawBody ('"' :: '"' :: '"' :: hashes) true body
      (unindented pieces).map (·, after)
    | none => (rawBody ('"' :: hashes) false text).map fun (pieces, after) => (pieces.map Piece.char, after)
  if content = ['"'] then none else some (String.ofList content, after)

inductive Token where
  | blank
  | lineEnd
  | continuation
  | semicolon
  | openBrace
  | closeBrace
  | openParen
  | closeParen
  | equals
  | slashdash
  | value (v : Value)
deriving DecidableEq, Repr

namespace Token

def skipBlockComment : Nat → List Char → Option (List Char)
  | _, [] => none
  | 0, '*' :: '/' :: rest => some rest
  | depth + 1, '*' :: '/' :: rest => skipBlockComment depth rest
  | depth, '/' :: '*' :: rest => skipBlockComment (depth + 1) rest
  | depth, _ :: rest => skipBlockComment depth rest

def skipLineComment (text : List Char) : List Char :=
  (afterLineEnd (text.dropWhile (!isLineEnd ·))).getD []

def next? (c : Char) (rest : List Char) : Option (Token × List Char) :=
  match c with
  | ';' => some (semicolon, rest)
  | '{' => some (openBrace, rest)
  | '}' => some (closeBrace, rest)
  | '(' => some (openParen, rest)
  | ')' => some (closeParen, rest)
  | '=' => some (equals, rest)
  | '\\' => some (continuation, rest)
  | '/' =>
    match rest with
    | '-' :: after => some (slashdash, after)
    | '/' :: after => some (lineEnd, skipLineComment after)
    | '*' :: after => (skipBlockComment 0 after).map (blank, ·)
    | _ => none
  | '"' => (quoted rest).map fun (content, after) => (value (.text content), after)
  | '#' =>
    let hashes := '#' :: rest.takeWhile (· = '#')
    match rest.dropWhile (· = '#') with
    | '"' :: body => (rawQuoted hashes body).map fun (content, after) => (value (.text content), after)
    | after =>
      if hashes.length = 1 then
        let word := after.takeWhile isWordChar
        (keyword? word).map (value ·, after.drop word.length)
      else none
  | _ =>
    if isLineEnd c then (afterLineEnd (c :: rest)).map (lineEnd, ·)
    else if isBlank c then some (blank, rest.dropWhile isBlank)
    else if isWordChar c then
      let word := c :: rest.takeWhile isWordChar
      (wordValue? word).map (value ·, rest.dropWhile isWordChar)
    else none

-- Every token takes a character, so the length of the text bounds their number.
def scan : Nat → List Char → Option (List Token)
  | _, [] => some []
  | 0, _ :: _ => none
  | budget + 1, c :: rest => do
    let (token, after) ← next? c rest
    let tokens ← scan budget after
    some (token :: tokens)

-- A backslash joins its line with the next: nothing but blanks may stand between it and the end.
def joinLines : List Token → Option (List Token)
  | [] => some []
  | continuation :: rest =>
    match rest.dropWhile (· = blank) with
    | [] => some []
    | lineEnd :: _ => (joinLines rest).map fun tokens => blank :: (tokens.dropWhile (· = blank)).drop 1
    | _ => none
  | token :: rest => (joinLines rest).map (token :: ·)

def isValue : Token → Bool
  | value _ => true
  | _ => false

def mayFollowValue : Token → Bool
  | value _ => false
  | openParen => false
  | slashdash => false
  | _ => true

def valuesApart : List Token → Bool
  | token :: next :: rest => (!token.isValue || next.mayFollowValue) && valuesApart (next :: rest)
  | _ => true

def ofText? (text : String) : Option (List Token) := do
  let chars := match text.toList with
    | '\uFEFF' :: rest => rest
    | chars => chars
  let tokens ← scan chars.length chars >>= joinLines
  if valuesApart tokens then some tokens else none

end Token

end ScopedAccess.Kdl
