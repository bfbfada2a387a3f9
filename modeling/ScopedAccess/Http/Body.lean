import ScopedAccess.Utf8

namespace ScopedAccess.Http

structure MediaType where
  type : String
  subtype : String
deriving DecidableEq, Repr

namespace MediaType

def isTokenChar (c : Char) : Bool := c.isAlphanum || "!#$%&'*+-.^_`|~".toList.contains c

def afterQuoted? : List Char → Option (List Char)
  | [] => none
  | c :: rest =>
    if c.toNat < 32 then none
    else
      match rest.dropWhile fun d => d ≠ '"' && 32 ≤ d.toNat with
      | '"' :: after => some (after.dropWhile (· = ' '))
      | _ => none

def afterValue? (text : List Char) : Option (List Char) :=
  match text with
  | '"' :: quoted => afterQuoted? quoted
  | _ => some (text.dropWhile isTokenChar)

-- Parameters without the semicolon in front of them; blanks may stand before each.
def areParameters : Nat → List Char → Bool
  | 0, _ => false
  | budget + 1, text =>
    match text.dropWhile (· = ' ') with
    | [] => true
    | text =>
      match text.takeWhile isTokenChar, text.dropWhile isTokenChar with
      | _ :: _, '=' :: value =>
        match afterValue? value with
        | some [] => true
        | some (';' :: rest) => value.head? ≠ some ';' && areParameters budget rest
        | _ => false
      | _, _ => false

def parse? (text : String) : Option MediaType :=
  let chars := text.toList
  let type := chars.takeWhile isTokenChar
  match chars.dropWhile isTokenChar with
  | '/' :: rest =>
    let subtype := rest.takeWhile isTokenChar
    let valid := match rest.dropWhile isTokenChar with
      | [] => true
      | ';' :: parameters => !subtype.isEmpty && areParameters chars.length parameters
      | _ => false
    if type.isEmpty || !valid || chars.any (126 < ·.toNat) then none
    else some ⟨(String.ofList type).toLower, (String.ofList subtype).toLower⟩
  | _ => none

-- A subtype splits at its last plus, unless that stands in front of everything.
def isJson (m : MediaType) : Bool :=
  m.type = "application" && (m.subtype = "json" ||
    match splitAtLast '+' m.subtype.toList with
    | some (c :: before, after) => String.ofList (c :: before) = "json" || String.ofList after = "json"
    | _ => false)

end MediaType

inductive BodyFault where
  | malformed
  | mismatched
deriving DecidableEq, Repr

inductive FieldKind where
  | text
  -- a count may be absent or null
  | count
deriving DecidableEq, Repr

inductive FieldValue where
  | text (s : String)
  | count (n : Option Nat)
deriving DecidableEq, Repr

abbrev Fields := List (String × FieldValue)

def Fields.text? (fields : Fields) (name : String) : Option String :=
  match fields.lookup name with
  | some (.text s) => some s
  | _ => none

def Fields.count? (fields : Fields) (name : String) : Option Nat :=
  match fields.lookup name with
  | some (.count n) => n
  | _ => none

namespace Body

def isBlank (c : Char) : Bool := c = ' ' || c = '\t' || c = '\n' || c = '\r'

def skipBlanks (text : List Char) : List Char := text.dropWhile isBlank

def codeUnit? (a b c d : Char) : Option Nat := do
  let a ← hexValue? a
  let b ← hexValue? b
  let c ← hexValue? c
  let d ← hexValue? d
  some (((a * 16 + b) * 16 + c) * 16 + d)

def isHighSurrogate (n : Nat) : Bool := 0xD800 ≤ n && n < 0xDC00

def isLowSurrogate (n : Nat) : Bool := 0xDC00 ≤ n && n < 0xE000

def pair (high low : Nat) : Char := Char.ofNat (0x10000 + (high - 0xD800) * 0x400 + (low - 0xDC00))

def escape? (c : Char) : Option Char :=
  match c with
  | '"' => some '"'
  | '\\' => some '\\'
  | '/' => some '/'
  | 'b' => some '\x08'
  | 'f' => some '\x0c'
  | 'n' => some '\n'
  | 'r' => some '\r'
  | 't' => some '\t'
  | _ => none

def isControl (c : Char) : Bool := c.toNat < 0x20

-- The content of a string behind its opening quote, and the rest. A character beyond the first 65536
-- is written as two code units; `high` is the first of such a pair, and neither stands alone.
def string? : Option Nat → List Char → Option (List Char × List Char)
  | high, '\\' :: 'u' :: a :: b :: c :: d :: rest =>
    match high, codeUnit? a b c d with
    | _, none => none
    | some h, some n =>
      if isLowSurrogate n then (string? none rest).map fun (content, rest) => (pair h n :: content, rest) else none
    | none, some n =>
      if isHighSurrogate n then string? (some n) rest
      else if isLowSurrogate n then none
      else (string? none rest).map fun (content, rest) => (Char.ofNat n :: content, rest)
  | some _, _ => none
  | none, [] => none
  | none, '"' :: rest => some ([], rest)
  | none, '\\' :: c :: rest =>
    match escape? c with
    | none => none
    | some d => (string? none rest).map fun (content, rest) => (d :: content, rest)
  | none, c :: rest =>
    if isControl c then none else (string? none rest).map fun (content, rest) => (c :: content, rest)

-- The rest behind a string whose content is not asked for; code units may stand alone in it.
def afterString? : List Char → Option (List Char)
  | [] => none
  | '"' :: rest => some rest
  | '\\' :: 'u' :: a :: b :: c :: d :: rest =>
    match codeUnit? a b c d with
    | none => none
    | some _ => afterString? rest
  | '\\' :: c :: rest =>
    match escape? c with
    | none => none
    | some _ => afterString? rest
  | c :: rest => if isControl c then none else afterString? rest

-- A number as written: `digits * 10 ^ power`. It is `whole` without a point and an exponent.
structure Number where
  negative : Bool
  digits : List Char
  power : Int
  whole : Bool

namespace Number

def ofDigits (digits : List Char) : Nat := digits.foldl (fun n c => n * 10 + (c.toNat - '0'.toNat)) 0

def value (n : Number) : Nat := ofDigits n.digits

def isInfinite (n : Number) : Bool :=
  match Binary64.ofDecimal n.negative n.value n.power with
  | .infinite _ => true
  | _ => false

def count? (n : Number) : Option Nat := if n.whole && !n.negative && n.value < twoTo 64 then some n.value else none

end Number

def digits? (text : List Char) : Option (List Char × List Char) :=
  match text.takeWhile Char.isDigit with
  | [] => none
  | digits => some (digits, text.dropWhile Char.isDigit)

-- A zero in front of other digits is refused.
def wholePart? (text : List Char) : Option (List Char × List Char) :=
  match digits? text with
  | some ('0' :: _ :: _, _) => none
  | found => found

def exponentPart? (text : List Char) : Option (Int × List Char × Bool) :=
  match text with
  | c :: rest =>
    if c = 'e' || c = 'E' then
      let (negative, rest) := match rest with
        | '-' :: rest => (true, rest)
        | '+' :: rest => (false, rest)
        | _ => (false, rest)
      (digits? rest).map fun (digits, rest) =>
        let n : Int := Number.ofDigits digits
        (if negative then -n else n, rest, true)
    else some (0, text, false)
  | [] => some (0, [], false)

def number? (text : List Char) : Option (Number × List Char) := do
  let (negative, rest) := match text with
    | '-' :: rest => (true, rest)
    | _ => (false, text)
  let (whole, rest) ← wholePart? rest
  let (fraction, rest, pointed) ← match rest with
    | '.' :: after => (digits? after).map fun (fraction, rest) => (fraction, rest, true)
    | _ => some ([], rest, false)
  let (power, rest, powered) ← exponentPart? rest
  some (⟨negative, whole ++ fraction, power - fraction.length, !pointed && !powered⟩, rest)

def word? : List Char → Option (List Char)
  | 'n' :: 'u' :: 'l' :: 'l' :: rest => some rest
  | 't' :: 'r' :: 'u' :: 'e' :: rest => some rest
  | 'f' :: 'a' :: 'l' :: 's' :: 'e' :: rest => some rest
  | _ => none

-- Skips a value that no field asks for. Every step of a list or an object takes a character for two
-- of the budget at most.
mutual

def skipValue : Nat → List Char → Option (List Char)
  | 0, _ => none
  | budget + 1, text =>
    match skipBlanks text with
    | '"' :: rest => afterString? rest
    | '[' :: rest =>
      match skipBlanks rest with
      | ']' :: after => some after
      | items => skipItems budget items
    | '\x7b' :: rest =>
      match skipBlanks rest with
      | '\x7d' :: after => some after
      | members => skipMembers budget members
    | other => word? other <|> (number? other).map (·.2)

def skipItems : Nat → List Char → Option (List Char)
  | 0, _ => none
  | budget + 1, text =>
    match skipValue budget text with
    | none => none
    | some rest =>
      match skipBlanks rest with
      | ',' :: more => skipItems budget more
      | ']' :: after => some after
      | _ => none

def skipMembers : Nat → List Char → Option (List Char)
  | 0, _ => none
  | budget + 1, text =>
    match skipBlanks text with
    | '"' :: name =>
      match (afterString? name).map skipBlanks with
      | some (':' :: value) =>
        match skipValue budget value with
        | none => none
        | some rest =>
          match skipBlanks rest with
          | ',' :: more => skipMembers budget more
          | '\x7d' :: after => some after
          | _ => none
      | _ => none
    | _ => none

end

def skip (text : List Char) : Except BodyFault (List Char) :=
  match skipValue (2 * text.length + 2) text with
  | some rest => .ok rest
  | none => .error .malformed

-- A number too large for floating point counts as malformed, whatever was asked for.
def numberFault (n : Number) : BodyFault := if n.isInfinite then .malformed else .mismatched

def wrongKind : List Char → BodyFault
  | '"' :: rest => if (string? none rest).isSome then .mismatched else .malformed
  | '[' :: _ => .mismatched
  | '\x7b' :: _ => .mismatched
  | text =>
    if (word? text).isSome then .mismatched
    else
      match number? text with
      | some (n, _) => if n.count?.isSome then .mismatched else numberFault n
      | none => .malformed

def readText (text : List Char) : Except BodyFault (FieldValue × List Char) :=
  match skipBlanks text with
  | '"' :: rest =>
    match string? none rest with
    | some (content, rest) => .ok (.text (String.ofList content), rest)
    | none => .error .malformed
  | other => .error (wrongKind other)

def readCount (text : List Char) : Except BodyFault (FieldValue × List Char) :=
  match skipBlanks text with
  | 'n' :: 'u' :: 'l' :: 'l' :: rest => .ok (.count none, rest)
  | other =>
    match number? other with
    | some (n, rest) =>
      match n.count? with
      | some k => .ok (.count (some k), rest)
      | none => .error (numberFault n)
    | none => .error (wrongKind other)

def readField : FieldKind → List Char → Except BodyFault (FieldValue × List Char)
  | .text => readText
  | .count => readCount

-- One member of an object, behind the opening quote of its name. A field is given at most once.
def readMember (shape : List (String × FieldKind)) (found : Fields) (text : List Char) :
    Except BodyFault (Fields × List Char) :=
  match string? none text with
  | none => .error .malformed
  | some (name, rest) =>
    let name := String.ofList name
    if (found.lookup name).isSome then .error .mismatched
    else
      match skipBlanks rest with
      | ':' :: value =>
        match shape.lookup name with
        | some kind => (readField kind value).map fun (v, rest) => (found ++ [(name, v)], rest)
        | none => (skip value).map (found, ·)
      | _ => .error .malformed

def readMembers (shape : List (String × FieldKind)) : Nat → Fields → List Char → Except BodyFault (Fields × List Char)
  | 0, _, _ => .error .malformed
  | budget + 1, found, text =>
    match skipBlanks text with
    | '\x7d' :: rest => .ok (found, rest)
    | ',' :: rest =>
      match skipBlanks rest with
      | '"' :: name => do
        let (found, rest) ← readMember shape found name
        readMembers shape budget found rest
      | _ => .error .malformed
    | _ => .error .malformed

def readObject (shape : List (String × FieldKind)) (text : List Char) : Except BodyFault (Fields × List Char) :=
  match skipBlanks text with
  | '\x7d' :: rest => .ok ([], rest)
  | '"' :: name => do
    let (found, rest) ← readMember shape [] name
    readMembers shape (rest.length + 1) found rest
  | _ => .error .malformed

-- The values for the fields of `shape`, up to the end of the array or of the fields. Fields without a
-- value are left out.
def readElements : List (String × FieldKind) → Bool → List Char → Except BodyFault (Fields × List Char)
  | [], _, text => .ok ([], text)
  | (name, kind) :: shape, isFirst, text => do
    let read (value : List Char) : Except BodyFault (Fields × List Char) := do
      let (v, rest) ← readField kind value
      let (found, rest) ← readElements shape false rest
      .ok ((name, v) :: found, rest)
    match skipBlanks text, isFirst with
    | ']' :: rest, _ => .ok ([], ']' :: rest)
    | ',' :: rest, false =>
      match skipBlanks rest with
      | ']' :: _ => .error .malformed
      | value => read value
    | value, true => read value
    | _, false => .error .malformed

def readEnd {α : Type} (value : α) (text : List Char) : Except BodyFault α :=
  if (skipBlanks text).isEmpty then .ok value else .error .malformed

def require {α : Type} : Option α → Except BodyFault α
  | some value => .ok value
  | none => .error .mismatched

def read {α : Type} (shape : List (String × FieldKind)) (ofFields : Fields → Option α) (body : String) :
    Except BodyFault α :=
  match skipBlanks body.toList with
  | '\x7b' :: rest => do
    let (fields, rest) ← readObject shape rest
    let value ← require (ofFields fields)
    readEnd value rest
  | '[' :: rest => do
    let (fields, rest) ← readElements shape true rest
    let value ← require (ofFields fields)
    match skipBlanks rest with
    | ']' :: rest => readEnd value rest
    | _ => .error .malformed
  | other => .error (wrongKind other)

end Body

end ScopedAccess.Http
