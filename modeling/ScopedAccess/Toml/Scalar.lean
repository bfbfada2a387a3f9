import ScopedAccess.Number
import ScopedAccess.Toml.Statement

namespace ScopedAccess.Toml

namespace Quoted

-- A long text may hold line ends; a carriage return alone is none.
def requireSound (long : Bool) (place : Nat) (c : Char) (rest : List Char) : Except Nat Unit :=
  if long && c = '\r' then (if rest.head? = some '\n' then .ok () else .error (place + 1))
  else if Token.isControl c && !(long && c = '\n') then .error place
  else .ok ()

def escape? (c : Char) : Option Char :=
  match c with
  | 'b' => some '\x08'
  | 'e' => some '\x1b'
  | 't' => some '\t'
  | 'n' => some '\n'
  | 'f' => some '\x0c'
  | 'r' => some '\r'
  | '"' => some '"'
  | '\\' => some '\\'
  | _ => none

def digitCount (c : Char) : Nat :=
  match c with
  | 'x' => 2
  | 'u' => 4
  | 'U' => 8
  | _ => 0

def isScalarValue (n : Nat) : Bool := n < 0xD800 || (0xDFFF < n && n < 0x110000)

def codePoint (place count : Nat) (text : List Char) : Except Nat Char :=
  let digits := (text.take count).map hexValue?
  let valid := digits.takeWhile Option.isSome
  if valid.length < count then .error (place + valid.length)
  else
    let n := valid.foldl (fun n d => n * 16 + d.getD 0) 0
    if isScalarValue n then .ok (Char.ofNat n) else .error place

def isLineBlank (c : Char) : Bool := c = ' ' || c = '\t' || c = '\n' || c = '\r'

def endsLine (text : List Char) : Bool :=
  match text.dropWhile fun c => c = ' ' || c = '\t' with
  | '\n' :: _ => true
  | '\r' :: '\n' :: _ => true
  | _ => false

-- Text with escapes; `skip` counts characters that were taken already.
def unescape (long : Bool) : Nat → Nat → List Char → Except Nat (List Char)
  | _, _, [] => .ok []
  | place, skip + 1, _ :: rest => unescape long (place + 1) skip rest
  | place, 0, c :: rest =>
    if c = '\\' then
      match rest with
      | [] => .error (place + 1)
      | d :: after =>
        let count := digitCount d
        if 0 < count then do
          let point ← codePoint (place + 2) count after
          (unescape long (place + 1) (1 + count) rest).map (point :: ·)
        else if long && endsLine rest then
          unescape long (place + 1) (rest.takeWhile isLineBlank).length rest
        else
          match escape? d with
          | some e => (unescape long (place + 1) 1 rest).map (e :: ·)
          | none => .error (place + 1)
    else do
      requireSound long place c rest
      (unescape long (place + 1) 0 rest).map (c :: ·)

def asItStands (long : Bool) : Nat → List Char → Except Nat (List Char)
  | _, [] => .ok []
  | place, c :: rest => do
    requireSound long place c rest
    (asItStands long (place + 1) rest).map (c :: ·)

def content (raw : Raw) (quote : Char) (width : Nat) : Except Nat (Nat × List Char) :=
  let text := raw.text.drop width
  let inner := text.take (text.length - width)
  if width ≤ text.length && text.drop inner.length = List.replicate width quote then
    match inner, width with
    | '\n' :: rest, 3 => .ok (raw.start + 4, rest)
    | '\r' :: '\n' :: rest, 3 => .ok (raw.start + 5, rest)
    | _, _ => .ok (raw.start + width, inner)
  else .error (raw.start + raw.text.length)

def read (raw : Raw) : Except Nat String := do
  match raw.kind with
  | .literal =>
    let (place, text) ← content raw '\'' 1
    (asItStands false place text).map String.ofList
  | .longLiteral =>
    let (place, text) ← content raw '\'' 3
    (asItStands true place text).map String.ofList
  | .longBasic =>
    let (place, text) ← content raw '"' 3
    (unescape true place 0 text).map String.ofList
  | _ =>
    let (place, text) ← content raw '"' 1
    (unescape false place 0 text).map String.ofList

end Quoted

namespace Raw

def isBareChar (c : Char) : Bool := c.isAlphanum || c = '_' || c = '-'

-- A key that is not quoted is made of letters, digits, `_` and `-`; one over several lines is none.
def key (raw : Raw) : Except Nat String :=
  match raw.kind with
  | .basic => Quoted.read raw
  | .literal => Quoted.read raw
  | .atom =>
    let valid := raw.text.takeWhile isBareChar
    if raw.text.isEmpty || valid.length < raw.text.length then .error (raw.start + valid.length)
    else .ok (String.ofList raw.text)
  | _ => .error raw.start

end Raw

namespace DateTime

def number (digits : List Char) : Nat := digits.foldl (fun n c => n * 10 + (c.toNat - '0'.toNat)) 0

def digits? (count : Nat) (text : List Char) : Option (Nat × List Char) :=
  let digits := text.take count
  if digits.length = count && digits.all Char.isDigit then some (number digits, text.drop count) else none

def char? (c : Char) : List Char → Option (List Char)
  | d :: rest => if c = d then some rest else none
  | [] => none

def isLeap (year : Nat) : Bool := (year % 4 = 0 && year % 100 ≠ 0) || year % 400 = 0

def daysIn (year month : Nat) : Nat :=
  if month = 2 then (if isLeap year then 29 else 28) else if month ∈ [4, 6, 9, 11] then 30 else 31

def padded (count n : Nat) : List Char :=
  let digits := Nat.toDigits 10 n
  List.replicate (count - digits.length) '0' ++ digits

def date? (text : List Char) : Option (List Char × List Char) := do
  let (year, rest) ← digits? 4 text
  let rest ← char? '-' rest
  let (month, rest) ← digits? 2 rest
  let rest ← char? '-' rest
  let (day, rest) ← digits? 2 rest
  if 1 ≤ month && month ≤ 12 && 1 ≤ day && day ≤ daysIn year month then
    some (padded 4 year ++ '-' :: padded 2 month ++ '-' :: padded 2 day, rest)
  else none

-- Up to nine digits of a fraction count, and at least one is kept.
def fraction? (text : List Char) : Option (List Char × List Char) :=
  match text with
  | '.' :: rest =>
    let digits := rest.takeWhile Char.isDigit
    let kept := ((digits.take 9).reverse.dropWhile (· = '0')).reverse
    if digits.isEmpty then none
    else some ('.' :: (if kept.isEmpty then ['0'] else kept), rest.drop digits.length)
  | _ => some ([], text)

-- The seconds of a time, which may be left out together with their fraction.
def seconds? (text : List Char) : Option (List Char × List Char) :=
  match text with
  | ':' :: rest => do
    let (second, rest) ← digits? 2 rest
    let (fraction, rest) ← fraction? rest
    if second ≤ 60 then some (':' :: padded 2 second ++ fraction, rest) else none
  | _ => some ([], text)

def time? (text : List Char) : Option (List Char × List Char) := do
  let (hour, rest) ← digits? 2 text
  let rest ← char? ':' rest
  let (minute, rest) ← digits? 2 rest
  let (seconds, rest) ← seconds? rest
  if hour ≤ 23 && minute ≤ 59 then some (padded 2 hour ++ ':' :: padded 2 minute ++ seconds, rest) else none

def offset? (text : List Char) : Option (List Char) :=
  match text with
  | [] => some []
  | ['Z'] => some ['Z']
  | ['z'] => some ['Z']
  | sign :: rest => do
    let (hours, rest) ← digits? 2 rest
    let rest ← char? ':' rest
    let (minutes, rest) ← digits? 2 rest
    if (sign = '+' || sign = '-') && hours ≤ 23 && minutes ≤ 59 && rest.isEmpty then
      let sign := if hours = 0 && minutes = 0 then '+' else sign
      some (sign :: padded 2 hours ++ ':' :: padded 2 minutes)
    else none

def read? (text : List Char) : Option String :=
  match time? text with
  | some (time, []) => some (String.ofList time)
  | some _ => none
  | none => do
    let (date, rest) ← date? text
    match rest with
    | [] => some (String.ofList date)
    | separator :: rest =>
      if separator = 'T' || separator = 't' || separator = ' ' then
        let (time, rest) ← time? rest
        let offset ← offset? rest
        some (String.ofList (date ++ 'T' :: time ++ offset))
      else none

end DateTime

inductive Scalar where
  | text (s : String)
  | integer (n : Int)
  | real (x : Binary64)
  | boolean (b : Bool)
deriving DecidableEq, Repr

inductive NumberFault where
  | tooLarge
  | tooSmall
  | strayCharacter
  | noDigits
  | overflow
deriving DecidableEq, Repr

namespace Scalar

-- A place where the text is wrong, or a scalar, or a number that stands for none.
abbrev Outcome := Except Nat (Except NumberFault Scalar)

def isDigitOrMark (c : Char) : Bool := c.isDigit || c = '_'

def withoutMarks (digits : List Char) : List Char := digits.filter (· ≠ '_')

def countDigits (digits : List Char) : Nat := (withoutMarks digits).length

-- The place of the first mark that does not stand between digits; `before` is the character in front.
def strayMark? (isDigit : Char → Bool) : Nat → Option Char → List Char → Option Nat
  | _, _, [] => none
  | place, before, c :: rest =>
    if c = '_' && !(before.any isDigit && rest.head?.any isDigit) then some place
    else strayMark? isDigit (place + 1) (some c) rest

def requireMarks (isDigit : Char → Bool) (place : Nat) (text : List Char) : Except Nat Unit :=
  match strayMark? isDigit place none text with
  | some stray => .error stray
  | none => .ok ()

def refuse {α : Type} (isRefused : Bool) (place : Nat) (next : Except Nat α) : Except Nat α :=
  if isRefused then .error place else next

def isRadixDigit (radix : Nat) (c : Char) : Bool := (hexValue? c).any (· < radix)

def wordOf (negative : Bool) (radix : Nat) (n : Int) : List Char → Except NumberFault Int
  | [] => .ok n
  | c :: rest =>
    match hexValue? c with
    | none => .error .strayCharacter
    | some digit =>
      let next := if negative then n * radix - digit else n * radix + digit
      if radix ≤ digit then .error .strayCharacter
      else if twoTo 63 ≤ next then .error .tooLarge
      else if next < -(twoTo 63) then .error .tooSmall
      else wordOf negative radix next rest

def integerOf (negative : Bool) (radix : Nat) (digits : List Char) : Except NumberFault Scalar :=
  if digits.isEmpty then .error .noDigits else (wordOf negative radix 0 digits).map integer

def readRadix (radix place : Nat) (text : List Char) : Outcome :=
  let valid := text.takeWhile fun c => isRadixDigit radix c || c = '_'
  refuse (valid.length < text.length) (place + valid.length) do
    requireMarks (isRadixDigit 16) place text
    .ok (integerOf false radix (withoutMarks text))

-- Marks may stand between hexadecimal digits, though these are no digits of the number.
def readInteger (negative : Bool) (place : Nat) (text : List Char) : Outcome :=
  refuse (text.head? = some '0' && 1 < text.length) place do
    requireMarks (isRadixDigit 16) place text
    .ok (integerOf negative 10 (withoutMarks text))

def signed (negative : Bool) (n : Nat) : Int := if negative then -n else n

def readPart (place : Nat) (text : List Char) : Except Nat (List Char × Nat × List Char) :=
  let digits := text.takeWhile isDigitOrMark
  refuse (countDigits digits = 0) place
    (.ok (withoutMarks digits, place + digits.length, text.drop digits.length))

def readFraction (place : Nat) (text : List Char) : Except Nat (List Char × Nat × List Char) :=
  match text with
  | '.' :: rest => readPart (place + 1) rest
  | _ => .ok ([], place, text)

def readExponent (place : Nat) (text : List Char) : Except Nat (Int × Nat × List Char) :=
  match text with
  | c :: rest =>
    if c = 'e' || c = 'E' then do
      let (negative, place, rest) := match rest with
        | '-' :: rest => (true, place + 2, rest)
        | '+' :: rest => (false, place + 2, rest)
        | _ => (false, place + 1, rest)
      let (digits, place, rest) ← readPart place rest
      .ok (signed negative (DateTime.number digits), place, rest)
    else .ok (0, place, text)
  | [] => .ok (0, place, [])

def realOf (negative : Bool) (digits : Nat) (power : Int) : Except NumberFault Scalar :=
  match Binary64.ofDecimal negative digits power with
  | .infinite _ => .error .overflow
  | x => .ok (real x)

def readReal (negative : Bool) (place : Nat) (text : List Char) : Outcome := do
  let whole := text.takeWhile isDigitOrMark
  let after := place + whole.length
  refuse (countDigits whole = 0 || (whole.head? = some '0' && 1 < countDigits whole)) place do
    let (fraction, after, rest) ← readFraction after (text.drop whole.length)
    let (power, after, rest) ← readExponent after rest
    refuse (!rest.isEmpty) after do
      requireMarks Char.isDigit place text
      let digits := DateTime.number (withoutMarks whole ++ fraction)
      .ok (realOf negative digits (power - fraction.length))

def readDate (start : Nat) (text : List Char) : Outcome :=
  match DateTime.read? text with
  | some s => .ok (.ok (.text s))
  | none => .error start

-- A number without a radix, or a date or a time: their first digits end at a minus or a colon.
def readDecimal (start : Nat) (isSigned negative : Bool) (place : Nat) (text : List Char) : Outcome :=
  match text.dropWhile Char.isDigit with
  | [] => readInteger negative place text
  | c :: rest =>
    if c = '-' || c = ':' then refuse isSigned start (readDate start text)
    else if (c :: rest).any (· = ' ') then .error start
    else if (c :: rest).any fun d => d = '.' || d = 'e' || d = 'E' then readReal negative place text
    else if c = '_' then readInteger negative place text
    else .error start

-- A number behind its sign. `start` is where the scalar starts, `place` where these characters do. The
-- letter of a radix is small, and the radix ten has none.
def readNumber (start : Nat) (isSigned negative : Bool) (place : Nat) (text : List Char) : Outcome :=
  match text with
  | '0' :: letter :: digits =>
    match letter with
    | 'x' => refuse isSigned start (readRadix 16 (place + 2) digits)
    | 'o' => refuse isSigned start (readRadix 8 (place + 2) digits)
    | 'b' => refuse isSigned start (readRadix 2 (place + 2) digits)
    | _ => if "XOBdD".toList.contains letter then .error start else readDecimal start isSigned negative place text
  | _ => readDecimal start isSigned negative place text

def word? (negative : Bool) (text : List Char) : Option Scalar :=
  if text = "inf".toList then some (real (.infinite negative))
  else if text = "nan".toList then some (real .undefined)
  else none

-- A second sign is the fault itself, and so is a word that starts like one of a number.
def readSigned (start : Nat) (negative : Bool) (body : List Char) : Outcome :=
  match word? negative body, body with
  | some s, _ => .ok (.ok s)
  | none, [] => .error start
  | none, c :: _ =>
    if "+-iInN".toList.contains c then .error (start + 1)
    else if isDigitOrMark c then readNumber start true negative (start + 1) body
    else .error start

def readUnsigned (start : Nat) (text : List Char) : Outcome :=
  match word? false text, text with
  | some s, _ => .ok (.ok s)
  | none, [] => .error start
  | none, c :: _ =>
    if text = "true".toList then .ok (.ok (boolean true))
    else if text = "false".toList then .ok (.ok (boolean false))
    else if isDigitOrMark c then readNumber start false false start text
    else .error start

def readAtom (start : Nat) (text : List Char) : Outcome :=
  match text with
  | '+' :: body => readSigned start false body
  | '-' :: body => readSigned start true body
  | _ => readUnsigned start text

def ofRaw (raw : Raw) : Outcome :=
  match raw.kind with
  | .atom => readAtom raw.start raw.text
  | _ => (Quoted.read raw).map fun s => .ok (text s)

end Scalar

end ScopedAccess.Toml
