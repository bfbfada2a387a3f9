import ScopedAccess.Utf8

namespace ScopedAccess

-- Bytes that a database takes for text and that are no UTF-8.
structure Garbled where
  bytes : List UInt8
  broken : String.fromUTF8? ⟨bytes.toArray⟩ = none
deriving DecidableEq, Repr

inductive Text where
  | plain (s : String)
  | garbled (g : Garbled)
deriving DecidableEq, Repr

instance : Coe String Text := ⟨.plain⟩

def Text.ofBytes (bytes : List UInt8) : Text :=
  match broken : String.fromUTF8? ⟨bytes.toArray⟩ with
  | some s => .plain s
  | none => .garbled ⟨bytes, broken⟩

def Text.bytes : Text → List UInt8
  | plain s => s.toUTF8.data.toList
  | garbled g => g.bytes

inductive Cell where
  | null
  | integer (n : Int)
  | real (x : Binary64)
  | text (s : String)
  | garbled (g : Garbled)
  | blob (bytes : List UInt8)
deriving DecidableEq, Repr

def Text.cell : Text → Cell
  | plain s => .text s
  | garbled g => .garbled g

inductive Affinity where
  | text
  | integer
deriving DecidableEq, Repr

namespace Cell

def isBlank (c : Char) : Bool := c = ' ' || ('\t' ≤ c && c ≤ '\r')

def fitsWord (n : Int) : Bool := -(twoTo 63) ≤ n && n < twoTo 63

def number (digits : List Char) : Nat := digits.foldl (fun n c => n * 10 + (c.toNat - '0'.toNat)) 0

def splitSign : List Char → Bool × List Char
  | '-' :: rest => (true, rest)
  | '+' :: rest => (false, rest)
  | digits => (false, digits)

def exponent? : List Char → Option Int
  | [] => some 0
  | c :: rest =>
    if c = 'e' || c = 'E' then
      let (negative, digits) := splitSign rest
      if !digits.isEmpty && digits.all Char.isDigit then
        some (if negative then -(number digits : Int) else number digits)
      else none
    else none

-- A whole number stays whole when it fits a 64-bit word.
def ofReal (x : Binary64) : Cell :=
  match x.toInt? with
  | some n => if -(twoTo 63) < n && n < twoTo 63 - 1 then integer n else real x
  | none => real x

def readNumber? (s : String) : Option Cell :=
  let trimmed := ((s.toList.dropWhile isBlank).reverse.dropWhile isBlank).reverse
  let (negative, body) := splitSign trimmed
  let whole := body.takeWhile Char.isDigit
  let rest := body.dropWhile Char.isDigit
  let (fraction, rest, pointed) := match rest with
    | '.' :: after => (after.takeWhile Char.isDigit, after.dropWhile Char.isDigit, true)
    | _ => ([], rest, false)
  if whole.isEmpty && fraction.isEmpty then none
  else
    match exponent? rest with
    | none => none
    | some power =>
      let n := number whole
      let signed : Int := if negative then -n else n
      if !pointed && rest.isEmpty && fitsWord signed then some (integer signed)
      else some (ofReal (.ofDecimal negative (number (whole ++ fraction)) (power - fraction.length)))

def written : Cell → Cell
  | integer n => text (toString n)
  | real x => text x.storedText
  | c => c

-- A conversion that is asked for reads bytes as text too.
def toText : Cell → Cell
  | blob bytes => (Text.ofBytes bytes).cell
  | c => c.written

def toNumber : Cell → Cell
  | text s => (readNumber? s).getD (text s)
  | real x => ofReal x
  | c => c

def prefer : Affinity → Cell → Cell
  | .text, c => c.written
  | .integer, c => c.toNumber

def text? : Cell → Option Text
  | text s => some s
  | garbled g => some (.garbled g)
  | _ => none

theorem text?_cell (t : Text) : t.cell.text? = some t := by
  cases t <;> rfl

-- Whether two cells hold one value. Null holds none.
def same : Cell → Cell → Bool
  | integer m, integer n => m = n
  | text s, text t => s = t
  | garbled g, garbled h => g = h
  | blob a, blob b => a = b
  | real x, real y => x.ratio? = y.ratio? && (x.isNegative = y.isNegative || x.toInt? = some 0)
  | integer m, real y => y.toInt? = some m
  | real x, integer n => x.toInt? = some n
  | _, _ => false

-- Whole numbers win over text, and text over no preference.
def equal (left right : Cell × Option Affinity) : Bool :=
  match left.2, right.2 with
  | some .integer, some .integer => same left.1 right.1
  | some .integer, _ => same left.1 right.1.toNumber
  | _, some .integer => same left.1.toNumber right.1
  | some .text, none => same left.1 right.1.written
  | none, some .text => same left.1.written right.1
  | _, _ => same left.1 right.1

-- Null first, then numbers, then text, and bytes last.
def before : Cell → Cell → Bool
  | null, _ => true
  | _, null => false
  | integer m, integer n => m ≤ n
  | integer _, _ => true
  | real _, _ => true
  | blob a, blob b => a ≤ b
  | blob _, _ => false
  | _, blob _ => true
  | c, d =>
    match c.text?, d.text? with
    | some s, some t => s.bytes ≤ t.bytes
    | some _, none => false
    | none, _ => true

end Cell

def sameName (a b : String) : Bool := a.map Char.toLower = b.map Char.toLower

structure Column where
  name : String
  affinity : Option Affinity
deriving DecidableEq, Repr

abbrev Row := List Cell

structure Relation where
  columns : List Column
  rows : List Row
deriving DecidableEq, Repr

namespace Relation

def columnIndex? (columns : List Column) (name : String) : Option Nat := columns.findIdx? fun c => sameName c.name name

end Relation

variable {a b : String}

theorem sameName_eq : sameName a b = decide (a.toList.map Char.toLower = b.toList.map Char.toLower) := by
  simp [sameName, ← String.toList_inj]

theorem sameName_comm : sameName a b = sameName b a := by
  simp only [sameName, eq_comm]

theorem sameName_self : sameName a a = true := by
  simp [sameName]

end ScopedAccess
