namespace ScopedAccess

def twoTo (n : Nat) : Nat := Nat.pow 2 n

def tenTo (n : Nat) : Nat := Nat.pow 10 n

def hexValue? (c : Char) : Option Nat :=
  if '0' ≤ c && c ≤ '9' then some (c.toNat - '0'.toNat)
  else if 'a' ≤ c && c ≤ 'f' then some (c.toNat - 'a'.toNat + 10)
  else if 'A' ≤ c && c ≤ 'F' then some (c.toNat - 'A'.toNat + 10)
  else none

-- `finite` stands for `mantissa * 2 ^ exponent`, negated when `negative`.
inductive Binary64 where
  | finite (negative : Bool) (mantissa : Nat) (exponent : Int)
  | infinite (negative : Bool)
  | undefined
deriving DecidableEq, Repr

namespace Binary64

def smallestExponent : Int := -1074

def largestExponent : Int := 971

def scale (n d : Nat) (shift : Int) : Nat × Nat :=
  if 0 ≤ shift then (n * twoTo shift.toNat, d) else (n, d * twoTo (-shift).toNat)

-- The natural nearest to `n / d`; halfway goes to the even one.
def roundHalfEven (n d : Nat) : Nat :=
  let q := n / d
  let twice := 2 * (n % d)
  if twice < d then q else if d < twice then q + 1 else if q % 2 = 0 then q else q + 1

-- The largest `k` with `2 ^ k ≤ n / d`.
def floorLog (n d : Nat) : Int :=
  let k : Int := (Nat.log2 n : Int) - Nat.log2 d
  let (a, b) := scale n d (-k)
  if b ≤ a then k else k - 1

def ofRatio (negative : Bool) (n d : Nat) : Binary64 :=
  if n = 0 || d = 0 then finite negative 0 0
  else
    let exponent := max smallestExponent (floorLog n d - 52)
    let (a, b) := scale n d (-exponent)
    let mantissa := roundHalfEven a b
    let (mantissa, exponent) := if mantissa = twoTo 53 then (twoTo 52, exponent + 1) else (mantissa, exponent)
    if largestExponent < exponent then infinite negative else finite negative mantissa exponent

def ofDecimal (negative : Bool) (digits : Nat) (power : Int) : Binary64 :=
  if digits = 0 then finite negative 0 0
  else if 0 ≤ power then
    -- Beyond this power every value overflows.
    if 400 < power then infinite negative else ofRatio negative (digits * tenTo power.toNat) 1
  else
    -- A value this small rounds to zero whatever its digits, unless there are very many of them.
    let places := (-power).toNat
    if (Nat.toDigits 10 digits).length + 400 < places then finite negative 0 0
    else ofRatio negative digits (tenTo places)

def ratio? : Binary64 → Option (Nat × Nat)
  | finite _ mantissa exponent => some (scale mantissa 1 exponent)
  | _ => none

def isNegative : Binary64 → Bool
  | finite negative _ _ => negative
  | infinite negative => negative
  | undefined => false

def toInt? (x : Binary64) : Option Int :=
  match x.ratio? with
  | some (n, d) => if n % d = 0 then some (if x.isNegative then -(n / d : Nat) else (n / d : Nat)) else none
  | none => none

end Binary64

-- `digits` are significant digits without a point; `point` is the place of the point after the
-- first of them, counted in powers of ten.
structure Scientific where
  digits : List Char
  point : Int
deriving DecidableEq, Repr

namespace Scientific

-- The largest `k` with `10 ^ k ≤ n / d`, for a positive fraction.
def floorLogTen (n d : Nat) : Int :=
  let guess : Int := ((Nat.toDigits 10 n).length : Int) - (Nat.toDigits 10 d).length
  let reaches (k : Int) : Bool := if 0 ≤ k then d * tenTo k.toNat ≤ n else d ≤ n * tenTo (-k).toNat
  if reaches guess then guess else guess - 1

-- `n / d` in units of `10 ^ power`, as a fraction.
def inUnits (n d : Nat) (power : Int) : Nat × Nat :=
  if 0 ≤ power then (n, d * tenTo power.toNat) else (n * tenTo (-power).toNat, d)

-- `q` units, where `count` digits of the fraction were asked for. A carry makes one more digit.
def ofUnits (count : Nat) (top : Int) (q : Nat) : Scientific :=
  let digits := Nat.toDigits 10 q
  ⟨digits.take count, top + (digits.length - count : Nat)⟩

def rounded (count : Nat) (n d : Nat) : Scientific :=
  let top := floorLogTen n d
  let (a, b) := inUnits n d (top - count + 1)
  ofUnits count top ((2 * a + b) / (2 * b))

-- The two values of `count` significant digits around the fraction, the nearer first.
def neighbours (count : Nat) (n d : Nat) : List Scientific :=
  let top := floorLogTen n d
  let (a, b) := inUnits n d (top - count + 1)
  let below := ofUnits count top (a / b)
  let above := ofUnits count top (a / b + 1)
  if 2 * (a % b) < b then [below, above] else [above, below]

def trim (s : Scientific) : Scientific :=
  match (s.digits.reverse.dropWhile (· = '0')).reverse with
  | [] => { s with digits := ['0'] }
  | digits => { s with digits }

def value (s : Scientific) : Nat := s.digits.foldl (fun n c => n * 10 + (c.toNat - '0'.toNat)) 0

def readsAs (s : Scientific) (x : Binary64) : Bool :=
  Binary64.ofDecimal x.isNegative s.value (s.point - s.digits.length + 1) = x

-- The fewest digits that read back as `x`; seventeen always do.
def shortest (x : Binary64) (n d : Nat) : Scientific :=
  match ((List.range 17).flatMap fun k => neighbours (k + 1) n d).find? (readsAs · x) with
  | some s => s.trim
  | none => (rounded 17 n d).trim

def positional (s : Scientific) : List Char × List Char :=
  if s.point < 0 then (['0'], List.replicate (-s.point - 1).toNat '0' ++ s.digits)
  else
    let whole := s.point.toNat + 1
    (s.digits.take whole ++ List.replicate (whole - s.digits.length) '0', s.digits.drop whole)

end Scientific

namespace Binary64

def sign (x : Binary64) : String := if x.isNegative then "-" else ""

def plainText (x : Binary64) : String :=
  match x with
  | undefined => "NaN"
  | infinite _ => x.sign ++ "inf"
  | finite _ 0 _ => x.sign ++ "0"
  | finite _ mantissa exponent =>
    let (n, d) := scale mantissa 1 exponent
    let (whole, fraction) := (Scientific.shortest x n d).positional
    x.sign ++ String.ofList whole ++ (if fraction.isEmpty then "" else "." ++ String.ofList fraction)

-- Fifteen significant digits, always with a point; with an exponent below 1e-4 and from 1e15 on.
def storedText (x : Binary64) : String :=
  match x with
  | undefined => ""
  | infinite _ => x.sign ++ "Inf"
  | finite _ 0 _ => "0.0"
  | finite _ mantissa exponent =>
    let (n, d) := scale mantissa 1 exponent
    let s := (Scientific.rounded 15 n d).trim
    let padded (digits : List Char) : String := if digits.isEmpty then "0" else String.ofList digits
    if -4 ≤ s.point && s.point < 15 then
      let (whole, fraction) := s.positional
      x.sign ++ String.ofList whole ++ "." ++ padded fraction
    else
      let power := Nat.toDigits 10 s.point.natAbs
      x.sign ++ String.ofList (s.digits.take 1) ++ "." ++ padded (s.digits.drop 1) ++ "e" ++
        (if s.point < 0 then "-" else "+") ++ (if power.length < 2 then "0" else "") ++ String.ofList power

end Binary64

end ScopedAccess
