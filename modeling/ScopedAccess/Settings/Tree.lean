import ScopedAccess.QuotedText
import ScopedAccess.Toml.Document

namespace ScopedAccess

inductive Setting where
  | scalar (s : Toml.Scalar) (origin : Option String)
  | list (items : List Setting) (origin : Option String)
  | table (entries : List (String × Setting)) (origin : Option String)
  | gap

-- A step on the way to a setting. Places below zero count from the end.
inductive Step where
  | name (s : String)
  | place (n : Int)
deriving DecidableEq, Repr

namespace Setting

def entries : Setting → List (String × Setting)
  | table entries _ => entries
  | _ => []

-- What a value is reported with; one that was made for the values below it has no source.
def origin : Setting → Option String
  | scalar _ origin => origin
  | list _ origin => origin
  | table _ origin => origin
  | gap => none

def emptied : Option Setting → Setting
  | some (table entries origin) => table entries origin
  | _ => table [] none

def put (t : Setting) (name : String) (v : Setting) : Setting :=
  let entries := t.entries
  let entries := if (entries.lookup name).isSome then entries.map fun e => if e.1 = name then (name, v) else e
    else entries ++ [(name, v)]
  table entries t.origin

mutual

def merge (current : Option Setting) : Setting → Setting
  | table entries _ => mergeEntries (emptied current) entries
  | v => v

def mergeEntries (t : Setting) : List (String × Setting) → Setting
  | [] => t
  | (name, v) :: rest => mergeEntries (t.put name (merge (t.entries.lookup name) v)) rest

end

def reach (items : List Setting) (n : Int) : List Setting × Nat :=
  if 0 ≤ n then (items ++ List.replicate (n.toNat + 1 - items.length) gap, n.toNat)
  else
    let back := (-n).toNat
    if back ≤ items.length then (items, items.length - back)
    else (List.replicate (back - items.length) gap ++ items, 0)

-- Merges a value in below a path. What stands in the way of the path is replaced.
def mergeAt (v : Setting) : List Step → Option Setting → Setting
  | [], current => merge current v
  | .name s :: rest, current =>
    let t := emptied current
    t.put s (mergeAt v rest (t.entries.lookup s))
  | .place n :: rest, current =>
    let (items, origin) := match current with
      | some (list items origin) => (items, origin)
      | _ => ([], none)
    let (items, i) := reach items n
    list (items.set i (mergeAt v rest items[i]?)) origin

def isPathChar (c : Char) : Bool := c.isAlphanum || c = '_' || c = '-'

def isBlank (c : Char) : Bool := c = ' ' || c = '\t'

def signedDigits? (negative : Bool) (digits : List Char) : Option Int :=
  let n := Toml.DateTime.number digits
  if digits.isEmpty || !digits.all Char.isDigit then none
  else if negative then (if n ≤ twoTo 63 then some (-n) else none)
  else if n < twoTo 63 then some n
  else none

def place? (text : List Char) : Option Int :=
  match ((text.dropWhile isBlank).reverse.dropWhile isBlank).reverse with
  | '-' :: digits => signedDigits? true digits
  | digits => signedDigits? false digits

-- Every step takes a character, so the length of the text bounds their number.
def steps? : Nat → List Char → Option (List Step)
  | _, [] => some []
  | 0, _ => none
  | budget + 1, '.' :: rest => do
    let name := rest.takeWhile isPathChar
    if name.isEmpty then none
    let others ← steps? budget (rest.drop name.length)
    some (.name (String.ofList name) :: others)
  | budget + 1, '[' :: rest => do
    let inner := rest.takeWhile (· ≠ ']')
    let n ← place? inner
    let rest ← Toml.DateTime.char? ']' (rest.drop inner.length)
    let others ← steps? budget rest
    some (.place n :: others)
  | _, _ => none

def path (name : String) : List Step := (steps? (name.length + 1) ('.' :: name.toList)).getD [.name name]

def text (s origin : String) : Setting := scalar (.text s) (some origin)

end Setting

mutual

def Setting.ofToml (origin : String) : Toml.Value → Except Toml.NumberFault Setting
  | .scalar s => .ok (.scalar s (some origin))
  | .misread fault => .error fault
  | .array _ items => (Setting.ofTomlItems origin items).map (.list · (some origin))
  | .table _ entries => (Setting.ofTomlEntries origin entries).map (.table · (some origin))

def Setting.ofTomlItems (origin : String) : List Toml.Value → Except Toml.NumberFault (List Setting)
  | [] => .ok []
  | item :: rest => do
    let first ← Setting.ofToml origin item
    let others ← Setting.ofTomlItems origin rest
    .ok (first :: others)

def Setting.ofTomlEntries (origin : String) :
    List (String × Toml.Value) → Except Toml.NumberFault (List (String × Setting))
  | [] => .ok []
  | (name, v) :: rest => do
    let first ← Setting.ofToml origin v
    let others ← Setting.ofTomlEntries origin rest
    .ok ((name, first) :: others)

end

inductive FoundValue where
  | text (s : String)
  | negative (n : Int)
  | count (n : Nat)
  | sequence
  | map
  | unit
  | whole (n : Int)
  | real (x : Binary64)
  | boolean (b : Bool)
deriving DecidableEq, Repr

namespace FoundValue

def decimalText (x : Binary64) : String :=
  match x with
  | .finite _ _ _ => if x.plainText.toList.contains '.' then x.plainText else x.plainText ++ ".0"
  | _ => x.plainText

def describe : FoundValue → String
  | text s => "string " ++ QuotedText.quoted s
  | negative n => "64-bit integer `" ++ toString n ++ "`"
  | count n => "64-bit unsigned integer `" ++ toString n ++ "`"
  | sequence => "sequence"
  | map => "map"
  | unit => "unit value"
  | whole n => "integer `" ++ toString n ++ "`"
  | real x => "floating point `" ++ decimalText x ++ "`"
  | boolean b => "boolean `" ++ toString b ++ "`"

end FoundValue

inductive SettingCause where
  | wrongKind (found : FoundValue) (expected : String) (origin : Option String)
  | wrongLength (length : Nat) (expected : String)
  | unknownVariant (enumeration name : String)
  | noVariant (enumeration : String)
  | absent
deriving DecidableEq, Repr

-- `key` leads to the value: names with points between them, and places in lists.
structure SettingFault where
  key : String
  cause : SettingCause
deriving DecidableEq, Repr

namespace SettingFault

def below (name : String) (f : SettingFault) : SettingFault :=
  { f with key := if f.key.isEmpty || f.key.startsWith "[" then name ++ f.key else name ++ "." ++ f.key }

def atPlace (n : Nat) (f : SettingFault) : SettingFault := { f with key := "[" ++ toString n ++ "]" ++ f.key }

def message (f : SettingFault) : String :=
  let forKey := " for key `" ++ f.key ++ "`"
  match f.cause with
  | .wrongKind found expected origin =>
    "invalid type: " ++ found.describe ++ ", expected " ++ expected ++ forKey ++
      (match origin with
        | some o => " in " ++ o
        | none => "")
  | .wrongLength length expected => "invalid length " ++ toString length ++ ", expected " ++ expected ++ forKey
  | .unknownVariant enumeration name =>
    "enum " ++ enumeration ++ " does not have variant constructor " ++ name ++ forKey
  | .noVariant enumeration =>
    "value of enum " ++ enumeration ++ " should be represented by either string or table with exactly one key" ++ forKey
  | .absent => "missing configuration field " ++ QuotedText.quoted f.key

end SettingFault

inductive SettingsFault where
  | unsupportedFile (path : String)
  | malformed (fault : Toml.Fault Toml.Position) (origin : String)
  | unreadableNumber (fault : Toml.NumberFault) (origin : String)
  | refused (fault : SettingFault)
deriving DecidableEq, Repr

def Toml.NumberFault.message : Toml.NumberFault → String
  | tooLarge => "number too large to fit in target type"
  | tooSmall => "number too small to fit in target type"
  | strayCharacter => "invalid digit found in string"
  | noDigits => "cannot parse integer from empty string"
  | overflow => "floating-point number overflowed"

def SettingsFault.message : SettingsFault → String
  | unsupportedFile path => "configuration file \"" ++ path ++ "\" is not of a supported file format"
  | malformed (.at p) _ => "TOML parse error at line " ++ toString p.line ++ ", column " ++ toString p.column
  | malformed .tooDeep origin => "recursion limit\n in " ++ origin
  | unreadableNumber fault origin => fault.message ++ " in " ++ origin
  | refused fault => fault.message

end ScopedAccess
