import ScopedAccess.FileTree
import ScopedAccess.QuotedText
import ScopedAccess.Utf8

namespace ScopedAccess

namespace SocketAddress

def decimal? (limit : Nat) (text : String) : Option Nat :=
  let n := text.toList.foldl (fun n c => n * 10 + (c.toNat - '0'.toNat)) 0
  if text.isEmpty || text.toList.any (!·.isDigit) || limit ≤ n then none else some n

def isOctet (text : String) : Bool :=
  (decimal? 256 text).isSome && text.length ≤ 3 && (text.length = 1 || !text.startsWith "0")

def isIPv4 (text : String) : Bool :=
  let parts := text.splitOn "."
  parts.length = 4 && parts.all isOctet

def isGroup (text : String) : Bool :=
  !text.isEmpty && text.length ≤ 4 && text.toList.all fun c => (hexValue? c).isSome

-- How many of the eight groups a sequence of them stands for; at its end an IPv4 address is two.
def groupCount? (mayEndInIPv4 : Bool) (text : String) : Option Nat :=
  if text.isEmpty then some 0
  else
    let parts := text.splitOn ":"
    if parts.all isGroup then some parts.length
    else if mayEndInIPv4 && parts.dropLast.all isGroup && parts.getLast?.any isIPv4 then some (parts.length + 1)
    else none

-- Two colons stand for the groups that are missing.
def isIPv6 (text : String) : Bool :=
  match text.splitOn "::" with
  | [whole] => groupCount? true whole = some 8
  | [front, back] =>
    match groupCount? false front, groupCount? true back with
    | some m, some n => m + n ≤ 7
    | _, _ => false
  | _ => false

-- A zone is a number behind a percent sign.
def isScopedIPv6 (text : String) : Bool :=
  match text.splitOn "%" with
  | [address] => isIPv6 address
  | [address, zone] => isIPv6 address && (decimal? (twoTo 32) zone).isSome
  | _ => false

def isHost (text : String) : Bool :=
  match text.toList with
  | '[' :: rest => rest.getLast? = some ']' && isScopedIPv6 (String.ofList rest.dropLast)
  | _ => isIPv4 text

end SocketAddress

namespace Url

def isSchemeChar (c : Char) : Bool := c.isAlphanum || c = '+' || c = '-' || c = '.'

-- Schemes that need a host. A backslash counts as a slash in them.
def hostSchemes : List String := ["http", "https", "ws", "wss", "ftp"]

def isForbiddenInHost (c : Char) : Bool := "\x00\t\n\r #/:<>?@[\\]^|".toList.contains c

def isPort (digits : List Char) : Bool :=
  digits.all Char.isDigit && digits.foldl (fun n c => n * 10 + (c.toNat - '0'.toNat)) 0 < twoTo 16

def isHost (needed : Bool) (host : List Char) : Bool :=
  match host with
  | [] => !needed
  | '[' :: rest => rest.getLast? = some ']' && SocketAddress.isIPv6 (String.ofList rest.dropLast)
  | _ => !host.any isForbiddenInHost

-- The host ends at the first colon outside brackets.
def splitPort (bracketed : Bool) : List Char → List Char × Option (List Char)
  | [] => ([], none)
  | ':' :: rest =>
    if bracketed then
      let (host, port) := splitPort bracketed rest
      (':' :: host, port)
    else ([], some rest)
  | c :: rest =>
    let (host, port) := splitPort (if c = '[' then true else if c = ']' then false else bracketed) rest
    (c :: host, port)

def isAuthority (needed : Bool) (text : List Char) : Bool :=
  let located := match splitAtLast '@' text with
    | some (_, located) => located
    | none => text
  match splitPort false located with
  | (host, none) => isHost needed host
  | (host, some port) => !host.isEmpty && isHost needed host && isPort port

def isSlash (alsoBack : Bool) (c : Char) : Bool := c = '/' || (alsoBack && c = '\\')

def isFormed (scheme : String) (rest : List Char) : Bool :=
  let needed := scheme ∈ hostSchemes
  let authority (text : List Char) : List Char := text.takeWhile fun c => !(isSlash needed c || c = '?' || c = '#')
  if needed then isAuthority true (authority (rest.dropWhile (isSlash true)))
  else
    match rest with
    | '/' :: '/' :: located => scheme = "file" || isAuthority false (authority located)
    | _ => true

-- Blanks and controls around a URL do not count, nor do tabs and line ends in it.
def trimmed (text : String) : List Char :=
  let isEdge (c : Char) : Bool := c.toNat ≤ 0x20
  (((text.toList.dropWhile isEdge).reverse.dropWhile isEdge).reverse).filter fun c => c ≠ '\t' && c ≠ '\n' && c ≠ '\r'

def scheme? (text : String) : Option String :=
  let chars := trimmed text
  let scheme := (String.ofList (chars.takeWhile isSchemeChar)).toLower
  match chars.head?, chars.dropWhile isSchemeChar with
  | some first, ':' :: rest => if first.isAlpha && isFormed scheme rest then some scheme else none
  | _, _ => none

end Url

inductive DatabaseUrlFault where
  | unparsable (url : String)
  | unsupported (url : String)
  | invalidName (fault : Utf8.Break)
  | unknownParameter (key : String)
  | unknownValue (key value : String)
  | emptyByte
  | unknownSystem (name : String)
  | unknownHost (name : String)
  | cannotOpen
  | readOnly
  | unreadable
  | notDatabase
deriving DecidableEq, Repr

namespace DatabaseUrlFault

def detail : DatabaseUrlFault → Option String × String
  | unparsable url => (none, "The connection string '" ++ url ++ "' cannot be parsed.")
  | unsupported url => (none, "The connection string '" ++ url ++ "' has no supporting driver.")
  | invalidName fault => (some "error with configuration: ", fault.describe)
  | unknownParameter key =>
    (some "error with configuration: ", "unknown query parameter `" ++ key ++ "` while parsing connection URL")
  | unknownValue key value =>
    (some "error with configuration: ", "unknown value " ++ QuotedText.quoted value ++ " for `" ++ key ++ "`")
  | emptyByte => (some "error communicating with database: ", "filename passed to SQLite must not contain nul bytes")
  | unknownSystem name => (some "error returned from database: ", "(code: 1) no such vfs: " ++ name)
  | unknownHost name => (some "error returned from database: ", "(code: 1) invalid uri authority: " ++ name)
  | cannotOpen => (some "error returned from database: ", "(code: 14) unable to open database file")
  | readOnly => (some "error returned from database: ", "(code: 8) attempt to write a readonly database")
  | unreadable => (some "error returned from database: ", "(code: 266) disk I/O error")
  | notDatabase => (some "error returned from database: ", "(code: 26) file is not a database")

-- Some files are found out only when the first table is made.
def stage : DatabaseUrlFault → String
  | readOnly => "Execution Error: "
  | unreadable => "Execution Error: "
  | notDatabase => "Execution Error: "
  | _ => "Connection Error: "

def causes (f : DatabaseUrlFault) : List String :=
  match f.detail with
  | (none, text) => [f.stage ++ text, text]
  | (some opening, text) => [f.stage ++ opening ++ text, opening ++ text, opening ++ text, text]

end DatabaseUrlFault

-- A database of the kind that is a file, unless it is held in memory. A system is a way to reach files.
structure DatabaseFile where
  path : String
  inMemory : Bool
  mayCreate : Bool
  isReadOnly : Bool
  isImmutable : Bool
  system : Option String
deriving DecidableEq, Repr

namespace DatabaseFile

def serverSchemes : List String := ["postgres", "postgresql", "mysql"]

def allowedValues? : String → Option (List String)
  | "mode" => some ["ro", "rw", "rwc", "memory"]
  | "cache" => some ["private", "shared"]
  | "immutable" => some ["true", "1", "false", "0"]
  | _ => none

def applyParameter (f : DatabaseFile) (p : String × String) : Except DatabaseUrlFault DatabaseFile :=
  match allowedValues? p.1 with
  | some allowed =>
    if p.2 ∈ allowed then
      .ok (match p.1, p.2 with
        | "mode", "memory" => { f with inMemory := true }
        | "mode", "rwc" => { f with mayCreate := true }
        | "mode", "ro" => { f with isReadOnly := true }
        | "immutable", value => { f with isImmutable := value = "true" || value = "1" }
        | _, _ => f)
    else .error (.unknownValue p.1 p.2)
  | none => if p.1 = "vfs" then .ok { f with system := some p.2 } else .error (.unknownParameter p.1)

-- A plus sign stands for a blank.
def decodeParameterText (text : List Char) : String :=
  PercentEncoding.decodeRepaired (text.map fun c => if c = '+' then ' ' else c)

def parameters (query : String) : List (String × String) :=
  ((query.splitOn "&").filter (· ≠ "")).map fun p =>
    (decodeParameterText (p.toList.takeWhile (· ≠ '=')), decodeParameterText ((p.toList.dropWhile (· ≠ '=')).drop 1))

def withoutStart (start : List Char) : Nat → List Char → List Char
  | 0, text => text
  | budget + 1, text =>
    if !start.isEmpty && start.isPrefixOf text then withoutStart start budget (text.drop start.length) else text

def location (url : String) : List Char :=
  let chars := url.toList
  withoutStart "sqlite:".toList chars.length (withoutStart "sqlite://".toList chars.length chars)

def ofLocation (location : List Char) : Except DatabaseUrlFault DatabaseFile := do
  let name := PercentEncoding.bytes (location.takeWhile (· ≠ '?'))
  let query := String.ofList ((location.dropWhile (· ≠ '?')).drop 1)
  match Utf8.break? name with
  | some fault => .error (.invalidName fault)
  | none =>
    (parameters query).foldlM applyParameter ⟨Utf8.repaired name, false, false, false, false, none⟩

-- `none` when a server holds the database.
def ofUrl? (url : String) : Except DatabaseUrlFault (Option DatabaseFile) :=
  match Url.scheme? url with
  | none => .error (.unparsable url)
  | some scheme =>
    if scheme = "sqlite" then (ofLocation (location url)).map some
    else if scheme ∈ serverSchemes then .ok none
    else .error (.unsupported url)

def systems : List String := ["unix", "unix-none", "unix-dotfile", "unix-excl", "memdb"]

-- A path may itself be written as a URL of a file on this machine.
def localPath (path : String) : Except DatabaseUrlFault String :=
  match path.toList with
  | 'f' :: 'i' :: 'l' :: 'e' :: ':' :: rest =>
    let (host, rest) := match rest with
      | '/' :: '/' :: located => (located.takeWhile (· ≠ '/'), located.dropWhile (· ≠ '/'))
      | _ => ([], rest)
    if host.isEmpty || host = "localhost".toList then
      .ok (PercentEncoding.decodeRepaired (rest.takeWhile fun c => c ≠ '?' && c ≠ '#'))
    else .error (.unknownHost (String.ofList host))
  | _ => .ok path

def isVolatile (f : DatabaseFile) (path : String) : Bool :=
  f.inMemory || path.isEmpty || path = ":memory:" || f.system = some "memdb"

-- What opening the database comes to, when `found` lies at its path and `mayPlace` says whether
-- something can be put there. A file that is empty is a database without tables.
def openFault? (f : DatabaseFile) (path : String) (found : Option FileTree) (mayPlace : Bool) : Option DatabaseUrlFault :=
  if f.path.toList.contains '\x00' then some .emptyByte
  else if (f.system.map (!systems.contains ·)).getD false then f.system.map .unknownSystem
  else if f.isVolatile path then if f.isReadOnly then some .readOnly else none
  else
    let written := if f.isReadOnly || f.isImmutable then some .readOnly else none
    match found with
    | some (.folder _) => some (if f.isReadOnly then .unreadable else .cannotOpen)
    | some (.file bytes) => if bytes.isEmpty then written else some .notDatabase
    | none => if f.mayCreate && mayPlace && !f.isReadOnly then written else some .cannotOpen

end DatabaseFile

end ScopedAccess
