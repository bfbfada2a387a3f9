import ScopedAccess.Authorizer
import ScopedAccess.Settings.Tree

namespace ScopedAccess

namespace Setting

def refuse {α : Type} (cause : SettingCause) : Except SettingFault α := .error ⟨"", cause⟩

def wrongKind {α : Type} (found : FoundValue) (expected : String) (origin : Option String) : Except SettingFault α :=
  refuse (.wrongKind found expected origin)

-- The whole number nearest to a number, and the nearest that fits a 64-bit word; halves go up.
def nearestCount (x : Binary64) : Nat :=
  match x with
  | .infinite negative => if negative then 0 else twoTo 64 - 1
  | .undefined => 0
  | .finite _ _ _ =>
    match x.ratio? with
    | some (n, d) => if x.isNegative then 0 else min ((2 * n + d) / (2 * d)) (twoTo 64 - 1)
    | none => 0

def digitsCount? (text : List Char) : Option Nat :=
  let digits := match text with
    | '+' :: rest => rest
    | _ => text
  let n := Toml.DateTime.number digits
  if !digits.isEmpty && digits.all Char.isDigit && n < twoTo 64 then some n else none

def textCount? (s : String) : Option Nat :=
  let lower := s.toLower
  if lower = "true" || lower = "on" || lower = "yes" then some 1
  else if lower = "false" || lower = "off" || lower = "no" then some 0
  else digitsCount? s.toList

def readCount : Setting → Except SettingFault Nat
  | scalar (.integer n) origin =>
    if n < 0 then wrongKind (.negative n) "an unsigned 64 bit or less integer" origin else .ok n.toNat
  | scalar (.text s) origin =>
    match textCount? s with
    | some n => .ok n
    | none => wrongKind (.text s) "an integer" origin
  | scalar (.boolean b) _ => .ok (if b then 1 else 0)
  | scalar (.real x) _ => .ok (nearestCount x)
  | list _ origin => wrongKind .sequence "an integer" origin
  | table _ origin => wrongKind .map "an integer" origin
  | gap => wrongKind .unit "an integer" none

def readPort (v : Setting) : Except SettingFault Nat := do
  let n ← v.readCount
  if n < twoTo 16 then .ok n else wrongKind (.count n) "an unsigned 16 bit integer" none

def readText : Setting → Except SettingFault String
  | scalar (.text s) _ => .ok s
  | scalar (.boolean b) _ => .ok (toString b)
  | scalar (.integer n) _ => .ok (toString n)
  | scalar (.real x) _ => .ok x.plainText
  | list _ origin => wrongKind .sequence "a string" origin
  | table _ origin => wrongKind .map "a string" origin
  | gap => wrongKind .unit "a string" none

def orphanPolicyOf (name : String) : Except SettingFault OrphanPolicy :=
  if name = "reject" then .ok .reject
  else if name = "prune" then .ok .prune
  else refuse (.unknownVariant "OrphanPolicy" name)

-- A table with one key stands for that key.
def readOrphanPolicy : Setting → Except SettingFault OrphanPolicy
  | scalar (.text s) _ => orphanPolicyOf s
  | table [(name, _)] _ => orphanPolicyOf name
  | _ => refuse (.noVariant "OrphanPolicy")

def foundScalar : Toml.Scalar → FoundValue
  | .text s => .text s
  | .integer n => .whole n
  | .real x => .real x
  | .boolean b => .boolean b

-- A section with its fields: by name from a table, in order from a list.
inductive Section where
  | named (entries : List (String × Setting))
  | listed (items : List Setting)

def asSection (name : String) : Setting → Except SettingFault Section
  | table entries _ => .ok (.named entries)
  | list items _ => .ok (.listed items)
  | scalar s _ => wrongKind (foundScalar s) ("struct " ++ name) none
  | gap => wrongKind .unit ("struct " ++ name) none

namespace Section

def field? (s : Section) (place : Nat) (name : String) : Option Setting :=
  match s with
  | named entries => entries.lookup name
  | listed items => items[place]?

def locate (s : Section) (place : Nat) (name : String) (fault : SettingFault) : SettingFault :=
  match s with
  | named _ => fault.below name
  | listed _ => fault.atPlace place

def lacking {α : Type} (s : Section) (name shape : String) : Except SettingFault α :=
  match s with
  | named _ => .error ⟨name, .absent⟩
  | listed items => refuse (.wrongLength items.length shape)

def read {α : Type} (s : Section) (place : Nat) (name shape : String) (reader : Setting → Except SettingFault α) :
    Except SettingFault α :=
  match s.field? place name with
  | some v => (reader v).mapError (s.locate place name)
  | none => s.lacking name shape

def readOr {α : Type} (s : Section) (place : Nat) (name : String) (otherwise : α)
    (reader : Setting → Except SettingFault α) : Except SettingFault α :=
  match s.field? place name with
  | some v => (reader v).mapError (s.locate place name)
  | none => .ok otherwise

end Section

end Setting

namespace Settings

structure Server where
  host : String
  port : Nat
deriving DecidableEq, Repr

structure Database where
  url : String
deriving DecidableEq, Repr

structure Authz where
  policiesDir : String
  queryTimeoutMs : Nat
  orphanedAssignments : OrphanPolicy
deriving DecidableEq, Repr

end Settings

structure Settings where
  server : Settings.Server
  database : Settings.Database
  authz : Settings.Authz
deriving DecidableEq, Repr

structure SettingsFile where
  path : String
  text : String
deriving DecidableEq, Repr

namespace OrphanPolicy

def name : OrphanPolicy → String
  | reject => "reject"
  | prune => "prune"

end OrphanPolicy

namespace Settings

def standard : Settings :=
  { server := ⟨"0.0.0.0", 8080⟩
    database := ⟨"sqlite://arbor.db?mode=rwc"⟩
    authz := ⟨"policies", 5000, .reject⟩ }

def bindAddress (s : Settings) : String := s.server.host ++ ":" ++ toString s.server.port

def options (s : Settings) : AuthorizerOptions := ⟨.ofMillis s.authz.queryTimeoutMs, s.authz.orphanedAssignments⟩

def tree (s : Settings) : Setting :=
  let text (s : String) : Setting := .scalar (.text s) none
  let number (n : Nat) : Setting := .scalar (.integer n) none
  .table
    [("server", .table [("host", text s.server.host), ("port", number s.server.port)] none),
     ("database", .table [("url", text s.database.url)] none),
     ("authz", .table
       [("policies_dir", text s.authz.policiesDir), ("query_timeout_ms", number s.authz.queryTimeoutMs),
        ("orphaned_assignments", text s.authz.orphanedAssignments.name)] none)] none

def isSupported (path : String) : Bool :=
  ((path.splitOn "/").getLast?.bind PolicySource.extension?) = some "toml"

-- The entries of a file, whose names may be paths. A file is reported by its path from `directory`.
def fileEntries (directory : String) (f : SettingsFile) : Except SettingsFault (List (String × Setting)) := do
  if isSupported f.path then
    let origin := FilePath.relative directory f.path
    let entries ← (Toml.read f.text).mapError (.malformed · origin)
    (Setting.ofTomlEntries origin entries).mapError (.unreadableNumber · origin)
  else .error (.unsupportedFile f.path)

def variablePrefix : String := "arbor__"

-- A variable that sets something, in any case of letters; two underscores separate the names on its path.
def variableEntry? (v : String × String) : Option (String × Setting) :=
  let name := v.1.toLower
  if name.startsWith variablePrefix then
    let rest := String.ofList (name.toList.drop variablePrefix.length)
    some (".".intercalate (rest.splitOn "__"), Setting.text v.2 "the environment")
  else none

def mergeEntry (t : Setting) (e : String × Setting) : Setting := Setting.mergeAt e.2 (Setting.path e.1) (some t)

def readServer (v : Setting) : Except SettingFault Server := do
  let shape := "struct Server with 2 elements"
  let s ← v.asSection "Server"
  let host ← s.read 0 "host" shape Setting.readText
  let port ← s.read 1 "port" shape Setting.readPort
  .ok { host, port }

def readDatabase (v : Setting) : Except SettingFault Database := do
  let s ← v.asSection "Database"
  let url ← s.read 0 "url" "struct Database with 1 element" Setting.readText
  .ok { url }

def readAuthz (v : Setting) : Except SettingFault Authz := do
  let shape := "struct Authz with 3 elements"
  let s ← v.asSection "Authz"
  let policiesDir ← s.read 0 "policies_dir" shape Setting.readText
  let queryTimeoutMs ← s.read 1 "query_timeout_ms" shape Setting.readCount
  let orphanedAssignments ← s.readOr 2 "orphaned_assignments" .reject Setting.readOrphanPolicy
  .ok { policiesDir, queryTimeoutMs, orphanedAssignments }

def ofTree (t : Setting) : Except SettingFault Settings := do
  let sections : Setting.Section := .named t.entries
  let server ← sections.read 0 "server" "struct Settings" readServer
  let database ← sections.read 1 "database" "struct Settings" readDatabase
  let authz ← sections.read 2 "authz" "struct Settings" readAuthz
  .ok { server, database, authz }

def load (file : Option SettingsFile) (environment : List (String × String)) (directory : String) :
    Except SettingsFault Settings := do
  let fromFile ← match file with
    | some f => fileEntries directory f
    | none => .ok []
  let entries := fromFile ++ environment.filterMap variableEntry?
  let s ← (ofTree (entries.foldl mergeEntry standard.tree)).mapError .refused
  .ok { s with authz := { s.authz with policiesDir := FilePath.anchored directory s.authz.policiesDir } }

end Settings

end ScopedAccess
