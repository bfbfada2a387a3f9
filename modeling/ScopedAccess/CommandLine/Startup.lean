import ScopedAccess.CommandLine.Arguments
import ScopedAccess.CommandLine.DatabaseUrl
import ScopedAccess.Settings.Load

namespace ScopedAccess

structure Report where
  code : Option String
  message : String
  causes : List String
  help : Option String
deriving DecidableEq, Repr

namespace Report

def ofDiagnostic (d : Diagnostic) (causes : List String) : Report := ⟨some d.kind.code, d.message, causes, d.kind.help?⟩

def ofFailure (f : Failure) : Report := ofDiagnostic f.diagnostic f.diagnostic.cause.toList

def text (r : Report) : String :=
  "\n".intercalate
    (["Error: " ++ r.code.getD "", "  " ++ r.message] ++ r.causes.map ("  > " ++ ·) ++
      r.help.toList.map ("  help: " ++ ·) ++ [""])

end Report

-- What a start meets: the folder it runs in, variables, and whatever lies at a path.
structure Surroundings (m : Type → Type) where
  directory : String
  environment : List (String × String)
  look : String → m (Option FileTree)

namespace Startup

variable {m : Type → Type} [Monad m]

def resolve (s : Surroundings m) (path : String) : String := FilePath.anchored s.directory path

-- A file can be made in a folder that is there.
def openFault? (s : Surroundings m) (f : DatabaseFile) : m (Option DatabaseUrlFault) := do
  match DatabaseFile.localPath f.path with
  | .error fault => return some fault
  | .ok path =>
    let found ← s.look (resolve s path)
    let above ← s.look (resolve s (FilePath.parent path))
    return f.openFault? path found ((above.map FileTree.isFolder).getD false)

def configurationFault (message : String) : Report := .ofDiagnostic (.serviceConfiguration message) [message]

-- A missing file is no settings at all.
def settingsFile (s : Surroundings m) (config : String) : m (Except Report (Option SettingsFile)) := do
  if config.isEmpty then return .ok none
  let path := resolve s config
  match ← s.look path with
  | none => return .ok none
  | some (.folder _) => return .error (configurationFault ("configuration file \"" ++ config ++ "\" not found"))
  | some (.file bytes) =>
    match String.fromUTF8? bytes with
    | some text => return .ok (some ⟨path, text⟩)
    | none => return .error (configurationFault "stream did not contain valid UTF-8")

def readSettings (s : Surroundings m) (config : String) : m (Except Report Settings) := do
  match ← settingsFile s config with
  | .error report => return .error report
  | .ok file =>
    return (Settings.load file s.environment s.directory).mapError fun fault => configurationFault fault.message

def databaseFault (f : DatabaseUrlFault) : Report :=
  .ofDiagnostic (.serviceDatabase (f.causes.headD "")) f.causes

def requireDatabase (s : Surroundings m) (url : String) : m (Except Report Unit) := do
  match DatabaseFile.ofUrl? url with
  | .error fault => return .error (databaseFault fault)
  | .ok none => return .ok ()
  | .ok (some file) => return ((← openFault? s file).map databaseFault).elim (.ok ()) .error

-- Without a folder of policies nothing is compiled yet.
def compilePolicies (settings : Settings) (found : Option FileTree) : Except Report Authorizer :=
  let folder : PolicyFolder := ⟨settings.authz.policiesDir, found⟩
  let a := Authorizer.start (.fresh []) (.folder folder) settings.options
  match found with
  | some (.folder _) =>
    match a.compile with
    | (next, .ok _) => .ok next
    | (_, .error failure) => .error (.ofFailure failure)
  | _ => .ok a

def requireAddress (settings : Settings) : Except Report String :=
  if SocketAddress.isHost settings.server.host then .ok settings.bindAddress
  else .error ⟨none, "bad listen addr: invalid socket address syntax", [], none⟩

def start (s : Surroundings m) (config : String) : m (Except Report (Authorizer × String)) := do
  match ← readSettings s config with
  | .error report => return .error report
  | .ok settings =>
    match ← requireDatabase s settings.database.url with
    | .error report => return .error report
    | .ok () =>
      let found ← s.look settings.authz.policiesDir
      return do
        let a ← compilePolicies settings found
        let address ← requireAddress settings
        .ok (a, address)

end Startup

structure Exit where
  code : Nat
  output : String
  errors : String
deriving DecidableEq, Repr

def runCommand {m : Type → Type} [Monad m] (arguments : List String) (s : Surroundings m) : m Exit := do
  match Arguments.read arguments with
  | .error fault => return ⟨2, "", fault.text⟩
  | .ok .help => return ⟨0, Arguments.helpText, ""⟩
  | .ok .version => return ⟨0, Arguments.versionText, ""⟩
  | .ok (.serve config) =>
    match ← Startup.start s config with
    | .error report => return ⟨1, "", report.text⟩
    | .ok _ => return ⟨0, "", ""⟩

end ScopedAccess
