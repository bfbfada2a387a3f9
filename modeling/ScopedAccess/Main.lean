import ScopedAccess.CommandLine.Startup

namespace ScopedAccess

namespace Machine

def variableNames : List String :=
  ["ARBOR__SERVER", "ARBOR__SERVER__HOST", "ARBOR__SERVER__PORT", "ARBOR__DATABASE", "ARBOR__DATABASE__URL",
    "ARBOR__AUTHZ", "ARBOR__AUTHZ__POLICIES_DIR", "ARBOR__AUTHZ__QUERY_TIMEOUT_MS",
    "ARBOR__AUTHZ__ORPHANED_ASSIGNMENTS"]

def environment : IO (List (String × String)) :=
  variableNames.filterMapM fun name => do return (← IO.getEnv name).map (name, ·)

-- A file with its bytes. What cannot be read counts as absent.
def lookFile (path : String) : IO (Option FileTree) := do
  try
    return some (.file (← IO.FS.readBinFile path))
  catch _ => return none

-- A folder with the files right in it; the folders in it are shown empty.
def look (path : String) : IO (Option FileTree) := do
  let here : IO.FS.DirEntry := ⟨path, ""⟩
  if ← here.path.isDir then
    let entries ← here.path.readDir
    let found ← entries.toList.filterMapM fun e => do
      let below ← if ← e.path.isDir then pure (some FileTree.empty) else lookFile e.path.toString
      return below.map (e.fileName, ·)
    return some (.folder found)
  else lookFile path

def surroundings : IO (Surroundings IO) := do
  return { directory := (← IO.currentDir).toString, environment := ← environment, look }

end Machine

end ScopedAccess

open ScopedAccess in
def main (arguments : List String) : IO UInt32 := do
  let exit ← runCommand arguments (← Machine.surroundings)
  IO.print exit.output
  IO.eprint exit.errors
  return exit.code.toUInt32
