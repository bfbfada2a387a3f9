namespace ScopedAccess

inductive FileTree where
  | file (bytes : ByteArray)
  | folder (entries : List (String × FileTree))

namespace FileTree

def empty : FileTree := folder []

def entries : FileTree → List (String × FileTree)
  | file _ => []
  | folder entries => entries

def isFolder : FileTree → Bool
  | file _ => false
  | folder _ => true

def child? (t : FileTree) (name : String) : Option FileTree := (t.entries.find? (·.1 = name)).map (·.2)

-- Puts `leaf` at a path, making the folders above it; a folder already there stays as it is.
def place (t : FileTree) (leaf : FileTree) : List String → FileTree
  | [] => if leaf.isFolder && t.isFolder then t else leaf
  | name :: path =>
    match t.child? name with
    | some below => folder (t.entries.map fun e => if e.1 = name then (name, place below leaf path) else e)
    | none => folder (t.entries ++ [(name, place empty leaf path)])

def ofFiles (files : List (String × FileTree)) : FileTree :=
  files.foldl (fun t f => t.place f.2 (f.1.splitOn "/")) empty

-- Follows a path; `..` goes back to the folder above, and every step but that one needs a folder.
def resolve? (above : List FileTree) (t : FileTree) : List String → Option FileTree
  | [] => some t
  | "" :: path => resolve? above t path
  | "." :: path => if t.isFolder then resolve? above t path else none
  | ".." :: path =>
    match above with
    | parent :: rest => if t.isFolder then resolve? rest parent path else none
    | [] => none
  | name :: path =>
    match t.child? name with
    | some below => resolve? (t :: above) below path
    | none => none

def at? (t : FileTree) (path : String) : Option FileTree := resolve? [] t (path.splitOn "/")

end FileTree

namespace FilePath

def isAbsolute (path : String) : Bool := path.startsWith "/"

def entry (folder name : String) : String :=
  if folder.isEmpty || folder.endsWith "/" then folder ++ name else folder ++ "/" ++ name

def anchored (directory path : String) : String := if isAbsolute path then path else entry directory path

def names (path : String) : List String := (path.splitOn "/").filter fun name => name ≠ "" && name ≠ "."

def withoutShared : List String → List String → List String × List String
  | a :: base, b :: path => if a = b then withoutShared base path else (a :: base, b :: path)
  | base, path => (base, path)

-- How to come from one folder to a path: up to the last folder they share, and down from there.
def relative (directory path : String) : String :=
  let (up, down) := withoutShared (names directory) (names path)
  "/".intercalate (up.map (fun _ => "..") ++ down)

def parent (path : String) : String :=
  String.ofList (path.toList.reverse.dropWhile (· ≠ '/')).reverse

end FilePath

end ScopedAccess
