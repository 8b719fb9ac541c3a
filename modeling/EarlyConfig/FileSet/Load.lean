import EarlyConfig.FileSet
import EarlyConfig.FileSystem
import EarlyConfig.Hcl.Read.Body

/-! Filling a set of files from a file system. -/
namespace EarlyConfig

inductive LoadError where
  | io (cause : IoError)
  /-- The file is not well formed. -/
  | malformed (path : String)
deriving DecidableEq, Repr

def LoadError.message : LoadError → String
  | .io _ => "IO error"
  | .malformed path => "Unable to parse hcl file " ++ path

namespace FileSet

/-- The body of a file with the given content. -/
def parse (path : String) (content : ByteArray) : Except LoadError Hcl.Body :=
  match String.fromUTF8? content with
  | none => .error (.io .invalidData)
  | some text =>
    match Hcl.Body.ofText? text with
    | none => .error (.malformed path)
    | some body => .ok body

/-- A file goes by its file name, or by its path if there is a file of that name already. -/
def nameFor (files : FileSet) (path : String) : String :=
  let name := (Path.fileName? path).getD path
  if Entries.contains name files then path else name

def add (files : FileSet) (path : String) (content : ByteArray) : Except LoadError FileSet := do
  return files.insert (files.nameFor path) (← parse path content)

/-- Loads a file. A failure leaves the files as they are. -/
def loadFile [Monad m] (fs : FileSystem m) (files : FileSet) (path : String) :
    m (Except LoadError FileSet) := do
  match ← fs.read path with
  | .error e => return .error (.io e)
  | .ok content => return files.add path content

/-- Loads files one after another, up to the first failure. -/
def loadFiles [Monad m] (fs : FileSystem m) (files : FileSet) :
    List String → m (FileSet × Option LoadError)
  | [] => return (files, none)
  | path :: rest => do
    match ← files.loadFile fs path with
    | .error e => return (files, some e)
    | .ok files => files.loadFiles fs rest

/-- The files of a listing whose names have one of the endings, in ascending order. -/
def matching (suffixes : List String) (entries : List DirectoryEntry) : List String :=
  let fits := fun (e : DirectoryEntry) =>
    e.isFile && suffixes.any fun suffix => suffix.toList.isSuffixOf e.name.toList
  ((entries.filter fits).map (·.name)).mergeSort (· ≤ ·)

/-- Loads the files of a directory whose names have one of the endings, and counts them. What was
loaded before a failure stays. -/
def loadDirectory [Monad m] (fs : FileSystem m) (files : FileSet) (suffixes : List String)
    (directory : String) : m (FileSet × Except LoadError Nat) := do
  match ← fs.list directory with
  | .error e => return (files, .error (.io e))
  | .ok entries =>
    let names := matching suffixes entries
    match ← files.loadFiles fs (names.map (Path.join directory)) with
    | (files, some e) => return (files, .error e)
    | (files, none) => return (files, .ok names.length)

end FileSet

end EarlyConfig
