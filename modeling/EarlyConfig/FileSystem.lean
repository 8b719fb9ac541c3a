import EarlyConfig.Text.Split

/-! File systems, as far as loading needs them: reading a file, listing a directory, and finding the
place that a path leads to. Paths and names are texts; a file whose name is not UTF-8 is outside of
what is described here. -/
namespace EarlyConfig

inductive IoError where
  | notFound
  | isDirectory
  | notDirectory
  /-- The content is not text. -/
  | invalidData
  /-- Any other failure, in the words of the system. -/
  | other (message : String)
deriving DecidableEq, Repr

def IoError.message : IoError → String
  | .notFound => "No such file or directory (os error 2)"
  | .isDirectory => "Is a directory (os error 21)"
  | .notDirectory => "Not a directory (os error 20)"
  | .invalidData => "stream did not contain valid UTF-8"
  | .other message => message

/-- A name in a directory. -/
structure DirectoryEntry where
  name : String
  /-- Neither a directory nor a link, wherever that leads. -/
  isFile : Bool
deriving DecidableEq, Repr

/-- A file system whose operations run in `m`. Paths are relative to a directory of its own choice,
or absolute. A listing may come in any order. -/
structure FileSystem (m : Type → Type) where
  read : String → m (Except IoError ByteArray)
  list : String → m (Except IoError (List DirectoryEntry))
  /-- The absolute path of what a path leads to. -/
  realPath : String → m (Except IoError String)
  isDirectory : String → m Bool

namespace Path

/-- The path of a name in a directory. -/
def join (directory name : String) : String :=
  if directory.toList.getLast? = some '/' then directory ++ name else directory ++ "/" ++ name

def isAbsolute (path : String) : Bool :=
  path.toList.head? = some '/'

/-- A path as it is seen from a directory. The empty path stays empty, since it leads nowhere. -/
def seenFrom (directory path : String) : String :=
  if path.isEmpty || isAbsolute path then path else join directory path

/-- The last name of a path, if it ends in one. -/
def fileName? (path : String) : Option String :=
  match ((Text.pieces '/' path).filter fun name => name ≠ "" && name ≠ ".").getLast? with
  | some ".." => none
  | last => last

end Path

/-- The file system as it is seen from a directory. -/
def FileSystem.within (fs : FileSystem m) (directory : String) : FileSystem m where
  read path := fs.read (Path.seenFrom directory path)
  list path := fs.list (Path.seenFrom directory path)
  realPath path := fs.realPath (Path.seenFrom directory path)
  isDirectory path := fs.isDirectory (Path.seenFrom directory path)

end EarlyConfig
