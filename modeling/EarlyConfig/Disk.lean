import EarlyConfig.Entries
import EarlyConfig.FileSystem

/-! A file system as a tree of names, with no links. -/
namespace EarlyConfig

inductive Disk where
  | file (content : ByteArray)
  | directory (entries : List (String × Disk))

namespace Disk

def isFile : Disk → Bool
  | .file _ => true
  | .directory _ => false

def entries : Disk → List (String × Disk)
  | .file _ => []
  | .directory entries => entries

/-- What stands under a list of names. -/
def get? (d : Disk) : List String → Option Disk
  | [] => some d
  | name :: rest => (Entries.get? name d.entries).bind fun child => child.get? rest

/-- Puts something under a list of names. Directories on the way to it are made. -/
def put (x : Disk) : List String → Disk → Disk
  | [], _ => x
  | name :: rest, d =>
    .directory (Entries.update name (.directory []) (put x rest) d.entries)

/-- Makes a directory unless there is something. -/
def makeDirectory (d : Disk) (names : List String) : Disk :=
  if (d.get? names).isSome then d else put (.directory []) names d

/-! ### Paths -/

/-- One name of a path, seen from a place that has to be a directory. -/
def step (d : Disk) (place : List String) (name : String) : Except IoError (List String) :=
  match d.get? place with
  | none => .error .notFound
  | some (.file _) => .error .notDirectory
  | some (.directory entries) =>
    if name = "" || name = "." then .ok place
    else if name = ".." then .ok place.dropLast
    else if Entries.contains name entries then .ok (place ++ [name])
    else .error .notFound

/-- The place that an absolute path leads to. No path at all leads nowhere. -/
def resolve (d : Disk) (path : String) : Except IoError (List String) :=
  if path.isEmpty then .error .notFound
  else (Text.pieces '/' path).foldlM d.step []

def pathOf (place : List String) : String :=
  "/" ++ "/".intercalate place

def locate (d : Disk) (path : String) : Except IoError Disk := do
  match d.get? (← d.resolve path) with
  | some x => return x
  | none => throw .notFound

def read (d : Disk) (path : String) : Except IoError ByteArray := do
  match ← d.locate path with
  | .file content => return content
  | .directory _ => throw .isDirectory

def list (d : Disk) (path : String) : Except IoError (List DirectoryEntry) := do
  match ← d.locate path with
  | .file _ => throw .notDirectory
  | .directory entries => return entries.map fun (name, x) => ⟨name, x.isFile⟩

/-- The tree as a file system in which all paths are absolute. -/
def fileSystem (d : Disk) : FileSystem Id where
  read path := d.read path
  list path := d.list path
  realPath path := (d.resolve path).map pathOf
  isDirectory path := match d.locate path with
    | .ok (.directory _) => true
    | _ => false

end Disk

end EarlyConfig
