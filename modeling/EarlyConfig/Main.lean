import EarlyConfig.Command.Run

/-! The command line on the files of the system. -/
namespace EarlyConfig

/-- The causes that are told apart by the system's number for them. -/
def ioErrorOf : IO.Error → IoError
  | .noFileOrDirectory _ _ _ => .notFound
  | .noSuchThing _ _ _ => .notFound
  | .inappropriateType _ 20 _ => .notDirectory
  | .inappropriateType _ 21 _ => .isDirectory
  | e => .other e.toString

def attempt (action : IO α) : IO (Except IoError α) := do
  try return .ok (← action) catch e => return .error (ioErrorOf e)

/-- What a directory holds. A link in it is not followed. -/
def listDirectory (path : String) : IO (List DirectoryEntry) := do
  let directory ← IO.FS.realPath path
  let entries ← directory.readDir
  entries.toList.mapM fun e => do
    return ⟨e.fileName, (← e.path.symlinkMetadata).type == .file⟩

def systemFiles : FileSystem IO where
  read path := attempt (IO.FS.readBinFile path)
  list path := attempt (listDirectory path)
  realPath path := attempt do return (← IO.FS.realPath path).toString
  isDirectory path := do return ← (← IO.FS.realPath path).isDir

end EarlyConfig

def main (args : List String) : IO UInt32 := do
  let outcome ← EarlyConfig.Command.run EarlyConfig.systemFiles (← IO.currentDir).toString args
  IO.print outcome.stdout
  IO.eprint outcome.stderr
  return outcome.code
