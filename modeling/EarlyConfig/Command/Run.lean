import EarlyConfig.Command.Arguments
import EarlyConfig.FileSet.Load
import EarlyConfig.Report.Configuration
import EarlyConfig.Report.Json
import EarlyConfig.Report.Yaml

/-! What the command line does: it loads files, decodes them and shows the result, with the
diagnostics on the side. -/
namespace EarlyConfig.Command

structure Outcome where
  code : UInt32 := 0
  stdout : String := ""
  stderr : String := ""
deriving DecidableEq, Repr

def Outcome.failure (message : String) : Outcome where
  code := 1
  stderr := message

def versionText : String :=
  "tfmeta 0.1.0\n"

def usage : String :=
  "Usage: tfmeta [-C <directory>]... <command> [options]\n\n" ++
  "Commands: module, stack, search, policy-test, test\n\n" ++
  "Options:\n" ++
  "  -f, --input-file <file>       Load a file, whatever its name\n" ++
  "  -d, --input-dir <directory>   Load the files of the dialect from a directory\n" ++
  "  -F, --output-format <format>  json or yaml (default)\n" ++
  "      --strict                  Fail when an error is reported\n" ++
  "  -C, --directory <directory>   Change to a directory first\n" ++
  "  -h, --help                    Print help\n" ++
  "  -V, --version                 Print the version\n"

section

variable {m : Type → Type} [Monad m]

def unresolved (path : String) (e : IoError) : String :=
  "Failed to resolve path for -C/--directory " ++ path ++ "\n" ++ e.message ++ "\n"

def notEntered (path : String) : String :=
  "Failed to set work directory to " ++ path ++ "\n" ++ IoError.notDirectory.message ++ "\n"

/-- Changes from one directory to the next, each as seen from the one before. -/
def changeTo (fs : FileSystem m) (here : String) : List String → m (Except String String)
  | [] => return .ok here
  | path :: rest => do
    match ← (fs.within here).realPath path with
    | .error e => return .error (unresolved path e)
    | .ok there =>
      if ← fs.isDirectory there then changeTo fs there rest else return .error (notEntered there)

/-- A failure and its cause, one to a line. -/
def loadFailure : LoadError → String
  | .io e => (LoadError.io e).message ++ "\n" ++ e.message ++ "\n"
  | e => e.message ++ "\n"

/-- Loads one directory after another, up to the first failure. -/
def loadDirectories (fs : FileSystem m) (suffixes : List String) (files : FileSet) :
    List String → m (Except LoadError FileSet)
  | [] => return .ok files
  | directory :: rest => do
    match ← files.loadDirectory fs suffixes directory with
    | (_, .error e) => return .error e
    | (files, .ok _) => loadDirectories fs suffixes files rest

/-- The directories to load: those given, or the present one if no input is given at all. -/
def Decode.sources (d : Decode) (here : String) : List String :=
  if d.files.isEmpty && d.directories.isEmpty then [here] else d.directories

def loadAll (fs : FileSystem m) (here : String) (d : Decode) : m (Except LoadError FileSet) := do
  match ← FileSet.loadFiles fs [] d.files with
  | (_, some e) => return .error e
  | (files, none) => loadDirectories fs d.family.suffixes files (d.sources here)

end

/-! ### Output -/

def Format.render : Format → Document → String
  | .json, d => Json.pretty d
  | .yaml, d => Yaml.render d

/-- What is shown of the files. With `strict`, reported errors count as a failure. -/
def Decode.show (d : Decode) (path : String) (files : FileSet) : Outcome :=
  let result := d.family.load path files
  { code := if d.strict && result.diagnostics.hasErrors then 1 else 0
    stdout := (d.format.getD .yaml).render result.value
    stderr := result.diagnostics.text }

def Decode.run [Monad m] (fs : FileSystem m) (home : String) (d : Decode) : m Outcome := do
  match ← changeTo fs home d.enter with
  | .error message => return .failure message
  | .ok here =>
    match ← loadAll (fs.within here) here d with
    | .error e => return .failure (loadFailure e)
    | .ok files =>
      if files.isEmpty then return .failure "No files loaded\n"
      return d.show ((d.sources here ++ d.files).headD "") files

/-- Runs the command line in a directory. -/
def run [Monad m] (fs : FileSystem m) (home : String) (args : List String) : m Outcome :=
  match Request.ofArguments? args with
  | none => pure { code := 2, stderr := usage }
  | some .version => pure { stdout := versionText }
  | some .help => pure { stdout := usage }
  | some (.decode d) => d.run fs home

end EarlyConfig.Command
