import EarlyConfig.Provider.Address

/-! Where a module comes from. -/
namespace EarlyConfig

/-- A module in a registry. -/
structure RegistryModule where
  hostname : String
  namespaceName : String
  name : String
  targetSystem : String
  /-- The directory of the module inside its package, empty for the package itself. -/
  subdir : String
deriving DecidableEq, Repr

inductive ModuleSource where
  /-- A path relative to the module that names it. -/
  | localPath (path : String)
  | registry (module : RegistryModule)
  /-- Any other source, kept as it is. -/
  | remote (address : String)
deriving DecidableEq, Repr

namespace RegistryModule

/-- The full address without the directory. -/
def package (m : RegistryModule) : String :=
  "/".intercalate [m.hostname, m.namespaceName, m.name, m.targetSystem]

def withSubdir (m : RegistryModule) (package : String) : String :=
  if m.subdir.isEmpty then package else package ++ "//" ++ m.subdir

def text (m : RegistryModule) : String :=
  m.withSubdir m.package

/-- The address without the host if that is the default one. -/
def display (m : RegistryModule) : String :=
  m.withSubdir <|
    if m.hostname = Provider.registryHost then
      "/".intercalate [m.namespaceName, m.name, m.targetSystem]
    else m.package

/-- Letters, digits, dashes and underscores, with a letter or digit at both ends. -/
def isName (s : String) : Bool :=
  let cs := s.toList
  s.utf8ByteSize ≤ 64 && cs.head?.any Char.isAlphanum && cs.getLast?.any Char.isAlphanum &&
    cs.all fun c => c.isAlphanum || c = '-' || c = '_'

def isTargetSystem (s : String) : Bool :=
  !s.isEmpty && s.utf8ByteSize ≤ 64 && s.toList.all fun c => c.isLower || c.isDigit

/-- Hosts that are short for other kinds of sources. -/
def otherHosts : List String :=
  ["github.com", "bitbucket.org", "gitlab.com"]

/-- Whether the part before the first colon is `localhost` or a name with points in it. -/
def isHost (s : String) : Bool :=
  let name := (Text.cut ':' s.toList).1
  (name.contains '.' || name = "localhost".toList) &&
    (name.splitOn '.').all fun label => !label.isEmpty && label.all Provider.isPartChar

/-- The host and the three names of a package. -/
def packageParts? (package : String) : Option (String × String × String × String) :=
  match Text.pieces '/' package with
  | [n, m, t] => some (Provider.registryHost, n, m, t)
  | [h, n, m, t] =>
    let host := Text.lower h
    if otherHosts.contains host || !isHost host then none else some (host, n, m, t)
  | _ => none

/-- A package and the directory in it, without slashes at its ends. -/
def splitSubdir (source : String) : String × String :=
  match Text.cutAt ['/', '/'] source.toList with
  | some (package, subdir) =>
    (String.ofList package, String.ofList (Text.stripBoth (· = '/') subdir))
  | none => (source, "")

/-- Reads `[host/]namespace/name/system[//subdir]`. Nothing with a scheme or a forced way of
fetching is in a registry. -/
def ofText? (source : String) : Option RegistryModule := do
  let cs := source.toList
  if Text.containsMark [':', ':'] cs || Text.containsMark [':', '/', '/'] cs then none
  let (package, subdir) := splitSubdir source
  let (host, n, m, t) ← packageParts? package
  if isName n && isName m && isTargetSystem t then some ⟨host, n, m, t, subdir⟩ else none

end RegistryModule

namespace ModuleSource

def localMarks : List String :=
  ["./", "../", ".\\", "..\\"]

def ofText (source : String) : ModuleSource :=
  if localMarks.any fun mark => mark.toList.isPrefixOf source.toList then .localPath source
  else
    match RegistryModule.ofText? source with
    | some m => .registry m
    | none => .remote source

def text : ModuleSource → String
  | .localPath path => path
  | .registry m => m.text
  | .remote address => address

def display : ModuleSource → String
  | .localPath path => path
  | .registry m => m.display
  | .remote address => address

end ModuleSource

end EarlyConfig
