import EarlyConfig.Dialect.Attribute
import EarlyConfig.ModuleSource
import EarlyConfig.Version.Constraint

/-! Where a called module comes from and which versions of it will do. -/
namespace EarlyConfig

structure ModuleOrigin where
  source : Option ModuleSource
  version : Option Constraints

namespace ModuleOrigin

open Hcl (Attribute Body)

def invalidVersion (text : String) (e : VersionError) (range : SourceRange) : Diagnostic :=
  .error "Invalid version constraint"
    ("Unable to parse version constraint " ++ Text.quote text ++ ": " ++ e.message ++ ".") range

def decodeVersion (file : String) (a : Attribute) : Diagnosed (Option Constraints) := do
  match ← a.string? file with
  | none => return none
  | some text =>
    match Constraints.read text with
    | .ok cs => return some cs
    | .error e => .reject (invalidVersion text e (a.range file))

/-- Decodes `source` and `version`. An empty source is none. -/
def decode (file : String) (b : Body) : Diagnosed ModuleOrigin := do
  let source ← b.string file "source"
  let version ← match b.attribute? "version" with
    | none => pure none
    | some a => decodeVersion file a
  return ⟨if source.isEmpty then none else some (.ofText source), version⟩

end ModuleOrigin

end EarlyConfig
