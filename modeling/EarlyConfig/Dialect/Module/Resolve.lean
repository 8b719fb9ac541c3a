import EarlyConfig.Dialect.Basic
import EarlyConfig.Dialect.Module.Draft

/-! What the declarations of a module come to: the constraints on the program that runs it, its
backend, and the addresses of its providers. -/
namespace EarlyConfig.ModuleConfig

/-! ### Core and backend -/

def invalidCore (version : Placed String) (e : VersionError) : Diagnostic :=
  .error "Invalid version constraint"
    ("Unable to parse core version constraint " ++ Text.quote version.value ++ ": " ++ e.message ++
      ".")
    version.range

def coreConstraints (version : Placed String) : Diagnosed Constraints := do
  match Constraints.read version.value with
  | .ok cs => return cs
  | .error e =>
    .report (invalidCore version e)
    return []

def conflictingBackends (first second : Placed Backend) (types : List String) : Diagnostic where
  severity := .error
  summary := "Unable to parse backend configuration"
  detail := "Multiple backend definitions: " ++ ", ".intercalate types
  subject := some second.range
  context := some first.range

/-- The backend, if all definitions agree on its type. -/
def theBackend (backends : List (String × Placed Backend)) : Diagnosed (Option Backend) :=
  match backends with
  | [] => pure none
  | [(_, backend)] => pure (some backend.value)
  | (_, first) :: (_, second) :: _ =>
    .reject (conflictingBackends first second (Entries.keys backends))

/-! ### Providers -/

/-- The constraints of version strings; blank ones say nothing. -/
def versionConstraints (versions : List (Placed String)) : Diagnosed Constraints := do
  let given := versions.filter fun v => !(Text.trim v.value).isEmpty
  let read ← given.mapM RequiredProvider.constraints
  return read.flatten

namespace Providers

/-- The local name and its aliases stand for the provider, whose constraints are added to those it
has already. -/
def add (ps : Providers) (name : String) (aliases : List ProviderRef) (p : Provider)
    (cs : Constraints) : Providers where
  references := (.ofName name :: aliases).foldl (fun m ref => m.insert ref p) ps.references
  requirements := ps.requirements.insert p ((ps.requirements.get? p).getD [] ++ cs)

/-- A requirement whose source makes no sense is left out. -/
def addRequirement (ps : Providers) (name : String) (r : Requirement) : Diagnosed Providers := do
  let some p ← RequiredProvider.address name r.source | return ps
  return ps.add name r.aliases p (← versionConstraints r.versions)

/-- An alias stands for what its local name stands for. -/
def addAlias (ps : Providers) (ref : ProviderRef) : Providers :=
  if ref.aliasName.isEmpty then ps
  else
    match ps.references.get? (.ofName ref.localName) with
    | some p => { ps with references := ps.references.insert ref p }
    | none => ps

/-- A name that nothing else explains stands for a provider that is known by name only. -/
def addImplied (ps : Providers) (name : String) : Providers :=
  if name.isEmpty || ps.references.contains (.ofName name) then ps
  else ps.add name [] (.legacy name) []

def resolve (d : Draft) : Diagnosed Providers := do
  let ps ← d.requirements.foldlM (fun ps (name, r) => ps.addRequirement name r) {}
  let ps := d.providerConfigs.values.foldl addAlias ps
  return (d.resources.values.map Resource.providerName).foldl addImplied ps

end Providers

def resolve (path : String) (filenames : List String) (d : Draft) : Diagnosed ModuleConfig := do
  let core ← d.core.mapM coreConstraints
  let backend ← theBackend d.backends
  let providers ← Providers.resolve d
  return {
    path
    filenames
    backend
    cloud := d.cloud
    providers
    coreRequirements := core.flatten
    inputs := d.inputs
    outputs := d.outputs
    calls := d.calls }

def dialect : Dialect Declaration Draft ModuleConfig where
  root := Schema.moduleRoot
  declare := Declaration.ofBlock
  start := {}
  absorb := Draft.absorb
  resolve := resolve

/-- Decodes the files of a module. -/
def load (path : String) (files : FileSet) : Diagnosed ModuleConfig :=
  dialect.load path files

end EarlyConfig.ModuleConfig
