import EarlyConfig.Dialect.Module.Declaration

/-! The declarations of a module, collected. -/
namespace EarlyConfig.ModuleConfig

/-- All that is said about a provider under one local name. -/
structure Requirement where
  source : Option (Placed String) := none
  versions : List (Placed String) := []
  aliases : List ProviderRef := []

structure Draft where
  core : List (Placed String) := []
  /-- The first backend of each type. -/
  backends : List (String × Placed Backend) := []
  cloud : Option Cloud := none
  /-- By local name, in the order in which the names come up. -/
  requirements : List (String × Requirement) := []
  /-- By the text of the reference. -/
  providerConfigs : SortedMap String ProviderRef := .empty
  resources : SortedMap String Resource := .empty
  inputs : SortedMap String Variable := .empty
  outputs : SortedMap String Output := .empty
  calls : SortedMap String Call := .empty

namespace Draft

def multipleBackends (backend : Placed Backend) : Diagnostic :=
  .error "Multiple backend definitions"
    ("Found multiple backend definitions for " ++ Text.quote backend.value.type ++
      ". Only one is allowed.")
    backend.range

def addBackend (d : Draft) (backend : Placed Backend) : Diagnosed Draft := do
  let type := backend.value.type
  if Entries.contains type d.backends then
    .report (multipleBackends backend)
    return d
  return { d with backends := Entries.put type backend d.backends }

def requirement (d : Draft) (name : String) : Requirement :=
  (Entries.get? name d.requirements).getD {}

def setRequirement (d : Draft) (name : String) (r : Requirement) : Draft :=
  { d with requirements := Entries.put name r d.requirements }

def addRequired (d : Draft) (p : RequiredProvider) : Diagnosed Draft := do
  let r := d.requirement p.name
  let source ← p.mergeSource r.source
  return d.setRequirement p.name ⟨source, r.versions ++ p.versions, r.aliases ++ p.aliases⟩

/-- A configuration of a provider also requires the provider. -/
def addProviderConfig (d : Draft) (c : ProviderConfig) : Draft :=
  let r := d.requirement c.ref.localName
  { d.setRequirement c.ref.localName { r with versions := r.versions ++ c.version.toList } with
    providerConfigs := d.providerConfigs.insert c.ref.text c.ref }

/-- Takes up a declaration. Of variables, outputs, calls and resources of one name the last counts.
-/
def absorb (d : Draft) : Declaration → Diagnosed Draft
  | .core version => pure { d with core := d.core ++ [version] }
  | .backend backend => d.addBackend backend
  | .cloud cloud => pure { d with cloud := some cloud }
  | .required entries => entries.foldlM addRequired d
  | .providerConfig config => pure (d.addProviderConfig config)
  | .resource key r => pure { d with resources := d.resources.insert key r }
  | .input name v => pure { d with inputs := d.inputs.insert name v }
  | .output name o => pure { d with outputs := d.outputs.insert name o }
  | .call name c => pure { d with calls := d.calls.insert name c }

end Draft

end EarlyConfig.ModuleConfig
