import EarlyConfig.Dialect.Basic
import EarlyConfig.Dialect.Stack.Declaration

/-! The declarations of a stack, collected and resolved. Unlike a module, a stack allows one version
string for each provider. -/
namespace EarlyConfig.StackConfig

/-- All that is said about a provider under one local name. -/
structure Requirement where
  source : Option (Placed String) := none
  version : Option (Placed String) := none

structure Draft where
  /-- By local name, in the order in which the names come up. -/
  requirements : List (String × Requirement) := []
  components : SortedMap String Component := .empty
  inputs : SortedMap String Variable := .empty
  outputs : SortedMap String Output := .empty
  deployments : SortedMap String Deployment := .empty
  stores : SortedMap String Typed := .empty
  orchestrationRules : SortedMap String Typed := .empty
  identityTokens : SortedSet String := .empty

namespace Draft

def multipleVersions (name known : String) (given : Placed String) : Diagnostic :=
  .error "Multiple provider version attributes"
    ("Found multiple version attributes for provider " ++ name ++ ": " ++ Text.quote known ++
      ", " ++ Text.quote given.value)
    given.range

def mergeVersion (name : String) (known : Option (Placed String)) (given : Placed String) :
    Diagnosed (Option (Placed String)) :=
  RequiredProvider.keepFirst known given fun k => multipleVersions name k.value given

def addRequired (d : Draft) (p : RequiredProvider) : Diagnosed Draft := do
  let r := (Entries.get? p.name d.requirements).getD {}
  let source ← p.mergeSource r.source
  let version ← p.versions.foldlM (mergeVersion p.name) r.version
  return { d with requirements := Entries.put p.name ⟨source, version⟩ d.requirements }

/-- Takes up a declaration. Of those of one kind and name the last counts. -/
def absorb (d : Draft) : Declaration → Diagnosed Draft
  | .required entries => entries.foldlM addRequired d
  | .component name c => pure { d with components := d.components.insert name c }
  | .input name v => pure { d with inputs := d.inputs.insert name v }
  | .output name o => pure { d with outputs := d.outputs.insert name o }
  | .deployment name x => pure { d with deployments := d.deployments.insert name x }
  | .store name s => pure { d with stores := d.stores.insert name s }
  | .orchestration name r =>
    pure { d with orchestrationRules := d.orchestrationRules.insert name r }
  | .identityToken name => pure { d with identityTokens := d.identityTokens.add name }

end Draft

/-- A requirement whose source makes no sense is left out. -/
def addRequirement (m : SortedMap String ProviderRequirement) (name : String) (r : Requirement) :
    Diagnosed (SortedMap String ProviderRequirement) := do
  let some source ← RequiredProvider.address name r.source | return m
  let constraints ← match r.version with
    | none => pure []
    | some version => RequiredProvider.constraints version
  return m.insert name ⟨source, constraints⟩

def resolve (path : String) (filenames : List String) (d : Draft) : Diagnosed StackConfig := do
  let requirements ← d.requirements.foldlM (fun m (name, r) => addRequirement m name r) .empty
  return {
    path
    filenames
    components := d.components
    inputs := d.inputs
    outputs := d.outputs
    providerRequirements := requirements
    deployments := d.deployments
    stores := d.stores
    orchestrationRules := d.orchestrationRules
    identityTokens := d.identityTokens }

def dialect : Dialect Declaration Draft StackConfig where
  root := Schema.stackRoot
  declare file b := [Declaration.ofBlock file b]
  start := {}
  absorb := Draft.absorb
  resolve := resolve

/-- Decodes the files of a stack and of its deployments. -/
def load (path : String) (files : FileSet) : Diagnosed StackConfig :=
  dialect.load path files

end EarlyConfig.StackConfig
