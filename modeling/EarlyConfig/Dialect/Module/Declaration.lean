import EarlyConfig.Dialect.Module.Basic
import EarlyConfig.Provider.Argument

/-! What the blocks of a module declare, each on its own. -/
namespace EarlyConfig.ModuleConfig

open Hcl (Block Body)

/-- A configuration of a provider. It may also say which versions of the provider will do. -/
structure ProviderConfig where
  ref : ProviderRef
  version : Option (Placed String)

/-- A resource, as far as it says something about providers. -/
structure Resource where
  type : String
  /-- The provider that is named for it. -/
  provider : Option ProviderRef
deriving DecidableEq, Repr

namespace Resource

/-- The local name of its provider: that of the provider named for it, else the one its type
implies. -/
def providerName (r : Resource) : String :=
  match r.provider with
  | some ref => ref.localName
  | none => ProviderRef.impliedName r.type

end Resource

inductive Declaration where
  | core (version : Placed String)
  | backend (backend : Placed Backend)
  | cloud (cloud : Cloud)
  | required (entries : List RequiredProvider)
  | providerConfig (config : ProviderConfig)
  | resource (key : String) (resource : Resource)
  | input (name : String) (v : Variable)
  | output (name : String) (output : Output)
  | call (name : String) (call : Call)

namespace Declaration

/-! ### Settings of the module itself -/

def ofCoreVersion (file : String) (content : Body) : Diagnosed (Option Declaration) := do
  return (← content.placed? file "required_version").map .core

def ofSetting (file : String) (b : Block) : Diagnosed (Option Declaration) := do
  match b.kind with
  | "backend" => return some (.backend ⟨← Backend.decode file b, b.range file⟩)
  | "cloud" => return some (.cloud (← Cloud.decode file b))
  | "required_providers" => return some (.required (← RequiredProvider.decode file b))
  | _ => return none

/-- A block of settings declares each of them on its own. -/
def ofSettings (file : String) (b : Block) : List (Diagnosed (Option Declaration)) :=
  let content := Schema.terraformBlock.select file b.body
  ⟨none, content.diagnostics⟩ :: ofCoreVersion file content.value ::
    content.value.blocks.map (ofSetting file)

/-! ### Providers and resources -/

def ofProvider (file : String) (b : Block) : Diagnosed (Option Declaration) := do
  let content ← Schema.providerConfig.select file b.body
  let version ← content.placed? file "version"
  let aliasName ← content.string file "alias"
  return some (.providerConfig ⟨⟨b.label 0, aliasName⟩, version⟩)

/-- Resources go by their type and name, and by their kind before those unless they are managed. -/
def resourceKey (b : Block) : String :=
  match b.kind with
  | "resource" => ".".intercalate [b.label 0, b.label 1]
  | kind => ".".intercalate [kind, b.label 0, b.label 1]

def ofResource (file : String) (b : Block) : Diagnosed (Option Declaration) := do
  let content ← Schema.resource.select file b.body
  return some (.resource (resourceKey b) ⟨b.label 0, ← ProviderRef.argument file content⟩)

/-! ### Variables, outputs and calls -/

def ofVariable (file : String) (b : Block) : Diagnosed (Option Declaration) := do
  let some name ← b.name? file 0 | return none
  let content ← Schema.inputVariable.select file b.body
  return some (.input name (← Variable.decode file content))

def ofOutput (file : String) (b : Block) : Diagnosed (Option Declaration) := do
  let some name ← b.name? file 0 | return none
  let content ← Schema.output.select file b.body
  let description ← content.string file "description"
  let sensitive ← content.bool file "sensitive"
  let value := (content.attribute? "value").bind Hcl.Attribute.literal?
  return some (.output name { description, sensitive, value })

def ofCall (file : String) (b : Block) : Diagnosed (Option Declaration) := do
  let some name ← b.name? file 0 | return none
  let content ← Schema.moduleCall.select file b.body
  let origin ← ModuleOrigin.decode file content
  return some (.call name {
    localName := name
    origin
    inputNames := b.body.attributeNamesExcept ["source", "version"]
    range := b.range file })

/-- What a block of the root declares. -/
def ofBlock (file : String) (b : Block) : List (Diagnosed (Option Declaration)) :=
  match b.kind with
  | "terraform" => ofSettings file b
  | "provider" => [ofProvider file b]
  | "resource" => [ofResource file b]
  | "data" => [ofResource file b]
  | "ephemeral" => [ofResource file b]
  | "variable" => [ofVariable file b]
  | "output" => [ofOutput file b]
  | "module" => [ofCall file b]
  | _ => []

end Declaration

end EarlyConfig.ModuleConfig
