import EarlyConfig.Dialect.Backend
import EarlyConfig.Dialect.ModuleOrigin
import EarlyConfig.Dialect.RequiredProvider
import EarlyConfig.Dialect.Variable

/-! What early decoding learns about a module. -/
namespace EarlyConfig

namespace ModuleConfig

structure Output where
  description : String
  sensitive : Bool
  value : Option Value

/-- A call of another module. -/
structure Call where
  localName : String
  origin : ModuleOrigin
  /-- The names of all other arguments, sorted. -/
  inputNames : List String
  range : SourceRange

/-- How the providers of a module are called, where they come from and which versions of them will
do. -/
structure Providers where
  references : SortedMap ProviderRef Provider := .empty
  requirements : SortedMap Provider Constraints := .empty

end ModuleConfig

structure ModuleConfig where
  path : String
  filenames : List String
  backend : Option Backend
  cloud : Option Cloud
  providers : ModuleConfig.Providers
  coreRequirements : Constraints
  inputs : SortedMap String Variable
  outputs : SortedMap String ModuleConfig.Output
  calls : SortedMap String ModuleConfig.Call

end EarlyConfig
