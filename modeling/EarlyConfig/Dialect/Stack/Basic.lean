import EarlyConfig.Dialect.ModuleOrigin
import EarlyConfig.Dialect.RequiredProvider
import EarlyConfig.Dialect.Variable

/-! What early decoding learns about a stack and its deployments. -/
namespace EarlyConfig

namespace StackConfig

structure Component where
  origin : ModuleOrigin
  inputNames : List String
  range : SourceRange

structure Output where
  type : Ty
  description : String
  sensitive : Bool
  ephemeral : Bool

structure ProviderRequirement where
  source : Provider
  constraints : Constraints

structure Deployment where
  inputNames : List String
  destroy : Bool
  range : SourceRange

/-- A store or an orchestration rule. -/
structure Typed where
  type : String
  range : SourceRange

end StackConfig

structure StackConfig where
  path : String
  filenames : List String
  components : SortedMap String StackConfig.Component
  inputs : SortedMap String Variable
  outputs : SortedMap String StackConfig.Output
  /-- By local name. -/
  providerRequirements : SortedMap String StackConfig.ProviderRequirement
  deployments : SortedMap String StackConfig.Deployment
  stores : SortedMap String StackConfig.Typed
  orchestrationRules : SortedMap String StackConfig.Typed
  identityTokens : SortedSet String

end EarlyConfig
