import EarlyConfig.Provider.Reference
import EarlyConfig.Schema.Basic

/-! The argument with which a block names its provider. -/
namespace EarlyConfig.ProviderRef

def argument (file : String) (content : Hcl.Body) : Diagnosed (Option ProviderRef) :=
  match content.attribute? "provider" with
  | none => pure none
  | some a =>
    match ofArgument a.value.value with
    | .ok ref => pure (some ref)
    | .error e => .reject (.error e.summary e.detail (a.range file))

end EarlyConfig.ProviderRef
