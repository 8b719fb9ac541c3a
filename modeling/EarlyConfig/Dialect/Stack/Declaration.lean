import EarlyConfig.Dialect.Stack.Basic
import EarlyConfig.Schema.Tables

/-! What the blocks of a stack declare, each on its own. -/
namespace EarlyConfig.StackConfig

open Hcl (Block Body)

inductive Declaration where
  | required (entries : List RequiredProvider)
  | component (name : String) (component : Component)
  | input (name : String) (v : Variable)
  | output (name : String) (output : Output)
  | deployment (name : String) (deployment : Deployment)
  | store (name : String) (store : Typed)
  | orchestration (name : String) (rule : Typed)
  | identityToken (name : String)

namespace Declaration

def ofComponent (file name : String) (b : Block) : Diagnosed Declaration := do
  let content ← Schema.component.select file b.body
  let origin ← ModuleOrigin.decode file content
  return .component name ⟨origin, content.objectKeys "inputs", b.range file⟩

def ofVariable (file name : String) (b : Block) : Diagnosed Declaration := do
  let content ← Schema.stackVariable.select file b.body
  return .input name (← Variable.decode file content)

def ofOutput (file name : String) (b : Block) : Diagnosed Declaration := do
  let content ← Schema.stackOutput.select file b.body
  let (type, _) ← Variable.decodeTypeOf file content
  let description ← content.string file "description"
  let sensitive ← content.bool file "sensitive"
  let ephemeral ← content.bool file "ephemeral"
  return .output name { type, description, sensitive, ephemeral }

def ofDeployment (file name : String) (b : Block) : Diagnosed Declaration := do
  let content ← Schema.deployment.select file b.body
  let destroy ← content.bool file "destroy"
  return .deployment name ⟨content.objectKeys "inputs", destroy, b.range file⟩

/-- A block with a name among its labels. -/
def named (file : String) (n : Nat) (b : Block) (declare : String → Diagnosed Declaration) :
    Diagnosed (Option Declaration) := do
  let some name ← b.name? file n | return none
  return some (← declare name)

/-- What a block of the root declares. -/
def ofBlock (file : String) (b : Block) : Diagnosed (Option Declaration) := do
  match b.kind with
  | "required_providers" => return some (.required (← RequiredProvider.decode file b))
  | "identity_token" => named file 0 b fun name => pure (.identityToken name)
  | "store" => named file 1 b fun name => pure (.store name ⟨b.label 0, b.range file⟩)
  | "orchestrate" => named file 1 b fun name => pure (.orchestration name ⟨b.label 0, b.range file⟩)
  | "component" => named file 0 b fun name => ofComponent file name b
  | "variable" => named file 0 b fun name => ofVariable file name b
  | "output" => named file 0 b fun name => ofOutput file name b
  | "deployment" => named file 0 b fun name => ofDeployment file name b
  | _ => return none

end Declaration

end EarlyConfig.StackConfig
