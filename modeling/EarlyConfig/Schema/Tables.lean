import EarlyConfig.Schema.Basic

/-! The schemas of every dialect. They list no more than early decoding needs. -/
namespace EarlyConfig.Schema

def optional (names : List String) : List AttributeSchema :=
  names.map fun name => ⟨name, false⟩

/-! ### Modules -/

def moduleRoot : Schema where
  blocks := [
    ⟨"terraform", []⟩,
    ⟨"provider", ["name"]⟩,
    ⟨"variable", ["name"]⟩,
    ⟨"output", ["name"]⟩,
    ⟨"module", ["name"]⟩,
    ⟨"resource", ["type", "name"]⟩,
    ⟨"data", ["type", "name"]⟩,
    ⟨"ephemeral", ["type", "name"]⟩]

def terraformBlock : Schema where
  attributes := optional ["required_version", "experiments"]
  blocks := [
    ⟨"backend", ["type"]⟩,
    ⟨"cloud", []⟩,
    ⟨"required_providers", []⟩,
    ⟨"provider_meta", ["provider"]⟩]

def providerConfig : Schema where
  attributes := optional ["version", "alias"]

def resource : Schema where
  attributes := optional ["provider"]

def inputVariable : Schema where
  attributes := optional ["description", "default", "type", "sensitive", "nullable", "ephemeral"]
  blocks := [⟨"validation", []⟩]

def output : Schema where
  attributes := optional ["description", "value", "sensitive", "depends_on", "ephemeral"]
  blocks := [⟨"precondition", []⟩]

def moduleCall : Schema where
  attributes := optional ["source", "version"]

def backendRemote : Schema where
  attributes := optional ["hostname", "organization", "token"]
  blocks := [⟨"workspaces", []⟩]

def cloud : Schema where
  attributes := optional ["hostname", "organization", "token"]
  blocks := [⟨"workspaces", []⟩]

/-! ### Stacks and their deployments -/

def stackRoot : Schema where
  blocks := [
    ⟨"component", ["name"]⟩,
    ⟨"required_providers", []⟩,
    ⟨"variable", ["name"]⟩,
    ⟨"output", ["name"]⟩,
    ⟨"deployment", ["name"]⟩,
    ⟨"store", ["type", "name"]⟩,
    ⟨"orchestrate", ["type", "name"]⟩,
    ⟨"identity_token", ["name"]⟩]

def component : Schema where
  attributes := optional ["source", "version", "inputs", "providers"]

def stackVariable : Schema where
  attributes := optional ["description", "default", "type", "sensitive", "nullable", "ephemeral"]

def stackOutput : Schema where
  attributes := optional ["description", "type", "value", "sensitive", "ephemeral"]

def deployment : Schema where
  attributes := optional ["inputs", "destroy"]

/-! ### Searches -/

def searchRoot : Schema where
  blocks := [
    ⟨"list", ["type", "name"]⟩,
    ⟨"provider", ["name"]⟩,
    ⟨"variable", ["name"]⟩,
    ⟨"locals", []⟩]

def list : Schema where
  attributes := optional ["provider", "count", "for_each", "include_resource", "limit"]
  blocks := [⟨"config", []⟩]

/-! ### Policy tests -/

def policyTestRoot : Schema where
  blocks := [
    ⟨"resource", ["type", "name"]⟩,
    ⟨"data", ["type", "name"]⟩,
    ⟨"provider", ["name"]⟩,
    ⟨"module", ["name"]⟩]

def policyTestFixture : Schema where
  attributes := optional ["attrs", "expect_failure"]

/-! ### Tests -/

def testRoot : Schema where
  blocks := [
    ⟨"run", ["name"]⟩,
    ⟨"variables", []⟩,
    ⟨"provider", ["name"]⟩,
    ⟨"mock_provider", ["name"]⟩]

def run : Schema where
  attributes := optional ["command", "expect_failures", "providers", "state_key", "parallel"]
  blocks := [
    ⟨"module", []⟩,
    ⟨"variables", []⟩,
    ⟨"assert", []⟩,
    ⟨"plan_options", []⟩]

def runModule : Schema where
  attributes := [⟨"source", true⟩, ⟨"version", false⟩]

def testProvider : Schema where
  attributes := optional ["alias", "source"]

/-- The schemas by the names of the levels they describe. -/
def tables : List (String × Schema) := [
  ("module_root", moduleRoot), ("terraform_block", terraformBlock),
  ("provider_config", providerConfig), ("resource", resource), ("variable", inputVariable),
  ("output", output), ("module_call", moduleCall), ("backend_remote", backendRemote),
  ("cloud", cloud), ("stack_root", stackRoot), ("component", component),
  ("stack_variable", stackVariable), ("stack_output", stackOutput), ("deployment", deployment),
  ("search_root", searchRoot), ("list", list), ("policy_test_root", policyTestRoot),
  ("policy_test_fixture", policyTestFixture), ("test_root", testRoot), ("run", run),
  ("run_module", runModule), ("test_provider", testProvider)]

end EarlyConfig.Schema
