import EarlyConfig.Dialect.Family
import EarlyConfig.Dialect.Module.Resolve
import EarlyConfig.Dialect.PolicyTest
import EarlyConfig.Dialect.Search
import EarlyConfig.Dialect.Stack.Resolve
import EarlyConfig.Dialect.Test
import EarlyConfig.Report.Defaults
import EarlyConfig.Report.Diagnostic

/-! What is learned about a configuration, as data. -/
namespace EarlyConfig

namespace Document

def ofMap (key : κ → String) (f : α → Document) [Ord κ] (m : SortedMap κ α) : Document :=
  .record (m.entries.map fun (k, a) => (key k, f a))

/-- A map whose keys are texts. -/
def ofNamed (f : α → Document) (m : SortedMap String α) : Document :=
  ofMap id f m

def ofConstraints (cs : Constraints) : Document :=
  .text cs.text

def ofProvider (p : Provider) : Document :=
  .text p.text

end Document

def Variable.document (v : Variable) : Document :=
  .record ([
    ("type", .text v.type.text),
    ("description", .text v.description),
    ("is_sensitive", .bool v.sensitive),
    ("is_ephemeral", .bool v.ephemeral),
    ("default_value", .ofOption Value.document v.default?)] ++
    match v.typeDefaults with
    | none => []
    | some d => [("type_defaults", d.document)])

/-- The fields of an origin, which stand among those of its owner. -/
def ModuleOrigin.fields (o : ModuleOrigin) : List (String × Document) := [
  ("source_addr", .ofOption (fun s => .text s.display) o.source),
  ("version", .ofOption .ofConstraints o.version)]

/-! ### Modules -/

namespace ModuleConfig

def backendData : BackendData → Document
  | .remote hostname => .record [("kind", .text "remote"), ("hostname", .text hostname)]
  | .unknown => .record [("kind", .text "unknown")]

def backendDocument (b : Backend) : Document :=
  .record [("type", .text b.type), ("data", backendData b.data)]

def cloudDocument (c : Cloud) : Document :=
  .record [("hostname", .text c.hostname), ("organization", .text c.organization)]

def Output.document (o : Output) : Document :=
  .record [
    ("description", .text o.description),
    ("is_sensitive", .bool o.sensitive),
    ("value", .ofOption Value.document o.value)]

def Call.document (c : Call) : Document :=
  .record ([("local_name", .text c.localName)] ++ c.origin.fields ++ [
    ("input_names", .texts c.inputNames),
    ("range", c.range.document)])

def document (m : ModuleConfig) : Document :=
  .record [
    ("path", .text m.path),
    ("filenames", .texts m.filenames),
    ("backend", .ofOption backendDocument m.backend),
    ("cloud", .ofOption cloudDocument m.cloud),
    ("provider_references", .ofMap ProviderRef.text .ofProvider m.providers.references),
    ("provider_requirements", .ofMap Provider.text .ofConstraints m.providers.requirements),
    ("core_requirements", .ofConstraints m.coreRequirements),
    ("variables", .ofNamed Variable.document m.inputs),
    ("outputs", .ofNamed Output.document m.outputs),
    ("module_calls", .ofNamed Call.document m.calls)]

end ModuleConfig

/-! ### Stacks -/

namespace StackConfig

def Component.document (c : Component) : Document :=
  .record (c.origin.fields ++ [
    ("input_names", .texts c.inputNames),
    ("range", c.range.document)])

def Output.document (o : Output) : Document :=
  .record [
    ("type", .text o.type.text),
    ("description", .text o.description),
    ("is_sensitive", .bool o.sensitive),
    ("is_ephemeral", .bool o.ephemeral)]

def ProviderRequirement.document (r : ProviderRequirement) : Document :=
  .record [("source", .ofProvider r.source), ("version_constraints", .ofConstraints r.constraints)]

def Deployment.document (d : Deployment) : Document :=
  .record [
    ("input_names", .texts d.inputNames),
    ("destroy", .bool d.destroy),
    ("range", d.range.document)]

def Typed.document (t : Typed) : Document :=
  .record [("type", .text t.type), ("range", t.range.document)]

def document (s : StackConfig) : Document :=
  .record [
    ("path", .text s.path),
    ("filenames", .texts s.filenames),
    ("components", .ofNamed Component.document s.components),
    ("variables", .ofNamed Variable.document s.inputs),
    ("outputs", .ofNamed Output.document s.outputs),
    ("provider_requirements", .ofNamed ProviderRequirement.document s.providerRequirements),
    ("deployments", .ofNamed Deployment.document s.deployments),
    ("stores", .ofNamed Typed.document s.stores),
    ("orchestration_rules", .ofNamed Typed.document s.orchestrationRules),
    ("identity_tokens", .texts s.identityTokens.toList)]

end StackConfig

/-! ### Searches -/

namespace SearchConfig

def Query.document (q : Query) : Document :=
  .record [
    ("type", .text q.type),
    ("name", .text q.name),
    ("provider", .text q.provider.text),
    ("range", q.range.document)]

def document (s : SearchConfig) : Document :=
  .record [
    ("path", .text s.path),
    ("filenames", .texts s.filenames),
    ("variables", .ofNamed Variable.document s.inputs),
    ("lists", .ofNamed Query.document s.lists),
    ("provider_references", .ofMap ProviderRef.text .ofProvider s.providerReferences)]

end SearchConfig

/-! ### Policy tests -/

def Fixture.document (f : Fixture) : Document :=
  .record [
    ("attribute_names", .texts f.attributeNames),
    ("expect_failure", .bool f.expectFailure),
    ("range", f.range.document)]

def PolicyTestConfig.document (t : PolicyTestConfig) : Document :=
  .record [
    ("path", .text t.path),
    ("filenames", .texts t.filenames),
    ("resources", .ofNamed Fixture.document t.resources),
    ("data_sources", .ofNamed Fixture.document t.dataSources),
    ("providers", .ofNamed Fixture.document t.providers),
    ("module_calls", .ofNamed Fixture.document t.moduleCalls)]

/-! ### Tests -/

namespace TestConfig

def Run.document (r : Run) : Document :=
  .record [
    ("command", .text r.command.text),
    ("module", .ofOption (fun o => .record o.fields) r.module?),
    ("variable_names", .texts r.variableNames),
    ("expect_failures", .texts r.expectFailures),
    ("assertions", .ofNat r.assertions),
    ("range", r.range.document)]

def ProviderSetup.document (p : ProviderSetup) : Document :=
  .record [
    ("is_mock", .bool p.mock),
    ("source", .text p.source),
    ("range", p.range.document)]

def document (t : TestConfig) : Document :=
  .record [
    ("path", .text t.path),
    ("filenames", .texts t.filenames),
    ("runs", .ofNamed Run.document t.runs),
    ("variable_names", .texts t.variableNames.toList),
    ("providers", .ofMap ProviderRef.text ProviderSetup.document t.providers)]

end TestConfig

/-- Decodes the files of a dialect. -/
def Family.load (family : Family) (path : String) (files : FileSet) : Diagnosed Document :=
  match family with
  | .module => ModuleConfig.document <$> ModuleConfig.load path files
  | .stack => StackConfig.document <$> StackConfig.load path files
  | .search => SearchConfig.document <$> SearchConfig.load path files
  | .policyTest => PolicyTestConfig.document <$> PolicyTestConfig.load path files
  | .test => TestConfig.document <$> TestConfig.load path files

end EarlyConfig
