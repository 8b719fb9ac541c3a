import EarlyConfig.Dialect.Module.Resolve
import EarlyConfig.Dialect.PolicyTest
import EarlyConfig.Dialect.Search
import EarlyConfig.Dialect.Stack.Resolve
import EarlyConfig.Dialect.Test
import EarlyConfig.Proofs.LookUps
import EarlyConfig.Proofs.Places.Runs

/-! The dialects without places. For each of them, what is left of its declarations, its draft and
its result when places and the names of files are gone, and that no step looks at places
(`placeless` in each namespace). -/
namespace EarlyConfig

open Diagnosed (ErasesTo)
open Hcl (Block Body)

/-! ### Searches -/

namespace SearchConfig

def Query.unplaced (q : Query) : Query :=
  { q with range := .nowhere }

def Declaration.unplaced : Declaration → Declaration
  | .list q => .list q.unplaced
  | a => a

def Draft.unplaced (d : Draft) : Draft :=
  { d with lists := d.lists.mapValues Query.unplaced }

/-- What is left of a search without places and the names of its files. -/
def unplaced (c : SearchConfig) : SearchConfig :=
  { c with filenames := [], lists := c.lists.mapValues Query.unplaced }

theorem ofBlock_erases (file : String) (b : Block) :
    (Declaration.ofBlock file b).ErasesTo (Option.map Declaration.unplaced)
      (Declaration.ofBlock "" b.unplaced) := by
  unfold Declaration.ofBlock
  rw [Block.kind_unplaced]
  split
  · refine .bind (Schema.list.select_erases file b.body) fun content => ?_
    refine .bind (ProviderRef.argument_erases file content) fun provider => ?_
    exact .pure (by simp [Declaration.unplaced, Query.unplaced])
  · refine .bind (Schema.providerConfig.select_erases file b.body) fun content => ?_
    refine .bind (content.string_erases file "alias") fun aliasName => ?_
    exact .pure (by simp [Declaration.unplaced])
  · refine .bind (b.name?_erases file 0) fun name => ?_
    cases name with
    | none => exact .pure rfl
    | some name =>
      refine .bind (Schema.inputVariable.select_erases file b.body) fun content => ?_
      exact .bind (Variable.decode_erases file content) fun v => .pure rfl
  · exact .pure rfl

theorem placeless : dialect.Placeless ⟨Declaration.unplaced, Draft.unplaced, unplaced⟩ where
  root := rfl
  start := rfl
  declare file b := .cons (ofBlock_erases file b) .nil
  absorb s a := by
    cases a with
    | list q => exact .pure (by simp [Draft.unplaced, SortedMap.mapValues_insert]; rfl)
    | providerConfig ref => exact .pure rfl
    | input name v => exact .pure rfl
  resolve path filenames s := by
    have hreferences : references s.unplaced = references s := by
      simp only [references, Draft.unplaced, SortedMap.values_mapValues, List.map_map]
      rfl
    exact .pure (by rw [hreferences]; rfl)

end SearchConfig

/-! ### Policy tests -/

def Fixture.unplaced (x : Fixture) : Fixture :=
  { x with range := .nowhere }

namespace PolicyTestConfig

def Declaration.unplaced (a : Declaration) : Declaration :=
  { a with fixture := a.fixture.unplaced }

def Draft.unplaced (d : Draft) : Draft where
  resources := d.resources.mapValues Fixture.unplaced
  dataSources := d.dataSources.mapValues Fixture.unplaced
  providers := d.providers.mapValues Fixture.unplaced
  moduleCalls := d.moduleCalls.mapValues Fixture.unplaced

/-- What is left of a policy test without places and the names of its files. -/
def unplaced (c : PolicyTestConfig) : PolicyTestConfig where
  path := c.path
  filenames := []
  resources := c.resources.mapValues Fixture.unplaced
  dataSources := c.dataSources.mapValues Fixture.unplaced
  providers := c.providers.mapValues Fixture.unplaced
  moduleCalls := c.moduleCalls.mapValues Fixture.unplaced

theorem keyed_erases (file : String) (kind : Kind) (key : String) (b : Block) :
    (Declaration.keyed file kind key b).ErasesTo (Option.map Declaration.unplaced)
      (Declaration.keyed "" kind key b.unplaced) := by
  refine .bind (f := Fixture.unplaced) ?_ fun x => .pure rfl
  refine .bind (Schema.policyTestFixture.select_erases file b.body) fun content => ?_
  refine .bind (content.bool_erases file "expect_failure") fun expectFailure => ?_
  exact .pure (by simp [Fixture.unplaced])

theorem named_erases (file : String) (kind : Kind) (b : Block) :
    (Declaration.named file kind b).ErasesTo (Option.map Declaration.unplaced)
      (Declaration.named "" kind b.unplaced) := by
  refine .bind (b.name?_erases file 0) fun name => ?_
  cases name with
  | none => exact .pure rfl
  | some name => exact keyed_erases file kind name b

theorem ofBlock_erases (file : String) (b : Block) :
    (Declaration.ofBlock file b).ErasesTo (Option.map Declaration.unplaced)
      (Declaration.ofBlock "" b.unplaced) := by
  simp only [Declaration.ofBlock, Block.kind_unplaced, Block.label_unplaced]
  split
  · exact keyed_erases file .resource _ b
  · exact keyed_erases file .dataSource _ b
  · exact named_erases file .provider b
  · exact named_erases file .moduleCall b
  · exact .pure rfl

theorem placeless : dialect.Placeless ⟨Declaration.unplaced, Draft.unplaced, unplaced⟩ where
  root := rfl
  start := rfl
  declare file b := .cons (ofBlock_erases file b) .nil
  absorb s a := by
    obtain ⟨kind, key, x⟩ := a
    cases kind <;> exact .pure (by
      simp [Draft.absorb, Draft.unplaced, Declaration.unplaced, SortedMap.mapValues_insert])
  resolve path filenames s := .pure rfl

end PolicyTestConfig

/-! ### Tests -/

namespace TestConfig

def Run.unplaced (r : Run) : Run :=
  { r with range := .nowhere }

def ProviderSetup.unplaced (p : ProviderSetup) : ProviderSetup :=
  { p with range := .nowhere }

def Declaration.unplaced : Declaration → Declaration
  | .run name r => .run name r.unplaced
  | .inputs names => .inputs names
  | .provider ref setup => .provider ref setup.unplaced

def Draft.unplaced (d : Draft) : Draft :=
  { d with
    runs := d.runs.mapValues Run.unplaced
    providers := d.providers.mapValues ProviderSetup.unplaced }

/-- What is left of a test without places and the names of its files. -/
def unplaced (c : TestConfig) : TestConfig :=
  { c with
    filenames := []
    runs := c.runs.mapValues Run.unplaced
    providers := c.providers.mapValues ProviderSetup.unplaced }

theorem Command.ofExpr?_unplaced (e : Hcl.Expr) :
    Command.ofExpr? e.unplaced = Command.ofExpr? e := by
  simp only [Command.ofExpr?, DottedName.ofExpr?_unplaced]

theorem decodeCommand_erases (file : String) (a : Option Hcl.Attribute) :
    (decodeCommand file a).ErasesTo id (decodeCommand "" (a.map Hcl.Attribute.unplaced)) := by
  cases a with
  | none => exact .refl _
  | some a =>
    simp only [decodeCommand, Option.map_some, Hcl.Attribute.value_unplaced,
      Command.ofExpr?_unplaced]
    cases Command.ofExpr? a.value.value with
    | some command => exact .refl _
    | none => exact .bind (.report (by rfl)) fun _ => .refl _

theorem references_unplaced (a : Hcl.Attribute) : references a.unplaced = references a := by
  rw [references, references, Hcl.Attribute.value_unplaced]
  cases a.value.value
  case list items =>
    simp only [Hcl.Expr.unplaced, Hcl.unplacedItems_eq_map, List.filterMap_map]
    exact List.filterMap_congr fun e _ => by simp
  all_goals rfl

theorem placeAt_erases {f : α → β} {x : Diagnosed α} {y : Diagnosed β} (h : x.ErasesTo f y)
    (range range' : SourceRange) : (placeAt range x).ErasesTo f (placeAt range' y) where
  value := h.value
  messages := by
    have hmessages : x.diagnostics.map Diagnostic.message = y.diagnostics.map Diagnostic.message :=
      h.messages
    simp only [placeAt, Diagnostics.messages, List.map_map]
    exact hmessages

theorem Run.add_erases (file : String) (r : Run) (b : Block) :
    (r.add file b).ErasesTo Run.unplaced (r.unplaced.add "" b.unplaced) := by
  unfold Run.add
  rw [Block.kind_unplaced]
  split
  · refine .bind (placeAt_erases (Schema.runModule.select_erases file b.body) _ _) fun content => ?_
    exact .bind (ModuleOrigin.decode_erases file content) fun origin => .pure rfl
  · exact .pure (by simp [Run.unplaced])
  · exact .pure rfl
  · exact .pure rfl

theorem Run.decode_erases (file : String) (b : Block) :
    (Run.decode file b).ErasesTo Run.unplaced (Run.decode "" b.unplaced) := by
  refine .bind (Schema.run.select_erases file b.body) fun content => ?_
  rw [Body.attribute?_unplaced, Body.attribute?_unplaced, Body.blocks_unplaced,
    Block.range_unplaced]
  refine .bind (decodeCommand_erases file (content.attribute? "command")) fun command => ?_
  have hreferences : ((content.attribute? "expect_failures").map Hcl.Attribute.unplaced).map
      references = (content.attribute? "expect_failures").map references := by
    rw [Option.map_map]
    exact congrArg (Option.map · _) (funext references_unplaced)
  rw [hreferences]
  exact .foldlM (Run.add_erases file) _ content.blocks

theorem ofProvider_erases (file : String) (mock : Bool) (b : Block) :
    (Declaration.ofProvider file mock b).ErasesTo (Option.map Declaration.unplaced)
      (Declaration.ofProvider "" mock b.unplaced) := by
  refine .bind (Schema.testProvider.select_erases file b.body) fun content => ?_
  refine .bind (content.string_erases file "alias") fun aliasName => ?_
  refine .bind (content.string_erases file "source") fun source => ?_
  exact .pure (by simp [Declaration.unplaced, ProviderSetup.unplaced])

theorem ofBlock_erases (file : String) (b : Block) :
    (Declaration.ofBlock file b).ErasesTo (Option.map Declaration.unplaced)
      (Declaration.ofBlock "" b.unplaced) := by
  unfold Declaration.ofBlock
  rw [Block.kind_unplaced]
  split
  · refine .bind (b.name?_erases file 0) fun name => ?_
    cases name with
    | none => exact .pure rfl
    | some name => exact .bind (Run.decode_erases file b) fun r => .pure rfl
  · exact .pure (by simp [Declaration.unplaced])
  · exact ofProvider_erases file false b
  · exact ofProvider_erases file true b
  · exact .pure rfl

theorem placeless : dialect.Placeless ⟨Declaration.unplaced, Draft.unplaced, unplaced⟩ where
  root := rfl
  start := rfl
  declare file b := .cons (ofBlock_erases file b) .nil
  absorb s a := by
    cases a <;> exact .pure (by
      simp [Draft.absorb, Draft.unplaced, Declaration.unplaced, SortedMap.mapValues_insert])
  resolve path filenames s := .pure rfl

end TestConfig

/-! ### Stacks -/

namespace StackConfig

def Component.unplaced (c : Component) : Component :=
  { c with range := .nowhere }

def Deployment.unplaced (x : Deployment) : Deployment :=
  { x with range := .nowhere }

def Typed.unplaced (x : Typed) : Typed :=
  { x with range := .nowhere }

def Declaration.unplaced : Declaration → Declaration
  | .required entries => .required (entries.map RequiredProvider.unplaced)
  | .component name c => .component name c.unplaced
  | .deployment name x => .deployment name x.unplaced
  | .store name x => .store name x.unplaced
  | .orchestration name x => .orchestration name x.unplaced
  | a => a

def Requirement.unplaced (r : Requirement) : Requirement :=
  ⟨r.source.map Placed.unplaced, r.version.map Placed.unplaced⟩

def Draft.unplaced (d : Draft) : Draft :=
  { d with
    requirements := d.requirements.map fun e => (e.1, e.2.unplaced)
    components := d.components.mapValues Component.unplaced
    deployments := d.deployments.mapValues Deployment.unplaced
    stores := d.stores.mapValues Typed.unplaced
    orchestrationRules := d.orchestrationRules.mapValues Typed.unplaced }

/-- What is left of a stack without places and the names of its files. -/
def unplaced (c : StackConfig) : StackConfig :=
  { c with
    filenames := []
    components := c.components.mapValues Component.unplaced
    deployments := c.deployments.mapValues Deployment.unplaced
    stores := c.stores.mapValues Typed.unplaced
    orchestrationRules := c.orchestrationRules.mapValues Typed.unplaced }

theorem named_erases (file : String) (n : Nat) (b : Block)
    {k l : String → Diagnosed Declaration}
    (h : ∀ name, (k name).ErasesTo Declaration.unplaced (l name)) :
    (Declaration.named file n b k).ErasesTo (Option.map Declaration.unplaced)
      (Declaration.named "" n b.unplaced l) := by
  refine .bind (b.name?_erases file n) fun name => ?_
  cases name with
  | none => exact .pure rfl
  | some name => exact .bind (h name) fun a => .pure rfl

theorem ofComponent_erases (file name : String) (b : Block) :
    (Declaration.ofComponent file name b).ErasesTo Declaration.unplaced
      (Declaration.ofComponent "" name b.unplaced) := by
  refine .bind (Schema.component.select_erases file b.body) fun content => ?_
  refine .bind (ModuleOrigin.decode_erases file content) fun origin => ?_
  exact .pure (by simp [Declaration.unplaced, Component.unplaced])

theorem ofVariable_erases (file name : String) (b : Block) :
    (Declaration.ofVariable file name b).ErasesTo Declaration.unplaced
      (Declaration.ofVariable "" name b.unplaced) := by
  refine .bind (Schema.stackVariable.select_erases file b.body) fun content => ?_
  exact .bind (Variable.decode_erases file content) fun v => .pure rfl

theorem ofOutput_erases (file name : String) (b : Block) :
    (Declaration.ofOutput file name b).ErasesTo Declaration.unplaced
      (Declaration.ofOutput "" name b.unplaced) := by
  refine .bind (Schema.stackOutput.select_erases file b.body) fun content => ?_
  refine .bind (Variable.decodeTypeOf_erases file content) fun type => ?_
  refine .bind (content.string_erases file "description") fun description => ?_
  refine .bind (content.bool_erases file "sensitive") fun sensitive => ?_
  exact .bind (content.bool_erases file "ephemeral") fun ephemeral => .pure rfl

theorem ofDeployment_erases (file name : String) (b : Block) :
    (Declaration.ofDeployment file name b).ErasesTo Declaration.unplaced
      (Declaration.ofDeployment "" name b.unplaced) := by
  refine .bind (Schema.deployment.select_erases file b.body) fun content => ?_
  refine .bind (content.bool_erases file "destroy") fun destroy => ?_
  exact .pure (by simp [Declaration.unplaced, Deployment.unplaced])

theorem ofBlock_erases (file : String) (b : Block) :
    (Declaration.ofBlock file b).ErasesTo (Option.map Declaration.unplaced)
      (Declaration.ofBlock "" b.unplaced) := by
  unfold Declaration.ofBlock
  rw [Block.kind_unplaced]
  split
  · exact .bind (RequiredProvider.decode_erases file b) fun entries => .pure rfl
  · exact named_erases file 0 b fun name => .pure rfl
  · exact named_erases file 1 b fun name => .pure (by simp [Declaration.unplaced, Typed.unplaced])
  · exact named_erases file 1 b fun name => .pure (by simp [Declaration.unplaced, Typed.unplaced])
  · exact named_erases file 0 b fun name => ofComponent_erases file name b
  · exact named_erases file 0 b fun name => ofVariable_erases file name b
  · exact named_erases file 0 b fun name => ofOutput_erases file name b
  · exact named_erases file 0 b fun name => ofDeployment_erases file name b
  · exact .pure rfl

theorem mergeVersion_erases (name : String) (known : Option (Placed String))
    (given : Placed String) :
    (Draft.mergeVersion name known given).ErasesTo (Option.map Placed.unplaced)
      (Draft.mergeVersion name (known.map Placed.unplaced) given.unplaced) :=
  RequiredProvider.keepFirst_erases known given (by intro k; rfl)

theorem addRequired_erases (d : Draft) (p : RequiredProvider) :
    (d.addRequired p).ErasesTo Draft.unplaced (d.unplaced.addRequired p.unplaced) := by
  have hname : p.unplaced.name = p.name := rfl
  have hknown : (Entries.get? p.name d.unplaced.requirements).getD {} =
      ((Entries.get? p.name d.requirements).getD {}).unplaced := by
    simp only [Draft.unplaced, Entries.get?_mapValues fun _ => Requirement.unplaced]
    cases Entries.get? p.name d.requirements <;> rfl
  unfold Draft.addRequired
  rw [hname, hknown]
  refine .bind (RequiredProvider.mergeSource_erases _ p) fun source => ?_
  refine .bind (.foldlM (mergeVersion_erases p.name) _ p.versions) fun version => ?_
  refine .pure ?_
  rw [Draft.unplaced, ← Entries.put_mapValues]
  rfl

theorem addRequirement_erases (m : SortedMap String ProviderRequirement)
    (e : String × Requirement) :
    (addRequirement m e.1 e.2).ErasesTo id (addRequirement m e.1 e.2.unplaced) := by
  refine .bind (RequiredProvider.address_erases e.1 e.2.source) fun source => ?_
  cases source with
  | none => exact .refl _
  | some source =>
    have hversion : e.2.unplaced.version = e.2.version.map Placed.unplaced := rfl
    simp only [id, hversion]
    cases e.2.version with
    | none => exact .refl _
    | some version => exact .bind (RequiredProvider.constraints_erases version) fun _ => .refl _

theorem placeless : dialect.Placeless ⟨Declaration.unplaced, Draft.unplaced, unplaced⟩ where
  root := rfl
  start := rfl
  declare file b := .cons (ofBlock_erases file b) .nil
  absorb s a := by
    cases a with
    | required entries => exact .foldlM addRequired_erases s entries
    | _ => exact .pure (by
        simp [Draft.unplaced, SortedMap.mapValues_insert])
  resolve path filenames s := by
    refine .bind (f := id) ?_ fun requirements => .pure rfl
    exact ErasesTo.foldlM (e := id) addRequirement_erases _ s.requirements

end StackConfig

/-! ### Modules -/

namespace ModuleConfig

def Call.unplaced (c : Call) : Call :=
  { c with range := .nowhere }

def ProviderConfig.unplaced (c : ProviderConfig) : ProviderConfig :=
  { c with version := c.version.map Placed.unplaced }

def Declaration.unplaced : Declaration → Declaration
  | .core version => .core version.unplaced
  | .backend b => .backend b.unplaced
  | .required entries => .required (entries.map RequiredProvider.unplaced)
  | .providerConfig c => .providerConfig c.unplaced
  | .call name c => .call name c.unplaced
  | a => a

def Requirement.unplaced (r : Requirement) : Requirement :=
  { r with source := r.source.map Placed.unplaced, versions := r.versions.map Placed.unplaced }

def Draft.unplaced (d : Draft) : Draft :=
  { d with
    core := d.core.map Placed.unplaced
    backends := d.backends.map fun e => (e.1, e.2.unplaced)
    requirements := d.requirements.map fun e => (e.1, e.2.unplaced)
    calls := d.calls.mapValues Call.unplaced }

/-- What is left of a module without places and the names of its files. -/
def unplaced (m : ModuleConfig) : ModuleConfig :=
  { m with filenames := [], calls := m.calls.mapValues Call.unplaced }

theorem ofCoreVersion_erases (file : String) (content : Body) :
    (Declaration.ofCoreVersion file content).ErasesTo (Option.map Declaration.unplaced)
      (Declaration.ofCoreVersion "" content.unplaced) := by
  refine .bind (content.placed?_erases file "required_version") fun version => ?_
  cases version <;> exact .pure rfl

theorem ofSetting_erases (file : String) (b : Block) :
    (Declaration.ofSetting file b).ErasesTo (Option.map Declaration.unplaced)
      (Declaration.ofSetting "" b.unplaced) := by
  unfold Declaration.ofSetting
  rw [Block.kind_unplaced]
  split
  · refine .bind (Backend.decode_erases file b) fun backend => ?_
    exact .pure (by simp [Declaration.unplaced, Placed.unplaced])
  · exact .bind (Cloud.decode_erases file b) fun cloud => .pure rfl
  · exact .bind (RequiredProvider.decode_erases file b) fun entries => .pure rfl
  · exact .pure rfl

theorem ofSettings_erases (file : String) (b : Block) :
    List.Forall₂ (ErasesTo (Option.map Declaration.unplaced)) (Declaration.ofSettings file b)
      (Declaration.ofSettings "" b.unplaced) := by
  have hselect := Schema.terraformBlock.select_erases file b.body
  unfold Declaration.ofSettings
  dsimp only
  rw [Block.body_unplaced, ← hselect.value, Body.blocks_unplaced, List.map_map]
  refine .cons ⟨rfl, hselect.messages⟩ (.cons (ofCoreVersion_erases file _) ?_)
  rw [List.forall₂_map_left_iff, List.forall₂_map_right_iff]
  exact List.forall₂_same.2 fun nested _ => ofSetting_erases file nested

theorem ofProvider_erases (file : String) (b : Block) :
    (Declaration.ofProvider file b).ErasesTo (Option.map Declaration.unplaced)
      (Declaration.ofProvider "" b.unplaced) := by
  refine .bind (Schema.providerConfig.select_erases file b.body) fun content => ?_
  refine .bind (content.placed?_erases file "version") fun version => ?_
  refine .bind (content.string_erases file "alias") fun aliasName => ?_
  exact .pure (by simp [Declaration.unplaced, ProviderConfig.unplaced])

theorem ofResource_erases (file : String) (b : Block) :
    (Declaration.ofResource file b).ErasesTo (Option.map Declaration.unplaced)
      (Declaration.ofResource "" b.unplaced) := by
  refine .bind (Schema.resource.select_erases file b.body) fun content => ?_
  refine .bind (ProviderRef.argument_erases file content) fun provider => ?_
  exact .pure (by simp [Declaration.unplaced, Declaration.resourceKey])

theorem ofVariable_erases (file : String) (b : Block) :
    (Declaration.ofVariable file b).ErasesTo (Option.map Declaration.unplaced)
      (Declaration.ofVariable "" b.unplaced) := by
  refine .bind (b.name?_erases file 0) fun name => ?_
  cases name with
  | none => exact .pure rfl
  | some name =>
    refine .bind (Schema.inputVariable.select_erases file b.body) fun content => ?_
    exact .bind (Variable.decode_erases file content) fun v => .pure rfl

theorem ofOutput_erases (file : String) (b : Block) :
    (Declaration.ofOutput file b).ErasesTo (Option.map Declaration.unplaced)
      (Declaration.ofOutput "" b.unplaced) := by
  refine .bind (b.name?_erases file 0) fun name => ?_
  cases name with
  | none => exact .pure rfl
  | some name =>
    refine .bind (Schema.output.select_erases file b.body) fun content => ?_
    refine .bind (content.string_erases file "description") fun description => ?_
    refine .bind (content.bool_erases file "sensitive") fun sensitive => ?_
    have hvalue : (content.unplaced.attribute? "value").bind Hcl.Attribute.literal? =
        (content.attribute? "value").bind Hcl.Attribute.literal? := by
      rw [Body.attribute?_unplaced]
      cases content.attribute? "value" <;> simp
    exact .pure (by rw [hvalue]; rfl)

theorem ofCall_erases (file : String) (b : Block) :
    (Declaration.ofCall file b).ErasesTo (Option.map Declaration.unplaced)
      (Declaration.ofCall "" b.unplaced) := by
  refine .bind (b.name?_erases file 0) fun name => ?_
  cases name with
  | none => exact .pure rfl
  | some name =>
    refine .bind (Schema.moduleCall.select_erases file b.body) fun content => ?_
    refine .bind (ModuleOrigin.decode_erases file content) fun origin => ?_
    exact .pure (by simp [Declaration.unplaced, Call.unplaced])

theorem ofBlock_erases (file : String) (b : Block) :
    List.Forall₂ (ErasesTo (Option.map Declaration.unplaced)) (Declaration.ofBlock file b)
      (Declaration.ofBlock "" b.unplaced) := by
  unfold Declaration.ofBlock
  rw [Block.kind_unplaced]
  split
  · exact ofSettings_erases file b
  · exact .cons (ofProvider_erases file b) .nil
  · exact .cons (ofResource_erases file b) .nil
  · exact .cons (ofResource_erases file b) .nil
  · exact .cons (ofResource_erases file b) .nil
  · exact .cons (ofVariable_erases file b) .nil
  · exact .cons (ofOutput_erases file b) .nil
  · exact .cons (ofCall_erases file b) .nil
  · exact .nil

theorem Draft.requirement_unplaced (d : Draft) (name : String) :
    d.unplaced.requirement name = (d.requirement name).unplaced := by
  simp only [Draft.requirement, Draft.unplaced,
    Entries.get?_mapValues fun _ => Requirement.unplaced]
  cases Entries.get? name d.requirements <;> rfl

theorem addRequired_erases (d : Draft) (p : RequiredProvider) :
    (d.addRequired p).ErasesTo Draft.unplaced (d.unplaced.addRequired p.unplaced) := by
  have hname : p.unplaced.name = p.name := rfl
  unfold Draft.addRequired
  dsimp only
  rw [hname, Draft.requirement_unplaced]
  refine .bind (RequiredProvider.mergeSource_erases _ p) fun source => ?_
  refine .pure ?_
  simp only [Draft.setRequirement, Draft.unplaced, ← Entries.put_mapValues]
  simp [Requirement.unplaced, RequiredProvider.unplaced]

theorem addBackend_erases (d : Draft) (b : Placed Backend) :
    (d.addBackend b).ErasesTo Draft.unplaced (d.unplaced.addBackend b.unplaced) := by
  have hcontains : Entries.contains b.value.type d.unplaced.backends =
      Entries.contains b.value.type d.backends := by
    simp only [Entries.contains, Draft.unplaced, Entries.get?_mapValues fun _ => Placed.unplaced,
      Option.isSome_map]
  unfold Draft.addBackend
  dsimp only
  rw [Placed.value_unplaced, hcontains]
  split
  · exact .bind (.report (by rfl)) fun _ => .pure rfl
  · refine .pure ?_
    simp only [Draft.unplaced, ← Entries.put_mapValues]

theorem addProviderConfig_unplaced (d : Draft) (c : ProviderConfig) :
    (d.addProviderConfig c).unplaced = d.unplaced.addProviderConfig c.unplaced := by
  have href : c.unplaced.ref = c.ref := rfl
  have hversion : c.unplaced.version.toList = c.version.toList.map Placed.unplaced := by
    rw [ProviderConfig.unplaced]
    cases c.version <;> rfl
  unfold Draft.addProviderConfig
  dsimp only
  rw [href, hversion, Draft.requirement_unplaced]
  simp only [Draft.setRequirement, Draft.unplaced, ← Entries.put_mapValues]
  simp [Requirement.unplaced]

theorem absorb_erases (d : Draft) (a : Declaration) :
    (d.absorb a).ErasesTo Draft.unplaced (d.unplaced.absorb a.unplaced) := by
  cases a with
  | backend b => exact addBackend_erases d b
  | required entries => exact .foldlM addRequired_erases d entries
  | providerConfig c => exact .pure (addProviderConfig_unplaced d c)
  | _ => exact .pure (by simp [Draft.unplaced, SortedMap.mapValues_insert])

theorem coreConstraints_erases (version : Placed String) :
    (coreConstraints version).ErasesTo id (coreConstraints version.unplaced) := by
  rw [coreConstraints, coreConstraints, Placed.value_unplaced]
  cases Constraints.read version.value with
  | ok cs => exact .refl _
  | error e => exact .bind (.report (by rfl)) fun _ => .refl _

theorem theBackend_erases (backends : List (String × Placed Backend)) :
    (theBackend backends).ErasesTo id
      (theBackend (backends.map fun e => (e.1, e.2.unplaced))) := by
  match backends with
  | [] => exact .refl _
  | [(_, backend)] => exact .pure rfl
  | (_, first) :: (_, second) :: rest =>
    refine .reject rfl ?_
    simp only [Diagnostic.message, conflictingBackends, List.map_cons, Entries.keys, List.map_map]
    rfl

theorem versionConstraints_erases (versions : List (Placed String)) :
    (versionConstraints versions).ErasesTo id
      (versionConstraints (versions.map Placed.unplaced)) := by
  have hgiven : ((versions.map Placed.unplaced).filter fun v => !(Text.trim v.value).isEmpty) =
      (versions.filter fun v => !(Text.trim v.value).isEmpty).map Placed.unplaced := by
    rw [List.filter_map]
    refine congrArg _ (List.filter_congr fun v _ => ?_)
    rw [Function.comp_apply, Placed.value_unplaced]
  unfold versionConstraints
  dsimp only
  rw [hgiven]
  refine .bind (.mapM RequiredProvider.constraints_erases _) fun read => ?_
  exact .pure (by rw [List.map_id]; rfl)

theorem addRequirement_erases (ps : Providers) (e : String × Requirement) :
    (ps.addRequirement e.1 e.2).ErasesTo id (ps.addRequirement e.1 e.2.unplaced) := by
  refine .bind (RequiredProvider.address_erases e.1 e.2.source) fun source => ?_
  cases source with
  | none => exact .refl _
  | some p => exact .bind (versionConstraints_erases e.2.versions) fun _ => .refl _

theorem providers_erase (d : Draft) :
    (Providers.resolve d).ErasesTo id (Providers.resolve d.unplaced) := by
  refine .bind (f := id) ?_ fun ps => .refl _
  exact ErasesTo.foldlM (e := id) addRequirement_erases _ d.requirements

theorem placeless : dialect.Placeless ⟨Declaration.unplaced, Draft.unplaced, unplaced⟩ where
  root := rfl
  start := rfl
  declare := ofBlock_erases
  absorb := absorb_erases
  resolve path filenames d := by
    refine .bind (.mapM coreConstraints_erases d.core) fun core => ?_
    refine .bind (theBackend_erases d.backends) fun backend => ?_
    refine .bind (providers_erase d) fun providers => ?_
    exact .pure (by rw [List.map_id]; rfl)

end ModuleConfig

end EarlyConfig
