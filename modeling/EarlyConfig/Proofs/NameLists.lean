import EarlyConfig.Dialect.PolicyTest
import EarlyConfig.Dialect.Test
import EarlyConfig.Proofs.ByteOrder
import EarlyConfig.Proofs.SharedVariables

/-! Lists of names. Whatever lists the names of something lists each of them once, in the order of
their bytes (`Text.Enumerates`), and there is only one such list for a set of names. What a
configuration says about the names that one of its blocks sets can therefore be told from the set of
names written there, however they are ordered or repeated (`ListsNames`). -/
namespace EarlyConfig

open Hcl (Attribute Block Body)

/-! ### Names written in a body -/

namespace Hcl

/-- The attribute is an object with such a key, written as a bare word or as a plain string. -/
def Attribute.HasKey (a : Attribute) (n : String) : Prop :=
  ∃ items, a.value.value = .object items ∧
    ∃ item ∈ items, item.1.value = .variable n ∨ item.1.value = .text n

theorem Expr.keyName?_eq_some {e : Expr} {n : String} :
    e.keyName? = some n ↔ e = .variable n ∨ e = .text n := by
  cases e <;> simp [keyName?]

theorem Attribute.mem_keyNames {a : Attribute} {n : String} : n ∈ a.keyNames ↔ a.HasKey n := by
  unfold keyNames HasKey
  cases a.value.value <;> simp [Expr.keyName?_eq_some]

theorem Attribute.enumerates_objectKeys (a : Attribute) :
    Text.Enumerates a.objectKeys a.HasKey :=
  (Text.enumerates_eraseReps a.keyNames).congr fun _ => mem_keyNames

namespace Body

theorem enumerates_attributeNamesExcept (body : Body) (excluded : List String) :
    Text.Enumerates (body.attributeNamesExcept excluded)
      fun n => n ∈ body.attributeNames ∧ n ∉ excluded :=
  (Text.enumerates_eraseReps _).congr fun n => by simp

/-- The attribute of that name, the last if there are several, is an object with such a key. -/
def HasKeyUnder (name : String) (body : Body) (n : String) : Prop :=
  ∃ a, body.attribute? name = some a ∧ a.HasKey n

theorem enumerates_objectKeys (body : Body) (name : String) :
    Text.Enumerates (body.objectKeys name) (body.HasKeyUnder name) := by
  unfold objectKeys HasKeyUnder
  cases body.attribute? name with
  | none => exact ⟨.nil, by simp⟩
  | some a => exact a.enumerates_objectKeys.congr fun n => by simp

theorem objectKeys_select {s : Schema} {n : String} (h : s.listsAttribute n) (file : String)
    (body : Body) : (s.select file body).value.objectKeys n = body.objectKeys n := by
  rw [objectKeys, objectKeys, Schema.attribute?_select h]

end Body

end Hcl

/-! ### Parts that list names -/

/-- Under each key the part lists the names written in the block that counts for that key, and it
takes no more from the files than these sets of names. -/
structure ListsNames (part : FileSet → SortedMap String (List String))
    (key : Block → Option String) (written : Block → String → Prop) : Prop where
  enumerated : ∀ files k names, (part files).get? k = some names ↔
    ∃ b, files.block? key k = some b ∧ Text.Enumerates names (written b)
  determined : ∀ files files',
    (∀ k, (files.block? key k).map written = (files'.block? key k).map written) →
      part files = part files'

namespace Dialect

variable {δ σ μ : Type} (d : Dialect δ σ μ)

/-- A part that is filled from blocks by key lists the names that are read from the blocks. -/
theorem listsNames (part : σ → SortedMap String (List String))
    {pick : δ → List (String × List String)} (hstart : part d.start = .empty)
    (habsorb : ∀ s a, part (d.absorb s a).value =
      (pick a).foldl (fun m e => m.insert e.1 e.2) (part s))
    {key : Block → Option String} {read : Block → List String}
    (hfound : ∀ file b, d.found pick file b = ((key b).map fun k => (k, read b)).toList)
    {written : Block → String → Prop} (hread : ∀ b, Text.Enumerates (read b) (written b)) :
    ListsNames (fun files => part (d.collected files)) key written := by
  have hpart := d.get?_keyed hfound part hstart habsorb
  constructor
  · intro files k names
    rw [hpart, Option.map_eq_some_iff]
    apply exists_congr
    intro b
    apply and_congr_right
    intro _
    exact ⟨fun h => h ▸ hread b, fun h => (hread b).unique h fun _ => Iff.rfl⟩
  · intro files files' hsame
    apply SortedMap.ext
    intro k
    have hk := hsame k
    rw [hpart, hpart]
    cases hb : files.block? key k with
    | none =>
      rw [hb, Option.map_none, eq_comm, Option.map_eq_none_iff] at hk
      rw [hk]
    | some b =>
      rw [hb, Option.map_some, eq_comm, Option.map_eq_some_iff] at hk
      obtain ⟨b', hb', hwritten⟩ := hk
      rw [hb', Option.map_some, Option.map_some,
        (hread b).unique (hread b') fun n => by rw [hwritten]]

end Dialect

/-! ### Calls of modules -/

namespace ModuleConfig

def Declaration.callNames : Declaration → List (String × List String)
  | .call name c => [(name, c.inputNames)]
  | _ => []

theorem found_callNames (file : String) (b : Block) :
    dialect.found Declaration.callNames file b =
      ((b.labelled "module").map fun k =>
        (k, b.body.attributeNamesExcept ["source", "version"])).toList := by
  refine dialect.found_labelled rfl (fun hkind => ?_) fun hkind => ?_
  · simp only [dialect, Declaration.ofBlock, hkind]
    by_cases h : b.label 0 = "" <;>
      simp [Declaration.ofCall, Block.value_name?, h, Declaration.callNames]
  · refine Declaration.picked_eq_nil fun a hhome => ?_
    cases a with
    | call name c => exact absurd (List.mem_singleton.1 hhome) hkind
    | _ => rfl

theorem listsNames_calls (path : String) :
    ListsNames (fun files => (load path files).value.calls.mapValues (·.inputNames))
      (Block.labelled "module")
      (fun b n => n ∈ b.body.attributeNames ∧ n ∉ ["source", "version"]) := by
  refine dialect.listsNames (fun d => d.calls.mapValues (·.inputNames)) rfl (fun d a => ?_)
    found_callNames (fun b => b.body.enumerates_attributeNamesExcept ["source", "version"])
  show SortedMap.mapValues _ (Draft.absorb d a).value.calls = _
  rw [Draft.value_absorb]
  cases a with
  | call name c => exact SortedMap.mapValues_insert ..
  | _ => rfl

end ModuleConfig

/-! ### Components and deployments of stacks -/

namespace StackConfig

namespace Declaration

/-- The inputs of what a block of the type declares, by its name. -/
def inputNames (kind : String) : Declaration → List (String × List String)
  | .component name c => if kind = "component" then [(name, c.inputNames)] else []
  | .deployment name x => if kind = "deployment" then [(name, x.inputNames)] else []
  | _ => []

theorem inputNames_of_home_ne {kind : String} {a : Declaration} (h : a.home ≠ kind) :
    a.inputNames kind = [] := by
  cases a with
  | component name c => exact if_neg (Ne.symm h)
  | deployment name x => exact if_neg (Ne.symm h)
  | _ => rfl

theorem inputNames_ofBlock {kind : String} (hkind : kind = "component" ∨ kind = "deployment")
    (file : String) {b : Block} (h : b.kind = kind) :
    ([ofBlock file b].filterMap (·.value)).flatMap (inputNames kind) =
      if b.label 0 = "" then [] else [(b.label 0, b.body.objectKeys "inputs")] := by
  rcases hkind with rfl | rfl
  · have hkeys := Body.objectKeys_select (s := Schema.component) (n := "inputs") (by decide)
    by_cases hname : b.label 0 = "" <;>
      simp [ofBlock, h, value_named, hname, ofComponent, inputNames, hkeys]
  · have hkeys := Body.objectKeys_select (s := Schema.deployment) (n := "inputs") (by decide)
    by_cases hname : b.label 0 = "" <;>
      simp [ofBlock, h, value_named, hname, ofDeployment, inputNames, hkeys]

end Declaration

/-- What the blocks of such a type declare, kept by name, has the inputs that are written there. -/
theorem listsNames_inputs {kind : String} (hkind : kind = "component" ∨ kind = "deployment")
    (part : Draft → SortedMap String (List String)) (hstart : part {} = .empty)
    (habsorb : ∀ d a, part (Draft.absorb d a).value =
      (a.inputNames kind).foldl (fun m e => m.insert e.1 e.2) (part d)) :
    ListsNames (fun files => part (dialect.collected files)) (Block.labelled kind)
      fun b => b.body.HasKeyUnder "inputs" := by
  have hroot : dialect.root.block? kind = some ⟨kind, ["name"]⟩ := by
    rcases hkind with rfl | rfl <;> rfl
  have hfound : ∀ file b, dialect.found (Declaration.inputNames kind) file b =
      ((b.labelled kind).map fun k => (k, b.body.objectKeys "inputs")).toList := by
    intro file b
    refine dialect.found_labelled hroot (Declaration.inputNames_ofBlock hkind file) fun hne => ?_
    apply Declaration.picked_eq_nil
    intro a hhome
    exact Declaration.inputNames_of_home_ne (hhome ▸ hne)
  exact dialect.listsNames part hstart habsorb hfound fun b => b.body.enumerates_objectKeys "inputs"

theorem listsNames_components (path : String) :
    ListsNames (fun files => (load path files).value.components.mapValues (·.inputNames))
      (Block.labelled "component") (fun b => b.body.HasKeyUnder "inputs") := by
  refine listsNames_inputs (.inl rfl) (fun d => d.components.mapValues (·.inputNames)) rfl
    fun d a => ?_
  cases a with
  | required entries =>
    exact d.absorb_required (fun d => d.components.mapValues _) (fun _ _ => rfl) entries
  | component name c => exact SortedMap.mapValues_insert ..
  | _ => rfl

theorem listsNames_deployments (path : String) :
    ListsNames (fun files => (load path files).value.deployments.mapValues (·.inputNames))
      (Block.labelled "deployment") (fun b => b.body.HasKeyUnder "inputs") := by
  refine listsNames_inputs (.inr rfl) (fun d => d.deployments.mapValues (·.inputNames)) rfl
    fun d a => ?_
  cases a with
  | required entries =>
    exact d.absorb_required (fun d => d.deployments.mapValues _) (fun _ _ => rfl) entries
  | deployment name x => exact SortedMap.mapValues_insert ..
  | _ => rfl

end StackConfig

/-! ### Fixtures of policy tests -/

namespace PolicyTestConfig

/-- The fixtures of a kind. -/
def fixtures (c : PolicyTestConfig) : Kind → SortedMap String Fixture
  | .resource => c.resources
  | .dataSource => c.dataSources
  | .provider => c.providers
  | .moduleCall => c.moduleCalls

/-- The key of a fixture of the kind. -/
def Kind.key : Kind → Block → Option String
  | .resource => Block.addressed "resource" []
  | .dataSource => Block.addressed "data" ["data"]
  | .provider => Block.labelled "provider"
  | .moduleCall => Block.labelled "module"

/-- The type of the blocks that declare fixtures of the kind. -/
def Kind.home : Kind → String
  | .resource => "resource"
  | .dataSource => "data"
  | .provider => "provider"
  | .moduleCall => "module"

def Draft.fixtures (d : Draft) : Kind → SortedMap String Fixture
  | .resource => d.resources
  | .dataSource => d.dataSources
  | .provider => d.providers
  | .moduleCall => d.moduleCalls

theorem Draft.fixtures_absorb (d : Draft) (x : Declaration) (kind : Kind) :
    (d.absorb x).fixtures kind =
      if x.kind = kind then (d.fixtures kind).insert x.key x.fixture else d.fixtures kind := by
  unfold Draft.absorb
  cases hx : x.kind <;> cases kind <;> rfl

theorem attributeNames_decodeFixture (file : String) (b : Block) :
    (decodeFixture file b).value.attributeNames = b.body.objectKeys "attrs" :=
  Body.objectKeys_select (s := Schema.policyTestFixture) (by decide) file b.body

namespace Declaration

/-- What a declaration holds for the fixtures of a kind. -/
def fixtureNames (kind : Kind) (x : Declaration) : List (String × List String) :=
  if x.kind = kind then [(x.key, x.fixture.attributeNames)] else []

theorem value_named (file : String) (kind : Kind) (b : Block) :
    (named file kind b).value = if b.label 0 = "" then none else
      some ⟨kind, b.label 0, (decodeFixture file b).value⟩ := by
  rw [named, Diagnosed.value_bind, Block.value_name?]
  by_cases h : b.label 0 = "" <;> simp [h, keyed]

theorem kind_eq_home {file : String} {b : Block} {x : Declaration}
    (h : (ofBlock file b).value = some x) : b.kind = x.kind.home := by
  unfold ofBlock at h
  split at h
  case h_1 hkind | h_2 hkind =>
    cases h
    exact hkind
  case h_3 hkind | h_4 hkind =>
    rw [value_named] at h
    split at h <;> cases h
    exact hkind
  case h_5 => cases h

theorem fixtureNames_eq_nil {kind : Kind} {file : String} {b : Block} (h : b.kind ≠ kind.home) :
    ([ofBlock file b].filterMap (·.value)).flatMap (fixtureNames kind) = [] := by
  apply Diagnosed.picked_eq_nil
  intro x hx
  have hkind : x.kind ≠ kind := by
    intro hxk
    exact h (hxk ▸ kind_eq_home hx)
  exact if_neg hkind

end Declaration

theorem found_fixtureNames (kind : Kind) (file : String) (b : Block) :
    dialect.found (Declaration.fixtureNames kind) file b =
      ((kind.key b).map fun k => (k, b.body.objectKeys "attrs")).toList := by
  have hother : b.kind ≠ kind.home → ((dialect.declare file b).filterMap (·.value)).flatMap
      (Declaration.fixtureNames kind) = [] := Declaration.fixtureNames_eq_nil
  cases kind with
  | resource =>
    refine dialect.found_addressed rfl (fun hkind => ?_) hother
    simp [dialect, Declaration.ofBlock, hkind, Declaration.keyed, Declaration.fixtureNames,
      attributeNames_decodeFixture]
  | dataSource =>
    refine dialect.found_addressed rfl (fun hkind => ?_) hother
    simp [dialect, Declaration.ofBlock, hkind, Declaration.keyed, Declaration.fixtureNames,
      attributeNames_decodeFixture]
  | provider =>
    refine dialect.found_labelled rfl (fun hkind => ?_) hother
    by_cases h : b.label 0 = "" <;>
      simp [dialect, Declaration.ofBlock, hkind, Declaration.value_named, h,
        Declaration.fixtureNames, attributeNames_decodeFixture]
  | moduleCall =>
    refine dialect.found_labelled rfl (fun hkind => ?_) hother
    by_cases h : b.label 0 = "" <;>
      simp [dialect, Declaration.ofBlock, hkind, Declaration.value_named, h,
        Declaration.fixtureNames, attributeNames_decodeFixture]

theorem listsNames_fixtures (path : String) (kind : Kind) :
    ListsNames (fun files => ((load path files).value.fixtures kind).mapValues (·.attributeNames))
      kind.key (fun b => b.body.HasKeyUnder "attrs") := by
  have hlists : ListsNames
      (fun files => ((dialect.collected files).fixtures kind).mapValues (·.attributeNames))
      kind.key (fun b => b.body.HasKeyUnder "attrs") := by
    refine dialect.listsNames (fun d => (d.fixtures kind).mapValues (·.attributeNames))
      (by cases kind <;> rfl) (fun d x => ?_) (found_fixtureNames kind)
      (fun b => b.body.enumerates_objectKeys "attrs")
    show SortedMap.mapValues _ ((d.absorb x).fixtures kind) = _
    rw [Draft.fixtures_absorb, Declaration.fixtureNames]
    split
    · exact SortedMap.mapValues_insert ..
    · rfl
  cases kind <;> exact hlists

end PolicyTestConfig

/-! ### Tests and their runs -/

namespace TestConfig

/-- The variables that a run sets: the last block of them. -/
def variables? (b : Block) : Option Block :=
  (b.body.blocks.filter fun v => v.kind = "variables" ∧ v.labels.length = 0).getLast?

theorem Run.variableNames_add (file : String) (r : Run) (b : Block) :
    (Run.add file r b).value.variableNames =
      if b.kind = "variables" then b.body.attributeNamesExcept [] else r.variableNames := by
  unfold Run.add
  split
  case h_4 hvariables _ =>
    rw [if_neg hvariables]
    rfl
  all_goals
    rename_i hkind
    simp [hkind]

theorem Run.variableNames_foldl (file : String) (r : Run) (bs : List Block) :
    (bs.foldl (fun r b => (Run.add file r b).value) r).variableNames =
      (((bs.filter (·.kind = "variables")).getLast?.map
        (·.body.attributeNamesExcept [])).getD r.variableNames) := by
  induction bs generalizing r with
  | nil => rfl
  | cons b rest ih =>
    rw [List.foldl_cons, ih, Run.variableNames_add]
    by_cases h : b.kind = "variables"
    · simp [h, List.getLast?_cons]
    · simp [h]

/-- The names of the variables that a run sets. -/
def Sets (b : Block) (n : String) : Prop :=
  ∃ v, variables? b = some v ∧ n ∈ v.body.attributeNames

theorem Run.variableNames_decode (file : String) (b : Block) :
    (Run.decode file b).value.variableNames =
      ((variables? b).map (·.body.attributeNamesExcept [])).getD [] := by
  have hblocks : (b.body.blocks.filter Schema.run.admitsBlock).filter (·.kind = "variables") =
      b.body.blocks.filter fun v => v.kind = "variables" ∧ v.labels.length = 0 := by
    rw [List.filter_filter]
    apply List.filter_congr
    intro v _
    by_cases h : v.kind = "variables"
    · have hschema : Schema.run.block? v.kind = some ⟨"variables", []⟩ := by
        rw [h]
        rfl
      simp [h, Schema.admitsBlock_of_block? hschema]
    · simp [h]
  simp only [Run.decode, Diagnosed.value_bind, Diagnosed.value_foldlM, Schema.blocks_select,
    Run.variableNames_foldl, hblocks, variables?]

theorem enumerates_runVariables (b : Block) :
    Text.Enumerates (((variables? b).map (·.body.attributeNamesExcept [])).getD []) (Sets b) := by
  unfold Sets
  cases variables? b with
  | none => exact ⟨.nil, by simp⟩
  | some v => exact (v.body.enumerates_attributeNamesExcept []).congr fun n => by simp

namespace Declaration

def runNames : Declaration → List (String × List String)
  | .run name r => [(name, r.variableNames)]
  | _ => []

def names : Declaration → List String
  | .inputs names => names
  | _ => []

theorem value_ofRun (file : String) (b : Block) :
    (ofRun file b).value =
      if b.label 0 = "" then none else some (.run (b.label 0) (Run.decode file b).value) := by
  rw [ofRun, Diagnosed.value_bind, Block.value_name?]
  by_cases h : b.label 0 = "" <;> simp [h]

/-- The types of the blocks that declare such a thing. -/
def homes : Declaration → List String
  | .run _ _ => ["run"]
  | .inputs _ => ["variables"]
  | .provider _ _ => ["provider", "mock_provider"]

theorem kind_mem_homes {file : String} {b : Block} {a : Declaration}
    (h : (ofBlock file b).value = some a) : b.kind ∈ a.homes := by
  unfold ofBlock at h
  split at h
  case h_1 hkind =>
    rw [value_ofRun] at h
    split at h <;> cases h
    simp [homes, hkind]
  case h_5 => cases h
  all_goals
    rename_i hkind
    cases h
    simp [homes, hkind]

/-- A block holds nothing for a part that takes only things of other types. -/
theorem picked_eq_nil {ε : Type} {pick : Declaration → List ε} {file : String} {b : Block}
    (h : ∀ a : Declaration, b.kind ∈ a.homes → pick a = []) :
    ([ofBlock file b].filterMap (·.value)).flatMap pick = [] :=
  Diagnosed.picked_eq_nil fun a ha => h a (kind_mem_homes ha)

end Declaration

theorem found_runNames (file : String) (b : Block) :
    dialect.found Declaration.runNames file b =
      ((b.labelled "run").map fun k =>
        (k, ((variables? b).map (·.body.attributeNamesExcept [])).getD [])).toList := by
  refine dialect.found_labelled rfl (fun hkind => ?_) fun hkind => ?_
  · by_cases h : b.label 0 = "" <;>
      simp [dialect, Declaration.ofBlock, hkind, Declaration.value_ofRun, h, Declaration.runNames,
        Run.variableNames_decode]
  · refine Declaration.picked_eq_nil fun a hhome => ?_
    cases a with
    | run name r => exact absurd (List.mem_singleton.1 hhome) hkind
    | _ => rfl

theorem listsNames_runs (path : String) :
    ListsNames (fun files => (load path files).value.runs.mapValues (·.variableNames))
      (Block.labelled "run") Sets := by
  refine dialect.listsNames (fun d => d.runs.mapValues (·.variableNames)) rfl (fun d a => ?_)
    found_runNames enumerates_runVariables
  cases a with
  | run name r => exact SortedMap.mapValues_insert ..
  | _ => rfl

theorem found_names (file : String) (b : Block) :
    dialect.found Declaration.names file b =
      if b.kind = "variables" ∧ b.labels.length = 0 then b.body.attributeNames else [] := by
  have hroot : dialect.root.block? "variables" = some ⟨"variables", []⟩ := rfl
  refine dialect.found_eq hroot (fun hkind => ?_) (fun hkind => ?_)
  · simp [dialect, Declaration.ofBlock, hkind, Declaration.names]
  · refine Declaration.picked_eq_nil fun a hhome => ?_
    cases a with
    | inputs names => exact absurd (List.mem_singleton.1 hhome) hkind
    | _ => rfl

/-- The variables of a test are those of all blocks of variables of its files. -/
theorem enumerates_variableNames (path : String) (files : FileSet) :
    Text.Enumerates (load path files).value.variableNames.toList fun n =>
      ∃ f ∈ files, ∃ b ∈ f.2.blocks, b.kind = "variables" ∧ b.labels.length = 0 ∧
        n ∈ b.body.attributeNames := by
  have hcollected : (dialect.collected files).variableNames =
      .ofList ((dialect.declared files).flatMap Declaration.names) :=
    dialect.collected_part Draft.variableNames _ SortedSet.add (fun d a => by cases a <;> rfl) files
  show Text.Enumerates (dialect.collected files).variableNames.toList _
  rw [hcollected, dialect.flatMap_declared]
  apply (SortedSet.enumerates_ofList _).congr
  intro n
  simp [found_names, and_assoc]

end TestConfig

/-- **Lists of names are sets.** The names of the attributes of a body that are not excluded, and
the keys of an object that are bare words or plain strings, are listed once each in ascending order
of their bytes; what is no object has no keys. So are the inputs of the calls of a module and of the
components and deployments of a stack, the attributes of the fixtures of a policy test, and the
variables of a test and of its runs. Nothing but the sets of names that are written counts for them.
-/
theorem nameLists_are_sets (path : String) :
    (∀ (body : Body) (excluded : List String),
      Text.Enumerates (body.attributeNamesExcept excluded)
        fun n => n ∈ body.attributeNames ∧ n ∉ excluded) ∧
    (∀ a : Attribute, Text.Enumerates a.objectKeys a.HasKey) ∧
    ListsNames (fun files => (ModuleConfig.load path files).value.calls.mapValues (·.inputNames))
      (Block.labelled "module")
      (fun b n => n ∈ b.body.attributeNames ∧ n ∉ ["source", "version"]) ∧
    ListsNames
      (fun files => (StackConfig.load path files).value.components.mapValues (·.inputNames))
      (Block.labelled "component") (fun b => b.body.HasKeyUnder "inputs") ∧
    ListsNames
      (fun files => (StackConfig.load path files).value.deployments.mapValues (·.inputNames))
      (Block.labelled "deployment") (fun b => b.body.HasKeyUnder "inputs") ∧
    (∀ kind, ListsNames
      (fun files =>
        ((PolicyTestConfig.load path files).value.fixtures kind).mapValues (·.attributeNames))
      kind.key (fun b => b.body.HasKeyUnder "attrs")) ∧
    ListsNames (fun files => (TestConfig.load path files).value.runs.mapValues (·.variableNames))
      (Block.labelled "run") TestConfig.Sets ∧
    ∀ files, Text.Enumerates (TestConfig.load path files).value.variableNames.toList fun n =>
      ∃ f ∈ files, ∃ b ∈ f.2.blocks, b.kind = "variables" ∧ b.labels.length = 0 ∧
        n ∈ b.body.attributeNames :=
  ⟨Body.enumerates_attributeNamesExcept, Attribute.enumerates_objectKeys,
    ModuleConfig.listsNames_calls path, StackConfig.listsNames_components path,
    StackConfig.listsNames_deployments path, PolicyTestConfig.listsNames_fixtures path,
    TestConfig.listsNames_runs path, TestConfig.enumerates_variableNames path⟩

end EarlyConfig
