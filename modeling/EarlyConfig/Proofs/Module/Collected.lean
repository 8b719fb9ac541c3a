import EarlyConfig.Proofs.FirstTexts
import EarlyConfig.Proofs.Module.Requirements

/-! What the declarations of a module come to, part by part. A draft is filled one declaration after
another, but each of its parts can be read off the list of declarations as a whole (`collected_eq`):
under each name the last variable, output, call or resource counts, of the backends of one type the
first, and what is said about providers is taken together by local name. Of all that is said about
one provider the first source counts, while versions and aliases add up (`Requirement.mergeAll_eq`).
-/
namespace EarlyConfig

namespace ModuleConfig

/-! ### Requirements taken together -/

namespace Requirement

/-- What both say. The first source counts. -/
def merge (r s : Requirement) : Requirement :=
  ⟨r.source.or s.source, r.versions ++ s.versions, r.aliases ++ s.aliases⟩

def mergeAll (rs : List Requirement) : Requirement :=
  rs.foldl merge {}

/-- Takes up what is said about a local name. -/
def takeUp (rs : List (String × Requirement)) (e : String × Requirement) :
    List (String × Requirement) :=
  Entries.update e.1 {} (merge · e.2) rs

theorem foldl_merge (r : Requirement) (rs : List Requirement) :
    rs.foldl merge r =
      ⟨r.source.or (rs.findSome? (·.source)), r.versions ++ rs.flatMap (·.versions),
        r.aliases ++ rs.flatMap (·.aliases)⟩ := by
  induction rs generalizing r with
  | nil => simp
  | cons s rest ih =>
    rw [List.foldl_cons, ih, merge]
    cases hs : s.source <;> simp [hs]

theorem mergeAll_eq (rs : List Requirement) :
    mergeAll rs =
      ⟨rs.findSome? (·.source), rs.flatMap (·.versions), rs.flatMap (·.aliases)⟩ := by
  rw [mergeAll, foldl_merge]
  simp

end Requirement

end ModuleConfig

namespace RequiredProvider

/-- What an entry says about the provider of its name. An empty source is none. -/
def requirement (p : RequiredProvider) : ModuleConfig.Requirement :=
  ⟨if p.source.isEmpty then none else some ⟨p.source, p.range⟩, p.versions, p.aliases⟩

theorem value_mergeSource (known : Option (Placed String)) (p : RequiredProvider) :
    (p.mergeSource known).value = known.or p.requirement.source :=
  value_keepFirst known ⟨p.source, p.range⟩ _

end RequiredProvider

namespace ModuleConfig

/-! ### What a declaration holds for each part -/

namespace Declaration

def cores : Declaration → List (Placed String)
  | .core version => [version]
  | _ => []

def backends : Declaration → List (Placed Backend)
  | .backend b => [b]
  | _ => []

def clouds : Declaration → List Cloud
  | .cloud c => [c]
  | _ => []

/-- What is said about providers, by local name. The configuration of a provider says nothing about
its source. -/
def requirements : Declaration → List (String × Requirement)
  | .required entries => entries.map fun p => (p.name, p.requirement)
  | .providerConfig c => [(c.ref.localName, { versions := c.version.toList })]
  | _ => []

def configs : Declaration → List (String × ProviderRef)
  | .providerConfig c => [(c.ref.text, c.ref)]
  | _ => []

def resources : Declaration → List (String × Resource)
  | .resource key r => [(key, r)]
  | _ => []

def inputs : Declaration → List (String × Variable)
  | .input name v => [(name, v)]
  | _ => []

def outputs : Declaration → List (String × Output)
  | .output name o => [(name, o)]
  | _ => []

def calls : Declaration → List (String × Call)
  | .call name c => [(name, c)]
  | _ => []

/-! ### Where declarations come from -/

/-- The types of the blocks that declare such a thing. -/
def homes : Declaration → List String
  | .core _ => ["terraform"]
  | .backend _ => ["terraform"]
  | .cloud _ => ["terraform"]
  | .required _ => ["terraform"]
  | .providerConfig _ => ["provider"]
  | .resource _ _ => ["resource", "data", "ephemeral"]
  | .input _ _ => ["variable"]
  | .output _ _ => ["output"]
  | .call _ _ => ["module"]

theorem ofSettings_homes {file : String} {b : Hcl.Block} {x : Diagnosed (Option Declaration)}
    {a : Declaration} (hx : x ∈ ofSettings file b) (ha : x.value = some a) :
    a.homes = ["terraform"] := by
  rcases List.mem_cons.1 hx with rfl | hx
  · cases ha
  rcases List.mem_cons.1 hx with rfl | hx
  · simp only [ofCoreVersion, Diagnosed.value_bind, Diagnosed.value_pure,
      Option.map_eq_some_iff] at ha
    obtain ⟨_, -, rfl⟩ := ha
    rfl
  · obtain ⟨nested, -, rfl⟩ := List.mem_map.1 hx
    unfold ofSetting at ha
    split at ha <;> cases ha <;> rfl

/-- A block declares only what belongs to its type. -/
theorem kind_mem_homes {file : String} {b : Hcl.Block} {x : Diagnosed (Option Declaration)}
    {a : Declaration} (hx : x ∈ ofBlock file b) (ha : x.value = some a) : b.kind ∈ a.homes := by
  unfold ofBlock at hx
  split at hx
  case h_1 hkind =>
    rw [ofSettings_homes hx ha, hkind]
    exact List.mem_singleton_self _
  case h_9 => cases hx
  all_goals
    rename_i hkind
    rw [List.mem_singleton.1 hx] at ha
    rw [hkind]
  case h_2 | h_3 | h_4 | h_5 =>
    cases ha
    simp [homes]
  -- A block that has to have a name declares nothing without one.
  case h_6 =>
    rw [ofVariable, Diagnosed.value_bind] at ha
    split at ha <;> cases ha
    simp [homes]
  case h_7 =>
    rw [ofOutput, Diagnosed.value_bind] at ha
    split at ha <;> cases ha
    simp [homes]
  case h_8 =>
    rw [ofCall, Diagnosed.value_bind] at ha
    split at ha <;> cases ha
    simp [homes]

/-- A block holds nothing for a part that takes only things of other types. -/
theorem picked_eq_nil {ε : Type} {pick : Declaration → List ε} {file : String} {b : Hcl.Block}
    (h : ∀ a : Declaration, b.kind ∈ a.homes → pick a = []) :
    ((ofBlock file b).filterMap (·.value)).flatMap pick = [] := by
  refine List.flatMap_eq_nil_iff.2 fun a ha => ?_
  obtain ⟨x, hx, ha⟩ := List.mem_filterMap.1 ha
  exact h a (kind_mem_homes hx ha)

end Declaration

/-! ### Drafts -/

namespace Draft

/-- Of the backends of one type the first is kept. -/
def keepBackend (bs : List (String × Placed Backend)) (b : Placed Backend) :
    List (String × Placed Backend) :=
  if Entries.contains b.value.type bs then bs else Entries.put b.value.type b bs

/-- The draft with all declarations of a list in their places. -/
def plus (d : Draft) (ds : List Declaration) : Draft where
  core := d.core ++ ds.flatMap Declaration.cores
  backends := (ds.flatMap Declaration.backends).foldl keepBackend d.backends
  cloud := (ds.flatMap Declaration.clouds).getLast?.or d.cloud
  requirements := (ds.flatMap Declaration.requirements).foldl Requirement.takeUp d.requirements
  providerConfigs :=
    (ds.flatMap Declaration.configs).foldl (fun m e => m.insert e.1 e.2) d.providerConfigs
  resources := (ds.flatMap Declaration.resources).foldl (fun m e => m.insert e.1 e.2) d.resources
  inputs := (ds.flatMap Declaration.inputs).foldl (fun m e => m.insert e.1 e.2) d.inputs
  outputs := (ds.flatMap Declaration.outputs).foldl (fun m e => m.insert e.1 e.2) d.outputs
  calls := (ds.flatMap Declaration.calls).foldl (fun m e => m.insert e.1 e.2) d.calls

theorem plus_nil (d : Draft) : d.plus [] = d := by
  simp [plus]

theorem plus_cons (d : Draft) (a : Declaration) (ds : List Declaration) :
    d.plus (a :: ds) = (d.plus [a]).plus ds := by
  simp [plus, List.foldl_append, List.getLast?_append, Option.or_assoc]

theorem value_addRequired (d : Draft) (p : RequiredProvider) :
    (d.addRequired p).value =
      { d with requirements := Requirement.takeUp d.requirements (p.name, p.requirement) } := by
  rw [addRequired, Diagnosed.value_bind, RequiredProvider.value_mergeSource]
  rfl

/-- Entries that are required touch nothing but the requirements. -/
theorem foldl_addRequired (d : Draft) (entries : List RequiredProvider) :
    entries.foldl (fun d p => (d.addRequired p).value) d =
      { d with
        requirements := (Declaration.requirements (.required entries)).foldl Requirement.takeUp
          d.requirements } := by
  rw [Declaration.requirements]
  induction entries generalizing d with
  | nil => rfl
  | cons p rest ih => rw [List.foldl_cons, ih, value_addRequired, List.map_cons, List.foldl_cons]

theorem value_addBackend (d : Draft) (b : Placed Backend) :
    (d.addBackend b).value = { d with backends := keepBackend d.backends b } := by
  rw [addBackend, keepBackend]
  split <;> rfl

theorem addProviderConfig_eq (d : Draft) (c : ProviderConfig) :
    d.addProviderConfig c =
      { d with
        requirements := Requirement.takeUp d.requirements
          (c.ref.localName, { versions := c.version.toList })
        providerConfigs := d.providerConfigs.insert c.ref.text c.ref } := by
  simp [addProviderConfig, setRequirement, requirement, Requirement.takeUp, Entries.update,
    Requirement.merge]

/-- Taking up a declaration puts what it holds for each part there. -/
theorem value_absorb (d : Draft) (a : Declaration) : (d.absorb a).value = d.plus [a] := by
  simp only [plus, List.flatMap_singleton]
  cases a with
  | core version => rfl
  | backend b =>
    simp only [absorb, value_addBackend, Declaration.cores, List.append_nil]
    rfl
  | required entries =>
    simp only [absorb, Diagnosed.value_foldlM, foldl_addRequired, Declaration.cores,
      List.append_nil]
    rfl
  | providerConfig c =>
    simp only [absorb, addProviderConfig_eq, Declaration.cores, List.append_nil]
    rfl
  | _ =>
    simp only [absorb, Declaration.cores, List.append_nil]
    rfl

end Draft

/-- What is collected from the files of a module, from all that they declare. -/
theorem collected_eq (files : FileSet) :
    dialect.collected files = Draft.plus {} (dialect.declared files) := by
  rw [dialect.collected_eq_foldl]
  show (dialect.declared files).foldl (fun d a => (Draft.absorb d a).value) {} = _
  generalize dialect.declared files = ds
  generalize ({} : Draft) = d
  induction ds generalizing d with
  | nil => rw [List.foldl_nil, Draft.plus_nil]
  | cons a rest ih => rw [List.foldl_cons, ih, Draft.value_absorb, ← Draft.plus_cons]

/-- All that the files say about providers, by local name and in order. -/
def said (files : FileSet) : List (String × Requirement) :=
  (dialect.declared files).flatMap Declaration.requirements

theorem get?_requirements (files : FileSet) (name : String) :
    Entries.get? name (dialect.collected files).requirements =
      if name ∈ Entries.keys (said files) then
        some (Requirement.mergeAll (Entries.under name (said files)))
      else none := by
  rw [collected_eq]
  exact Entries.get?_foldl_update Requirement.merge {} (said files) [] name

end ModuleConfig

end EarlyConfig
