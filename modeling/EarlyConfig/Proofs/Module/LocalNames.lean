import EarlyConfig.Proofs.Module.Collected
import EarlyConfig.Proofs.Module.Resolution
import EarlyConfig.Proofs.Reordering
import Mathlib.Data.List.Induction

/-! What the files of a module say about providers, name by name. Two types of blocks say something
about the provider of a local name: entries of blocks that require providers and blocks that
configure them. What they say is read off the blocks in order (`FileSet.mentions`), and the
requirements that are collected are what is said about each name, in the order in which the names
come up (`flatMap_requirements`). -/
namespace EarlyConfig

open Hcl (Block Body)

/-! ### Entries by key -/

/-- Something that comes up last counts if it is new. -/
theorem eraseDups_concat {α : Type} [DecidableEq α] (xs : List α) (x : α) :
    (xs ++ [x]).eraseDups = if x ∈ xs then xs.eraseDups else xs.eraseDups ++ [x] := by
  rw [List.eraseDups_append]
  by_cases h : x ∈ xs
  · simp [h, List.removeAll]
  · simp [h, List.removeAll, List.eraseDups_cons]

namespace Entries

variable {κ α β : Type} [DecidableEq κ]

/-- Keys come in the order in which they come up. -/
theorem keys_foldl_update (f : α → β → α) (a : α) (es : List (κ × β)) :
    keys (es.foldl (fun acc e => update e.1 a (f · e.2) acc) []) = (keys es).eraseDups := by
  induction es using List.reverseRecOn with
  | nil => rfl
  | append_singleton es e ih =>
    have hkeys : keys (es ++ [e]) = keys es ++ [e.1] := List.map_append
    rw [List.foldl_append, List.foldl_cons, List.foldl_nil, update, keys_put, ih, hkeys,
      eraseDups_concat]
    simp only [List.mem_eraseDups]

end Entries

/-! ### Blocks -/

namespace FileSet

open ModuleConfig (Requirement)

/-- What a block that requires providers says, by local name. -/
def requiredBy (file : String) (b : Block) : List (String × Requirement) :=
  if b.kind = "required_providers" ∧ b.labels.length = 0 then
    (RequiredProvider.decode file b).value.map fun p => (p.name, p.requirement)
  else []

/-- What a block of the root says about providers, by local name. A configuration says no more than
which versions will do. -/
def mentionedBy (file : String) (b : Block) : List (String × Requirement) :=
  if b.kind = "terraform" ∧ b.labels.length = 0 then b.body.blocks.flatMap (requiredBy file)
  else if b.kind = "provider" ∧ b.labels.length = 1 then
    [(b.label 0, { versions := (b.body.placed? file "version").value.toList })]
  else []

/-- The version of the program itself that a block of the root asks for. -/
def coreVersionBy (file : String) (b : Block) : List (Placed String) :=
  if b.kind = "terraform" ∧ b.labels.length = 0 then
    (b.body.placed? file "required_version").value.toList
  else []

/-- All that the files say about providers, by local name and in order. -/
def mentions (files : FileSet) : List (String × Requirement) :=
  files.flatMap fun (file, body) => body.blocks.flatMap (mentionedBy file)

/-- The versions of the program itself that the files ask for. -/
def coreVersions (files : FileSet) : List (Placed String) :=
  files.flatMap fun (file, body) => body.blocks.flatMap (coreVersionBy file)

/-! ### Names -/

/-- The local names about which something is said, in the order in which they come up. -/
def localNames (files : FileSet) : List String :=
  (Entries.keys files.mentions).eraseDups

/-- The source of a local name: the first that is given for it and is not empty. -/
def source? (files : FileSet) (name : String) : Option (Placed String) :=
  (Entries.under name files.mentions).findSome? (·.source)

/-- The version strings that are given for a local name, in order. -/
def versions (files : FileSet) (name : String) : List (Placed String) :=
  (Entries.under name files.mentions).flatMap (·.versions)

/-- The aliases under which the provider of a local name is expected. -/
def aliases (files : FileSet) (name : String) : List ProviderRef :=
  (Entries.under name files.mentions).flatMap (·.aliases)

/-- The address of a local name: what its source says, and without a source the provider that is
known by that name only. -/
def address? (files : FileSet) (name : String) : Option Provider :=
  match files.source? name with
  | none => if name = "" then none else some (.legacy name)
  | some source => (Provider.ofSource source.value).toOption

theorem mem_localNames {files : FileSet} {name : String} :
    name ∈ files.localNames ↔ name ∈ Entries.keys files.mentions :=
  List.mem_eraseDups

theorem under_mentions_eq_nil {files : FileSet} {name : String} (h : name ∉ files.localNames) :
    Entries.under name files.mentions = [] :=
  Entries.under_eq_nil.2 fun hkey => h (mem_localNames.2 hkey)

end FileSet

namespace ModuleConfig

namespace Declaration

/-- What a block of settings declares: the version of the program, then what each block in it is
about. -/
theorem filterMap_ofSettings (file : String) (b : Block) :
    (ofSettings file b).filterMap (·.value) =
      ((b.body.placed? file "required_version").value.map .core).toList ++
        (b.body.blocks.filter Schema.terraformBlock.admitsBlock).filterMap
          fun inner => (ofSetting file inner).value := by
  have hlists : Schema.terraformBlock.listsAttribute "required_version" := by decide
  have hplaced : (Schema.terraformBlock.select file b.body).value.placed? file "required_version" =
      b.body.placed? file "required_version" := by
    rw [Body.placed?, Body.placed?, Schema.attribute?_select hlists]
  have hcore : (ofCoreVersion file (Schema.terraformBlock.select file b.body).value).value =
      (b.body.placed? file "required_version").value.map .core := by
    rw [ofCoreVersion, hplaced]
    rfl
  rw [ofSettings, List.filterMap_cons_none rfl, Schema.blocks_select, List.filterMap_cons, hcore,
    List.filterMap_map]
  cases (b.body.placed? file "required_version").value <;> rfl

/-- Of the blocks among the settings, those that require providers say something about them. -/
theorem requirements_ofSetting (file : String) (b : Block) :
    (if Schema.terraformBlock.admitsBlock b then
      ((ofSetting file b).value.toList).flatMap requirements else []) =
      FileSet.requiredBy file b := by
  have hblock : Schema.terraformBlock.block? "required_providers" =
      some ⟨"required_providers", []⟩ := rfl
  rw [FileSet.requiredBy]
  by_cases hkind : b.kind = "required_providers"
  · rw [Schema.admitsBlock_of_block? (hkind ▸ hblock), ofSetting, hkind]
    by_cases hlabels : b.labels.length = 0 <;> simp [hlabels, requirements]
  · have hnone : ((ofSetting file b).value.toList).flatMap requirements = [] := by
      unfold ofSetting
      split
      · rfl
      · rfl
      · rename_i hrequired
        exact absurd hrequired hkind
      · rfl
    rw [hnone, ite_self, if_neg fun h => hkind h.1]

end Declaration

/-- A part that takes nothing from the version of the program holds what the blocks among the
settings hold for it. -/
theorem picked_settings {ε : Type} {pick : Declaration → List ε} {held : Block → List ε}
    {file : String} (hcore : ∀ version, pick (.core version) = [])
    (hheld : ∀ inner, (if Schema.terraformBlock.admitsBlock inner then
      ((Declaration.ofSetting file inner).value.toList).flatMap pick else []) = held inner)
    {b : Block} (hkind : b.kind = "terraform") :
    ((dialect.declare file b).filterMap (·.value)).flatMap pick = b.body.blocks.flatMap held := by
  have hdeclare : dialect.declare file b = Declaration.ofSettings file b := by
    simp [dialect, Declaration.ofBlock, hkind]
  have hnone : (((b.body.placed? file "required_version").value.map
      Declaration.core).toList).flatMap pick = [] := by
    cases (b.body.placed? file "required_version").value with
    | none => rfl
    | some version => simp [hcore]
  rw [hdeclare, Declaration.filterMap_ofSettings, List.flatMap_append, hnone, List.nil_append,
    List.filterMap_eq_flatMap_toList, List.flatMap_assoc, flatMap_filter]
  exact List.flatMap_congr fun inner _ => hheld inner

theorem found_cores : dialect.found Declaration.cores = FileSet.coreVersionBy := by
  funext file b
  have hroot : dialect.root.block? "terraform" = some ⟨"terraform", []⟩ := rfl
  refine dialect.found_eq hroot (fun hkind => ?_) fun hkind => ?_
  · have hsettings : dialect.declare file b = Declaration.ofSettings file b := by
      simp [dialect, Declaration.ofBlock, hkind]
    have hnested : ((b.body.blocks.filter Schema.terraformBlock.admitsBlock).filterMap
        fun inner => (Declaration.ofSetting file inner).value).flatMap Declaration.cores = [] := by
      refine List.flatMap_eq_nil_iff.2 fun a ha => ?_
      obtain ⟨inner, -, hinner⟩ := List.mem_filterMap.1 ha
      unfold Declaration.ofSetting at hinner
      split at hinner <;> cases hinner <;> rfl
    rw [hsettings, Declaration.filterMap_ofSettings, List.flatMap_append, hnested, List.append_nil]
    cases (b.body.placed? file "required_version").value <;> rfl
  · refine Declaration.picked_eq_nil fun a hhome => ?_
    cases a with
    | core version => exact absurd (List.mem_singleton.1 hhome) hkind
    | _ => rfl

theorem found_requirements : dialect.found Declaration.requirements = FileSet.mentionedBy := by
  funext file b
  rw [FileSet.mentionedBy]
  by_cases hsettings : b.kind = "terraform"
  · have hroot : dialect.root.block? "terraform" = some ⟨"terraform", []⟩ := rfl
    have hother : ¬(b.kind = "provider" ∧ b.labels.length = 1) := by simp [hsettings]
    rw [if_neg hother]
    refine dialect.found_eq hroot (fun hkind => ?_) fun hne => absurd hsettings hne
    exact picked_settings (fun _ => rfl) (Declaration.requirements_ofSetting file) hkind
  · have hroot : dialect.root.block? "provider" = some ⟨"provider", ["name"]⟩ := rfl
    have hlists : Schema.providerConfig.listsAttribute "version" := by decide
    have hplaced : (Schema.providerConfig.select file b.body).value.placed? file "version" =
        b.body.placed? file "version" := by
      rw [Body.placed?, Body.placed?, Schema.attribute?_select hlists]
    rw [if_neg fun h => hsettings h.1]
    refine dialect.found_eq hroot (fun hkind => ?_) fun hkind => ?_
    · simp [dialect, hkind, Declaration.ofBlock, Declaration.ofProvider, Declaration.requirements,
        hplaced]
    · refine Declaration.picked_eq_nil fun a hhome => ?_
      cases a with
      | required entries => exact absurd (List.mem_singleton.1 hhome) hsettings
      | providerConfig c => exact absurd (List.mem_singleton.1 hhome) hkind
      | _ => rfl

theorem said_eq (files : FileSet) : said files = files.mentions := by
  rw [said, dialect.flatMap_declared, found_requirements]
  rfl

theorem collected_core (files : FileSet) :
    (dialect.collected files).core = files.coreVersions := by
  rw [collected_eq]
  show [] ++ (dialect.declared files).flatMap Declaration.cores = _
  rw [List.nil_append, dialect.flatMap_declared, found_cores]
  rfl

/-! ### Requirements -/

/-- What is said about a local name, taken together. -/
def requirementOf (files : FileSet) (name : String) : Requirement :=
  ⟨files.source? name, files.versions name, files.aliases name⟩

theorem get?_requirements_of_mem {files : FileSet} {name : String} (h : name ∈ files.localNames) :
    Entries.get? name (dialect.collected files).requirements =
      some (requirementOf files name) := by
  rw [get?_requirements, said_eq, if_pos (FileSet.mem_localNames.1 h), Requirement.mergeAll_eq]
  rfl

theorem keys_requirements (files : FileSet) :
    Entries.keys (dialect.collected files).requirements = files.localNames := by
  rw [FileSet.localNames, ← said_eq, collected_eq]
  exact Entries.keys_foldl_update Requirement.merge {} (said files)

/-- Going through the requirements is going through the names. -/
theorem flatMap_requirements {β : Type} (files : FileSet) (f : String × Requirement → List β) :
    (dialect.collected files).requirements.flatMap f =
      files.localNames.flatMap fun name => f (name, requirementOf files name) := by
  rw [Entries.flatMap_eq_flatMap_keys (collected_coherent files).names, keys_requirements]
  refine List.flatMap_congr fun name hname => ?_
  rw [get?_requirements_of_mem hname]
  rfl

theorem value_address_requirementOf (files : FileSet) (name : String) :
    (RequiredProvider.address name (requirementOf files name).source).value =
      files.address? name :=
  RequiredProvider.value_address name (files.source? name)

/-- The address that a local name has by what the files say about it. -/
theorem requiredAddress_collected (files : FileSet) (name : String) :
    (dialect.collected files).requiredAddress name =
      if name ∈ files.localNames then files.address? name else none := by
  rw [Draft.requiredAddress]
  split
  · rename_i hname
    rw [get?_requirements_of_mem hname, Option.bind_some, value_address_requirementOf]
  · rename_i hname
    rw [get?_requirements, said_eq, if_neg (mt FileSet.mem_localNames.2 hname), Option.bind_none]

theorem aliases_collected (files : FileSet) (name : String) :
    ((dialect.collected files).requirement name).aliases = files.aliases name := by
  rw [Draft.requirement]
  by_cases hname : name ∈ files.localNames
  · rw [get?_requirements_of_mem hname, Option.getD_some, requirementOf]
  · rw [get?_requirements, said_eq, if_neg (mt FileSet.mem_localNames.2 hname), FileSet.aliases,
      FileSet.under_mentions_eq_nil hname]
    rfl

/-- A local name with an address has a default reference to it. -/
theorem get?_ofName_of_mem {files : FileSet} {name : String} (h : name ∈ files.localNames)
    (path : String) {p : Provider} (hp : files.address? name = some p) :
    (load path files).value.providers.references.get? (.ofName name) = some p := by
  have hget := Providers.get?_references (collected_coherent files) (.ofName name)
  refine hget.trans ((if_pos rfl).trans ?_)
  show ((dialect.collected files).requiredAddress name).or _ = _
  rw [requiredAddress_collected, if_pos h, hp, Option.some_or]

end ModuleConfig

end EarlyConfig
