import EarlyConfig.Proofs.ByteOrder
import EarlyConfig.Proofs.Module.Complaints
import EarlyConfig.Proofs.Module.Resolution
import EarlyConfig.Proofs.Reading
import EarlyConfig.Proofs.Reordering

/-! When the order of the files of a module does not matter. Some parts of a module take the first
that is said, some the last and some take all, so files that contradict each other give different
modules in different orders. Files that do not (`Unconflicted`) give the same module in every order,
but for the order of the version constraints in it, and the same complaints
(`load_sameUpToOrder`). -/
namespace EarlyConfig

namespace ModuleConfig

/-! ### Files without conflicts -/

/-- What one file holds for a part. -/
def heldIn {ε : Type} (pick : Declaration → List ε) (f : String × Hcl.Body) : List ε :=
  (dialect.declared [f]).flatMap pick

/-- Each name of a part is declared in one file at most. -/
def Apart {α : Type} (pick : Declaration → List (String × α)) (files : FileSet) : Prop :=
  files.Pairwise fun f g =>
    ∀ name ∈ Entries.keys (heldIn pick f), name ∉ Entries.keys (heldIn pick g)

/-- One file at most holds anything for a part. -/
def InOneFile {ε : Type} (pick : Declaration → List ε) (files : FileSet) : Prop :=
  files.Pairwise fun f g => heldIn pick f = [] ∨ heldIn pick g = []

/-- The files of a module do not contradict each other. Within one file anything goes, but for the
sources of providers and the keys of their configurations. -/
structure Unconflicted (files : FileSet) : Prop where
  inputs : Apart Declaration.inputs files
  outputs : Apart Declaration.outputs files
  calls : Apart Declaration.calls files
  resources : Apart Declaration.resources files
  backends : InOneFile Declaration.backends files
  clouds : InOneFile Declaration.clouds files
  /-- All sources that are given for a local name are the same. -/
  sources : ∀ e ∈ said files, ∀ e' ∈ said files, e.1 = e'.1 →
    ∀ s ∈ e.2.source, ∀ s' ∈ e'.2.source, s.value = s'.value
  /-- Configurations of one key are of one reference. -/
  configs : ∀ e ∈ (dialect.declared files).flatMap Declaration.configs,
    ∀ e' ∈ (dialect.declared files).flatMap Declaration.configs, e.1 = e'.1 → e.2 = e'.2

instance {α : Type} (pick : Declaration → List (String × α)) (files : FileSet) :
    Decidable (Apart pick files) :=
  inferInstanceAs (Decidable (List.Pairwise _ files))

instance {ε : Type} (pick : Declaration → List ε) (files : FileSet) :
    Decidable (InOneFile pick files) :=
  inferInstanceAs (Decidable (List.Pairwise _ files))

instance (files : FileSet) : Decidable (Unconflicted files) :=
  decidable_of_iff
    (Apart Declaration.inputs files ∧ Apart Declaration.outputs files ∧
      Apart Declaration.calls files ∧ Apart Declaration.resources files ∧
      InOneFile Declaration.backends files ∧ InOneFile Declaration.clouds files ∧
      (∀ e ∈ said files, ∀ e' ∈ said files, e.1 = e'.1 →
        ∀ s ∈ e.2.source, ∀ s' ∈ e'.2.source, s.value = s'.value) ∧
      ∀ e ∈ (dialect.declared files).flatMap Declaration.configs,
        ∀ e' ∈ (dialect.declared files).flatMap Declaration.configs, e.1 = e'.1 → e.2 = e'.2)
    ⟨fun ⟨h₁, h₂, h₃, h₄, h₅, h₆, h₇, h₈⟩ => ⟨h₁, h₂, h₃, h₄, h₅, h₆, h₇, h₈⟩,
      fun ⟨h₁, h₂, h₃, h₄, h₅, h₆, h₇, h₈⟩ => ⟨h₁, h₂, h₃, h₄, h₅, h₆, h₇, h₈⟩⟩

section Files

variable {files files' : FileSet} (hperm : files.Perm files')
include hperm

theorem Apart.ofList_eq {α : Type} {pick : Declaration → List (String × α)}
    (h : Apart pick files) :
    SortedMap.ofList ((dialect.declared files).flatMap pick) =
      .ofList ((dialect.declared files').flatMap pick) := by
  rw [dialect.flatMap_declared_files, dialect.flatMap_declared_files]
  exact SortedMap.ofList_flatMap_eq_of_perm hperm (h.imp fun h name hf hg => h name hf hg)

theorem InOneFile.flatMap_eq {ε : Type} {pick : Declaration → List ε} (h : InOneFile pick files) :
    (dialect.declared files).flatMap pick = (dialect.declared files').flatMap pick := by
  rw [dialect.flatMap_declared_files, dialect.flatMap_declared_files]
  exact flatMap_eq_of_perm hperm h

theorem flatMap_declared_perm {ε : Type} (pick : Declaration → List ε) :
    ((dialect.declared files).flatMap pick).Perm ((dialect.declared files').flatMap pick) := by
  rw [dialect.flatMap_declared_files, dialect.flatMap_declared_files]
  exact hperm.flatMap_right _

end Files

/-! ### Drafts in another order -/

/-- Requirements that say the same, but for the place of the source and the order of the rest. -/
structure Requirement.Reordered (r s : Requirement) : Prop where
  source : r.source.map (·.value) = s.source.map (·.value)
  versions : r.versions.Perm s.versions
  aliases : r.aliases.Perm s.aliases

structure Draft.Reordered (d d' : Draft) : Prop where
  core : d.core.Perm d'.core
  backends : d.backends = d'.backends
  cloud : d.cloud = d'.cloud
  requirements : ∀ name, Option.Rel Requirement.Reordered (Entries.get? name d.requirements)
    (Entries.get? name d'.requirements)
  providerConfigs : d.providerConfigs = d'.providerConfigs
  resources : d.resources = d'.resources
  inputs : d.inputs = d'.inputs
  outputs : d.outputs = d'.outputs
  calls : d.calls = d'.calls

/-- Which source comes first does not matter if all that are given are the same. -/
theorem Requirement.mergeAll_reordered {rs ss : List Requirement} (hperm : rs.Perm ss)
    (h : ∀ r ∈ rs, ∀ r' ∈ rs, ∀ s ∈ r.source, ∀ s' ∈ r'.source, s.value = s'.value) :
    (mergeAll rs).Reordered (mergeAll ss) := by
  rw [mergeAll_eq, mergeAll_eq]
  refine ⟨?_, hperm.flatMap_right _, hperm.flatMap_right _⟩
  show (rs.findSome? (·.source)).map (·.value) = (ss.findSome? (·.source)).map (·.value)
  cases hr : rs.findSome? (·.source) with
  | none =>
    have hs : ss.findSome? (·.source) = none := by
      rw [List.findSome?_eq_none_iff] at hr ⊢
      exact fun r hmem => hr r (hperm.mem_iff.2 hmem)
    rw [hs]
  | some s =>
    obtain ⟨r, hmem, hsource⟩ := List.exists_of_findSome?_eq_some hr
    cases hs : ss.findSome? (·.source) with
    | none =>
      rw [List.findSome?_eq_none_iff.1 hs r (hperm.mem_iff.1 hmem)] at hsource
      cases hsource
    | some s' =>
      obtain ⟨r', hmem', hsource'⟩ := List.exists_of_findSome?_eq_some hs
      rw [Option.map_some, Option.map_some,
        h r hmem r' (hperm.mem_iff.2 hmem') s hsource s' hsource']

theorem collected_reordered {files files' : FileSet} (hperm : files.Perm files')
    (h : Unconflicted files) : (dialect.collected files).Reordered (dialect.collected files') where
  core := by
    rw [collected_eq, collected_eq]
    exact flatMap_declared_perm hperm Declaration.cores
  backends := by
    rw [collected_eq, collected_eq]
    exact congrArg (List.foldl Draft.keepBackend []) (h.backends.flatMap_eq hperm)
  cloud := by
    rw [collected_eq, collected_eq]
    exact congrArg (fun clouds => clouds.getLast?.or none) (h.clouds.flatMap_eq hperm)
  requirements name := by
    have hsaid : (said files).Perm (said files') := flatMap_declared_perm hperm _
    have hkeys : name ∈ Entries.keys (said files) ↔ name ∈ Entries.keys (said files') :=
      (hsaid.map _).mem_iff
    rw [get?_requirements, get?_requirements]
    by_cases hname : name ∈ Entries.keys (said files)
    · rw [if_pos hname, if_pos (hkeys.1 hname)]
      refine .some (Requirement.mergeAll_reordered (Entries.under_perm hsaid name) ?_)
      intro r hr r' hr'
      exact h.sources _ (Entries.mem_under.1 hr) _ (Entries.mem_under.1 hr') rfl
    · rw [if_neg hname, if_neg (mt hkeys.2 hname)]
      exact .none
  providerConfigs := by
    rw [collected_eq, collected_eq]
    exact SortedMap.ofList_eq_of_perm (flatMap_declared_perm hperm Declaration.configs)
      fun k a b ha hb => h.configs _ ha _ hb rfl
  resources := by
    rw [collected_eq, collected_eq]
    exact h.resources.ofList_eq hperm
  inputs := by
    rw [collected_eq, collected_eq]
    exact h.inputs.ofList_eq hperm
  outputs := by
    rw [collected_eq, collected_eq]
    exact h.outputs.ofList_eq hperm
  calls := by
    rw [collected_eq, collected_eq]
    exact h.calls.ofList_eq hperm

/-! ### What drafts in another order come to -/

theorem address_congr (name : String) {s t : Option (Placed String)}
    (h : s.map (·.value) = t.map (·.value)) :
    (RequiredProvider.address name s).value = (RequiredProvider.address name t).value ∧
      (RequiredProvider.address name s).diagnostics.messages =
        (RequiredProvider.address name t).diagnostics.messages := by
  cases s with
  | none =>
    cases t with
    | none => exact ⟨rfl, rfl⟩
    | some _ => cases h
  | some s =>
    cases t with
    | none => cases h
    | some t =>
      have hvalue : s.value = t.value := Option.some.inj h
      simp only [RequiredProvider.address, hvalue]
      cases Provider.ofSource t.value <;> exact ⟨rfl, rfl⟩

theorem value_versionConstraints (versions : List (Placed String)) :
    (versionConstraints versions).value =
      (versions.filter fun v => !(Text.trim v.value).isEmpty).flatMap
        fun v => (RequiredProvider.constraints v).value := by
  simp [versionConstraints, List.flatMap]

theorem diagnostics_versionConstraints (versions : List (Placed String)) :
    (versionConstraints versions).diagnostics =
      (versions.filter fun v => !(Text.trim v.value).isEmpty).flatMap
        fun v => (RequiredProvider.constraints v).diagnostics := by
  simp [versionConstraints]

namespace Requirement.Reordered

variable {r s : Requirement}

theorem constraints_perm (h : r.Reordered s) :
    (versionConstraints r.versions).value.Perm (versionConstraints s.versions).value := by
  rw [value_versionConstraints, value_versionConstraints]
  exact (h.versions.filter _).flatMap_right _

theorem complaints_perm (h : r.Reordered s) (name : String) :
    (complaints (name, r)).messages.Perm (complaints (name, s)).messages := by
  obtain ⟨hvalue, hmessages⟩ := address_congr name h.source
  simp only [complaints, Diagnostics.messages, List.map_append, hvalue] at hmessages ⊢
  rw [hmessages]
  refine .append_left _ ?_
  split
  · rw [diagnostics_versionConstraints, diagnostics_versionConstraints]
    exact ((h.versions.filter _).flatMap_right _).map _
  · exact .refl _

end Requirement.Reordered

namespace Draft.Reordered

variable {d d' : Draft}

theorem requiredAddress (h : d.Reordered d') (name : String) :
    d.requiredAddress name = d'.requiredAddress name := by
  have hname := h.requirements name
  rw [Draft.requiredAddress, Draft.requiredAddress]
  generalize Entries.get? name d.requirements = x, Entries.get? name d'.requirements = y at hname
  cases hname with
  | none => rfl
  | some hrs => exact (address_congr name hrs.source).1

theorem aliases (h : d.Reordered d') (name : String) :
    (d.requirement name).aliases.Perm (d'.requirement name).aliases := by
  have hname := h.requirements name
  rw [Draft.requirement, Draft.requirement]
  generalize Entries.get? name d.requirements = x, Entries.get? name d'.requirements = y at hname
  cases hname with
  | none => exact .refl _
  | some hrs => exact hrs.aliases

theorem references (h : d.Reordered d') (hd : d.Coherent) (hd' : d'.Coherent) :
    (Providers.resolve d).value.references = (Providers.resolve d').value.references := by
  refine SortedMap.ext fun ref => ?_
  rw [Providers.get?_references hd, Providers.get?_references hd', h.requiredAddress]
  refine if_congr .rfl ?_ (if_congr ?_ rfl rfl)
  · rw [impliedAddress, impliedAddress, usedNames, usedNames, h.resources]
  · rw [(h.aliases ref.localName).mem_iff, h.providerConfigs]

theorem constraintsOn (h : d.Reordered d') (hd : d.Coherent) (hd' : d'.Coherent) (p : Provider) :
    (Providers.constraintsOn d.requirements p).Perm
      (Providers.constraintsOn d'.requirements p) := by
  refine Entries.flatMap_perm_of_get? hd.names hd'.names h.requirements fun name r s hrs => ?_
  dsimp only
  rw [(address_congr name hrs.source).1]
  split
  · exact hrs.constraints_perm
  · exact .refl _

/-- The same providers are required, since the same are referred to. -/
theorem requirementsOn (h : d.Reordered d') (hd : d.Coherent) (hd' : d'.Coherent) (p : Provider) :
    Option.Rel List.Perm ((Providers.resolve d).value.requirements.get? p)
      ((Providers.resolve d').value.requirements.get? p) := by
  have hkeys : p ∈ (Providers.resolve d).value.requirements.keys ↔
      p ∈ (Providers.resolve d').value.requirements.keys := by
    rw [← (Providers.resolve_consistent hd).addresses, h.references hd hd',
      (Providers.resolve_consistent hd').addresses]
  have hvalues := h.constraintsOn hd hd' p
  rw [← Providers.getD_requirements, ← Providers.getD_requirements] at hvalues
  rw [SortedMap.mem_keys, SortedMap.mem_keys] at hkeys
  cases hp : (Providers.resolve d).value.requirements.get? p with
  | none =>
    cases hp' : (Providers.resolve d').value.requirements.get? p with
    | none => exact .none
    | some cs =>
      rw [hp, hp'] at hkeys
      obtain ⟨_, hcs⟩ := hkeys.2 ⟨cs, rfl⟩
      cases hcs
  | some cs =>
    obtain ⟨cs', hp'⟩ := hkeys.1 ⟨cs, hp⟩
    rw [hp, hp'] at hvalues
    rw [hp']
    exact .some hvalues

theorem messages_perm (h : d.Reordered d') (hd : d.Coherent) (hd' : d'.Coherent) (path : String)
    (filenames : List String) :
    (resolve path filenames d).diagnostics.messages.Perm
      (resolve path filenames d').diagnostics.messages := by
  simp only [diagnostics_resolve, Diagnostics.messages, List.map_append, List.map_flatMap,
    h.backends]
  refine .append (h.core.flatMap_right _) (.append_left _ ?_)
  exact Entries.flatMap_perm_of_get? hd.names hd'.names h.requirements
    fun name r s hrs => hrs.complaints_perm name

end Draft.Reordered

/-! ### Loading -/

/-- Modules that differ in the order of version constraints at most. -/
structure SameUpToOrder (m m' : ModuleConfig) : Prop where
  path : m.path = m'.path
  filenames : m.filenames = m'.filenames
  backend : m.backend = m'.backend
  cloud : m.cloud = m'.cloud
  references : m.providers.references = m'.providers.references
  requirements : ∀ p, Option.Rel List.Perm (m.providers.requirements.get? p)
    (m'.providers.requirements.get? p)
  coreRequirements : m.coreRequirements.Perm m'.coreRequirements
  inputs : m.inputs = m'.inputs
  outputs : m.outputs = m'.outputs
  calls : m.calls = m'.calls

theorem coreRequirements_load (path : String) (files : FileSet) :
    (load path files).value.coreRequirements =
      (dialect.collected files).core.flatMap fun v => (coreConstraints v).value := by
  rw [List.flatMap, ← Diagnosed.value_mapM]
  rfl

theorem accepts_eq_of_perm {cs ds : Constraints} (h : cs.Perm ds) (v : Version) :
    cs.accepts v = ds.accepts v :=
  h.all_eq

theorem getD_perm_of_rel {x y : Option Constraints} (h : Option.Rel List.Perm x y) :
    (x.getD []).Perm (y.getD []) := by
  cases h with
  | none => exact .refl _
  | some hperm => exact hperm

theorem sortedNames_eq_of_perm {files files' : FileSet} (hperm : files.Perm files') :
    files.sortedNames = files'.sortedNames :=
  Text.mergeSort_eq_of_perm (hperm.map _)

/-- Without conflicts there is one table of all sources. -/
theorem Unconflicted.sourced {files : FileSet} (h : Unconflicted files) :
    ∃ table, Sourced table (said files) := by
  refine ⟨fun name =>
    ((Entries.under name (said files)).findSome? (·.source)).elim "" (·.value), ?_⟩
  intro e he s hs
  have hunder : e.2 ∈ Entries.under e.1 (said files) := Entries.mem_under.2 he
  show s.value = ((Entries.under e.1 (said files)).findSome? (·.source)).elim "" (·.value)
  cases hfirst : (Entries.under e.1 (said files)).findSome? (·.source) with
  | none =>
    rw [List.findSome?_eq_none_iff.1 hfirst e.2 hunder] at hs
    cases hs
  | some s' =>
    obtain ⟨r, hr, hs'⟩ := List.exists_of_findSome?_eq_some hfirst
    exact h.sources e he (e.1, r) (Entries.mem_under.1 hr) rfl s hs s' hs'

/-- Taking up files without conflicts complains about the same things in every order: only one file
holds backends, and no two sources differ. -/
theorem diagnostics_takeUp_eq_of_perm {files files' : FileSet} (hperm : files.Perm files')
    (h : Unconflicted files) :
    ((dialect.declared files).foldlM dialect.absorb dialect.start).diagnostics =
      ((dialect.declared files').foldlM dialect.absorb dialect.start).diagnostics := by
  obtain ⟨table, hsaid⟩ := h.sourced
  have hsaid' : Sourced table (said files') := fun e he =>
    hsaid e ((flatMap_declared_perm hperm Declaration.requirements).mem_iff.2 he)
  have hnone : Sourced table (Draft.requirements {}) := fun _ he => nomatch he
  calc ((dialect.declared files).foldlM Draft.absorb {}).diagnostics
      = repeatedBackends [] ((dialect.declared files).flatMap Declaration.backends) :=
        Draft.diagnostics_foldlM_absorb hnone hsaid
    _ = repeatedBackends [] ((dialect.declared files').flatMap Declaration.backends) := by
        rw [h.backends.flatMap_eq hperm]
    _ = ((dialect.declared files').foldlM Draft.absorb {}).diagnostics :=
        (Draft.diagnostics_foldlM_absorb hnone hsaid').symm

theorem messages_load_perm_of_perm (path : String) {files files' : FileSet}
    (hperm : files.Perm files') (h : Unconflicted files) :
    (load path files).diagnostics.messages.Perm (load path files').diagnostics.messages := by
  have hcomplaints :
      (dialect.complaints files).messages.Perm (dialect.complaints files').messages :=
    (hperm.flatMap_right _).map _
  have hresolve := (collected_reordered hperm h).messages_perm (collected_coherent files)
    (collected_coherent files') path files.sortedNames
  refine (dialect.messages_load_perm path files).trans
    (.trans ?_ (dialect.messages_load_perm path files').symm)
  rw [diagnostics_takeUp_eq_of_perm hperm h, ← sortedNames_eq_of_perm hperm]
  exact (hcomplaints.append_right _).append hresolve

/-- **File order does not matter without conflicts.** If no two files declare the same variable,
output, call or resource, if backends and the cloud are in one file each, and if nothing that is
said about providers differs, then the files give the same module in every order, but for the order
of version constraints, which therefore accept the same versions. What is complained about is the
same as well. -/
theorem load_sameUpToOrder (path : String) {files files' : FileSet} (hperm : files.Perm files')
    (h : Unconflicted files) :
    SameUpToOrder (load path files).value (load path files').value ∧
    (∀ v, (load path files).value.coreRequirements.accepts v =
      (load path files').value.coreRequirements.accepts v) ∧
    (∀ p v, (((load path files).value.providers.requirements.get? p).getD []).accepts v =
      (((load path files').value.providers.requirements.get? p).getD []).accepts v) ∧
    (load path files).diagnostics.messages.Perm (load path files').diagnostics.messages := by
  have hdraft := collected_reordered hperm h
  have hd := collected_coherent files
  have hd' := collected_coherent files'
  have hsame : SameUpToOrder (load path files).value (load path files').value :=
    { path := rfl
      filenames := sortedNames_eq_of_perm hperm
      backend := congrArg (fun bs => (theBackend bs).value) hdraft.backends
      cloud := hdraft.cloud
      references := hdraft.references hd hd'
      requirements := hdraft.requirementsOn hd hd'
      coreRequirements := by
        rw [coreRequirements_load, coreRequirements_load]
        exact hdraft.core.flatMap_right _
      inputs := hdraft.inputs
      outputs := hdraft.outputs
      calls := hdraft.calls }
  exact ⟨hsame, accepts_eq_of_perm hsame.coreRequirements,
    fun p => accepts_eq_of_perm (getD_perm_of_rel (hsame.requirements p)),
    messages_load_perm_of_perm path hperm h⟩

/-- Two files that both constrain the program and the same provider. -/
def constrainedTwice : FileSet :=
  FileSet.ofTexts
    [("main.tf", "terraform \x7b\n  required_version = \"> 1\"\n\x7d\n" ++
        "provider \"aws\" \x7b\n  version = \"> 4\"\n\x7d\n"),
      ("versions.tf", "terraform \x7b\n  required_version = \"< 2\"\n" ++
        "  required_providers \x7b\n    aws = \"< 6\"\n  \x7d\n\x7d\n")]

theorem load_sameUpToOrder_constrained :
    let files := constrainedTwice
    Unconflicted files ∧
      (load "" files).value.coreRequirements.text = "> 1,< 2" ∧
      (load "" files.reverse).value.coreRequirements.text = "< 2,> 1" ∧
      SameUpToOrder (load "" files).value (load "" files.reverse).value ∧
      (load "" files).diagnostics.messages.Perm (load "" files.reverse).diagnostics.messages := by
  intro files
  have hfiles : Unconflicted files := by decide +kernel
  obtain ⟨hsame, -, -, hmessages⟩ :=
    load_sameUpToOrder "" (List.reverse_perm files).symm hfiles
  exact ⟨hfiles, by decide +kernel, by decide +kernel, hsame, hmessages⟩

end ModuleConfig

end EarlyConfig
