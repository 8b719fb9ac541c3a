import EarlyConfig.Proofs.KeyedBlocks
import EarlyConfig.Proofs.Module.LocalNames
import EarlyConfig.Proofs.Reading

/-! The default references of a module. For each local name, whether there is one and what it stands
for depends on all blocks of the files that have to do with the name: on the first source that an
entry gives for it, wherever that is, and on the blocks of resources that use it, of which only the
last under each key counts. The main statement (`default_reference_iff`) puts this together for
files that were read from texts. -/
namespace EarlyConfig

open Hcl (Block Body)

/-! ### Names of entries -/

namespace RequiredProvider

theorem name_addSetting (file : String) (p : RequiredProvider) (key value : Hcl.Located Hcl.Expr) :
    (p.addSetting file key value).value.name = p.name := by
  unfold addSetting
  dsimp only
  split
  · split <;> rfl
  · split <;> rfl
  · rfl
  · rfl

theorem name_of_decodeEntry {file : String} {a : Hcl.Attribute} {p : RequiredProvider}
    (h : (decodeEntry file a).value = some p) : p.name = a.name := by
  unfold decodeEntry at h
  dsimp only at h
  split at h
  · rename_i items _
    simp only [Diagnosed.value_bind, Diagnosed.value_pure, Diagnosed.value_foldlM,
      Option.some.injEq] at h
    subst h
    exact List.foldlRecOn items _ (motive := fun p : RequiredProvider => p.name = a.name) rfl
      fun p hp item _ => (name_addSetting file p item.1 item.2).trans hp
  · split at h <;> cases h
    rfl

theorem name_ne_empty_of_decode {file : String} {b : Hcl.Block} (hb : b.body.Named)
    {p : RequiredProvider} (hp : p ∈ (decode file b).value) : p.name ≠ "" := by
  simp only [decode, Diagnosed.value_bind, Diagnosed.value_pure, Diagnosed.value_mapM,
    List.mem_filterMap, List.mem_map, id_eq] at hp
  obtain ⟨_, ⟨a, ha, rfl⟩, hvalue⟩ := hp
  rw [name_of_decodeEntry hvalue]
  exact hb.attribute ha

end RequiredProvider

/-- Nothing gives a source for the empty name: the entries of a block have names, and no other block
gives a source. -/
theorem FileSet.source?_empty {files : FileSet} (h : files.Parsed) : files.source? "" = none := by
  rw [source?, List.findSome?_eq_none_iff]
  intro r hr
  obtain ⟨⟨file, body⟩, hf, hr⟩ := List.mem_flatMap.1 (Entries.mem_under.1 hr)
  obtain ⟨b, hb, hr⟩ := List.mem_flatMap.1 hr
  rw [mentionedBy] at hr
  split at hr
  · obtain ⟨inner, hinner, hr⟩ := List.mem_flatMap.1 hr
    rw [requiredBy] at hr
    split at hr
    · obtain ⟨p, hp, heq⟩ := List.mem_map.1 hr
      have hnamed := ((h.named hf).block hb).block hinner
      have hname := RequiredProvider.name_ne_empty_of_decode hnamed hp
      exact absurd (congrArg Prod.fst heq) hname
    · cases hr
  · split at hr
    · have heq : r = _ := congrArg Prod.snd (List.mem_singleton.1 hr)
      rw [heq]
    · cases hr

/-! ### Resources -/

theorem ProviderRef.argument_select {s : Schema} (hs : s.listsAttribute "provider") (file : String)
    (body : Body) : argument file (s.select file body).value = argument file body := by
  rw [argument, argument, Schema.attribute?_select hs]

namespace Hcl.Block

/-- What a resource goes by: its type and name, and its kind before those unless it is managed. -/
def resourceKey? (b : Block) : Option String :=
  (b.addressed "resource" []).or
    ((b.addressed "data" ["data"]).or (b.addressed "ephemeral" ["ephemeral"]))

/-- The provider that is named for a block, unless that makes no sense. -/
def provider? (b : Block) : Option ProviderRef :=
  (b.body.attribute? "provider").bind fun a => (ProviderRef.ofArgument a.value.value).toOption

/-- The local name that a block uses: that of the provider named for it, else the one its first
label implies. -/
def providerName (b : Block) : String :=
  (b.provider?.map (·.localName)).getD (ProviderRef.impliedName (b.label 0))

theorem value_argument (file : String) (b : Block) :
    (ProviderRef.argument file b.body).value = b.provider? := by
  rw [ProviderRef.argument, provider?]
  cases b.body.attribute? "provider" with
  | none => rfl
  | some a =>
    rw [Option.bind_some]
    cases h : ProviderRef.ofArgument a.value.value <;> simp [h, Except.toOption]

theorem localName_provider (b : Block) :
    (b.provider?.getD (.ofName (ProviderRef.impliedName (b.label 0)))).localName =
      b.providerName := by
  rw [providerName]
  cases b.provider? <;> rfl

end Hcl.Block

namespace ModuleConfig

/-- A resource as its block gives it. -/
def Resource.ofBlock (b : Block) : Resource :=
  ⟨b.label 0, b.provider?⟩

theorem Resource.providerName_ofBlock (b : Block) : (ofBlock b).providerName = b.providerName := by
  rw [providerName, ofBlock, Block.providerName]
  cases b.provider? <;> rfl

theorem Declaration.value_ofResource (file : String) (b : Block) :
    (ofResource file b).value = some (.resource (resourceKey b) (.ofBlock b)) := by
  have hlists : Schema.resource.listsAttribute "provider" := by decide
  simp [ofResource, ProviderRef.argument_select hlists, Block.value_argument, Resource.ofBlock]

theorem found_resources (file : String) (b : Block) :
    dialect.found Declaration.resources file b =
      (b.resourceKey?.map fun k => (k, Resource.ofBlock b)).toList := by
  by_cases hmanaged : b.kind = "resource"
  · have hkey : b.resourceKey? = b.addressed "resource" [] := by
      simp [Block.resourceKey?, Block.addressed, hmanaged]
    rw [hkey]
    refine dialect.found_addressed rfl (fun hkind => ?_) fun hkind => absurd hmanaged hkind
    simp [dialect, Declaration.ofBlock, hkind, Declaration.value_ofResource, Declaration.resources,
      Declaration.resourceKey]
  by_cases hdata : b.kind = "data"
  · have hkey : b.resourceKey? = b.addressed "data" ["data"] := by
      simp [Block.resourceKey?, Block.addressed, hdata]
    rw [hkey]
    refine dialect.found_addressed rfl (fun hkind => ?_) fun hkind => absurd hdata hkind
    simp [dialect, Declaration.ofBlock, hkind, Declaration.value_ofResource, Declaration.resources,
      Declaration.resourceKey]
  have hkey : b.resourceKey? = b.addressed "ephemeral" ["ephemeral"] := by
    simp [Block.resourceKey?, Block.addressed, hmanaged, hdata]
  rw [hkey]
  refine dialect.found_addressed rfl (fun hkind => ?_) fun hkind => ?_
  · simp [dialect, Declaration.ofBlock, hkind, Declaration.value_ofResource, Declaration.resources,
      Declaration.resourceKey]
  · refine Declaration.picked_eq_nil fun a hhome => ?_
    cases a with
    | resource key r => simp [Declaration.homes, hmanaged, hdata, hkind] at hhome
    | _ => rfl

theorem get?_resources (files : FileSet) (key : String) :
    (dialect.collected files).resources.get? key =
      (files.block? Block.resourceKey? key).map Resource.ofBlock := by
  refine dialect.get?_keyed found_resources Draft.resources rfl (fun d a => ?_) files key
  show (Draft.absorb d a).value.resources = _
  simp only [Draft.value_absorb, Draft.plus, List.flatMap_singleton]

theorem mem_usedNames {files : FileSet} {name : String} :
    name ∈ (dialect.collected files).usedNames ↔
      ∃ key b, files.block? Block.resourceKey? key = some b ∧ b.providerName = name := by
  simp only [Draft.usedNames, List.mem_map, SortedMap.mem_values, get?_resources,
    Option.map_eq_some_iff]
  constructor
  · intro hused
    obtain ⟨_, ⟨key, b, hb, rfl⟩, hname⟩ := hused
    exact ⟨key, b, hb, (Resource.providerName_ofBlock b).symm.trans hname⟩
  · intro hused
    obtain ⟨key, b, hb, hname⟩ := hused
    exact ⟨_, ⟨key, b, hb, rfl⟩, (Resource.providerName_ofBlock b).trans hname⟩

/-! ### References -/

/-- **Every resource resolves, and nothing else is invented.** A local name has a default reference
just if it is not empty and either a block says something about it, with a source that makes sense
or with none, or a block of a resource that counts uses it. The reference stands for what the source
says, and without a source that makes sense for the provider that is known by that name only. -/
theorem default_reference_iff (path : String) {files : FileSet} (h : files.Parsed) (name : String) :
    ((∃ p, (load path files).value.providers.references.get? (.ofName name) = some p) ↔
      name ≠ "" ∧
        ((name ∈ files.localNames ∧
            ∀ s, files.source? name = some s → ∃ q, Provider.ofSource s.value = .ok q) ∨
          ∃ key b, files.block? Block.resourceKey? key = some b ∧ b.providerName = name)) ∧
    ∀ p, (load path files).value.providers.references.get? (.ofName name) = some p →
      p = ((files.source? name).bind fun s => (Provider.ofSource s.value).toOption).getD
        (.legacy name) := by
  have hget : (load path files).value.providers.references.get? (.ofName name) =
      ((dialect.collected files).requiredAddress name).or
        ((dialect.collected files).impliedAddress name) :=
    (Providers.get?_references (collected_coherent files) (.ofName name)).trans (if_pos rfl)
  rw [hget, requiredAddress_collected, FileSet.address?, Draft.impliedAddress, ← mem_usedNames]
  by_cases hname : name = ""
  · subst hname
    simp [FileSet.source?_empty h]
  by_cases hlocal : name ∈ files.localNames
  · cases hsource : files.source? name with
    | none => simp [hname, hlocal]
    | some s =>
      -- A source that makes no sense leaves the name to the resources.
      cases hs : Provider.ofSource s.value with
      | ok q => simp [hname, hlocal, hs, Except.toOption]
      | error e =>
        by_cases hused : name ∈ (dialect.collected files).usedNames <;>
          simp [hname, hlocal, hs, hused, Except.toOption]
  · have hsource : files.source? name = none := by
      rw [FileSet.source?, FileSet.under_mentions_eq_nil hlocal]
      rfl
    by_cases hused : name ∈ (dialect.collected files).usedNames <;>
      simp [hname, hlocal, hsource, hused]

/-- A name with a source that makes no sense, and a resource that comes to use the name only because
the second of its blocks counts. -/
def brokenTexts : List (String × String) :=
  [("versions.tf", "terraform \x7b\n  required_providers \x7b\n" ++
      "    broken = \x7b source = \"a/b/c/d\" \x7d\n  \x7d\n\x7d\n" ++
      "resource \"broken_thing\" \"x\" \x7b\n  provider = other\n\x7d\n"),
    ("main.tf", "resource \"broken_thing\" \"x\" \x7b\x7d\n")]

theorem default_reference_iff_broken :
    let files := FileSet.ofTexts brokenTexts
    files.Parsed ∧ (files.source? "broken").map (·.value) = some "a/b/c/d" ∧
      (files.block? Block.resourceKey? "broken_thing.x").map Block.providerName = some "broken" ∧
      (load "" files).value.providers.references.get? (.ofName "broken") =
        some (.legacy "broken") := by
  intro files
  have hparsed : files.Parsed := FileSet.parsed_ofTexts (by decide +kernel)
  have hsource : (files.source? "broken").map (·.value) = some "a/b/c/d" := by decide +kernel
  have hresource : (files.block? Block.resourceKey? "broken_thing.x").map Block.providerName =
      some "broken" := by decide +kernel
  obtain ⟨s, hs, hvalue⟩ := Option.map_eq_some_iff.1 hsource
  obtain ⟨b, hb, hused⟩ := Option.map_eq_some_iff.1 hresource
  have h := default_reference_iff "" hparsed "broken"
  obtain ⟨p, hp⟩ := h.1.2 ⟨by decide, .inr ⟨_, b, hb, hused⟩⟩
  have haddress : p = .legacy "broken" := by
    rw [h.2 p hp, hs, Option.bind_some, hvalue]
    decide +kernel
  exact ⟨hparsed, hsource, hresource, haddress ▸ hp⟩

end ModuleConfig

end EarlyConfig
