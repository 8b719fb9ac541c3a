import EarlyConfig.Proofs.SearchReferences

/-! What blocks that configure providers come to. A module keeps configurations by the texts of
their references. Two references with different local names can have one text, and then only the
last of their configurations counts, so that the alias of the other is lost unless it is expected as
well (`alias_reference_iff`). A search keeps every configuration, one without a local name too,
which a module does not refer to (`nameless_reference_iff`). -/
namespace EarlyConfig

open Hcl (Block)

namespace FileSet

/-- The configuration that counts under a text: the last whose reference has that text. -/
def configuration? (files : FileSet) (text : String) : Option ProviderRef :=
  (files.configured.filter fun ref => ref.text = text).getLast?

theorem localName_mem_localNames {files : FileSet} {ref : ProviderRef}
    (h : ref ∈ files.configured) : ref.localName ∈ files.localNames := by
  obtain ⟨⟨file, body⟩, hf, h⟩ := List.mem_flatMap.1 h
  obtain ⟨b, hb, h⟩ := List.mem_flatMap.1 h
  rw [ProviderRef.configuredBy] at h
  split at h
  · rename_i hblock
    have hsettings : ¬(b.kind = "terraform" ∧ b.labels.length = 0) := by simp [hblock.1]
    have hmention : (b.label 0, { versions := (b.body.placed? file "version").value.toList }) ∈
        mentionedBy file b := by
      rw [mentionedBy, if_neg hsettings, if_pos hblock]
      exact List.mem_singleton_self _
    have hmentions : (b.label 0, { versions := (b.body.placed? file "version").value.toList }) ∈
        files.mentions :=
      List.mem_flatMap.2 ⟨_, hf, List.mem_flatMap.2 ⟨b, hb, hmention⟩⟩
    rw [List.mem_singleton.1 h, mem_localNames]
    exact List.mem_map_of_mem hmentions
  · cases h

/-- A configuration without a local name is one that a block with an empty label holds. -/
theorem exists_nameless_iff {files : FileSet} :
    (∃ ref ∈ files.configured, ref.localName = "") ↔
      ∃ f ∈ files, ∃ b ∈ f.2.blocks, b.kind = "provider" ∧ b.labels = [""] := by
  constructor
  · intro hnameless
    obtain ⟨ref, href, hname⟩ := hnameless
    obtain ⟨f, hf, href⟩ := List.mem_flatMap.1 href
    obtain ⟨b, hb, href⟩ := List.mem_flatMap.1 href
    rw [ProviderRef.configuredBy] at href
    split at href
    · rename_i hblock
      obtain ⟨label, hlabel⟩ := List.length_eq_one_iff.1 hblock.2
      rw [List.mem_singleton.1 href] at hname
      have hempty : label = "" := by simpa [Block.label, hlabel] using hname
      exact ⟨f, hf, b, hb, hblock.1, hempty ▸ hlabel⟩
    · cases href
  · intro hblock
    obtain ⟨f, hf, b, hb, hkind, hlabels⟩ := hblock
    refine ⟨⟨b.label 0, (b.body.string f.1 "alias").value⟩, ?_, by simp [Block.label, hlabels]⟩
    refine List.mem_flatMap.2 ⟨f, hf, List.mem_flatMap.2 ⟨b, hb, ?_⟩⟩
    rw [ProviderRef.configuredBy, if_pos ⟨hkind, by simp [hlabels]⟩]
    exact List.mem_singleton_self _

end FileSet

/-! ### Aliases in a module -/

namespace ModuleConfig

theorem mem_configs_iff {files : FileSet} {ref : ProviderRef} :
    ref ∈ (dialect.collected files).providerConfigs.values ↔
      files.configuration? ref.text = some ref :=
  mem_configs.trans Entries.counts_self

/-- **An alias that is configured is found unless another configuration goes by its text.** Let a
block configure a provider under an alias, and let the local name have an address by what the files
say about it. The default reference stands for the address. The aliased one stands for it just if
the last configuration with the text of the reference is of that very reference, or the alias is
expected by an entry; otherwise it is not there. It is there in particular if no other reference of
a configuration has that text. -/
theorem alias_reference_iff (path : String) {files : FileSet} {ref : ProviderRef}
    (hconfigured : ref ∈ files.configured) (halias : ref.aliasName ≠ "") {p : Provider}
    (haddress : files.address? ref.localName = some p) :
    let references := (load path files).value.providers.references
    references.get? (.ofName ref.localName) = some p ∧
      (references.get? ref =
        if files.configuration? ref.text = some ref ∨ ref ∈ files.aliases ref.localName then some p
        else none) ∧
      ((∀ other ∈ files.configured, other.text = ref.text → other = ref) →
        references.get? ref = some p) := by
  intro references
  have hname := FileSet.localName_mem_localNames hconfigured
  have hget : references.get? ref =
      if files.configuration? ref.text = some ref ∨ ref ∈ files.aliases ref.localName then some p
      else none := by
    refine (Providers.get?_references (collected_coherent files) ref).trans ?_
    rw [if_neg halias, aliases_collected, requiredAddress_collected, if_pos hname, haddress]
    exact if_congr (or_comm.trans (or_congr_left mem_configs_iff)) rfl rfl
  refine ⟨get?_ofName_of_mem hname path haddress, hget, fun hother => ?_⟩
  rw [hget, if_pos (.inl (Entries.getLast?_filter_of_inj hconfigured hother))]

/-- Two configurations whose references have one text. -/
def dottedTexts : List (String × String) :=
  [("main.tf", "provider \"aws.east\" \x7b\n  alias = \"one\"\n\x7d\n" ++
    "provider \"aws\" \x7b\n  alias = \"east.one\"\n\x7d\n")]

theorem alias_reference_iff_last :
    let files := FileSet.ofTexts dottedTexts
    ⟨"aws", "east.one"⟩ ∈ files.configured ∧ files.address? "aws" = some (.legacy "aws") ∧
      (load "" files).value.providers.references.get? ⟨"aws", "east.one"⟩ =
        some (.legacy "aws") := by
  intro files
  have hconfigured : ⟨"aws", "east.one"⟩ ∈ files.configured := by decide +kernel
  have haddress : files.address? "aws" = some (.legacy "aws") := by decide +kernel
  have hlast : files.configuration? "aws.east.one" = some ⟨"aws", "east.one"⟩ := by decide +kernel
  have h := alias_reference_iff "" hconfigured (by decide) haddress
  exact ⟨hconfigured, haddress, h.2.1.trans (if_pos (.inl hlast))⟩

/-- The first of the two configurations is lost. -/
theorem alias_reference_lost :
    let files := FileSet.ofTexts dottedTexts
    files.Parsed ∧ ⟨"aws.east", "one"⟩ ∈ files.configured ∧
      files.address? "aws.east" = some (.legacy "aws.east") ∧
      (load "" files).value.providers.references.get? ⟨"aws.east", "one"⟩ = none := by
  intro files
  exact ⟨FileSet.parsed_ofTexts (by decide +kernel), by decide +kernel, by decide +kernel,
    by decide +kernel⟩

/-! ### Names -/

theorem get?_references_nameless {files : FileSet} (h : files.Parsed) (path : String)
    {ref : ProviderRef} (hname : ref.localName = "") :
    (load path files).value.providers.references.get? ref = none := by
  have hrequired : (dialect.collected files).requiredAddress "" = none := by
    rw [requiredAddress_collected, FileSet.address?, FileSet.source?_empty h]
    split <;> rfl
  have himplied : (dialect.collected files).impliedAddress "" = none :=
    if_neg fun hused => hused.1 rfl
  refine (Providers.get?_references (collected_coherent files) ref).trans ?_
  rw [hname, hrequired, himplied]
  split
  · rfl
  · split <;> rfl

end ModuleConfig

namespace FileSet

/-- **A module refers to no provider without a name, and a search does just if a block says so.**
Whatever the labels of blocks are, every reference of a module has a local name. A search has a
reference without one just if a block that configures a provider has the empty label. -/
theorem nameless_reference_iff (modulePath searchPath : String) {files : FileSet}
    (h : files.Parsed) :
    (∀ ref ∈ (ModuleConfig.load modulePath files).value.providers.references.keys,
      ref.localName ≠ "") ∧
    ((∃ ref ∈ (SearchConfig.load searchPath files).value.providerReferences.keys,
        ref.localName = "") ↔
      ∃ f ∈ files, ∃ b ∈ f.2.blocks, b.kind = "provider" ∧ b.labels = [""]) := by
  refine ⟨fun ref href hname => ?_, ?_⟩
  · obtain ⟨p, hp⟩ := SortedMap.mem_keys.1 href
    rw [ModuleConfig.get?_references_nameless h modulePath hname] at hp
    cases hp
  · rw [← exists_nameless_iff]
    constructor
    · intro hnameless
      obtain ⟨ref, href, hname⟩ := hnameless
      obtain ⟨p, hp⟩ := SortedMap.mem_keys.1 href
      rcases (SearchConfig.load_references_eq_some searchPath files).1 hp with ⟨hknown, -⟩
      rcases hknown with (hconfig | ⟨-, hconfig⟩) | ⟨-, hne, -⟩
      · exact ⟨ref, hconfig, hname⟩
      · obtain ⟨c, hc, hcname⟩ := List.mem_map.1 hconfig
        exact ⟨c, hc, hcname.trans hname⟩
      · exact absurd hname hne
    · intro hnameless
      obtain ⟨c, hc, hname⟩ := hnameless
      have hknown : c.Known files.configured (files.uses (Block.addressed "list" [])) :=
        .inl (.inl hc)
      have hget := (SearchConfig.load_references_eq_some searchPath files).2 ⟨hknown, rfl⟩
      exact ⟨c, SortedMap.mem_keys.2 ⟨_, hget⟩, hname⟩

/-- A configuration, a resource and a list, none of which gives the name of a provider. -/
def namelessTexts : List (String × String) :=
  [("main.tf", "provider \"\" \x7b\n  version = \"1.0\"\n\x7d\n" ++
    "resource \"_thing\" \"x\" \x7b\x7d\nlist \"_thing\" \"x\" \x7b\x7d\n")]

theorem nameless_reference_iff_blocks :
    let files := ofTexts namelessTexts
    files.Parsed ∧
      (∀ ref ∈ (ModuleConfig.load "" files).value.providers.references.keys,
        ref.localName ≠ "") ∧
      ∃ ref ∈ (SearchConfig.load "" files).value.providerReferences.keys, ref.localName = "" := by
  intro files
  have hparsed : files.Parsed := parsed_ofTexts (by decide +kernel)
  have hblock : ∃ f ∈ files, ∃ b ∈ f.2.blocks, b.kind = "provider" ∧ b.labels = [""] := by
    decide +kernel
  have h := nameless_reference_iff "" "" hparsed
  exact ⟨hparsed, h.1, h.2.2 hblock⟩

/-- A search refers to the provider of the empty name. -/
theorem nameless_reference_of_search :
    let files := ofTexts [("main.tfquery.hcl", "provider \"\" \x7b\x7d\n")]
    files.Parsed ∧
      (SearchConfig.load "" files).value.providerReferences.get? (.ofName "") =
        some (.legacy "") := by
  intro files
  exact ⟨parsed_ofTexts (by decide +kernel), by decide +kernel⟩

end FileSet

end EarlyConfig
