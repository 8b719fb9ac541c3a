import EarlyConfig.Dialect.Search
import EarlyConfig.Proofs.Module.DefaultReferences
import EarlyConfig.Proofs.Places.Dialects
import EarlyConfig.Proofs.SharedVariables
import EarlyConfig.Proofs.Text

/-! Searches name providers like modules do. A search goes through its provider blocks and then
through its lists; a module goes through requirements, aliases and resources. Where nothing but
provider blocks and resources says something about providers, both come to the references that can
be said without either of them (`ProviderRef.Known`). So a list has the same effect in a search as a
resource has in a module (`references_agree`). -/
namespace EarlyConfig

open Hcl (Block Body Item)

/-! ### Texts of references -/

namespace ProviderRef

/-- A local name without points is what stands before the first point of the text. -/
theorem cut_text {r : ProviderRef} (h : '.' ∉ r.localName.toList) :
    (Text.cut '.' r.text.toList).1 = r.localName.toList ∧
      (Text.cut '.' r.text.toList).2.getD [] = r.aliasName.toList := by
  rw [text]
  by_cases halias : r.aliasName = ""
  · simp [halias, Text.cut_of_not_mem h]
  · have hlist : (r.localName ++ "." ++ r.aliasName).toList =
        r.localName.toList ++ '.' :: r.aliasName.toList := Text.toList_join '.' _ _
    simp [halias, hlist, Text.cut_append h]

theorem text_inj {r s : ProviderRef} (hr : '.' ∉ r.localName.toList)
    (hs : '.' ∉ s.localName.toList) (h : r.text = s.text) : r = s := by
  obtain ⟨hname, halias⟩ := cut_text hr
  rw [h] at hname halias
  cases r
  cases s
  simp only [(cut_text hs).1, (cut_text hs).2, String.toList_inj] at hname halias
  rw [hname, halias]

/-! ### What blocks say about providers -/

/-- The reference to the configuration that a block holds. -/
def configuredBy (file : String) (b : Block) : List ProviderRef :=
  if b.kind = "provider" ∧ b.labels.length = 1 then
    [⟨b.label 0, (b.body.string file "alias").value⟩]
  else []

/-- References that stand for the provider of their local name, given the configurations and the
names in use: each configuration and the default one of its name, and the default ones of names that
are used. -/
def Known (configs : List ProviderRef) (uses : List (String × String)) (ref : ProviderRef) : Prop :=
  (ref ∈ configs ∨ ref.aliasName = "" ∧ ref.localName ∈ configs.map localName) ∨
    ref.aliasName = "" ∧ ref.localName ≠ "" ∧ Entries.Counts uses ref.localName

theorem alias_select (file : String) (body : Body) :
    (Schema.providerConfig.select file body).value.string file "alias" =
      body.string file "alias" := by
  have hlists : Schema.providerConfig.listsAttribute "alias" := by decide
  simp only [Body.string, Body.string?, Schema.attribute?_select hlists]

end ProviderRef

namespace FileSet

/-- The configurations that the blocks of the files hold. -/
def configured (files : FileSet) : List ProviderRef :=
  files.flatMap fun (file, body) => body.blocks.flatMap (ProviderRef.configuredBy file)

theorem mem_configured {files : FileSet} {ref : ProviderRef} (h : ref ∈ files.configured) :
    ∃ f ∈ files, ∃ b ∈ f.2.blocks, b.kind = "provider" ∧ ref.localName ∈ b.labels := by
  obtain ⟨f, hf, h⟩ := List.mem_flatMap.1 h
  obtain ⟨b, hb, h⟩ := List.mem_flatMap.1 h
  rw [ProviderRef.configuredBy] at h
  split at h
  · rename_i hblock
    obtain ⟨label, hlabel⟩ := List.length_eq_one_iff.1 hblock.2
    rw [List.mem_singleton.1 h]
    exact ⟨f, hf, b, hb, hblock.1, by simp [Block.label, hlabel]⟩
  · cases h

/-- The local names that the blocks with a key use. -/
def uses (key : Block → Option String) (files : FileSet) : List (String × String) :=
  (files.keyed key).map fun e => (e.1, e.2.providerName)

theorem counts_uses {key : Block → Option String} {files : FileSet} {name : String} :
    Entries.Counts (files.uses key) name ↔
      ∃ k b, files.block? key k = some b ∧ b.providerName = name := by
  rw [uses, Entries.counts_mapValues]
  constructor
  · intro hcounts
    obtain ⟨b, ⟨k, hb⟩, hname⟩ := hcounts
    exact ⟨k, b, hb, hname⟩
  · intro hcounts
    obtain ⟨k, b, hb, hname⟩ := hcounts
    exact ⟨b, ⟨k, hb⟩, hname⟩

/-- Without settings, what a block says about providers is that they are configured. -/
theorem mentionedBy_of_kind_ne {file : String} {b : Block} (h : b.kind ≠ "terraform") :
    mentionedBy file b = (ProviderRef.configuredBy file b).map fun ref =>
      (ref.localName, { versions := (b.body.placed? file "version").value.toList }) := by
  rw [mentionedBy, if_neg fun hblock => h hblock.1, ProviderRef.configuredBy]
  split <;> rfl

section

variable {files : FileSet} (hkinds : ∀ f ∈ files, ∀ b ∈ f.2.blocks, b.kind ≠ "terraform")
include hkinds

theorem keys_mentions : Entries.keys files.mentions = files.configured.map (·.localName) := by
  rw [Entries.keys, mentions, configured, List.map_flatMap, List.map_flatMap]
  refine List.flatMap_congr fun f hf => ?_
  rw [List.map_flatMap, List.map_flatMap]
  refine List.flatMap_congr fun b hb => ?_
  rw [mentionedBy_of_kind_ne (hkinds f hf b hb), List.map_map]
  rfl

theorem mem_mentions {e : String × ModuleConfig.Requirement} (he : e ∈ files.mentions) :
    e.2.source = none ∧ e.2.aliases = [] := by
  obtain ⟨f, hf, he⟩ := List.mem_flatMap.1 he
  obtain ⟨b, hb, he⟩ := List.mem_flatMap.1 he
  rw [mentionedBy_of_kind_ne (hkinds f hf b hb)] at he
  obtain ⟨ref, -, rfl⟩ := List.mem_map.1 he
  exact ⟨rfl, rfl⟩

theorem source?_eq_none (name : String) : files.source? name = none := by
  rw [source?, List.findSome?_eq_none_iff]
  exact fun r hr => (mem_mentions hkinds (Entries.mem_under.1 hr)).1

theorem aliases_eq_nil (name : String) : files.aliases name = [] := by
  rw [aliases, List.flatMap_eq_nil_iff]
  exact fun r hr => (mem_mentions hkinds (Entries.mem_under.1 hr)).2

end

end FileSet

/-! ### Searches -/

namespace SearchConfig

theorem get?_addConfig (m : SortedMap ProviderRef Provider) (c ref : ProviderRef) :
    (addConfig m c).get? ref =
      if ref = c ∨ ref = .ofName c.localName then some (.legacy ref.localName)
      else m.get? ref := by
  rw [addConfig]
  by_cases halias : c.aliasName = ""
  · have hc : c = .ofName c.localName := by rw [ProviderRef.ofName, ← halias]
    by_cases href : ref = .ofName c.localName
    · simp [halias, href, ProviderRef.ofName]
    · have hne : ref ≠ c := fun h => href (h.trans hc)
      simp [halias, href, hne, Ne.symm href]
  · by_cases href : ref = c
    · simp [halias, href]
    · by_cases hdefault : ref = .ofName c.localName
      · simp [halias, hdefault, ProviderRef.ofName]
      · simp [halias, href, hdefault, Ne.symm href, Ne.symm hdefault]

theorem get?_addConfigs (cs : List ProviderRef) (m : SortedMap ProviderRef Provider)
    (ref : ProviderRef) :
    (cs.foldl addConfig m).get? ref =
      if ref ∈ cs ∨ ref.aliasName = "" ∧ ref.localName ∈ cs.map (·.localName) then
        some (.legacy ref.localName)
      else m.get? ref := by
  induction cs generalizing m with
  | nil => simp
  | cons c rest ih =>
    have hdefault : ref = .ofName c.localName ↔
        ref.aliasName = "" ∧ ref.localName = c.localName := by
      cases ref
      simp [ProviderRef.ofName, and_comm]
    rw [List.foldl_cons, ih, get?_addConfig, ← ite_or]
    refine if_congr ?_ rfl rfl
    simp only [hdefault, List.mem_cons, List.map_cons]
    tauto

theorem get?_addImplied (m : SortedMap ProviderRef Provider) (name : String) (ref : ProviderRef) :
    (addImplied m name).get? ref =
      (m.get? ref).or
        (if ref = .ofName name ∧ name ≠ "" then some (.legacy name) else none) := by
  rw [addImplied]
  by_cases hname : name = ""
  · simp [hname]
  · rw [SortedMap.insertNew, SortedMap.contains]
    cases hp : m.get? (.ofName name) with
    | none =>
      by_cases href : ref = .ofName name
      · simp [hname, hp, href]
      · simp [hname, href, Ne.symm href]
    | some p =>
      by_cases href : ref = .ofName name
      · simp [hname, hp, href]
      · simp [hname, href]

theorem references_eq_some {d : Draft} {uses : List (String × String)}
    (huses : ∀ name, name ∈ d.lists.values.map (·.provider.localName) ↔ Entries.Counts uses name)
    {ref : ProviderRef} {p : Provider} :
    (references d).get? ref = some p ↔
      ref.Known d.providerConfigs uses ∧ p = .legacy ref.localName := by
  have himplied : (references d).get? ref = _ :=
    ref.implied_foldl (fun m => m.get? ref) addImplied
      (fun m name => get?_addImplied m name ref) (d.lists.values.map (·.provider.localName))
      (d.providerConfigs.foldl addConfig .empty)
  rw [himplied, get?_addConfigs, ProviderRef.Known, ← huses, SortedMap.get?_empty]
  by_cases hconfigs : ref ∈ d.providerConfigs ∨
      ref.aliasName = "" ∧ ref.localName ∈ d.providerConfigs.map (·.localName)
  · rw [if_pos hconfigs, Option.some_or, Option.some.injEq, and_iff_right (.inl hconfigs), eq_comm]
  · rw [if_neg hconfigs, Option.none_or, or_iff_right hconfigs, Option.ite_none_right_eq_some,
      Option.some.injEq, @eq_comm _ p]

namespace Declaration

def configs : Declaration → List ProviderRef
  | .providerConfig ref => [ref]
  | _ => []

/-- By type and name. -/
def queries : Declaration → List (String × Query)
  | .list q => [(".".intercalate [q.type, q.name], q)]
  | _ => []

def uses : Declaration → List (String × String)
  | .list q => [(".".intercalate [q.type, q.name], q.provider.localName)]
  | _ => []

end Declaration

theorem found_configs : dialect.found Declaration.configs = ProviderRef.configuredBy := by
  funext file b
  have hroot : dialect.root.block? "provider" = some ⟨"provider", ["name"]⟩ := rfl
  refine dialect.found_eq hroot (fun hkind => ?_) fun hkind => ?_
  · simp [dialect, hkind, Declaration.ofBlock, Declaration.ofProvider, ProviderRef.alias_select,
      Declaration.configs]
  · refine Declaration.picked_eq_nil fun a hhome => ?_
    cases a with
    | providerConfig ref => exact absurd hhome hkind
    | _ => rfl

theorem found_uses (file : String) (b : Block) :
    dialect.found Declaration.uses file b =
      ((b.addressed "list" []).map fun k => (k, b.providerName)).toList := by
  have hlists : Schema.list.listsAttribute "provider" := by decide
  refine dialect.found_addressed rfl (fun hkind => ?_) fun hkind => ?_
  · simp [dialect, hkind, Declaration.ofBlock, Declaration.ofList, Declaration.uses,
      ProviderRef.argument_select hlists, Block.value_argument, Block.localName_provider]
  · refine Declaration.picked_eq_nil fun a hhome => ?_
    cases a with
    | list q => exact absurd hhome hkind
    | _ => rfl

theorem collected_configs (files : FileSet) :
    (dialect.collected files).providerConfigs = files.configured := by
  rw [dialect.collected_part Draft.providerConfigs Declaration.configs (fun cs c => cs ++ [c])
    (fun d a => by cases a <;> rfl), dialect.flatMap_declared, found_configs]
  rw [List.foldl_append_eq_append, ← List.flatMap_def, List.flatMap_singleton']
  rfl

theorem Query.key_eq (q : Query) : q.key = "list." ++ ".".intercalate [q.type, q.name] := by
  simp [key, String.intercalate_cons_cons]

theorem collected_lists (files : FileSet) :
    (dialect.collected files).lists = .ofList
      (((dialect.declared files).flatMap Declaration.queries).map fun e =>
        ("list." ++ e.1, e.2)) := by
  rw [SortedMap.ofList, List.foldl_map]
  refine dialect.collected_part Draft.lists Declaration.queries
    (fun m e => m.insert ("list." ++ e.1) e.2) (fun d a => ?_) files
  cases a with
  | list q => simp [dialect, Draft.absorb, Declaration.queries, Query.key_eq]
  | _ => rfl

theorem mem_listNames {files : FileSet} {name : String} :
    name ∈ (dialect.collected files).lists.values.map (·.provider.localName) ↔
      Entries.Counts (files.uses (Block.addressed "list" [])) name := by
  have huses : ((dialect.declared files).flatMap Declaration.queries).map
      (fun e => (e.1, e.2.provider.localName)) = files.uses (Block.addressed "list" []) := by
    rw [FileSet.uses, ← dialect.flatMap_declared_keyed found_uses, List.map_flatMap]
    congr 1
    funext a
    cases a <;> rfl
  have hkeys : ∀ k k', "list." ++ k = "list." ++ k' → k = k' := fun k k' h => by
    simpa using h
  rw [collected_lists, List.mem_map]
  simp only [SortedMap.mem_values_ofList, Entries.counts_mapKeys hkeys]
  rw [← Entries.counts_mapValues, huses]

theorem load_references_eq_some (path : String) (files : FileSet) {ref : ProviderRef}
    {p : Provider} :
    (load path files).value.providerReferences.get? ref = some p ↔
      ref.Known files.configured (files.uses (Block.addressed "list" [])) ∧
        p = .legacy ref.localName := by
  rw [← collected_configs]
  exact references_eq_some fun name => mem_listNames

end SearchConfig

/-! ### Modules -/

namespace ModuleConfig

def Declaration.refs : Declaration → List ProviderRef
  | .providerConfig c => [c.ref]
  | _ => []

theorem found_refs : dialect.found Declaration.refs = ProviderRef.configuredBy := by
  funext file b
  have hroot : dialect.root.block? "provider" = some ⟨"provider", ["name"]⟩ := rfl
  refine dialect.found_eq hroot (fun hkind => ?_) fun hkind => ?_
  · simp [dialect, hkind, Declaration.ofBlock, Declaration.ofProvider, ProviderRef.alias_select,
      Declaration.refs]
  · refine Declaration.picked_eq_nil fun a hhome => ?_
    cases a with
    | providerConfig c => exact absurd (List.mem_singleton.1 hhome) hkind
    | _ => rfl

variable {files : FileSet}

theorem flatMap_refs : (dialect.declared files).flatMap Declaration.refs = files.configured := by
  rw [dialect.flatMap_declared, found_refs]
  rfl

/-- Of configurations whose references have one text the last is kept. -/
theorem mem_configs {ref : ProviderRef} :
    ref ∈ (dialect.collected files).providerConfigs.values ↔
      Entries.Counts (files.configured.map fun ref => (ref.text, ref)) ref := by
  have hconfigs : (dialect.declared files).flatMap Declaration.configs =
      files.configured.map fun ref => (ref.text, ref) := by
    rw [← flatMap_refs, List.map_flatMap]
    congr 1
    funext a
    cases a <;> rfl
  rw [collected_eq]
  show ref ∈ (SortedMap.ofList ((dialect.declared files).flatMap Declaration.configs)).values ↔ _
  rw [hconfigs, SortedMap.mem_values_ofList]

theorem mem_configs_of_not_mem (hpoint : ∀ ref ∈ files.configured, '.' ∉ ref.localName.toList)
    {ref : ProviderRef} :
    ref ∈ (dialect.collected files).providerConfigs.values ↔ ref ∈ files.configured := by
  rw [mem_configs]
  exact Entries.counts_of_inj fun r hr s hs h => ProviderRef.text_inj (hpoint r hr) (hpoint s hs) h

section

variable (hkinds : ∀ f ∈ files, ∀ b ∈ f.2.blocks, b.kind ≠ "terraform")
include hkinds

theorem requiredAddress_eq (hnames : ∀ ref ∈ files.configured, ref.localName ≠ "")
    (name : String) :
    (dialect.collected files).requiredAddress name =
      if name ∈ files.configured.map (·.localName) then some (.legacy name) else none := by
  simp only [requiredAddress_collected, FileSet.mem_localNames, FileSet.keys_mentions hkinds]
  refine ite_congr rfl (fun hmem => ?_) fun _ => rfl
  obtain ⟨c, hc, hname⟩ := List.mem_map.1 hmem
  rw [FileSet.address?, FileSet.source?_eq_none hkinds]
  exact if_neg (hname ▸ hnames c hc)

theorem load_references_eq_some (path : String)
    (hnames : ∀ ref ∈ files.configured, ref.localName ≠ "" ∧ '.' ∉ ref.localName.toList)
    {ref : ProviderRef} {p : Provider} :
    (load path files).value.providers.references.get? ref = some p ↔
      ref.Known files.configured (files.uses Block.resourceKey?) ∧ p = .legacy ref.localName := by
  have hget : (load path files).value.providers.references.get? ref = _ :=
    Providers.get?_references (collected_coherent files) ref
  have hmem : ref ∈ files.configured → ref.localName ∈ files.configured.map (·.localName) :=
    List.mem_map_of_mem
  rw [hget, requiredAddress_eq hkinds fun c hc => (hnames c hc).1, Draft.impliedAddress,
    aliases_collected, FileSet.aliases_eq_nil hkinds, ProviderRef.Known, FileSet.counts_uses,
    ← mem_usedNames]
  simp only [mem_configs_of_not_mem fun c hc => (hnames c hc).2, List.not_mem_nil, false_or]
  by_cases halias : ref.aliasName = ""
  · by_cases hname : ref.localName ∈ files.configured.map (·.localName)
    · simp only [halias, hname, if_true, Option.some_or, Option.some.injEq, true_and, true_or,
        or_true]
      exact eq_comm
    · simp only [halias, hname, mt hmem hname, if_true, if_false, Option.none_or, false_or,
        and_false, true_and, Option.ite_none_right_eq_some, Option.some.injEq, @eq_comm _ p]
  · by_cases hconfig : ref ∈ files.configured
    · simp only [halias, hconfig, hmem hconfig, if_true, if_false, Option.some.injEq, true_or,
        true_and]
      exact eq_comm
    · simp [halias, hconfig]

end

end ModuleConfig

/-! ### Lists as resources -/

namespace Hcl

/-- A list becomes a resource with the same labels and body, and all else stays. -/
def Header.listAsResource (h : Header) : Header :=
  if h.kind.value = "list" then { h with kind := ⟨"resource", h.kind.span⟩ } else h

def Item.listAsResource : Item → Item
  | .attr a => .attr a
  | .block header body => .block header.listAsResource body

def Block.listAsResource (b : Block) : Block :=
  ⟨b.header.listAsResource, b.body⟩

theorem Body.blocks_listAsResource (body : Body) :
    Body.blocks (body.map Item.listAsResource) = body.blocks.map Block.listAsResource := by
  rw [Body.blocks, Body.blocks, List.filterMap_map, List.map_filterMap]
  refine List.filterMap_congr fun item _ => ?_
  cases item <;> rfl

theorem Block.kind_listAsResource (b : Block) :
    b.listAsResource.kind = if b.kind = "list" then "resource" else b.kind := by
  rw [kind, listAsResource, Header.listAsResource, kind]
  split <;> rfl

theorem Block.labels_listAsResource (b : Block) : b.listAsResource.labels = b.labels := by
  rw [labels, listAsResource, Header.listAsResource]
  split <;> rfl

theorem Block.providerName_listAsResource (b : Block) :
    b.listAsResource.providerName = b.providerName := by
  rw [providerName, providerName, label, label, labels_listAsResource]
  rfl

end Hcl

namespace FileSet

/-- The files with every list of their roots made a resource. -/
def listsAsResources (files : FileSet) : FileSet :=
  files.map fun (file, body) => (file, body.map Item.listAsResource)

theorem mem_blocks_listsAsResources {files : FileSet} {f : String × Body}
    (hf : f ∈ files.listsAsResources) {b : Block} (hb : b ∈ f.2.blocks) :
    ∃ g ∈ files, ∃ c ∈ g.2.blocks, b = c.listAsResource := by
  obtain ⟨⟨file, body⟩, hg, rfl⟩ := List.mem_map.1 hf
  rw [Body.blocks_listAsResource] at hb
  obtain ⟨c, hc, rfl⟩ := List.mem_map.1 hb
  exact ⟨_, hg, c, hc, rfl⟩

theorem configured_listsAsResources (files : FileSet) :
    files.listsAsResources.configured = files.configured := by
  have hblock : ∀ file (b : Block),
      ProviderRef.configuredBy file b.listAsResource = ProviderRef.configuredBy file b := by
    intro file b
    simp only [ProviderRef.configuredBy, Block.kind_listAsResource, Block.label,
      Block.labels_listAsResource]
    by_cases hkind : b.kind = "list" <;> simp [hkind, Block.listAsResource]
  simp only [configured, listsAsResources, List.flatMap_map, Body.blocks_listAsResource, hblock]

theorem keyed_listsAsResources {key key' : Block → Option String} {files : FileSet}
    (h : ∀ f ∈ files, ∀ b ∈ f.2.blocks, key b.listAsResource = key' b) :
    files.listsAsResources.keyed key =
      (files.keyed key').map fun e => (e.1, e.2.listAsResource) := by
  simp only [keyed, listsAsResources, List.flatMap_map, Body.blocks_listAsResource,
    List.filterMap_map, List.map_flatMap, List.map_filterMap]
  refine List.flatMap_congr fun f hf => List.filterMap_congr fun b hb => ?_
  rw [Function.comp_apply, h f hf b hb, Option.map_map]
  rfl

theorem uses_listsAsResources {files : FileSet}
    (h : ∀ f ∈ files, ∀ b ∈ f.2.blocks, b.kind ∉ ["resource", "data", "ephemeral"]) :
    files.listsAsResources.uses Block.resourceKey? = files.uses (Block.addressed "list" []) := by
  have hkey : ∀ f ∈ files, ∀ b ∈ f.2.blocks,
      b.listAsResource.resourceKey? = b.addressed "list" [] := by
    intro f hf b hb
    have hkind := h f hf b hb
    simp only [Block.resourceKey?, Block.addressed, Block.kind_listAsResource, Block.label,
      Block.labels_listAsResource]
    by_cases hlist : b.kind = "list" <;> simp_all
  rw [uses, keyed_listsAsResources hkey, List.map_map]
  refine List.map_congr_left fun e _ => ?_
  exact congrArg (e.1, ·) e.2.providerName_listAsResource

/-- **Searches resolve providers like modules do.** Let the files hold neither settings nor
resources of a module, and let no label of a provider block be empty or have a point in it. Turn
every list into a resource, wherever this moves the rest of the text to. Then the search and the
module have the same references, and these stand for the same providers. -/
theorem references_agree (searchPath modulePath : String) {files renamed : FileSet}
    (hkinds : ∀ f ∈ files, ∀ b ∈ f.2.blocks,
      b.kind ∉ ["terraform", "resource", "data", "ephemeral"])
    (hlabels : ∀ f ∈ files, ∀ b ∈ f.2.blocks, b.kind = "provider" →
      ∀ label ∈ b.labels, label ≠ "" ∧ '.' ∉ label.toList)
    (hrenamed : renamed.merged = files.listsAsResources.merged) :
    (SearchConfig.load searchPath files).value.providerReferences =
      (ModuleConfig.load modulePath renamed).value.providers.references := by
  have hsame : (ModuleConfig.load modulePath renamed).value.providers =
      (ModuleConfig.load modulePath files.listsAsResources).value.providers := by
    have hvalue := (ModuleConfig.placeless.load_alike modulePath hrenamed).value
    have hproviders := congrArg ModuleConfig.providers hvalue
    exact hproviders
  have hothers : ∀ f ∈ files.listsAsResources, ∀ b ∈ f.2.blocks, b.kind ≠ "terraform" := by
    intro f hf b hb
    obtain ⟨g, hg, c, hc, rfl⟩ := mem_blocks_listsAsResources hf hb
    rw [Block.kind_listAsResource]
    split
    · decide
    · exact fun hkind => hkinds g hg c hc (by simp [hkind])
  have hnames : ∀ ref ∈ files.listsAsResources.configured,
      ref.localName ≠ "" ∧ '.' ∉ ref.localName.toList := by
    rw [configured_listsAsResources]
    intro ref href
    obtain ⟨f, hf, b, hb, hkind, hlabel⟩ := mem_configured href
    exact hlabels f hf b hb hkind _ hlabel
  rw [hsame]
  refine SortedMap.ext fun ref => Option.ext fun p => ?_
  rw [SearchConfig.load_references_eq_some, ModuleConfig.load_references_eq_some hothers _ hnames,
    configured_listsAsResources, uses_listsAsResources fun f hf b hb hkind =>
      hkinds f hf b hb (List.mem_cons_of_mem _ hkind)]

/-- A configuration with an alias, and blocks of a type at some place. Of two of these that have one
key, the first names a provider that makes no sense and the second a provider by another name. -/
def configuredAndUsed (kind : String) (place : Hcl.Span) : Body :=
  [.block ⟨⟨"provider", ⟨0, 8⟩⟩, [⟨"aws", ⟨9, 14⟩⟩]⟩
      [.attr ⟨⟨"alias", ⟨19, 24⟩⟩, ⟨.text "west", ⟨27, 33⟩⟩⟩],
    .block ⟨⟨kind, place⟩, [⟨"google_vm", place⟩, ⟨"all", place⟩]⟩
      [.attr ⟨⟨"provider", place⟩, ⟨.list [], place⟩⟩],
    .block ⟨⟨kind, place⟩, [⟨"google_vm", place⟩, ⟨"all", place⟩]⟩
      [.attr ⟨⟨"provider", place⟩, ⟨.variable "other", place⟩⟩],
    .block ⟨⟨kind, place⟩, [⟨"null_thing", place⟩, ⟨"all", place⟩]⟩ []]

theorem references_agree_used :
    let files : FileSet := [("main.tfquery.hcl", configuredAndUsed "list" ⟨36, 40⟩)]
    let renamed : FileSet := [("main.tf", configuredAndUsed "resource" ⟨36, 44⟩)]
    (∀ f ∈ files, ∀ b ∈ f.2.blocks, b.kind ∉ ["terraform", "resource", "data", "ephemeral"]) ∧
      (∀ f ∈ files, ∀ b ∈ f.2.blocks, b.kind = "provider" →
        ∀ label ∈ b.labels, label ≠ "" ∧ '.' ∉ label.toList) ∧
      renamed.merged = files.listsAsResources.merged ∧
      (SearchConfig.load "" files).value.providerReferences =
        (ModuleConfig.load "" renamed).value.providers.references ∧
      (SearchConfig.load "" files).value.providerReferences.keys =
        [⟨"aws", ""⟩, ⟨"aws", "west"⟩, ⟨"null", ""⟩, ⟨"other", ""⟩] := by
  intro files renamed
  have hkinds : ∀ f ∈ files, ∀ b ∈ f.2.blocks,
      b.kind ∉ ["terraform", "resource", "data", "ephemeral"] := by decide +kernel
  have hlabels : ∀ f ∈ files, ∀ b ∈ f.2.blocks, b.kind = "provider" →
      ∀ label ∈ b.labels, label ≠ "" ∧ '.' ∉ label.toList := by decide +kernel
  have hrenamed : renamed.merged = files.listsAsResources.merged := rfl
  exact ⟨hkinds, hlabels, hrenamed, references_agree "" "" hkinds hlabels hrenamed,
    by decide +kernel⟩

end FileSet

end EarlyConfig
