import EarlyConfig.Hcl.Read.Body
import EarlyConfig.Proofs.Module.Requirements

/-! How the references of a module to its providers hang together. Providers are resolved in three
rounds: requirements by name, then the aliases of configurations, then the names that resources
imply. Each round keeps the references and the requirements in step (`Providers.Consistent`), and so
the addresses that are referred to are those that are required, and an alias stands for what its
local name stands for (`references_consistent`). -/
namespace EarlyConfig.ModuleConfig

namespace Providers

/-- The addresses referred to are those required, and every reference stands for what the default
reference of its local name stands for. -/
structure Consistent (ps : Providers) : Prop where
  addresses : ∀ p, p ∈ ps.references.values ↔ p ∈ ps.requirements.keys
  defaults : ∀ ref p, ps.references.get? ref = some p →
    ps.references.get? (.ofName ref.localName) = some p

theorem Consistent.empty : Consistent {} where
  addresses p := by simp [SortedMap.values, SortedMap.keys, SortedMap.empty]
  defaults ref p h := by simp at h

/-- A name without a default reference has no reference at all. -/
theorem Consistent.get?_eq_none {ps : Providers} (h : ps.Consistent) {name : String}
    (hfresh : ps.references.get? (.ofName name) = none) {ref : ProviderRef}
    (href : ref.localName = name) : ps.references.get? ref = none := by
  cases hp : ps.references.get? ref with
  | none => rfl
  | some p =>
    have := h.defaults ref p hp
    rw [href, hfresh] at this
    cases this

/-! ### One name with its aliases -/

theorem get?_references_add (ps : Providers) (name : String) (aliases : List ProviderRef)
    (p : Provider) (cs : Constraints) (ref : ProviderRef) :
    (ps.add name aliases p cs).references.get? ref =
      if ref ∈ .ofName name :: aliases then some p else ps.references.get? ref :=
  SortedMap.get?_foldl_insert ps.references (.ofName name :: aliases) p ref

theorem mem_requirements_add {ps : Providers} {name : String} {aliases : List ProviderRef}
    {p q : Provider} {cs : Constraints} :
    q ∈ (ps.add name aliases p cs).requirements.keys ↔ q = p ∨ q ∈ ps.requirements.keys := by
  simp only [SortedMap.mem_keys, add, SortedMap.get?_insert, Std.LawfulEqCmp.compare_eq_iff_eq]
  by_cases hq : p = q
  · simp [hq]
  · simp [hq, Ne.symm hq]

theorem localName_of_mem {name : String} {aliases : List ProviderRef}
    (halias : ∀ ref ∈ aliases, ref.localName = name) {ref : ProviderRef}
    (h : ref ∈ .ofName name :: aliases) : ref.localName = name := by
  rcases List.mem_cons.1 h with rfl | h
  · rfl
  · exact halias ref h

/-- A name that is new comes in with its aliases. Nothing that stood for an address is lost, since
no reference has the name yet. -/
theorem Consistent.add {ps : Providers} (h : ps.Consistent) {name : String}
    {aliases : List ProviderRef} (p : Provider) (cs : Constraints)
    (hfresh : ps.references.get? (.ofName name) = none)
    (halias : ∀ ref ∈ aliases, ref.localName = name) : (ps.add name aliases p cs).Consistent where
  addresses q := by
    rw [mem_requirements_add, ← h.addresses, SortedMap.mem_values, SortedMap.mem_values]
    simp only [get?_references_add]
    constructor
    · rintro ⟨ref, hq⟩
      split at hq
      · exact .inl (Option.some.inj hq).symm
      · exact .inr ⟨ref, hq⟩
    · rintro (rfl | ⟨ref, hq⟩)
      · exact ⟨.ofName name, by simp⟩
      · refine ⟨ref, ?_⟩
        rw [if_neg, hq]
        intro hmem
        rw [h.get?_eq_none hfresh (localName_of_mem halias hmem)] at hq
        cases hq
  defaults ref q hq := by
    rw [get?_references_add] at hq ⊢
    split at hq
    · rename_i hmem
      rw [localName_of_mem halias hmem, if_pos (List.mem_cons_self ..), hq]
    · rename_i hmem
      have hdefault := h.defaults ref q hq
      rw [if_neg, hdefault]
      intro hmem'
      have hname : (ProviderRef.ofName ref.localName).localName = name :=
        localName_of_mem halias hmem'
      rw [h.get?_eq_none hfresh hname] at hdefault
      cases hdefault

/-! ### The three rounds -/

theorem addRequirement_cases (ps : Providers) (name : String) (r : Requirement) :
    (ps.addRequirement name r).value = ps ∨
      ∃ p cs, (ps.addRequirement name r).value = ps.add name r.aliases p cs := by
  rw [addRequirement, Diagnosed.value_bind]
  cases (RequiredProvider.address name r.source).value with
  | none => exact .inl rfl
  | some p => exact .inr ⟨p, _, rfl⟩

/-- Requirements of different names do not touch each other's references. -/
theorem get?_addRequirement_of_ne (ps : Providers) {name other : String} {r : Requirement}
    (halias : ∀ ref ∈ r.aliases, ref.localName = name) (hne : other ≠ name) :
    (ps.addRequirement name r).value.references.get? (.ofName other) =
      ps.references.get? (.ofName other) := by
  rcases ps.addRequirement_cases name r with h | ⟨p, cs, h⟩
  · rw [h]
  · rw [h, get?_references_add, if_neg]
    exact fun hmem => hne (localName_of_mem halias hmem)

/-- The induction is over the requirements still to come, whose names have no references yet. -/
theorem Consistent.addRequirements {rs : List (String × Requirement)}
    (hnames : (Entries.keys rs).Nodup)
    (halias : ∀ n r, (n, r) ∈ rs → ∀ ref ∈ r.aliases, ref.localName = n) {ps : Providers}
    (h : ps.Consistent) (hfresh : ∀ n ∈ Entries.keys rs, ps.references.get? (.ofName n) = none) :
    (rs.foldl (fun ps e => (ps.addRequirement e.1 e.2).value) ps).Consistent := by
  induction rs generalizing ps with
  | nil => exact h
  | cons e rest ih =>
    obtain ⟨name, r⟩ := e
    have hown := halias name r (List.mem_cons_self ..)
    obtain ⟨hnew, hnames⟩ := List.nodup_cons.1 hnames
    refine ih hnames (fun n r hmem => halias n r (List.mem_cons_of_mem _ hmem)) ?_ ?_
    · show (ps.addRequirement name r).value.Consistent
      rcases ps.addRequirement_cases name r with hstep | ⟨p, cs, hstep⟩
      · rw [hstep]
        exact h
      · rw [hstep]
        exact h.add p cs (hfresh name (List.mem_cons_self ..)) hown
    · intro n hn
      have hne : n ≠ name := fun heq => hnew (heq ▸ hn)
      rw [get?_addRequirement_of_ne ps hown hne]
      exact hfresh n (List.mem_cons_of_mem _ hn)

/-- A reference to what its own default reference stands for. If it was there before, it stood for
the same. -/
theorem Consistent.insertAlias {ps : Providers} (h : ps.Consistent) {ref : ProviderRef}
    {p : Provider} (hp : ps.references.get? (.ofName ref.localName) = some p) :
    Consistent { ps with references := ps.references.insert ref p } where
  addresses q := by
    rw [← h.addresses, SortedMap.mem_values, SortedMap.mem_values]
    simp only [SortedMap.get?_insert, Std.LawfulEqCmp.compare_eq_iff_eq]
    constructor
    · rintro ⟨other, hq⟩
      split at hq
      · exact ⟨_, hp.trans hq⟩
      · exact ⟨other, hq⟩
    · rintro ⟨other, hq⟩
      refine ⟨other, ?_⟩
      split
      · rename_i heq
        subst heq
        rw [← hp, h.defaults ref q hq]
      · exact hq
  defaults other q hq := by
    simp only [SortedMap.get?_insert, Std.LawfulEqCmp.compare_eq_iff_eq] at hq ⊢
    split at hq
    · rename_i heq
      subst heq
      rw [hp, hq, ite_self]
    · have hdefault := h.defaults other q hq
      split
      · rename_i heq
        rw [← hp, heq]
        exact hdefault
      · exact hdefault

theorem Consistent.addAlias {ps : Providers} (h : ps.Consistent) (ref : ProviderRef) :
    (ps.addAlias ref).Consistent := by
  unfold Providers.addAlias
  split
  · exact h
  · split
    · rename_i hp
      exact h.insertAlias hp
    · exact h

theorem Consistent.addImplied {ps : Providers} (h : ps.Consistent) (name : String) :
    (ps.addImplied name).Consistent := by
  unfold Providers.addImplied
  split
  · exact h
  · rename_i hname
    refine h.add _ _ ?_ (by simp)
    rw [Bool.or_eq_true, not_or, SortedMap.contains] at hname
    simpa using hname.2

theorem resolve_consistent {d : Draft} (h : d.Coherent) : (resolve d).value.Consistent := by
  simp only [resolve, Diagnosed.value_bind, Diagnosed.value_pure, Diagnosed.value_foldlM]
  have hrequired := Consistent.addRequirements h.names h.aliases .empty (by simp)
  have hconfigured := List.foldlRecOn d.providerConfigs.values addAlias hrequired
    fun ps hps ref _ => hps.addAlias ref
  exact List.foldlRecOn _ addImplied hconfigured fun ps hps name _ => hps.addImplied name

end Providers

/-- **References and requirements agree.** Whatever files a module has, the addresses its provider
references stand for are exactly those it has requirements for, and an aliased reference has a
default reference beside it that stands for the same address. -/
theorem references_consistent (path : String) (files : FileSet) :
    (∀ p, p ∈ (load path files).value.providers.references.values ↔
      p ∈ (load path files).value.providers.requirements.keys) ∧
    ∀ name aliasName p, aliasName ≠ "" →
      (load path files).value.providers.references.get? ⟨name, aliasName⟩ = some p →
      (load path files).value.providers.references.get? (.ofName name) = some p := by
  have h : (load path files).value.providers.Consistent :=
    Providers.resolve_consistent (collected_coherent files)
  exact ⟨h.addresses, fun name aliasName p _ hp => h.defaults ⟨name, aliasName⟩ p hp⟩

/-- A module that expects a provider from the registry under an alias, next to one that nothing but
a resource names. -/
def aliasedModule : FileSet :=
  [("versions.tf", (Hcl.Body.ofText? ("terraform \x7b\n  required_providers \x7b\n" ++
    "    cloud = \x7b source = \"hashicorp/aws\", configuration_aliases = [cloud.east] \x7d\n" ++
    "  \x7d\n\x7d\nresource \"random_id\" \"x\" \x7b\x7d\n")).getD [])]

theorem references_consistent_aliased :
    (load "" aliasedModule).value.providers.references.get? ⟨"cloud", "east"⟩ =
        some (.ofType "aws") ∧
      (load "" aliasedModule).value.providers.references.get? (.ofName "cloud") =
        some (.ofType "aws") := by
  have heast : (load "" aliasedModule).value.providers.references.get? ⟨"cloud", "east"⟩ =
      some (.ofType "aws") := by decide +kernel
  exact ⟨heast, (references_consistent "" aliasedModule).2 "cloud" "east" _ (by decide) heast⟩

end EarlyConfig.ModuleConfig
