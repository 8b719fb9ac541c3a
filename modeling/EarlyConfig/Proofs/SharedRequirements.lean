import EarlyConfig.Proofs.Constraints
import EarlyConfig.Proofs.Module.Complaints
import EarlyConfig.Proofs.Module.Resolution
import EarlyConfig.Proofs.Places.Dialects
import EarlyConfig.Proofs.Stack.Resolution

/-! Requirements of providers in stacks and in modules. The entries of the blocks are read alike,
but a stack keeps one version for each name where a module keeps a list of versions for each
address, and they differ in when they take a version to be missing. Where each name and each address
is required once, both come to the same addresses and constraints, and they complain alike unless a
version consists of blanks (`FileSet.requirements_agree`). -/
namespace EarlyConfig

open Hcl (Block Body Item)

/-! ### Entries on their own -/

namespace RequiredProvider

/-- The address that an entry has if nothing else is said about its name. -/
def address? (p : RequiredProvider) : Option Provider :=
  (address p.name p.requirement.source).value

/-- The constraints of an entry. -/
def constraintsOf (p : RequiredProvider) : Constraints :=
  (ModuleConfig.versionConstraints p.versions).value

/-- What a stack keeps of an entry. -/
def stackRequirement (p : RequiredProvider) : StackConfig.Requirement :=
  ⟨p.requirement.source, p.versions.find? fun v => !v.value.isEmpty⟩

/-- Each name is there once, with one version at most, and no two have the same address. -/
structure Simple (entries : List RequiredProvider) : Prop where
  names : (entries.map (·.name)).Nodup
  versions : ∀ p ∈ entries, p.versions.length ≤ 1
  addresses : ∀ p ∈ entries, ∀ q ∈ entries, p.address?.isSome → p.address? = q.address? →
    p.name = q.name

/-- No version that is looked at is blank without being empty. -/
def WithoutBlanks (entries : List RequiredProvider) : Prop :=
  ∀ p ∈ entries, p.address?.isSome → ∀ v ∈ p.versions, (Text.trim v.value).isEmpty → v.value = ""

/-- What a stack alone complains about: versions that are blank without being empty. -/
def blanks (versions : List (Placed String)) : Diagnostics :=
  (versions.filter fun v => !v.value.isEmpty && (Text.trim v.value).isEmpty).map fun v =>
    invalidConstraint v (.malformedConstraint "")

def blankComplaints (p : RequiredProvider) : Diagnostics :=
  if p.address?.isSome then blanks p.versions else []

theorem blankComplaints_eq_nil {p : RequiredProvider} :
    p.blankComplaints = [] ↔ (p.address?.isSome → ∀ v ∈ p.versions, (Text.trim v.value).isEmpty →
      v.value = "") := by
  rw [blankComplaints]
  split
  · rename_i h
    simp only [h, blanks, List.map_eq_nil_iff, List.filter_eq_nil_iff, forall_const]
    refine forall₂_congr fun v _ => ?_
    by_cases hv : v.value = "" <;> simp [hv]
  · rename_i h
    simp [h]

/-- Blanks alone are no version. -/
theorem constraints_of_blank {v : Placed String} (h : (Text.trim v.value).isEmpty) :
    constraints v = ⟨[], [invalidConstraint v (.malformedConstraint "")]⟩ := by
  have hpieces : Text.pieces ',' v.value = [v.value] :=
    Text.pieces_of_not_mem fun hmem => absurd (Text.trim_isEmpty.1 h _ hmem) (by decide)
  have hread : Constraint.read v.value = .error (.malformedConstraint "") := by
    rw [← Constraint.read_trim, String.isEmpty_iff.1 h]
    decide
  rw [constraints, Constraints.read, hpieces, List.mapM_cons, hread]
  rfl

namespace Simple

variable {entries : List RequiredProvider} (h : Simple entries)
include h

theorem find?_eq_some {name : String} {p : RequiredProvider} :
    entries.find? (fun p => p.name = name) = some p ↔ p ∈ entries ∧ p.name = name :=
  find?_eq_some_of_nodup h.names

/-- All that bears on an address is said by one entry. -/
theorem flatMap_constraints {p : RequiredProvider} (hp : p ∈ entries) {a : Provider}
    (ha : p.address? = some a) :
    (entries.flatMap fun q => if q.address? = some a then q.constraintsOf else []) =
      p.constraintsOf := by
  obtain ⟨before, after, rfl⟩ := List.append_of_mem hp
  have hother : ∀ qs : List RequiredProvider, (∀ q ∈ qs, q ∈ before ++ p :: after) → p ∉ qs →
      (qs.flatMap fun q => if q.address? = some a then q.constraintsOf else []) = [] := by
    intro qs hqs hnot
    refine List.flatMap_eq_nil_iff.2 fun q hq => if_neg fun hqa => hnot ?_
    have hname := h.addresses q (hqs q hq) p hp (by simp [hqa]) (hqa.trans ha.symm)
    exact List.inj_on_of_nodup_map h.names (hqs q hq) hp hname ▸ hq
  have hnodup := List.nodup_middle.1 (List.Nodup.of_map _ h.names)
  obtain ⟨hnew, -⟩ := List.nodup_cons.1 hnodup
  rw [List.mem_append, not_or] at hnew
  rw [List.flatMap_append, List.flatMap_cons, hother before (by simp +contextual) hnew.1,
    hother after (by simp +contextual) hnew.2, if_pos ha]
  simp

end Simple

end RequiredProvider

/-! ### Taking up -/

/-- Entries of new names are put behind those that are known, if each of them alone is. -/
theorem Diagnosed.foldlM_entries {σ ρ : Type} (draft : List (String × ρ) → σ)
    {entry : RequiredProvider → ρ} {step : σ → RequiredProvider → Diagnosed σ}
    {entries : List RequiredProvider}
    (hstep : ∀ rs, ∀ p ∈ entries, p.name ∉ Entries.keys rs →
      step (draft rs) p = pure (draft (rs ++ [(p.name, entry p)])))
    (rs : List (String × ρ)) (hnames : (Entries.keys rs ++ entries.map (·.name)).Nodup) :
    entries.foldlM step (draft rs) =
      pure (draft (rs ++ entries.map fun p => (p.name, entry p))) := by
  induction entries generalizing rs with
  | nil => simp
  | cons p rest ih =>
    have hnew : p.name ∉ Entries.keys rs := fun hmem =>
      (List.nodup_append.1 hnames).2.2 _ hmem _ (by simp) rfl
    have hkeys : (Entries.keys (rs ++ [(p.name, entry p)]) ++ rest.map (·.name)).Nodup := by
      simpa [Entries.keys] using hnames
    rw [List.foldlM_cons, hstep rs p (by simp) hnew]
    show rest.foldlM step (draft (rs ++ [(p.name, entry p)])) = _
    rw [ih (fun rs q hq => hstep rs q (List.mem_cons_of_mem _ hq)) _ hkeys]
    simp

/-- Blocks of entries are taken up entry by entry. -/
theorem Diagnosed.foldlM_blocks {α β σ δ : Type} {absorb : σ → δ → Diagnosed σ}
    {add : σ → β → Diagnosed σ} {wrap : List β → δ}
    (h : ∀ s es, absorb s (wrap es) = es.foldlM add s) (s : σ) (xs : List α) (f : α → List β) :
    (xs.map fun x => wrap (f x)).foldlM absorb s = (xs.flatMap f).foldlM add s := by
  induction xs generalizing s with
  | nil => rfl
  | cons x rest ih =>
    rw [List.map_cons, List.foldlM_cons, h, List.flatMap_cons, List.foldlM_append]
    exact bind_congr ih

/-! ### Blocks -/

/-- A block of settings that holds these blocks. -/
def Hcl.Block.settings (bs : List Block) : Block :=
  ⟨⟨⟨"terraform", ⟨0, 0⟩⟩, []⟩, .ofBlocks bs⟩

namespace RequiredProvider

/-- The entries of blocks that require providers. A block with labels is not looked at. -/
def ofBlocks (file : String) (bs : List Block) : List RequiredProvider :=
  (bs.filter (·.labels.isEmpty)).flatMap fun b => (decode file b).value

/-- The complaints about the entries of blocks. -/
def misread (file : String) (bs : List Block) : Diagnostics :=
  (bs.filter (·.labels.isEmpty)).flatMap fun b => (decode file b).diagnostics

/-- The complaints about labels. -/
def labelled (file : String) (bs : List Block) : Diagnostics :=
  bs.filterMap (Schema.labelProblem file ⟨"required_providers", []⟩)

theorem labelled_eq_nil {file : String} {bs : List Block} (h : ∀ b ∈ bs, b.labels = []) :
    labelled file bs = [] := by
  refine List.filterMap_eq_nil_iff.2 fun b hb => ?_
  have hlabels : b.header.labels = [] := List.map_eq_nil_iff.1 (h b hb)
  simp [Schema.labelProblem, hlabels]

theorem labelled_flatten (file : String) (groups : List (List Block)) :
    labelled file groups.flatten = groups.flatMap (labelled file) := by
  rw [labelled, List.filterMap_flatten]
  rfl

theorem misread_flatten (file : String) (groups : List (List Block)) :
    misread file groups.flatten = groups.flatMap (misread file) := by
  induction groups with
  | nil => rfl
  | cons bs rest ih =>
    rw [List.flatten_cons, List.flatMap_cons, ← ih, misread, List.filter_append,
      List.flatMap_append]
    rfl

theorem versions_eq (p : RequiredProvider) (h : p.versions.length ≤ 1) :
    p.versions = [] ∨ ∃ v, p.versions = [v] := by
  rcases Nat.le_one_iff_eq_zero_or_eq_one.1 h with h | h
  · exact .inl (List.length_eq_zero_iff.1 h)
  · exact .inr (List.length_eq_one_iff.1 h)

theorem keepFirst_none (given : Placed String) (complaint : Placed String → Diagnostic) :
    keepFirst none given complaint =
      pure (if given.value.isEmpty then none else some given) := by
  rw [keepFirst]
  split <;> rfl

theorem mergeSource_none (p : RequiredProvider) :
    p.mergeSource none = pure p.requirement.source :=
  keepFirst_none ⟨p.source, p.range⟩ _

end RequiredProvider

/-! ### Stacks -/

namespace StackConfig

theorem Draft.addRequired_of_new {rs : List (String × Requirement)} {p : RequiredProvider}
    (hversions : p.versions.length ≤ 1) (hnew : p.name ∉ Entries.keys rs) :
    addRequired { requirements := rs } p =
      pure { requirements := rs ++ [(p.name, p.stackRequirement)] } := by
  have hversion : p.versions.foldlM (mergeVersion p.name) none =
      pure (p.versions.find? fun v => !v.value.isEmpty) := by
    rcases p.versions_eq hversions with hp | ⟨v, hp⟩
    · rw [hp]
      rfl
    · rw [hp]
      by_cases hempty : v.value.isEmpty <;>
        simp [mergeVersion, RequiredProvider.keepFirst_none, hempty]
  simp only [addRequired, Entries.get?_eq_none.2 hnew, Option.getD_none, p.mergeSource_none,
    hversion, pure_bind, Entries.put_of_new _ hnew]
  rfl

/-- A stack makes the same of a version as a module, but for a complaint if the version is blank
without being empty. -/
theorem constraints_stackRequirement {p : RequiredProvider} (h : p.versions.length ≤ 1) :
    p.stackRequirement.constraints =
      ⟨p.constraintsOf, (ModuleConfig.versionConstraints p.versions).diagnostics ++
        RequiredProvider.blanks p.versions⟩ := by
  rw [Requirement.constraints, RequiredProvider.stackRequirement, RequiredProvider.constraintsOf,
    ModuleConfig.versionConstraints, RequiredProvider.blanks]
  have htrim : Text.trim "" = "" := by decide
  rcases p.versions_eq h with hp | ⟨v, hp⟩
  · rw [hp]
    rfl
  · rw [hp]
    by_cases hempty : v.value = ""
    · refine Diagnosed.ext ?_ ?_ <;> simp [hempty, htrim]
    · by_cases hblank : (Text.trim v.value).isEmpty
      · refine Diagnosed.ext ?_ ?_ <;>
          simp [hempty, hblank, RequiredProvider.constraints_of_blank hblank]
      · refine Diagnosed.ext ?_ ?_ <;> simp [hempty, hblank]

theorem complaints_stackRequirement {p : RequiredProvider} (h : p.versions.length ≤ 1) :
    Requirement.complaints (p.name, p.stackRequirement) =
      ModuleConfig.Requirement.complaints (p.name, p.requirement) ++ p.blankComplaints := by
  have hsource : p.stackRequirement.source = p.requirement.source := rfl
  have hversions : p.requirement.versions = p.versions := rfl
  simp only [Requirement.complaints, constraints_stackRequirement h, hsource, hversions,
    ModuleConfig.Requirement.complaints, RequiredProvider.blankComplaints,
    RequiredProvider.address?]
  by_cases haddress : (RequiredProvider.address p.name p.requirement.source).value.isSome <;>
    simp [haddress]

variable {bs : List Block} (hkind : ∀ b ∈ bs, b.kind = "required_providers")
include hkind

theorem declared_required (file : String) :
    dialect.declared [(file, .ofBlocks bs)] =
      (bs.filter (·.labels.isEmpty)).map fun b =>
        .required (RequiredProvider.decode file b).value := by
  rw [dialect.declared_eq, List.flatMap_singleton, Body.blocks_ofBlocks,
    Schema.filter_admitsBlock rfl hkind rfl, List.map_eq_flatMap]
  refine List.flatMap_congr fun b hb => ?_
  simp [dialect, Declaration.ofBlock, hkind b (List.mem_of_mem_filter hb)]

theorem complaints_required (file : String) :
    dialect.complaints [(file, .ofBlocks bs)] =
      RequiredProvider.labelled file bs ++ RequiredProvider.misread file bs := by
  rw [dialect.complaints_eq, List.flatMap_singleton, Body.blocks_ofBlocks,
    Schema.diagnostics_select_ofBlocks rfl hkind (by decide),
    Schema.filter_admitsBlock rfl hkind rfl]
  refine congrArg _ (List.flatMap_congr fun b hb => ?_)
  simp [dialect, Declaration.ofBlock, hkind b (List.mem_of_mem_filter hb)]

variable {file : String}
  (hsimple : RequiredProvider.Simple (RequiredProvider.ofBlocks file bs))
include hsimple

theorem takeUp_required :
    (dialect.declared [(file, .ofBlocks bs)]).foldlM dialect.absorb dialect.start =
      pure { requirements :=
        (RequiredProvider.ofBlocks file bs).map fun p => (p.name, p.stackRequirement) } := by
  have habsorb : ∀ d es, dialect.absorb d (.required es) = es.foldlM Draft.addRequired d :=
    fun _ _ => rfl
  rw [declared_required hkind, Diagnosed.foldlM_blocks habsorb]
  exact Diagnosed.foldlM_entries (fun rs => ({ requirements := rs } : Draft))
    (fun rs p hp hnew => Draft.addRequired_of_new (hsimple.versions p hp) hnew) []
    hsimple.names

theorem get?_load_required (path name : String) :
    (load path [(file, .ofBlocks bs)]).value.providerRequirements.get? name =
      ((RequiredProvider.ofBlocks file bs).find? fun p => p.name = name).bind fun p =>
        p.address?.map fun a => ⟨a, p.constraintsOf⟩ := by
  have hcollected := (dialect.load_of_takeUp (takeUp_required hkind hsimple) path).1
  have hnames : (Entries.keys ((RequiredProvider.ofBlocks file bs).map fun p =>
      (p.name, p.stackRequirement))).Nodup := by
    rw [Entries.keys, List.map_map]
    exact hsimple.names
  show (resolve path _ (dialect.collected _)).value.providerRequirements.get? name = _
  rw [hcollected, get?_resolve _ _ hnames, Entries.get?_map]
  cases hfind : (RequiredProvider.ofBlocks file bs).find? fun p => p.name = name with
  | none => simp
  | some p =>
    obtain ⟨hp, rfl⟩ := hsimple.find?_eq_some.1 hfind
    have haddress : (RequiredProvider.address p.name p.stackRequirement.source).value =
        p.address? := rfl
    simp [constraints_stackRequirement (hsimple.versions p hp), haddress]

theorem diagnostics_load_required (path : String) :
    (load path [(file, .ofBlocks bs)]).diagnostics =
      RequiredProvider.labelled file bs ++ RequiredProvider.misread file bs ++
      (RequiredProvider.ofBlocks file bs).flatMap fun p =>
        ModuleConfig.Requirement.complaints (p.name, p.requirement) ++ p.blankComplaints := by
  have hload := (dialect.load_of_takeUp (takeUp_required hkind hsimple) path).2
  rw [complaints_required hkind] at hload
  refine hload.trans (congrArg _ ?_)
  show (resolve path _ _).diagnostics = _
  rw [diagnostics_resolve, List.flatMap_map]
  exact List.flatMap_congr fun p hp => complaints_stackRequirement (hsimple.versions p hp)

end StackConfig

/-! ### Modules -/

namespace ModuleConfig

theorem Draft.addRequired_of_new {rs : List (String × Requirement)} {p : RequiredProvider}
    (hnew : p.name ∉ Entries.keys rs) :
    addRequired { requirements := rs } p =
      pure { requirements := rs ++ [(p.name, p.requirement)] } := by
  simp only [addRequired, setRequirement, requirement, Entries.get?_eq_none.2 hnew,
    Option.getD_none, p.mergeSource_none, pure_bind, Entries.put_of_new _ hnew]
  rfl

theorem ofSettings_required {bs : List Block}
    (hkind : ∀ b ∈ bs, b.kind = "required_providers") (file : String) :
    Declaration.ofBlock file (.settings bs) =
      ⟨none, RequiredProvider.labelled file bs⟩ :: pure none ::
        (bs.filter (·.labels.isEmpty)).map fun b =>
          (fun es => some (.required es)) <$> RequiredProvider.decode file b := by
  have hcore : (Schema.terraformBlock.select file (.ofBlocks bs)).value.attribute?
      "required_version" = none := by
    rw [Schema.attribute?_select (by decide), Body.attribute?, Body.attributes_ofBlocks]
    rfl
  show Declaration.ofSettings file ⟨_, .ofBlocks bs⟩ = _
  rw [Declaration.ofSettings, Declaration.ofCoreVersion, Body.placed?, hcore, Schema.blocks_select,
    Body.blocks_ofBlocks, Schema.filter_admitsBlock rfl hkind rfl,
    Schema.diagnostics_select_ofBlocks rfl hkind (by decide)]
  refine congrArg _ (congrArg _ (List.map_congr_left fun b hb => ?_))
  rw [Declaration.ofSetting, hkind b (List.mem_of_mem_filter hb)]
  rfl

variable {groups : List (List Block)}
  (hgroups : ∀ bs ∈ groups, ∀ b ∈ bs, b.kind = "required_providers")
include hgroups

/-- The blocks of settings, in the order of the groups. -/
theorem declarations_settings (file : String) :
    dialect.declarations file (.ofBlocks (groups.map .settings)) =
      ⟨none, []⟩ :: groups.flatMap fun bs =>
        ⟨none, RequiredProvider.labelled file bs⟩ :: pure none ::
          (bs.filter (·.labels.isEmpty)).map fun b =>
            (fun es => some (.required es)) <$> RequiredProvider.decode file b := by
  have hkind : ∀ b ∈ groups.map Block.settings, b.kind = "terraform" := by
    simp [Block.settings, Block.kind]
  have hplain : ∀ b ∈ groups.map Block.settings, b.labels.isEmpty := by
    simp [Block.settings, Block.labels]
  have hroot : (dialect.root.select file (.ofBlocks (groups.map .settings))).diagnostics = [] := by
    rw [Schema.diagnostics_select_ofBlocks rfl hkind (by decide), List.filterMap_eq_nil_iff]
    simp [Block.settings, Schema.labelProblem]
  have hfilter : (groups.map Block.settings).filter dialect.root.admitsBlock =
      groups.map Block.settings := by
    rw [Schema.filter_admitsBlock (s := dialect.root) rfl hkind rfl, List.filter_eq_self.2 hplain]
  simp only [Dialect.declarations, hroot, Schema.blocks_select, Body.blocks_ofBlocks, hfilter,
    List.flatMap_map]
  exact congrArg _ (List.flatMap_congr fun bs hbs => ofSettings_required (hgroups bs hbs) file)

theorem declared_settings (file : String) :
    dialect.declared [(file, .ofBlocks (groups.map .settings))] =
      (groups.flatten.filter (·.labels.isEmpty)).map fun b =>
        .required (RequiredProvider.decode file b).value := by
  rw [Dialect.declared, List.flatMap_singleton]
  show (dialect.declarations file _).filterMap (·.value) = _
  rw [declarations_settings hgroups]
  simp [List.filter_flatten, List.map_flatten, List.flatMap_def, List.filterMap_map,
    Function.comp_def]

theorem complaints_settings (file : String) :
    dialect.complaints [(file, .ofBlocks (groups.map .settings))] =
      groups.flatMap fun bs =>
        RequiredProvider.labelled file bs ++ RequiredProvider.misread file bs := by
  rw [Dialect.complaints, List.flatMap_singleton]
  show (dialect.declarations file _).flatMap (·.diagnostics) = _
  rw [declarations_settings hgroups]
  simp [List.flatMap_assoc, List.flatMap_map, RequiredProvider.misread]

variable {file : String}
  (hsimple : RequiredProvider.Simple (RequiredProvider.ofBlocks file groups.flatten))
include hsimple

theorem takeUp_settings :
    (dialect.declared [(file, .ofBlocks (groups.map .settings))]).foldlM dialect.absorb
        dialect.start =
      pure { requirements :=
        (RequiredProvider.ofBlocks file groups.flatten).map fun p => (p.name, p.requirement) } := by
  have habsorb : ∀ d es, dialect.absorb d (.required es) = es.foldlM Draft.addRequired d :=
    fun _ _ => rfl
  rw [declared_settings hgroups, Diagnosed.foldlM_blocks habsorb]
  exact Diagnosed.foldlM_entries (fun rs => ({ requirements := rs } : Draft))
    (fun rs p _ hnew => Draft.addRequired_of_new hnew) []
    hsimple.names

theorem diagnostics_load_settings (path : String) :
    (load path [(file, .ofBlocks (groups.map .settings))]).diagnostics =
      (groups.flatMap fun bs =>
        RequiredProvider.labelled file bs ++ RequiredProvider.misread file bs) ++
      (RequiredProvider.ofBlocks file groups.flatten).flatMap fun p =>
        Requirement.complaints (p.name, p.requirement) := by
  have hload := (dialect.load_of_takeUp (takeUp_settings hgroups hsimple) path).2
  rw [complaints_settings hgroups] at hload
  refine hload.trans (congrArg _ ?_)
  show (resolve path _ _).diagnostics = _
  rw [diagnostics_resolve, List.flatMap_map]
  rfl

theorem get?_load_settings (path name : String) :
    (load path [(file, .ofBlocks (groups.map .settings))]).value.providers.references.get?
        (.ofName name) =
      ((RequiredProvider.ofBlocks file groups.flatten).find? fun p => p.name = name).bind
        RequiredProvider.address? := by
  have hcollected := (dialect.load_of_takeUp (takeUp_settings hgroups hsimple) path).1
  have hget : (load path [(file, .ofBlocks (groups.map .settings))]).value.providers.references.get?
      (.ofName name) = _ := Providers.get?_references (collected_coherent _) (.ofName name)
  refine (hget.trans (if_pos rfl)).trans ?_
  rw [hcollected]
  show (Draft.requiredAddress _ name).or (Draft.impliedAddress _ name) = _
  -- Nothing uses a name.
  have himplied : ∀ rs, Draft.impliedAddress { requirements := rs } name = none :=
    fun rs => if_neg fun h => List.not_mem_nil h.2
  rw [himplied, Option.or_none, Draft.requiredAddress, Entries.get?_map]
  cases hfind : (RequiredProvider.ofBlocks file groups.flatten).find? fun p => p.name = name with
  | none => rfl
  | some p =>
    obtain ⟨-, rfl⟩ := hsimple.find?_eq_some.1 hfind
    rfl

theorem mem_requirements_settings (path : String) {a : Provider} :
    a ∈ (load path [(file, .ofBlocks (groups.map .settings))]).value.providers.requirements.keys ↔
      ∃ p ∈ RequiredProvider.ofBlocks file groups.flatten, p.address? = some a := by
  have hconsistent : (load path
      [(file, .ofBlocks (groups.map .settings))]).value.providers.Consistent :=
    Providers.resolve_consistent (collected_coherent _)
  rw [← hconsistent.addresses, SortedMap.mem_values]
  constructor
  · rintro ⟨ref, href⟩
    have hdefault := hconsistent.defaults ref a href
    rw [get?_load_settings hgroups hsimple, Option.bind_eq_some_iff] at hdefault
    obtain ⟨p, hp, ha⟩ := hdefault
    exact ⟨p, List.mem_of_find?_eq_some hp, ha⟩
  · rintro ⟨p, hp, ha⟩
    refine ⟨.ofName p.name, ?_⟩
    rw [get?_load_settings hgroups hsimple, hsimple.find?_eq_some.2 ⟨hp, rfl⟩]
    exact ha

/-- The constraints on a provider are those of the one entry that has its address. -/
theorem requirements_load_settings (path : String) {a : Provider} {cs : Constraints} :
    (load path [(file, .ofBlocks (groups.map .settings))]).value.providers.requirements.get? a =
        some cs ↔
      ∃ p ∈ RequiredProvider.ofBlocks file groups.flatten,
        p.address? = some a ∧ p.constraintsOf = cs := by
  have hmem := mem_requirements_settings hgroups hsimple path (a := a)
  have hcollected := (dialect.load_of_takeUp (takeUp_settings hgroups hsimple) path).1
  have hgetD : ((load path
      [(file, .ofBlocks (groups.map .settings))]).value.providers.requirements.get? a).getD [] =
        _ := Providers.getD_requirements (dialect.collected _) a
  rw [hcollected, Providers.constraintsOn, List.flatMap_map] at hgetD
  rw [SortedMap.mem_keys] at hmem
  constructor
  · intro hcs
    obtain ⟨p, hp, ha⟩ := hmem.1 ⟨cs, hcs⟩
    rw [hcs] at hgetD
    exact ⟨p, hp, ha, ((hsimple.flatMap_constraints hp ha).symm.trans hgetD.symm)⟩
  · rintro ⟨p, hp, ha, rfl⟩
    obtain ⟨cs, hcs⟩ := hmem.2 ⟨p, hp, ha⟩
    rw [hcs] at hgetD
    rw [hcs, ← hsimple.flatMap_constraints hp ha]
    exact congrArg some hgetD

end ModuleConfig

/-! ### Both -/

namespace RequiredProvider

theorem withoutBlanks_iff {entries : List RequiredProvider} :
    WithoutBlanks entries ↔ entries.flatMap blankComplaints = [] := by
  simp only [WithoutBlanks, List.flatMap_eq_nil_iff, blankComplaints_eq_nil]

variable {groups : List (List Block)}
  (hgroups : ∀ bs ∈ groups, ∀ b ∈ bs, b.kind = "required_providers") {file : String}
  (hsimple : Simple (ofBlocks file groups.flatten))
include hgroups hsimple

theorem addresses_agree (stackPath modulePath name : String) :
    ((StackConfig.load stackPath
        [(file, .ofBlocks groups.flatten)]).value.providerRequirements.get? name).map (·.source) =
      (ModuleConfig.load modulePath
        [(file, .ofBlocks (groups.map .settings))]).value.providers.references.get?
          (.ofName name) := by
  rw [StackConfig.get?_load_required (List.forall_mem_flatten.2 hgroups) hsimple,
    ModuleConfig.get?_load_settings hgroups hsimple, Option.map_bind]
  congr 1
  funext p
  simp [Function.comp_def]

theorem constraints_agree (stackPath modulePath : String) {a : Provider} {cs : Constraints} :
    (ModuleConfig.load modulePath
        [(file, .ofBlocks (groups.map .settings))]).value.providers.requirements.get? a = some cs ↔
      ∃ name, (StackConfig.load stackPath
        [(file, .ofBlocks groups.flatten)]).value.providerRequirements.get? name =
          some ⟨a, cs⟩ := by
  have hstack :=
    StackConfig.get?_load_required (List.forall_mem_flatten.2 hgroups) hsimple stackPath
  rw [ModuleConfig.requirements_load_settings hgroups hsimple]
  simp only [hstack, Option.bind_eq_some_iff, Option.map_eq_some_iff, hsimple.find?_eq_some]
  constructor
  · rintro ⟨p, hp, ha, rfl⟩
    exact ⟨p.name, p, ⟨hp, rfl⟩, _, ha, rfl⟩
  · rintro ⟨_, p, ⟨hp, rfl⟩, a, ha, heq⟩
    cases heq
    exact ⟨p, hp, ha, rfl⟩

theorem diagnostics_load_flatten (path : String) :
    (StackConfig.load path [(file, .ofBlocks groups.flatten)]).diagnostics =
      groups.flatMap (labelled file) ++ groups.flatMap (misread file) ++
      (ofBlocks file groups.flatten).flatMap fun p =>
        ModuleConfig.Requirement.complaints (p.name, p.requirement) ++ p.blankComplaints := by
  rw [StackConfig.diagnostics_load_required (List.forall_mem_flatten.2 hgroups) hsimple,
    labelled_flatten, misread_flatten]

/-- Up to their order, a stack complains about blanks beside what a module complains about. -/
theorem diagnostics_load_perm (stackPath modulePath : String) :
    (StackConfig.load stackPath [(file, .ofBlocks groups.flatten)]).diagnostics.Perm
      ((ModuleConfig.load modulePath [(file, .ofBlocks (groups.map .settings))]).diagnostics ++
        (ofBlocks file groups.flatten).flatMap blankComplaints) := by
  rw [diagnostics_load_flatten hgroups hsimple,
    ModuleConfig.diagnostics_load_settings hgroups hsimple]
  refine ((List.flatMap_append_perm groups _ _).append
    (List.flatMap_append_perm _ _ _).symm).trans ?_
  rw [List.append_assoc]

theorem messages_load_perm (stackPath modulePath : String) :
    (StackConfig.load stackPath
        [(file, .ofBlocks groups.flatten)]).diagnostics.messages.Perm
      (ModuleConfig.load modulePath
        [(file, .ofBlocks (groups.map .settings))]).diagnostics.messages ↔
      WithoutBlanks (ofBlocks file groups.flatten) := by
  have hall := (diagnostics_load_perm hgroups hsimple stackPath modulePath).map Diagnostic.message
  rw [List.map_append] at hall
  rw [withoutBlanks_iff]
  constructor
  · intro h
    have hlength := (hall.symm.trans h).length_eq
    rw [List.length_append] at hlength
    exact List.map_eq_nil_iff.1 (List.length_eq_zero_iff.1 (Nat.add_eq_left.1 hlength))
  · intro hblanks
    rwa [hblanks, List.map_nil, List.append_nil] at hall

/-- Where only the first block of settings has labels to complain about, the order is the same. -/
theorem diagnostics_load_eq (hlabels : ∀ bs ∈ groups.tail, ∀ b ∈ bs, b.labels = [])
    (hblanks : WithoutBlanks (ofBlocks file groups.flatten)) (stackPath modulePath : String) :
    (StackConfig.load stackPath [(file, .ofBlocks groups.flatten)]).diagnostics =
      (ModuleConfig.load modulePath [(file, .ofBlocks (groups.map .settings))]).diagnostics := by
  have hentries : (ofBlocks file groups.flatten).flatMap (fun p =>
      ModuleConfig.Requirement.complaints (p.name, p.requirement) ++ p.blankComplaints) =
        (ofBlocks file groups.flatten).flatMap fun p =>
          ModuleConfig.Requirement.complaints (p.name, p.requirement) := by
    refine List.flatMap_congr fun p hp => ?_
    rw [blankComplaints_eq_nil.2 (hblanks p hp), List.append_nil]
  have hblocks : groups.flatMap (labelled file) ++ groups.flatMap (misread file) =
      groups.flatMap fun bs => labelled file bs ++ misread file bs := by
    cases groups with
    | nil => rfl
    | cons first rest =>
      have hfirst : rest.flatMap (labelled file) = [] :=
        List.flatMap_eq_nil_iff.2 fun bs hbs => labelled_eq_nil (hlabels bs hbs)
      have hrest : (rest.flatMap fun bs => labelled file bs ++ misread file bs) =
          rest.flatMap (misread file) := by
        refine List.flatMap_congr fun bs hbs => ?_
        rw [labelled_eq_nil (hlabels bs hbs), List.nil_append]
      simp only [List.flatMap_cons, hfirst, hrest, List.append_nil, List.append_assoc]
  rw [diagnostics_load_flatten hgroups hsimple,
    ModuleConfig.diagnostics_load_settings hgroups hsimple, hentries, hblocks]

end RequiredProvider

/-- **Stacks and modules agree on simple requirements, but for blank versions.** Let blocks that
require providers stand at the root of a stack, and in a module, in the same order but wherever that
moves them to, inside blocks of settings. Let each local name occur in one entry, with one version
at most, and let no two entries have the same address. Then the same local names stand for the same
addresses in both, with the same constraints. The complaints are the same, in some order, just if no
version of an entry that has an address is blank without being empty; and if labels, which such
blocks should not have, occur in the first block of settings at most, the order is the same too. -/
theorem FileSet.requirements_agree (stackPath modulePath stackFile moduleFile : String)
    {groups : List (List Block)} {body : Body}
    (hkind : ∀ bs ∈ groups, ∀ b ∈ bs, b.kind = "required_providers")
    (hbody : body.unplaced = (Body.ofBlocks (groups.map .settings)).unplaced)
    (hsimple : RequiredProvider.Simple (RequiredProvider.ofBlocks stackFile groups.flatten)) :
    let stack := StackConfig.load stackPath [(stackFile, .ofBlocks groups.flatten)]
    let settings := ModuleConfig.load modulePath [(moduleFile, body)]
    let blankless := RequiredProvider.WithoutBlanks
      (RequiredProvider.ofBlocks stackFile groups.flatten)
    (∀ name, (stack.value.providerRequirements.get? name).map (·.source) =
      settings.value.providers.references.get? (.ofName name)) ∧
    (∀ p cs, settings.value.providers.requirements.get? p = some cs ↔
      ∃ name, stack.value.providerRequirements.get? name = some ⟨p, cs⟩) ∧
    (stack.diagnostics.messages.Perm settings.diagnostics.messages ↔ blankless) ∧
    ((∀ bs ∈ groups.tail, ∀ b ∈ bs, b.labels = []) →
      (stack.diagnostics.messages = settings.diagnostics.messages ↔ blankless)) := by
  intro stack settings blankless
  have hsingle := ModuleConfig.placeless.load_single modulePath moduleFile stackFile hbody
  have hproviders : settings.value.providers = (ModuleConfig.load modulePath
      [(stackFile, .ofBlocks (groups.map .settings))]).value.providers := by
    have h := congrArg ModuleConfig.providers hsingle.1
    exact h
  have hmessages : settings.diagnostics.messages = (ModuleConfig.load modulePath
      [(stackFile, .ofBlocks (groups.map .settings))]).diagnostics.messages := hsingle.2
  have hperm : stack.diagnostics.messages.Perm settings.diagnostics.messages ↔ blankless := by
    rw [hmessages]
    exact RequiredProvider.messages_load_perm hkind hsimple stackPath modulePath
  refine ⟨fun name => ?_, fun p cs => ?_, hperm, fun hlabels => ⟨fun h => hperm.1 (.of_eq h), ?_⟩⟩
  · rw [hproviders]
    exact RequiredProvider.addresses_agree hkind hsimple stackPath modulePath name
  · rw [hproviders]
    exact RequiredProvider.constraints_agree hkind hsimple stackPath modulePath
  · intro hblanks
    have hsame := RequiredProvider.diagnostics_load_eq hkind hsimple hlabels hblanks stackPath
      modulePath
    exact (congrArg Diagnostics.messages hsame).trans hmessages.symm

/-- A block of entries with these labels, all at one place. -/
def requiring (labels : List String) (entries : List (String × Hcl.Expr)) : Block :=
  ⟨⟨⟨"required_providers", ⟨0, 0⟩⟩, labels.map fun label => ⟨label, ⟨0, 0⟩⟩⟩,
    entries.map fun (name, e) => .attr ⟨⟨name, ⟨0, 0⟩⟩, ⟨e, ⟨0, 0⟩⟩⟩⟩

/-- A version that makes no sense, a label that should not be there, and a source. -/
def requiringGroups : List (List Block) :=
  [[requiring ["extra"] [], requiring [] [("aws", .text "latest")]],
    [requiring [] [("mirror",
      .object [(⟨.variable "source", ⟨0, 0⟩⟩, ⟨.text "acme/aws", ⟨0, 0⟩⟩)])]]]

theorem FileSet.requirements_agree_mirrored :
    RequiredProvider.Simple (RequiredProvider.ofBlocks "main.tf" requiringGroups.flatten) ∧
      (StackConfig.load "" [("main.tf", .ofBlocks requiringGroups.flatten)]).diagnostics.messages =
        (ModuleConfig.load ""
          [("main.tf", .ofBlocks (requiringGroups.map .settings))]).diagnostics.messages ∧
      (StackConfig.load ""
        [("main.tf", .ofBlocks requiringGroups.flatten)]).diagnostics.messages.length = 2 := by
  have hsimple : RequiredProvider.Simple
      (RequiredProvider.ofBlocks "main.tf" requiringGroups.flatten) :=
    ⟨by decide +kernel, by decide +kernel, by decide +kernel⟩
  have hblanks : RequiredProvider.WithoutBlanks
      (RequiredProvider.ofBlocks "main.tf" requiringGroups.flatten) := by
    unfold RequiredProvider.WithoutBlanks
    decide +kernel
  have hkind : ∀ bs ∈ requiringGroups, ∀ b ∈ bs, b.kind = "required_providers" := by
    decide +kernel
  have h := FileSet.requirements_agree "" "" "main.tf" "main.tf" hkind rfl hsimple
  exact ⟨hsimple, (h.2.2.2 (by decide +kernel)).2 hblanks, by decide +kernel⟩

/-- A version of one blank, which a stack complains about and a module does not. -/
theorem FileSet.requirements_disagree :
    let bs := [requiring [] [("aws", .text " ")]]
    RequiredProvider.Simple (RequiredProvider.ofBlocks "main.tf" bs) ∧
      (StackConfig.load "" [("main.tf", .ofBlocks bs)]).diagnostics.messages =
        [(.error, "Invalid provider version constraint",
          "Unable to parse \" \": Malformed constraint: .")] ∧
      (ModuleConfig.load "" [("main.tf", .ofBlocks [.settings bs])]).diagnostics.messages = [] := by
  refine ⟨⟨?_, ?_, ?_⟩, ?_, ?_⟩ <;> decide +kernel

end EarlyConfig
