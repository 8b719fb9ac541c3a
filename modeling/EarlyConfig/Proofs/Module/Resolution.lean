import EarlyConfig.Proofs.Module.References

/-! Which provider a reference of a module stands for. Resolution takes three rounds over lists, but
what comes of them for one reference can be said in terms of its local name alone
(`get?_references`): an aliased reference needs an alias that is expected or configured, and the
default one needs a requirement that resolves or else a resource that uses the name. In the same way
the constraints on a provider are those of all local names that resolve to it
(`getD_requirements`). -/
namespace EarlyConfig

/-- A reference in a row of names that are taken up one after another, each unless it stands for
something already. -/
theorem ProviderRef.implied_foldl {σ : Type} (ref : ProviderRef) (look : σ → Option Provider)
    (step : σ → String → σ)
    (hstep : ∀ s name, look (step s name) =
      (look s).or (if ref = .ofName name ∧ name ≠ "" then some (.legacy name) else none))
    (names : List String) (s : σ) :
    look (names.foldl step s) =
      (look s).or
        (if ref.aliasName = "" ∧ ref.localName ≠ "" ∧ ref.localName ∈ names then
          some (.legacy ref.localName) else none) := by
  induction names generalizing s with
  | nil => simp
  | cons name rest ih =>
    rw [List.foldl_cons, ih, hstep, Option.or_assoc]
    congr 1
    by_cases href : ref = .ofName name
    · subst href
      by_cases hname : name = "" <;> simp [ofName, hname]
    · have hne : ref.aliasName = "" → ref.localName ≠ name := by
        rintro halias rfl
        exact href (by rw [ofName, ← halias])
      rw [if_neg fun h => href h.1, Option.none_or]
      by_cases halias : ref.aliasName = ""
      · simp [halias, hne halias]
      · simp [halias]

theorem RequiredProvider.value_address (name : String) (source : Option (Placed String)) :
    (address name source).value =
      match source with
      | none => if name = "" then none else some (.legacy name)
      | some s => (Provider.ofSource s.value).toOption := by
  unfold address
  split
  · by_cases h : name = "" <;> simp [h]
  · split <;> simp [*, Except.toOption]

namespace ModuleConfig

namespace Draft

/-- The address that a local name has by its requirement. -/
def requiredAddress (d : Draft) (name : String) : Option Provider :=
  (Entries.get? name d.requirements).bind fun r => (RequiredProvider.address name r.source).value

/-- The local names that the resources use. -/
def usedNames (d : Draft) : List String :=
  d.resources.values.map Resource.providerName

/-- The address that a local name has because a resource uses it. -/
def impliedAddress (d : Draft) (name : String) : Option Provider :=
  if name ≠ "" ∧ name ∈ d.usedNames then some (.legacy name) else none

end Draft

namespace Providers

/-! ### Requirements -/

/-- What a reference gets from the requirement of its local name. -/
def granted (rs : List (String × Requirement)) (ref : ProviderRef) : Option Provider :=
  (Entries.get? ref.localName rs).bind fun r =>
    if ref ∈ .ofName ref.localName :: r.aliases then
      (RequiredProvider.address ref.localName r.source).value
    else none

theorem value_addRequirement (ps : Providers) (name : String) (r : Requirement) :
    (ps.addRequirement name r).value =
      ((RequiredProvider.address name r.source).value.map fun p =>
        ps.add name r.aliases p (versionConstraints r.versions).value).getD ps := by
  rw [addRequirement, Diagnosed.value_bind]
  cases (RequiredProvider.address name r.source).value <;> rfl

theorem get?_addRequirement (ps : Providers) (name : String) (r : Requirement)
    (ref : ProviderRef) :
    (ps.addRequirement name r).value.references.get? ref =
      (if ref ∈ .ofName name :: r.aliases then (RequiredProvider.address name r.source).value
        else none).or (ps.references.get? ref) := by
  rw [value_addRequirement]
  cases (RequiredProvider.address name r.source).value with
  | none => simp
  | some p =>
    rw [Option.map_some, Option.getD_some, get?_references_add]
    split <;> simp

/-- The induction is over the requirements still to come, each of a name of its own. -/
theorem get?_addRequirements {rs : List (String × Requirement)} (hnames : (Entries.keys rs).Nodup)
    (halias : ∀ n r, (n, r) ∈ rs → ∀ ref ∈ r.aliases, ref.localName = n) (ps : Providers)
    (ref : ProviderRef) :
    (rs.foldl (fun ps e => (ps.addRequirement e.1 e.2).value) ps).references.get? ref =
      (granted rs ref).or (ps.references.get? ref) := by
  induction rs generalizing ps with
  | nil => simp [granted, Entries.get?]
  | cons e rest ih =>
    obtain ⟨name, r⟩ := e
    obtain ⟨hnew, hnames⟩ := List.nodup_cons.1 hnames
    rw [List.foldl_cons, ih hnames fun n r hmem => halias n r (List.mem_cons_of_mem _ hmem),
      get?_addRequirement]
    by_cases hname : name = ref.localName
    · subst hname
      have hrest : granted rest ref = none := by
        rw [granted, Entries.get?_eq_none.2 hnew, Option.bind_none]
      rw [hrest, Option.none_or]
      simp [granted, Entries.get?]
    · have hother : ref ∉ .ofName name :: r.aliases := fun hmem =>
        hname (localName_of_mem (halias name r (List.mem_cons_self ..)) hmem).symm
      have hsame : granted ((name, r) :: rest) ref = granted rest ref := by
        rw [granted, granted, Entries.get?, if_neg hname]
      rw [if_neg hother, Option.none_or, hsame]

/-! ### Aliases -/

theorem get?_addAlias (ps : Providers) (ref other : ProviderRef) :
    (ps.addAlias ref).references.get? other =
      (if other = ref ∧ ref.aliasName ≠ "" then ps.references.get? (.ofName ref.localName)
        else none).or (ps.references.get? other) := by
  rw [addAlias]
  by_cases halias : ref.aliasName = ""
  · simp [halias]
  · cases hp : ps.references.get? (.ofName ref.localName) with
    | none => simp [halias]
    | some p =>
      by_cases hother : other = ref
      · simp [halias, hother]
      · simp [halias, hother, Ne.symm hother]

/-- Aliases leave the default references alone. -/
theorem get?_ofName_addAliases (refs : List ProviderRef) (ps : Providers) (name : String) :
    (refs.foldl addAlias ps).references.get? (.ofName name) =
      ps.references.get? (.ofName name) := by
  induction refs generalizing ps with
  | nil => rfl
  | cons ref rest ih =>
    have hne : ¬(ProviderRef.ofName name = ref ∧ ref.aliasName ≠ "") := by
      rintro ⟨rfl, halias⟩
      exact halias rfl
    rw [List.foldl_cons, ih, get?_addAlias, if_neg hne, Option.none_or]

theorem get?_addAliases (refs : List ProviderRef) (ps : Providers) (ref : ProviderRef) :
    (refs.foldl addAlias ps).references.get? ref =
      (if ref ∈ refs ∧ ref.aliasName ≠ "" then ps.references.get? (.ofName ref.localName)
        else none).or (ps.references.get? ref) := by
  induction refs generalizing ps with
  | nil => simp
  | cons other rest ih =>
    have hdefault : (ps.addAlias other).references.get? (.ofName ref.localName) =
        ps.references.get? (.ofName ref.localName) := get?_ofName_addAliases [other] ps _
    rw [List.foldl_cons, ih, hdefault, get?_addAlias]
    by_cases halias : ref.aliasName = ""
    · by_cases hother : ref = other
      · simp [← hother, halias]
      · simp [hother, halias]
    · by_cases hother : ref = other
      · -- Going through the same alias twice gives what going through it once does.
        by_cases hrest : ref ∈ rest
        · simp [← hother, hrest, halias, ← Option.or_assoc]
        · simp [← hother, hrest, halias]
      · simp [hother, halias]

/-! ### Names that are implied -/

theorem get?_addImplied (ps : Providers) (name : String) (ref : ProviderRef) :
    (ps.addImplied name).references.get? ref =
      (ps.references.get? ref).or
        (if ref = .ofName name ∧ name ≠ "" then some (.legacy name) else none) := by
  rw [addImplied]
  by_cases hname : name = ""
  · simp [hname]
  · cases hp : ps.references.get? (.ofName name) with
    | none =>
      by_cases href : ref = .ofName name
      · simp [SortedMap.contains, hname, hp, href, get?_references_add]
      · simp [SortedMap.contains, hname, hp, href, get?_references_add]
    | some p =>
      by_cases href : ref = .ofName name
      · simp [SortedMap.contains, hname, hp, href]
      · simp [SortedMap.contains, hname, hp, href]

theorem get?_addAllImplied (names : List String) (ps : Providers) (ref : ProviderRef) :
    (names.foldl addImplied ps).references.get? ref =
      (ps.references.get? ref).or
        (if ref.aliasName = "" ∧ ref.localName ≠ "" ∧ ref.localName ∈ names then
          some (.legacy ref.localName) else none) :=
  ref.implied_foldl (fun ps => ps.references.get? ref) addImplied
    (fun ps name => get?_addImplied ps name ref) names ps

/-! ### All rounds -/

theorem granted_ofName (d : Draft) (name : String) :
    granted d.requirements (.ofName name) = d.requiredAddress name := by
  simp [granted, Draft.requiredAddress, ProviderRef.ofName]

/-- What a reference stands for, by its local name and alias. -/
theorem get?_references {d : Draft} (h : d.Coherent) (ref : ProviderRef) :
    (resolve d).value.references.get? ref =
      if ref.aliasName = "" then
        (d.requiredAddress ref.localName).or (d.impliedAddress ref.localName)
      else if ref ∈ (d.requirement ref.localName).aliases ∨ ref ∈ d.providerConfigs.values then
        d.requiredAddress ref.localName
      else none := by
  simp only [resolve, Diagnosed.value_bind, Diagnosed.value_pure, Diagnosed.value_foldlM]
  rw [get?_addAllImplied, get?_addAliases, get?_addRequirements h.names h.aliases,
    get?_addRequirements h.names h.aliases, granted_ofName]
  by_cases halias : ref.aliasName = ""
  · have href : ref = .ofName ref.localName := by rw [ProviderRef.ofName, ← halias]
    have hgranted : granted d.requirements ref = d.requiredAddress ref.localName := by
      rw [href, granted_ofName]
      rfl
    simp [halias, hgranted, Draft.impliedAddress, Draft.usedNames]
  · have hne : ref ≠ .ofName ref.localName := fun heq => halias (congrArg ProviderRef.aliasName heq)
    have hgranted : granted d.requirements ref =
        if ref ∈ (d.requirement ref.localName).aliases then d.requiredAddress ref.localName
        else none := by
      rw [granted, Draft.requiredAddress, Draft.requirement]
      cases Entries.get? ref.localName d.requirements <;> simp [hne]
    rw [hgranted]
    by_cases hexpected : ref ∈ (d.requirement ref.localName).aliases <;>
      by_cases hconfigured : ref ∈ d.providerConfigs.values <;>
      simp [halias, hexpected, hconfigured]

/-! ### Constraints -/

/-- The constraints of all local names that resolve to a provider. -/
def constraintsOn (rs : List (String × Requirement)) (p : Provider) : Constraints :=
  rs.flatMap fun (name, r) =>
    if (RequiredProvider.address name r.source).value = some p then
      (versionConstraints r.versions).value
    else []

theorem getD_requirements_add (ps : Providers) (name : String) (aliases : List ProviderRef)
    (p q : Provider) (cs : Constraints) :
    ((ps.add name aliases p cs).requirements.get? q).getD [] =
      (ps.requirements.get? q).getD [] ++ if p = q then cs else [] := by
  by_cases hq : p = q
  · simp [add, hq]
  · simp [add, hq]

theorem getD_addRequirements (rs : List (String × Requirement)) (ps : Providers) (q : Provider) :
    ((rs.foldl (fun ps e => (ps.addRequirement e.1 e.2).value) ps).requirements.get? q).getD [] =
      (ps.requirements.get? q).getD [] ++ constraintsOn rs q := by
  induction rs generalizing ps with
  | nil => simp [constraintsOn]
  | cons e rest ih =>
    obtain ⟨name, r⟩ := e
    have hstep : ((ps.addRequirement name r).value.requirements.get? q).getD [] =
        (ps.requirements.get? q).getD [] ++
          if (RequiredProvider.address name r.source).value = some q then
            (versionConstraints r.versions).value
          else [] := by
      rw [value_addRequirement]
      cases (RequiredProvider.address name r.source).value with
      | none => simp
      | some p => simp [getD_requirements_add]
    rw [List.foldl_cons, ih, hstep, List.append_assoc]
    rfl

theorem requirements_addAliases (refs : List ProviderRef) (ps : Providers) :
    (refs.foldl addAlias ps).requirements = ps.requirements := by
  refine List.foldlRecOn refs addAlias (motive := fun qs => qs.requirements = ps.requirements) rfl
    fun qs hqs ref _ => ?_
  rw [← hqs, addAlias]
  split
  · rfl
  · split <;> rfl

theorem getD_addAllImplied (names : List String) (ps : Providers) (q : Provider) :
    ((names.foldl addImplied ps).requirements.get? q).getD [] =
      (ps.requirements.get? q).getD [] := by
  refine List.foldlRecOn names addImplied
    (motive := fun qs => (qs.requirements.get? q).getD [] = (ps.requirements.get? q).getD []) rfl
    fun qs hqs name _ => ?_
  rw [← hqs, addImplied]
  split
  · rfl
  · rw [getD_requirements_add, ite_self, List.append_nil]

theorem getD_requirements (d : Draft) (p : Provider) :
    ((resolve d).value.requirements.get? p).getD [] = constraintsOn d.requirements p := by
  simp only [resolve, Diagnosed.value_bind, Diagnosed.value_pure, Diagnosed.value_foldlM]
  rw [getD_addAllImplied, requirements_addAliases, getD_addRequirements]
  simp

end Providers

end ModuleConfig

end EarlyConfig
