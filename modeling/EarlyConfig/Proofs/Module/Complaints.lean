import EarlyConfig.Proofs.Module.Collected

/-! What is complained about when the declarations of a module are taken up and resolved. Taking up
complains about repeated backends and about sources that differ; where no two sources differ, the
complaints are those about backends, and these depend on the backends alone
(`diagnostics_foldlM_absorb`). Resolving complains about each requirement on its own
(`diagnostics_resolve`). -/
namespace EarlyConfig.ModuleConfig

/-! ### Taking up -/

/-- The complaints about backends of a type that is known already. -/
def repeatedBackends (known : List (String × Placed Backend)) :
    List (Placed Backend) → Diagnostics
  | [] => []
  | b :: rest =>
    (if Entries.contains b.value.type known then [Draft.multipleBackends b] else []) ++
      repeatedBackends (Draft.keepBackend known b) rest

theorem repeatedBackends_append (known : List (String × Placed Backend))
    (bs cs : List (Placed Backend)) :
    repeatedBackends known (bs ++ cs) =
      repeatedBackends known bs ++ repeatedBackends (bs.foldl Draft.keepBackend known) cs := by
  induction bs generalizing known with
  | nil => rfl
  | cons b rest ih => simp only [List.cons_append, repeatedBackends, ih, List.foldl_cons,
      List.append_assoc]

/-- The sources that are given are those of a table. -/
def Sourced (table : String → String) (rs : List (String × Requirement)) : Prop :=
  ∀ e ∈ rs, ∀ s, e.2.source = some s → s.value = table e.1

namespace Sourced

variable {table : String → String} {rs : List (String × Requirement)}

theorem get? (h : Sourced table rs) {name : String} {s : Placed String}
    (hs : ((Entries.get? name rs).getD {}).source = some s) : s.value = table name := by
  cases hr : Entries.get? name rs with
  | none => simp [hr] at hs
  | some r =>
    rw [hr] at hs
    exact h (name, r) (Entries.mem_of_get? hr) s hs

theorem takeUp (h : Sourced table rs) {e : String × Requirement}
    (he : ∀ s, e.2.source = some s → s.value = table e.1) :
    Sourced table (Requirement.takeUp rs e) := by
  intro e' he' s hs
  rcases Entries.mem_put he' with rfl | he'
  · rcases Option.or_eq_some_iff.1 hs with hs | ⟨-, hs⟩
    · exact h.get? hs
    · exact he s hs
  · exact h e' he' s hs

theorem foldl_takeUp (h : Sourced table rs) {es : List (String × Requirement)}
    (hes : Sourced table es) : Sourced table (es.foldl Requirement.takeUp rs) :=
  List.foldlRecOn es Requirement.takeUp (motive := Sourced table) h
    fun _ hrs e he => hrs.takeUp (hes e he)

end Sourced

namespace Draft

variable {table : String → String}

theorem diagnostics_addRequired {d : Draft} (hd : Sourced table d.requirements)
    {p : RequiredProvider}
    (hp : ∀ s, p.requirement.source = some s → s.value = table p.name) :
    (d.addRequired p).diagnostics = [] := by
  have hmerge : (p.mergeSource (d.requirement p.name).source).diagnostics = [] := by
    rw [RequiredProvider.mergeSource, RequiredProvider.diagnostics_keepFirst]
    by_cases hempty : p.source.isEmpty
    · exact if_pos hempty
    · have hgiven : p.source = table p.name :=
        hp ⟨p.source, p.range⟩ (by simp [RequiredProvider.requirement, hempty])
      rw [if_neg hempty, List.map_eq_nil_iff, List.filter_eq_nil_iff]
      intro k hk
      have hsame : k.value = p.source :=
        (hd.get? (Option.mem_toList.1 hk)).trans hgiven.symm
      simp [hsame]
  rw [addRequired, Diagnosed.diagnostics_bind, hmerge]
  rfl

theorem diagnostics_addAllRequired {d : Draft} (hd : Sourced table d.requirements)
    {entries : List RequiredProvider}
    (h : Sourced table (Declaration.requirements (.required entries))) :
    (entries.foldlM addRequired d).diagnostics = [] := by
  induction entries generalizing d with
  | nil => rfl
  | cons p rest ih =>
    obtain ⟨hp, hrest⟩ := List.forall_mem_cons.1 h
    rw [List.foldlM_cons, Diagnosed.diagnostics_bind, diagnostics_addRequired hd hp,
      List.nil_append, value_addRequired]
    exact ih (hd.takeUp hp) hrest

theorem diagnostics_addBackend (d : Draft) (b : Placed Backend) :
    (d.addBackend b).diagnostics = repeatedBackends d.backends [b] := by
  rw [addBackend, repeatedBackends, repeatedBackends]
  split <;> rfl

theorem diagnostics_absorb {d : Draft} (hd : Sourced table d.requirements) {a : Declaration}
    (ha : Sourced table a.requirements) :
    (d.absorb a).diagnostics = repeatedBackends d.backends a.backends := by
  cases a with
  | backend b => exact d.diagnostics_addBackend b
  | required entries => exact diagnostics_addAllRequired hd ha
  | _ => rfl

/-- Where no two sources differ, only repeated backends are complained about. -/
theorem diagnostics_foldlM_absorb {d : Draft} (hd : Sourced table d.requirements)
    {ds : List Declaration} (hds : Sourced table (ds.flatMap Declaration.requirements)) :
    (ds.foldlM absorb d).diagnostics =
      repeatedBackends d.backends (ds.flatMap Declaration.backends) := by
  induction ds generalizing d with
  | nil => rfl
  | cons a rest ih =>
    rw [List.flatMap_cons] at hds
    obtain ⟨ha, hrest⟩ := List.forall_mem_append.1 hds
    have hnext : Sourced table (d.plus [a]).requirements := by
      simpa only [plus, List.flatMap_singleton] using hd.foldl_takeUp ha
    have hbackends : (d.plus [a]).backends = a.backends.foldl keepBackend d.backends := by
      simp only [plus, List.flatMap_singleton]
    rw [List.foldlM_cons, Diagnosed.diagnostics_bind, diagnostics_absorb hd ha, value_absorb,
      ih hnext hrest, hbackends, List.flatMap_cons, repeatedBackends_append]

end Draft

/-! ### Resolving -/

/-- The complaints about a requirement. Its versions are not looked at without an address. -/
def Requirement.complaints (e : String × Requirement) : Diagnostics :=
  (RequiredProvider.address e.1 e.2.source).diagnostics ++
    if (RequiredProvider.address e.1 e.2.source).value.isSome then
      (versionConstraints e.2.versions).diagnostics
    else []

theorem Providers.diagnostics_addRequirement (ps : Providers) (e : String × Requirement) :
    (ps.addRequirement e.1 e.2).diagnostics = Requirement.complaints e := by
  rw [addRequirement, Diagnosed.diagnostics_bind, Requirement.complaints]
  cases (RequiredProvider.address e.1 e.2.source).value with
  | none => rfl
  | some p =>
    simp only [Diagnosed.diagnostics_bind, Diagnosed.diagnostics_pure, List.append_nil,
      Option.isSome_some, if_true]

theorem diagnostics_resolve (path : String) (filenames : List String) (d : Draft) :
    (resolve path filenames d).diagnostics =
      (d.core.flatMap fun v => (coreConstraints v).diagnostics) ++
        ((theBackend d.backends).diagnostics ++ d.requirements.flatMap Requirement.complaints) := by
  simp only [resolve, Providers.resolve, Diagnosed.diagnostics_bind, Diagnosed.diagnostics_pure,
    Diagnosed.diagnostics_mapM, Diagnosed.diagnostics_foldlM Providers.diagnostics_addRequirement,
    List.append_nil]

end EarlyConfig.ModuleConfig
