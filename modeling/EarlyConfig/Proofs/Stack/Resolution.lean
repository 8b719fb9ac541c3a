import EarlyConfig.Dialect.Stack.Resolve
import EarlyConfig.Proofs.Collecting
import EarlyConfig.Proofs.LookUps

/-! What becomes of the requirements of a stack. Each is resolved on its own: it is complained about
on its own (`diagnostics_resolve`), and what a name stands for depends on its requirement alone
(`get?_resolve`). -/
namespace EarlyConfig.StackConfig

/-- The constraints of a requirement; there are none without a version. -/
def Requirement.constraints (r : Requirement) : Diagnosed Constraints :=
  match r.version with
  | none => pure []
  | some version => RequiredProvider.constraints version

/-- The complaints about a requirement. Its version is not looked at without an address. -/
def Requirement.complaints (e : String × Requirement) : Diagnostics :=
  (RequiredProvider.address e.1 e.2.source).diagnostics ++
    if (RequiredProvider.address e.1 e.2.source).value.isSome then e.2.constraints.diagnostics
    else []

theorem addRequirement_eq (m : SortedMap String ProviderRequirement) (e : String × Requirement) :
    addRequirement m e.1 e.2 =
      ⟨((RequiredProvider.address e.1 e.2.source).value.map fun p =>
          m.insert e.1 ⟨p, e.2.constraints.value⟩).getD m,
        Requirement.complaints e⟩ := by
  rw [addRequirement, Requirement.complaints, Requirement.constraints]
  refine Diagnosed.ext ?_ ?_
  · rw [Diagnosed.value_bind]
    cases (RequiredProvider.address e.1 e.2.source).value with
    | none => rfl
    | some p => cases e.2.version <;> rfl
  · rw [Diagnosed.diagnostics_bind]
    cases (RequiredProvider.address e.1 e.2.source).value with
    | none => rfl
    | some p => cases e.2.version <;> simp

theorem diagnostics_resolve (path : String) (filenames : List String) (d : Draft) :
    (resolve path filenames d).diagnostics = d.requirements.flatMap Requirement.complaints := by
  have hstep : ∀ m e, (addRequirement m e.1 e.2).diagnostics = Requirement.complaints e :=
    fun m e => by rw [addRequirement_eq]
  simp only [resolve, Diagnosed.diagnostics_bind, Diagnosed.diagnostics_pure, List.append_nil,
    Diagnosed.diagnostics_foldlM hstep]

/-- The induction is over the requirements still to come, each of a name of its own. -/
theorem get?_addRequirements {rs : List (String × Requirement)} (hnames : (Entries.keys rs).Nodup)
    (m : SortedMap String ProviderRequirement) (name : String) :
    (rs.foldl (fun m e => (addRequirement m e.1 e.2).value) m).get? name =
      ((Entries.get? name rs).bind fun r =>
        (RequiredProvider.address name r.source).value.map fun p =>
          (⟨p, r.constraints.value⟩ : ProviderRequirement)).or (m.get? name) := by
  induction rs generalizing m with
  | nil => simp [Entries.get?]
  | cons e rest ih =>
    obtain ⟨hnew, hnames⟩ := List.nodup_cons.1 hnames
    rw [List.foldl_cons, ih hnames, addRequirement_eq, Entries.get?]
    by_cases hname : e.1 = name
    · subst hname
      rw [Entries.get?_eq_none.2 hnew, if_pos rfl, Option.bind_some]
      cases (RequiredProvider.address e.1 e.2.source).value <;> simp
    · rw [if_neg hname]
      cases (RequiredProvider.address e.1 e.2.source).value <;> simp [hname]

theorem get?_resolve (path : String) (filenames : List String) {d : Draft}
    (hnames : (Entries.keys d.requirements).Nodup) (name : String) :
    (resolve path filenames d).value.providerRequirements.get? name =
      (Entries.get? name d.requirements).bind fun r =>
        (RequiredProvider.address name r.source).value.map fun p => ⟨p, r.constraints.value⟩ := by
  simp only [resolve, Diagnosed.value_bind, Diagnosed.value_pure, Diagnosed.value_foldlM]
  rw [get?_addRequirements hnames]
  simp

end EarlyConfig.StackConfig
