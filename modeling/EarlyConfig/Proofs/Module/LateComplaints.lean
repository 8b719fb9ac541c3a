import EarlyConfig.Dialect.Module.Resolve
import EarlyConfig.Proofs.FirstTexts

/-! The complaints about a module as a whole. What is said of its blocks on their own and when
declarations are taken up has summaries of its own, so a kind of complaint that comes up only when
all is resolved is read off what was collected (`filter_diagnostics_load`). -/
namespace EarlyConfig.ModuleConfig

open Diagnosed (Early Reports)
open Hcl (Block)

/-! ### Declarations -/

namespace Declaration

variable (file : String) (b : Block)

theorem ofSetting_early : Early (ofSetting file b) := by
  unfold ofSetting
  split
  · exact (Backend.decode_early file b).bind fun _ => .pure
  · exact (Cloud.decode_early file b).bind fun _ => .pure
  · exact (RequiredProvider.decode_early file b).bind fun _ => .pure
  · exact .pure

theorem ofSettings_early : ∀ x ∈ ofSettings file b, Early x := by
  intro x hx
  rcases List.mem_cons.1 hx with rfl | hx
  · exact Schema.select_early file _ b.body
  rcases List.mem_cons.1 hx with rfl | hx
  · exact (Hcl.Body.placed?_early file _ _).bind fun _ => .pure
  · obtain ⟨inner, -, rfl⟩ := List.mem_map.1 hx
    exact ofSetting_early file inner

theorem ofProvider_early : Early (ofProvider file b) := by
  unfold ofProvider
  refine (Schema.select_early file _ b.body).bind fun content => ?_
  refine (Hcl.Body.placed?_early file content "version").bind fun version => ?_
  exact (Hcl.Body.string_early file content "alias").bind fun _ => .pure

theorem ofResource_early : Early (ofResource file b) := by
  unfold ofResource
  refine (Schema.select_early file _ b.body).bind fun content => ?_
  exact (ProviderRef.argument_early file content).bind fun _ => .pure

theorem ofVariable_early : Early (ofVariable file b) := by
  unfold ofVariable
  refine (Block.name?_early file 0 b).bind fun name => ?_
  cases name with
  | none => exact .pure
  | some name =>
    refine (Schema.select_early file _ b.body).bind fun content => ?_
    exact (Variable.decode_early file content).bind fun _ => .pure

theorem ofOutput_early : Early (ofOutput file b) := by
  unfold ofOutput
  refine (Block.name?_early file 0 b).bind fun name => ?_
  cases name with
  | none => exact .pure
  | some name =>
    refine (Schema.select_early file _ b.body).bind fun content => ?_
    refine (Hcl.Body.string_early file content "description").bind fun description => ?_
    exact (Hcl.Body.bool_early file content "sensitive").bind fun _ => .pure

theorem ofCall_early : Early (ofCall file b) := by
  unfold ofCall
  refine (Block.name?_early file 0 b).bind fun name => ?_
  cases name with
  | none => exact .pure
  | some name =>
    refine (Schema.select_early file _ b.body).bind fun content => ?_
    exact (ModuleOrigin.decode_early file content).bind fun _ => .pure

theorem ofBlock_early : ∀ x ∈ ofBlock file b, Early x := by
  unfold ofBlock
  split
  · exact ofSettings_early file b
  · exact List.forall_mem_singleton.2 (ofProvider_early file b)
  · exact List.forall_mem_singleton.2 (ofResource_early file b)
  · exact List.forall_mem_singleton.2 (ofResource_early file b)
  · exact List.forall_mem_singleton.2 (ofResource_early file b)
  · exact List.forall_mem_singleton.2 (ofVariable_early file b)
  · exact List.forall_mem_singleton.2 (ofOutput_early file b)
  · exact List.forall_mem_singleton.2 (ofCall_early file b)
  · exact fun _ hx => nomatch hx

end Declaration

theorem early_of_mem_complaints {files : FileSet} {d : Diagnostic}
    (h : d ∈ dialect.complaints files) : d.Early := by
  rw [dialect.complaints_eq] at h
  obtain ⟨f, -, h⟩ := List.mem_flatMap.1 h
  rcases List.mem_append.1 h with h | h
  · exact Schema.select_early f.1 _ f.2 d h
  · obtain ⟨b, -, h⟩ := List.mem_flatMap.1 h
    obtain ⟨x, hx, h⟩ := List.mem_flatMap.1 h
    exact Declaration.ofBlock_early f.1 b x hx d h

/-! ### Taking up declarations -/

/-- The complaints that come up when declarations are taken up. -/
def takingUp : List String :=
  ["Multiple backend definitions", "Multiple provider source attributes"]

namespace Draft

theorem addBackend_reports (d : Draft) (backend : Placed Backend) :
    Reports (·.summary ∈ takingUp) (d.addBackend backend) := by
  unfold addBackend
  dsimp only
  split
  · refine .complain ?_ .pure
    simp [multipleBackends, Diagnostic.error, takingUp]
  · exact .pure

theorem addRequired_reports (d : Draft) (p : RequiredProvider) :
    Reports (·.summary ∈ takingUp) (d.addRequired p) := by
  have hmerge : Reports (·.summary ∈ takingUp) (p.mergeSource (d.requirement p.name).source) := by
    intro e he
    have hsummary := RequiredProvider.mergeSource_reports _ p e he
    simp [hsummary, RequiredProvider.sourceSummary, takingUp]
  exact hmerge.bind fun _ => .pure

theorem absorb_reports (d : Draft) (a : Declaration) :
    Reports (·.summary ∈ takingUp) (d.absorb a) := by
  cases a with
  | backend backend => exact d.addBackend_reports backend
  | required entries => exact .foldlM addRequired_reports entries d
  | _ => exact .pure

end Draft

/-! ### Runs -/

section

variable (path : String) (files : FileSet) {p : Diagnostic → Bool}
  (hearly : ∀ d : Diagnostic, d.Early → p d = false)
include hearly

/-- Complaints of a kind that no block makes on its own come up when declarations are taken up or
when all is resolved. -/
theorem filter_diagnostics_rounds :
    (load path files).diagnostics.filter p =
      ((dialect.declared files).foldlM Draft.absorb {}).diagnostics.filter p ++
        (resolve path files.sortedNames (dialect.collected files)).diagnostics.filter p := by
  have hload : (load path files).diagnostics =
      (dialect.collect dialect.start
        (files.flatMap fun f => dialect.declarations f.1 f.2)).diagnostics ++
        (resolve path files.sortedNames (dialect.collected files)).diagnostics := rfl
  have hcomplaints : ∀ x ∈ files.flatMap fun f => dialect.declarations f.1 f.2,
      ∀ d ∈ x.diagnostics, p d = false := by
    intro x hx d hd
    obtain ⟨f, hf, hx⟩ := List.mem_flatMap.1 hx
    have hmem : d ∈ dialect.complaints files :=
      List.mem_flatMap.2 ⟨f, hf, List.mem_flatMap.2 ⟨x, hx, hd⟩⟩
    exact hearly d (early_of_mem_complaints hmem)
  rw [hload, List.filter_append, dialect.filter_diagnostics_collect hcomplaints]
  rfl

/-- Complaints of a kind that only resolving makes. -/
theorem filter_diagnostics_load (htaken : ∀ d : Diagnostic, d.summary ∈ takingUp → p d = false) :
    (load path files).diagnostics.filter p =
      (resolve path files.sortedNames (dialect.collected files)).diagnostics.filter p := by
  have hquiet : ((dialect.declared files).foldlM Draft.absorb {}).diagnostics.filter p = [] := by
    refine List.filter_eq_nil_iff.2 fun d hd => Bool.eq_false_iff.1 ?_
    exact htaken d (Reports.foldlM Draft.absorb_reports _ _ d hd)
  rw [filter_diagnostics_rounds path files hearly, hquiet, List.nil_append]

end

end EarlyConfig.ModuleConfig
