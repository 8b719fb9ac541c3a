import EarlyConfig.Dialect.Backend
import EarlyConfig.Dialect.ModuleOrigin
import EarlyConfig.Dialect.RequiredProvider
import EarlyConfig.Dialect.Variable
import EarlyConfig.Provider.Argument

/-! Complaints by the time at which they come up. Some can be made about a block on its own, others
only once the declarations of all files are put together, and what they say tells the two apart:
each decoder that dialects share is taken through its steps once, and none makes a complaint of the
later kind (`Diagnostic.Early`). So what a run reports about its files as a whole can be picked out
of all that it reports. -/
namespace EarlyConfig

/-! ### Kinds of complaints -/

namespace Diagnostic

/-- The summaries of complaints about declarations that are put together. -/
def lateSummaries : List String := [
  "Invalid provider source",
  "Invalid provider version constraint",
  "Multiple backend definitions",
  "Multiple provider source attributes",
  "Multiple provider version attributes",
  "Unable to parse backend configuration"]

/-- The summary that complaints about versions of the program share with those about versions of
modules. -/
def versionSummary : String := "Invalid version constraint"

/-- Whether a complaint is about the version of the program itself. -/
def aboutCore (d : Diagnostic) : Bool :=
  d.summary = versionSummary &&
    "Unable to parse core version constraint ".toList.isPrefixOf d.detail.toList

/-- A complaint that can be made about a block on its own. -/
structure Early (d : Diagnostic) : Prop where
  summary : d.summary ∉ lateSummaries
  notCore : d.aboutCore = false

theorem aboutCore_eq_false {d : Diagnostic} (h : d.summary ≠ versionSummary) :
    d.aboutCore = false := by
  simp [aboutCore, h]

theorem early_of_summary {d : Diagnostic} (h : d.summary ∉ versionSummary :: lateSummaries) :
    d.Early where
  summary hlate := h (List.mem_cons_of_mem _ hlate)
  notCore := aboutCore_eq_false fun heq => h (heq ▸ List.mem_cons_self ..)

theorem early_error {summary : String} (h : summary ∉ versionSummary :: lateSummaries)
    (detail : String) (range : SourceRange) : (error summary detail range).Early :=
  early_of_summary h

/-- A summary with a part that depends on the block is known by how it starts. -/
theorem early_of_start {d : Diagnostic} (start rest : String) (h : d.summary = start ++ rest)
    (hstart : ∀ s ∈ versionSummary :: lateSummaries, ¬start.toList <+: s.toList) : d.Early := by
  refine early_of_summary fun hmem => hstart _ hmem ?_
  rw [h, String.toList_append]
  exact List.prefix_append ..

/-- The same, if it is known by how it ends. -/
theorem early_of_end {d : Diagnostic} (rest finish : String) (h : d.summary = rest ++ finish)
    (hfinish : ∀ s ∈ versionSummary :: lateSummaries, ¬finish.toList <:+ s.toList) : d.Early := by
  refine early_of_summary fun hmem => hfinish _ hmem ?_
  rw [h, String.toList_append]
  exact List.suffix_append ..

/-- A complaint about a version is early if it does not say that it is about the program. -/
theorem early_version (start rest : String) (range : SourceRange)
    (hlong : ¬"Unable to parse core version constraint ".toList <+: start.toList)
    (hshort : ¬start.toList <+: "Unable to parse core version constraint ".toList) :
    (error versionSummary (start ++ rest) range).Early where
  summary := by
    simp only [error]
    decide
  notCore := by
    have hdetail : "Unable to parse core version constraint ".toList.isPrefixOf
        (start ++ rest).toList = false := by
      rw [Bool.eq_false_iff, ne_eq, List.isPrefixOf_iff_prefix, String.toList_append]
      intro h
      -- Both texts begin the detail, so one of them begins the other.
      rcases List.prefix_or_prefix_of_prefix h (List.prefix_append ..) with h | h
      · exact hlong h
      · exact hshort h
    rw [aboutCore, error, hdetail, Bool.and_false]

end Diagnostic

/-! ### Complaints with one summary -/

namespace Diagnostics

variable {ds : Diagnostics} {summary : String} (h : ∀ d ∈ ds, d.summary = summary)
include h

/-- They are picked out together or not at all. -/
theorem filter_summary (other : String) :
    (ds.filter fun d => d.summary = other) = if summary = other then ds else [] := by
  split
  · rename_i heq
    exact List.filter_eq_self.2 fun d hd => decide_eq_true ((h d hd).trans heq)
  · rename_i hne
    exact List.filter_eq_nil_iff.2 fun d hd heq => hne ((h d hd).symm.trans (of_decide_eq_true heq))

end Diagnostics

/-! ### Runs -/

namespace Diagnosed

/-- All that the run complains about is of a kind. -/
def Reports (P : Diagnostic → Prop) (x : Diagnosed α) : Prop :=
  ∀ d ∈ x.diagnostics, P d

/-- All that the run complains about could be said of a block on its own. -/
abbrev Early (x : Diagnosed α) : Prop :=
  x.Reports Diagnostic.Early

namespace Reports

variable {P : Diagnostic → Prop} {α β σ : Type}

theorem pure {a : α} : Reports P (Pure.pure a) :=
  fun _ hd => nomatch hd

theorem report {d : Diagnostic} (h : P d) : Reports P (report d) :=
  fun e he => by rwa [List.mem_singleton.1 he]

theorem reject {d : Diagnostic} (h : P d) : Reports P (reject d : Diagnosed (Option α)) :=
  fun e he => by rwa [List.mem_singleton.1 he]

theorem bind {x : Diagnosed α} (h : Reports P x) {k : α → Diagnosed β}
    (hk : ∀ a, Reports P (k a)) : Reports P (x >>= k) :=
  List.forall_mem_append.2 ⟨h, hk x.value⟩

/-- A run that goes on after a complaint. -/
theorem complain {d : Diagnostic} (h : P d) {k : Unit → Diagnosed β} (hk : Reports P (k ())) :
    Reports P (Diagnosed.report d >>= k) :=
  (report h).bind fun _ => hk

theorem mapM {k : α → Diagnosed β} (h : ∀ a, Reports P (k a)) (xs : List α) :
    Reports P (xs.mapM k) := by
  induction xs with
  | nil => exact pure
  | cons a rest ih =>
    rw [List.mapM_cons]
    exact (h a).bind fun _ => ih.bind fun _ => pure

theorem foldlM {k : σ → α → Diagnosed σ} (h : ∀ s a, Reports P (k s a)) (xs : List α) (s : σ) :
    Reports P (xs.foldlM k s) := by
  induction xs generalizing s with
  | nil => exact pure
  | cons a rest ih =>
    rw [List.foldlM_cons]
    exact (h s a).bind ih

theorem forM {k : α → Diagnosed PUnit} (h : ∀ a, Reports P (k a)) (xs : List α) :
    Reports P (xs.forM k) := by
  induction xs with
  | nil => exact pure
  | cons a rest ih => exact (h a).bind fun _ => ih

end Reports

end Diagnosed

open Diagnosed (Early)

variable (file : String)

/-! ### Schemas -/

namespace Schema

open Hcl (Block Body Item)

theorem labelProblem_early {expected : BlockSchema} {b : Block} {d : Diagnostic}
    (h : labelProblem file expected b = some d) : d.Early := by
  unfold labelProblem at h
  dsimp only at h
  split at h
  · cases h
    rename_i missing _ _
    refine Diagnostic.early_of_start "Missing " (missing ++ (" for " ++ expected.kind)) ?_
      (by decide)
    simp only [missingLabel, String.append_assoc]
  · cases h
    exact Diagnostic.early_of_start "Extraneous label for " _ rfl (by decide)
  · cases h

theorem problem_early (s : Schema) {item : Item} {d : Diagnostic}
    (h : s.problem file item = some d) : d.Early := by
  unfold problem at h
  split at h
  · split at h
    · cases h
      exact Diagnostic.early_error (by decide) _ _
    · cases h
  · dsimp only at h
    split at h
    · exact labelProblem_early file h
    · split at h
      · cases h
        exact Diagnostic.early_error (by decide) _ _
      · cases h

theorem select_early (s : Schema) (body : Body) : Early (s.select file body) := by
  intro d hd
  rcases List.mem_append.1 hd with hd | hd
  · obtain ⟨item, -, hproblem⟩ := List.mem_filterMap.1 hd
    exact problem_early file s hproblem
  · obtain ⟨name, -, rfl⟩ := List.mem_map.1 hd
    refine Diagnostic.early_of_summary ?_
    simp only [missingAttribute]
    decide

end Schema

/-! ### Attributes -/

namespace Hcl

theorem Attribute.decode_early (t : Ty) (a : Attribute) : Early (a.decode file t) := by
  unfold decode
  split
  · exact .pure
  · split
    · exact .pure
    · split
      · exact .pure
      · exact .reject (Diagnostic.early_error (by decide) _ _)

theorem Attribute.string?_early (a : Attribute) : Early (a.string? file) :=
  (decode_early file .string a).bind fun _ => .pure

theorem Attribute.bool?_early (a : Attribute) : Early (a.bool? file) :=
  (decode_early file .bool a).bind fun _ => .pure

namespace Body

variable (b : Body) (name : String)

theorem string?_early : Early (b.string? file name) := by
  unfold string?
  split
  · exact .pure
  · exact Attribute.string?_early file _

theorem placed?_early : Early (b.placed? file name) := by
  unfold placed?
  split
  · exact .pure
  · exact (Attribute.string?_early file _).bind fun _ => .pure

theorem string_early : Early (b.string file name) :=
  (string?_early file b name).bind fun _ => .pure

theorem bool_early : Early (b.bool file name) := by
  unfold bool
  split
  · exact .pure
  · exact (Attribute.bool?_early file _).bind fun _ => .pure

end Body

theorem Block.name?_early (n : Nat) (b : Block) : Early (b.name? file n) := by
  unfold Block.name?
  split
  · exact .reject (Diagnostic.early_of_end _ " name" rfl (by decide))
  · exact .pure

end Hcl

/-! ### Variables -/

namespace Variable

open Hcl (Attribute Body)

theorem decodeType_early (a : Attribute) : Early (decodeType file a) := by
  unfold decodeType
  split
  · split
    · refine .complain (Diagnostic.early_of_summary ?_) .pure
      simp only [quotedType]
      decide
    · exact .complain (Diagnostic.early_error (by decide) _ _) .pure
  · split
    · exact .pure
    · exact .complain (Diagnostic.early_error (by decide) _ _) .pure

theorem decodeTypeOf_early (b : Body) : Early (decodeTypeOf file b) := by
  unfold decodeTypeOf
  split
  · exact .pure
  · exact decodeType_early file _

theorem decodeDefault_early (t : Ty) (defaults : Option Defaults) (a : Attribute) :
    Early (decodeDefault file t defaults a) := by
  unfold decodeDefault
  split
  · exact .pure
  · split
    · exact .pure
    · exact .complain (Diagnostic.early_error (by decide) _ _) .pure

theorem decode_early (b : Body) : Early (decode file b) := by
  unfold decode
  refine (Body.string_early file b "description").bind fun description => ?_
  refine (decodeTypeOf_early file b).bind fun type => ?_
  refine (Body.bool_early file b "sensitive").bind fun sensitive => ?_
  refine (Body.bool_early file b "ephemeral").bind fun ephemeral => ?_
  split
  · exact .pure
  · exact (decodeDefault_early file _ _ _).bind fun _ => .pure

end Variable

/-! ### Origins, provider arguments and backends -/

theorem ModuleOrigin.decodeVersion_early (a : Hcl.Attribute) : Early (decodeVersion file a) := by
  unfold decodeVersion
  refine (Hcl.Attribute.string?_early file a).bind fun text => ?_
  split
  · exact .pure
  · split
    · exact .pure
    · refine .reject ?_
      unfold invalidVersion
      simp only [String.append_assoc]
      exact Diagnostic.early_version _ _ _ (by decide) (by decide)

theorem ModuleOrigin.decode_early (b : Hcl.Body) : Early (decode file b) := by
  unfold decode
  refine (Hcl.Body.string_early file b "source").bind fun source => ?_
  cases b.attribute? "version" with
  | none => exact .pure
  | some a => exact (decodeVersion_early file a).bind fun _ => .pure

theorem ProviderRef.argument_early (b : Hcl.Body) : Early (argument file b) := by
  unfold argument
  split
  · exact .pure
  · split
    · exact .pure
    · rename_i e _
      cases e <;> exact .reject (Diagnostic.early_error (by decide) _ _)

theorem Backend.decode_early (b : Hcl.Block) : Early (decode file b) := by
  unfold decode
  split
  · exact (Schema.select_early file _ b.body).bind fun _ => .pure
  · exact .pure

theorem Cloud.decode_early (b : Hcl.Block) : Early (decode file b) :=
  (Schema.select_early file _ b.body).bind fun _ => .pure

/-! ### Required providers -/

namespace RequiredProvider

open Hcl (Attribute Block Expr Located)

theorem decodeAlias_early (name : String) (e : Located Expr) :
    Early (decodeAlias file name e) := by
  unfold decodeAlias
  split
  · rename_i err _
    cases err <;> exact .reject (Diagnostic.early_error (by decide) _ _)
  · split
    · exact .pure
    · exact .reject (Diagnostic.early_error (by decide) _ _)

theorem decodeAliases_early (name : String) (e : Located Expr) :
    Early (decodeAliases file name e) := by
  unfold decodeAliases
  split
  · exact (Diagnosed.Reports.mapM (decodeAlias_early file name) _).bind fun _ => .pure
  · exact .complain (Diagnostic.early_error (by decide) _ _) .pure

theorem addSetting_early (p : RequiredProvider) (key value : Located Expr) :
    Early (p.addSetting file key value) := by
  unfold addSetting
  dsimp only
  split
  · split
    · exact .pure
    · refine .complain ?_ .pure
      exact Diagnostic.early_version "Version must be specified as a string." "" _ (by decide)
        (by decide)
  · split
    · exact .pure
    · exact .complain (Diagnostic.early_error (by decide) _ _) .pure
  · exact (decodeAliases_early file p.name value).bind fun _ => .pure
  · exact .complain (Diagnostic.early_error (by decide) _ _) .pure

theorem decodeEntry_early (a : Attribute) : Early (decodeEntry file a) := by
  unfold decodeEntry
  dsimp only
  split
  · refine (Diagnosed.Reports.foldlM ?_ _ _).bind fun _ => .pure
    exact fun p setting => addSetting_early file p setting.1 setting.2
  · split
    · exact .pure
    · exact .reject (Diagnostic.early_error (by decide) _ _)

theorem unexpectedBlock_early (b : Block) : (unexpectedBlock file b).Early := by
  refine Diagnostic.early_of_start "Unexpected " (Text.quote b.kind ++ " block") ?_ (by decide)
  simp only [unexpectedBlock, Diagnostic.error, String.append_assoc]

theorem decode_early (b : Block) : Early (decode file b) := by
  unfold decode
  refine (Diagnosed.Reports.forM (fun nested => ?_) _).bind fun _ => ?_
  · exact .report (unexpectedBlock_early file nested)
  · exact (Diagnosed.Reports.mapM (decodeEntry_early file) _).bind fun _ => .pure

end RequiredProvider

end EarlyConfig
