import EarlyConfig.Dialect.Module.Resolve
import EarlyConfig.Dialect.PolicyTest
import EarlyConfig.Dialect.Search
import EarlyConfig.Dialect.Stack.Resolve
import EarlyConfig.Dialect.Test
import EarlyConfig.Proofs.LookUps
import EarlyConfig.Proofs.Ranges.Decoding

/-! Diagnostics point into the files. What a dialect complains about is at a place of the syntax in
hand, or at one that a declaration or a draft remembers from syntax that is gone (`Pointing`). So
every diagnostic of every dialect has a subject, and names a part of the text of a file that was
loaded (`diagnostics_in_files`). -/
namespace EarlyConfig

open Diagnosed (Sound Points)
open Hcl (Block)

/-! ### Dialects -/

namespace Dialect

variable {δ σ μ : Type}

/-- No step of a dialect complains at other places, nor do declarations and drafts remember others.
The root asks for no attributes, so none can be missing from it. -/
structure Pointing (d : Dialect δ σ μ) (P : SourceRange → Prop) (D : δ → Prop) (I : σ → Prop) :
    Prop where
  root : d.root.attributes = []
  declare : ∀ {file : String} {n : Nat} {b : Block}, Covers P file n → b.Within n →
    d.root.admitsBlock b → ∀ x ∈ d.declare file b, x.Sound P fun o => ∀ a, o = some a → D a
  start : I d.start
  absorb : ∀ s, I s → ∀ a, D a → (d.absorb s a).Sound P I
  resolve : ∀ path filenames s, I s → Points P (d.resolve path filenames s)

namespace Pointing

variable {d : Dialect δ σ μ} {P : SourceRange → Prop} {D : δ → Prop} {I : σ → Prop}
  (h : d.Pointing P D I)
include h

theorem declarations {file : String} {n : Nat} (hP : Covers P file n) {body : Hcl.Body}
    (hbody : Hcl.Body.Within n body) :
    ∀ x ∈ d.declarations file body, x.Sound P fun o => ∀ a, o = some a → D a := by
  have hroot : ∀ a ∈ d.root.attributes, a.required = false := by
    rw [h.root]
    exact fun _ ha => nomatch ha
  have hselect := Schema.select_sound hP hroot hbody
  intro x hx
  rcases List.mem_cons.1 hx with rfl | hx
  · exact ⟨nofun, hselect.diagnostics⟩
  · obtain ⟨b, hb, hx⟩ := List.mem_flatMap.1 hx
    have hadmits := hb
    rw [Schema.blocks_select] at hadmits
    exact h.declare hP (hselect.value.mem_blocks hb) (List.mem_filter.1 hadmits).2 x hx

theorem take {s : σ} (hs : I s) {x : Diagnosed (Option δ)}
    (hx : x.Sound P fun o => ∀ a, o = some a → D a) : (d.take s x).Sound P I := by
  unfold Dialect.take
  refine hx.bind fun o ho => ?_
  cases o with
  | none => exact .pure hs
  | some a => exact h.absorb s hs a (ho a rfl)

theorem load {files : FileSet} {size : String → Nat} (hP : ∀ f ∈ files, Covers P f.1 (size f.1))
    (hfiles : ∀ f ∈ files, Hcl.Body.Within (size f.1) f.2) (path : String) :
    Points P (d.load path files) := by
  have hcollect : Sound P I
      (d.collect d.start (files.flatMap fun f => d.declarations f.1 f.2)) := by
    refine Sound.foldlM (fun s hs x hx => ?_) h.start
    obtain ⟨f, hf, hx⟩ := List.mem_flatMap.1 hx
    exact h.take hs (h.declarations (hP f hf) (hfiles f hf) x hx)
  exact hcollect.bind fun s hs => h.resolve path files.sortedNames s hs

end Pointing

end Dialect

/-- As many labels as the schema asks for are there. -/
theorem Schema.label_lt {s : Schema} {b : Block} {kind : String} {k : Nat} (h : s.admitsBlock b)
    (hkind : b.kind = kind)
    (hs : (s.block? kind).all (fun expected => k < expected.labels.length) = true) :
    k < b.header.labels.length := by
  rw [admitsBlock, hkind] at h
  cases he : s.block? kind with
  | none =>
    rw [he] at h
    cases h
  | some expected =>
    rw [he] at h hs
    have hlength : expected.labels.length = b.header.labels.length := of_decide_eq_true h
    have hlt : k < expected.labels.length := of_decide_eq_true hs
    omega

section

variable {P : SourceRange → Prop} {D : δ → Prop}

theorem Diagnosed.Sound.pure_none : Sound P (fun o => ∀ a, o = some a → D a) (Pure.pure none) :=
  .pure nofun

/-- A block that declares something under the name in a label. -/
theorem Diagnosed.Sound.named {file : String} {n k : Nat} (hP : Covers P file n) {b : Block}
    (hb : b.Within n) (hk : k < b.header.labels.length) {declare : String → Diagnosed (Option δ)}
    (h : ∀ name, (declare name).Sound P fun o => ∀ a, o = some a → D a) :
    Sound P (fun o => ∀ a, o = some a → D a) (do
      let some name ← b.name? file k | return none
      declare name) := by
  refine (Block.name?_points hP hb hk).bind fun name _ => ?_
  cases name with
  | none => exact .pure_none
  | some name => exact h name

end

variable {P : SourceRange → Prop} {file : String} {n : Nat} {b : Block}

/-! ### Policy tests -/

namespace PolicyTestConfig

namespace Declaration

theorem keyed_sound (hP : Covers P file n) (hb : b.Within n) (kind : Kind) (key : String) :
    (keyed file kind key b).Sound P fun o => ∀ a, o = some a → True := by
  have hfixture : Points P (decodeFixture file b) := by
    unfold decodeFixture
    refine (Schema.select_sound hP (by decide) hb.body).bind fun content hcontent => ?_
    exact (Hcl.Body.bool_points hP hcontent "expect_failure").bind fun _ _ => .pure trivial
  exact hfixture.bind fun _ _ => .pure_some trivial

theorem ofBlock_sound (hP : Covers P file n) (hb : b.Within n)
    (hadmits : Schema.policyTestRoot.admitsBlock b) :
    (ofBlock file b).Sound P fun o => ∀ a, o = some a → True := by
  unfold ofBlock
  split
  · exact keyed_sound hP hb _ _
  · exact keyed_sound hP hb _ _
  · rename_i hkind
    exact .named hP hb (Schema.label_lt hadmits hkind rfl) fun _ => keyed_sound hP hb _ _
  · rename_i hkind
    exact .named hP hb (Schema.label_lt hadmits hkind rfl) fun _ => keyed_sound hP hb _ _
  · exact .pure_none

end Declaration

theorem pointing (P : SourceRange → Prop) :
    dialect.Pointing P (fun _ => True) (fun _ => True) where
  root := rfl
  declare hP hb hadmits x hx := by
    rw [List.mem_singleton.1 hx]
    exact Declaration.ofBlock_sound hP hb hadmits
  start := trivial
  absorb _ _ _ _ := .pure trivial
  resolve _ _ _ _ := .pure trivial

end PolicyTestConfig

/-! ### Searches -/

namespace SearchConfig

namespace Declaration

theorem ofBlock_sound (hP : Covers P file n) (hb : b.Within n)
    (hadmits : Schema.searchRoot.admitsBlock b) :
    (ofBlock file b).Sound P fun o => ∀ a, o = some a → True := by
  unfold ofBlock
  split
  · refine (Schema.select_sound hP (by decide) hb.body).bind fun content hcontent => ?_
    exact (ProviderRef.argument_points hP hcontent).bind fun _ _ => .pure_some trivial
  · refine (Schema.select_sound hP (by decide) hb.body).bind fun content hcontent => ?_
    exact (Hcl.Body.string_points hP hcontent "alias").bind fun _ _ => .pure_some trivial
  · rename_i hkind
    refine .named hP hb (Schema.label_lt hadmits hkind rfl) fun name => ?_
    refine (Schema.select_sound hP (by decide) hb.body).bind fun content hcontent => ?_
    exact (Variable.decode_points hP hcontent).bind fun _ _ => .pure_some trivial
  · exact .pure_none

end Declaration

theorem pointing (P : SourceRange → Prop) :
    dialect.Pointing P (fun _ => True) (fun _ => True) where
  root := rfl
  declare hP hb hadmits x hx := by
    rw [List.mem_singleton.1 hx]
    exact Declaration.ofBlock_sound hP hb hadmits
  start := trivial
  absorb _ _ a _ := by
    cases a <;> exact .pure trivial
  resolve _ _ _ _ := .pure trivial

end SearchConfig

/-! ### Tests -/

namespace TestConfig

theorem decodeCommand_points (hP : Covers P file n) {a : Option Hcl.Attribute}
    (ha : ∀ x, a = some x → x.Within n) : Points P (decodeCommand file a) := by
  unfold decodeCommand
  split
  · exact .pure trivial
  · rename_i x
    split
    · exact .pure trivial
    · have hrange : P (x.range file) := (ha x rfl).range hP
      exact .complain hrange (.pure trivial)

/-- A diagnostic without any place gets one, and the others keep theirs. -/
theorem placeAt_sound {Q : α → Prop} {x : Diagnosed α} {r : SourceRange} (hr : P r)
    (hvalue : Q x.value)
    (hx : ∀ d ∈ x.diagnostics, d.PointsAt P ∨ d.subject = none ∧ d.context = none) :
    (placeAt r x).Sound P Q := by
  refine ⟨hvalue, fun e he => ?_⟩
  obtain ⟨d, hd, rfl⟩ := List.mem_map.1 he
  rcases hx d hd with hpoints | ⟨hsubject, hcontext⟩
  · obtain ⟨s, hs, hPs⟩ := hpoints.subject
    exact ⟨⟨s, by simp [hs], hPs⟩, hpoints.context⟩
  · refine ⟨⟨r, by simp [hsubject], hr⟩, fun s hs => ?_⟩
    rw [hcontext] at hs
    cases hs

theorem Run.add_points (hP : Covers P file n) (hb : b.Within n) (r : Run) :
    Points P (r.add file b) := by
  unfold Run.add
  split
  · have hcontent : (placeAt (b.range file) (Schema.runModule.select file b.body)).Sound P
        (Hcl.Body.Within n) := by
      refine placeAt_sound (hb.range hP) (hb.body.filter _) fun d hd => ?_
      rcases Schema.mem_diagnostics_select hP Schema.runModule hb.body hd with hpoints | ⟨_, _, rfl⟩
      · exact .inl hpoints
      · exact .inr ⟨rfl, rfl⟩
    refine hcontent.bind fun content hcontent => ?_
    exact (ModuleOrigin.decode_points hP hcontent).bind fun _ _ => .pure trivial
  · exact .pure trivial
  · exact .pure trivial
  · exact .pure trivial

theorem Run.decode_points (hP : Covers P file n) (hb : b.Within n) :
    Points P (Run.decode file b) := by
  unfold Run.decode
  refine (Schema.select_sound hP (by decide) hb.body).bind fun content hcontent => ?_
  refine (decodeCommand_points hP fun x hx => hcontent.attribute? hx).bind fun command _ => ?_
  exact Sound.foldlM (fun r _ inner hinner => Run.add_points hP (hcontent.mem_blocks hinner) r)
    trivial

namespace Declaration

theorem ofProvider_sound (hP : Covers P file n) (hb : b.Within n) (mock : Bool) :
    (ofProvider file mock b).Sound P fun o => ∀ a, o = some a → True := by
  unfold ofProvider
  refine (Schema.select_sound hP (by decide) hb.body).bind fun content hcontent => ?_
  refine (Hcl.Body.string_points hP hcontent "alias").bind fun _ _ => ?_
  exact (Hcl.Body.string_points hP hcontent "source").bind fun _ _ => .pure_some trivial

theorem ofBlock_sound (hP : Covers P file n) (hb : b.Within n)
    (hadmits : Schema.testRoot.admitsBlock b) :
    (ofBlock file b).Sound P fun o => ∀ a, o = some a → True := by
  unfold ofBlock
  split
  · rename_i hkind
    refine .named hP hb (Schema.label_lt hadmits hkind rfl) fun name => ?_
    exact (Run.decode_points hP hb).bind fun _ _ => .pure_some trivial
  · exact .pure_some trivial
  · exact ofProvider_sound hP hb false
  · exact ofProvider_sound hP hb true
  · exact .pure_none

end Declaration

theorem pointing (P : SourceRange → Prop) :
    dialect.Pointing P (fun _ => True) (fun _ => True) where
  root := rfl
  declare hP hb hadmits x hx := by
    rw [List.mem_singleton.1 hx]
    exact Declaration.ofBlock_sound hP hb hadmits
  start := trivial
  absorb _ _ _ _ := .pure trivial
  resolve _ _ _ _ := .pure trivial

end TestConfig

/-! ### Stacks -/

namespace StackConfig

/-- The places that a declaration remembers. -/
def Declaration.At (P : SourceRange → Prop) : Declaration → Prop
  | .required ps => ∀ p ∈ ps, p.At P
  | _ => True

structure Requirement.At (P : SourceRange → Prop) (r : Requirement) : Prop where
  source : ∀ s, r.source = some s → P s.range
  version : ∀ v, r.version = some v → P v.range

def Draft.At (P : SourceRange → Prop) (d : Draft) : Prop :=
  ∀ r ∈ d.requirements, r.2.At P

namespace Declaration

theorem named_sound (hP : Covers P file n) (hb : b.Within n) {k : Nat}
    (hk : k < b.header.labels.length) {declare : String → Diagnosed Declaration}
    (h : ∀ name, (declare name).Sound P (At P)) :
    (named file k b declare).Sound P fun o => ∀ a, o = some a → a.At P :=
  .named hP hb hk fun name => (h name).bind fun _ ha => .pure_some ha

theorem ofComponent_sound (hP : Covers P file n) (hb : b.Within n) (name : String) :
    (ofComponent file name b).Sound P (At P) := by
  refine (Schema.select_sound hP (by decide) hb.body).bind fun content hcontent => ?_
  exact (ModuleOrigin.decode_points hP hcontent).bind fun _ _ => .pure trivial

theorem ofVariable_sound (hP : Covers P file n) (hb : b.Within n) (name : String) :
    (ofVariable file name b).Sound P (At P) := by
  refine (Schema.select_sound hP (by decide) hb.body).bind fun content hcontent => ?_
  exact (Variable.decode_points hP hcontent).bind fun _ _ => .pure trivial

theorem ofOutput_sound (hP : Covers P file n) (hb : b.Within n) (name : String) :
    (ofOutput file name b).Sound P (At P) := by
  refine (Schema.select_sound hP (by decide) hb.body).bind fun content hcontent => ?_
  refine (Variable.decodeTypeOf_points hP hcontent).bind fun _ _ => ?_
  refine (Hcl.Body.string_points hP hcontent "description").bind fun _ _ => ?_
  refine (Hcl.Body.bool_points hP hcontent "sensitive").bind fun _ _ => ?_
  exact (Hcl.Body.bool_points hP hcontent "ephemeral").bind fun _ _ => .pure trivial

theorem ofDeployment_sound (hP : Covers P file n) (hb : b.Within n) (name : String) :
    (ofDeployment file name b).Sound P (At P) := by
  refine (Schema.select_sound hP (by decide) hb.body).bind fun content hcontent => ?_
  exact (Hcl.Body.bool_points hP hcontent "destroy").bind fun _ _ => .pure trivial

theorem ofBlock_sound (hP : Covers P file n) (hb : b.Within n)
    (hadmits : Schema.stackRoot.admitsBlock b) :
    (ofBlock file b).Sound P fun o => ∀ a, o = some a → a.At P := by
  unfold ofBlock
  split <;> rename_i hkind
  · exact (RequiredProvider.decode_sound hP hb).bind fun _ hps => .pure_some hps
  · exact named_sound hP hb (Schema.label_lt hadmits hkind rfl) fun _ => .pure trivial
  · exact named_sound hP hb (Schema.label_lt hadmits hkind rfl) fun _ => .pure trivial
  · exact named_sound hP hb (Schema.label_lt hadmits hkind rfl) fun _ => .pure trivial
  · exact named_sound hP hb (Schema.label_lt hadmits hkind rfl) (ofComponent_sound hP hb)
  · exact named_sound hP hb (Schema.label_lt hadmits hkind rfl) (ofVariable_sound hP hb)
  · exact named_sound hP hb (Schema.label_lt hadmits hkind rfl) (ofOutput_sound hP hb)
  · exact named_sound hP hb (Schema.label_lt hadmits hkind rfl) (ofDeployment_sound hP hb)
  · exact .pure_none

end Declaration

theorem Draft.mergeVersion_sound (name : String) {known : Option (Placed String)}
    (hknown : ∀ v, known = some v → P v.range) {given : Placed String} (hgiven : P given.range) :
    (mergeVersion name known given).Sound P fun o => ∀ v, o = some v → P v.range :=
  RequiredProvider.keepFirst_sound hknown hgiven fun _ => Diagnostic.pointsAt_error _ _ hgiven

theorem Draft.addRequired_sound {d : Draft} (hd : d.At P) {p : RequiredProvider} (hp : p.At P) :
    (d.addRequired p).Sound P (At P) := by
  have hknown : ((Entries.get? p.name d.requirements).getD {}).At P := by
    cases hget : Entries.get? p.name d.requirements with
    | none => exact ⟨nofun, nofun⟩
    | some r => exact hd _ (Entries.mem_of_get? hget)
  unfold addRequired
  refine (RequiredProvider.mergeSource_sound hknown.source hp).bind fun source hsource => ?_
  refine (Sound.foldlM (fun known h given hgiven => mergeVersion_sound p.name h
    (hp.versions given hgiven)) hknown.version).bind fun version hversion => .pure fun r hr => ?_
  rcases Entries.mem_put hr with rfl | hr
  · exact ⟨hsource, hversion⟩
  · exact hd r hr

theorem addRequirement_points (m : SortedMap String ProviderRequirement) (name : String)
    {r : Requirement} (hr : r.At P) : Points P (addRequirement m name r) := by
  unfold addRequirement
  refine (RequiredProvider.address_points name hr.source).bind fun source _ => ?_
  cases source with
  | none => exact .pure trivial
  | some source =>
    cases hversion : r.version with
    | none => exact .pure trivial
    | some version =>
      exact (RequiredProvider.constraints_points (hr.version version hversion)).bind fun _ _ =>
        .pure trivial

theorem pointing (P : SourceRange → Prop) :
    dialect.Pointing P (Declaration.At P) (Draft.At P) where
  root := rfl
  declare hP hb hadmits x hx := by
    rw [List.mem_singleton.1 hx]
    exact Declaration.ofBlock_sound hP hb hadmits
  start _ hr := nomatch hr
  absorb d hd a ha := by
    cases a with
    | required entries =>
      exact Sound.foldlM (fun d hd p hp => Draft.addRequired_sound hd (ha p hp)) hd
    | _ => exact .pure hd
  resolve _ _ d hd :=
    (Sound.foldlM (fun m _ r hr => addRequirement_points m r.1 (hd r hr)) trivial).bind fun _ _ =>
      .pure trivial

end StackConfig

/-! ### Modules -/

namespace ModuleConfig

/-- The places that a declaration remembers. -/
def Declaration.At (P : SourceRange → Prop) : Declaration → Prop
  | .core v => P v.range
  | .backend b => P b.range
  | .required ps => ∀ p ∈ ps, p.At P
  | .providerConfig c => ∀ v, c.version = some v → P v.range
  | _ => True

structure Requirement.At (P : SourceRange → Prop) (r : Requirement) : Prop where
  source : ∀ s, r.source = some s → P s.range
  versions : ∀ v ∈ r.versions, P v.range

structure Draft.At (P : SourceRange → Prop) (d : Draft) : Prop where
  core : ∀ v ∈ d.core, P v.range
  backends : ∀ b ∈ d.backends, P b.2.range
  requirements : ∀ r ∈ d.requirements, r.2.At P

namespace Declaration

theorem ofCoreVersion_sound (hP : Covers P file n) {content : Hcl.Body}
    (hcontent : Hcl.Body.Within n content) :
    (ofCoreVersion file content).Sound P fun o => ∀ a, o = some a → a.At P := by
  refine (Hcl.Body.placed?_sound hP hcontent "required_version").bind fun version hversion => ?_
  cases version with
  | none => exact .pure_none
  | some version => exact .pure_some (hversion version rfl)

theorem ofSetting_sound (hP : Covers P file n) (hb : b.Within n) :
    (ofSetting file b).Sound P fun o => ∀ a, o = some a → a.At P := by
  unfold ofSetting
  split
  · exact (Backend.decode_points hP hb).bind fun _ _ => .pure_some (hb.range hP)
  · exact (Cloud.decode_points hP hb).bind fun _ _ => .pure_some trivial
  · exact (RequiredProvider.decode_sound hP hb).bind fun _ hps => .pure_some hps
  · exact .pure_none

theorem ofSettings_sound (hP : Covers P file n) (hb : b.Within n) :
    ∀ x ∈ ofSettings file b, x.Sound P fun o => ∀ a, o = some a → a.At P := by
  have hselect : (Schema.terraformBlock.select file b.body).Sound P (Hcl.Body.Within n) :=
    Schema.select_sound hP (by decide) hb.body
  intro x hx
  rcases List.mem_cons.1 hx with rfl | hx
  · exact ⟨nofun, hselect.diagnostics⟩
  · rcases List.mem_cons.1 hx with rfl | hx
    · exact ofCoreVersion_sound hP hselect.value
    · obtain ⟨inner, hinner, rfl⟩ := List.mem_map.1 hx
      exact ofSetting_sound hP (hselect.value.mem_blocks hinner)

theorem ofProvider_sound (hP : Covers P file n) (hb : b.Within n) :
    (ofProvider file b).Sound P fun o => ∀ a, o = some a → a.At P := by
  refine (Schema.select_sound hP (by decide) hb.body).bind fun content hcontent => ?_
  refine (Hcl.Body.placed?_sound hP hcontent "version").bind fun version hversion => ?_
  exact (Hcl.Body.string_points hP hcontent "alias").bind fun _ _ => .pure_some hversion

theorem ofResource_sound (hP : Covers P file n) (hb : b.Within n) :
    (ofResource file b).Sound P fun o => ∀ a, o = some a → a.At P := by
  refine (Schema.select_sound hP (by decide) hb.body).bind fun content hcontent => ?_
  exact (ProviderRef.argument_points hP hcontent).bind fun _ _ => .pure_some trivial

theorem ofVariable_sound (hP : Covers P file n) (hb : b.Within n)
    (hlabel : 0 < b.header.labels.length) :
    (ofVariable file b).Sound P fun o => ∀ a, o = some a → a.At P := by
  refine .named hP hb hlabel fun name => ?_
  refine (Schema.select_sound hP (by decide) hb.body).bind fun content hcontent => ?_
  exact (Variable.decode_points hP hcontent).bind fun _ _ => .pure_some trivial

theorem ofOutput_sound (hP : Covers P file n) (hb : b.Within n)
    (hlabel : 0 < b.header.labels.length) :
    (ofOutput file b).Sound P fun o => ∀ a, o = some a → a.At P := by
  refine .named hP hb hlabel fun name => ?_
  refine (Schema.select_sound hP (by decide) hb.body).bind fun content hcontent => ?_
  refine (Hcl.Body.string_points hP hcontent "description").bind fun _ _ => ?_
  exact (Hcl.Body.bool_points hP hcontent "sensitive").bind fun _ _ => .pure_some trivial

theorem ofCall_sound (hP : Covers P file n) (hb : b.Within n)
    (hlabel : 0 < b.header.labels.length) :
    (ofCall file b).Sound P fun o => ∀ a, o = some a → a.At P := by
  refine .named hP hb hlabel fun name => ?_
  refine (Schema.select_sound hP (by decide) hb.body).bind fun content hcontent => ?_
  exact (ModuleOrigin.decode_points hP hcontent).bind fun _ _ => .pure_some trivial

theorem ofBlock_sound (hP : Covers P file n) (hb : b.Within n)
    (hadmits : Schema.moduleRoot.admitsBlock b) :
    ∀ x ∈ ofBlock file b, x.Sound P fun o => ∀ a, o = some a → a.At P := by
  unfold ofBlock
  split <;> rename_i hkind
  · exact ofSettings_sound hP hb
  · exact List.forall_mem_singleton.2 (ofProvider_sound hP hb)
  · exact List.forall_mem_singleton.2 (ofResource_sound hP hb)
  · exact List.forall_mem_singleton.2 (ofResource_sound hP hb)
  · exact List.forall_mem_singleton.2 (ofResource_sound hP hb)
  · have hlabel : 0 < b.header.labels.length := Schema.label_lt hadmits hkind rfl
    exact List.forall_mem_singleton.2 (ofVariable_sound hP hb hlabel)
  · have hlabel : 0 < b.header.labels.length := Schema.label_lt hadmits hkind rfl
    exact List.forall_mem_singleton.2 (ofOutput_sound hP hb hlabel)
  · have hlabel : 0 < b.header.labels.length := Schema.label_lt hadmits hkind rfl
    exact List.forall_mem_singleton.2 (ofCall_sound hP hb hlabel)
  · exact fun _ hx => nomatch hx

end Declaration

namespace Draft

theorem At.requirement {d : Draft} (hd : d.At P) (name : String) : (d.requirement name).At P := by
  unfold Draft.requirement
  cases hget : Entries.get? name d.requirements with
  | none => exact ⟨nofun, nofun⟩
  | some r => exact hd.requirements _ (Entries.mem_of_get? hget)

theorem At.setRequirement {d : Draft} (hd : d.At P) (name : String) {r : Requirement}
    (hr : r.At P) : (d.setRequirement name r).At P := by
  refine { hd with requirements := fun x hx => ?_ }
  rcases Entries.mem_put hx with rfl | hx
  · exact hr
  · exact hd.requirements x hx

theorem addRequired_sound {d : Draft} (hd : d.At P) {p : RequiredProvider} (hp : p.At P) :
    (d.addRequired p).Sound P (At P) := by
  have hr := hd.requirement p.name
  refine (RequiredProvider.mergeSource_sound hr.source hp).bind fun source hsource => .pure ?_
  exact hd.setRequirement p.name ⟨hsource, List.forall_mem_append.2 ⟨hr.versions, hp.versions⟩⟩

theorem addBackend_sound {d : Draft} (hd : d.At P) {backend : Placed Backend}
    (hbackend : P backend.range) : (d.addBackend backend).Sound P (At P) := by
  unfold addBackend
  dsimp only
  split
  · exact .complain hbackend (.pure hd)
  · refine .pure { hd with backends := fun x hx => ?_ }
    rcases Entries.mem_put hx with rfl | hx
    · exact hbackend
    · exact hd.backends x hx

theorem At.addProviderConfig {d : Draft} (hd : d.At P) {c : ProviderConfig}
    (hc : ∀ v, c.version = some v → P v.range) : (d.addProviderConfig c).At P := by
  have hr := hd.requirement c.ref.localName
  let r := d.requirement c.ref.localName
  have hversions : ∀ v ∈ r.versions ++ c.version.toList, P v.range :=
    List.forall_mem_append.2 ⟨hr.versions, fun v hv => hc v (Option.mem_toList.1 hv)⟩
  have hconfigured : Requirement.At P { r with versions := r.versions ++ c.version.toList } :=
    ⟨hr.source, hversions⟩
  exact ⟨hd.core, hd.backends, (hd.setRequirement c.ref.localName hconfigured).requirements⟩

theorem absorb_sound {d : Draft} (hd : d.At P) {a : Declaration} (ha : a.At P) :
    (d.absorb a).Sound P (At P) := by
  cases a with
  | core version =>
    have hcore : ∀ v ∈ d.core ++ [version], P v.range :=
      List.forall_mem_append.2 ⟨hd.core, List.forall_mem_singleton.2 ha⟩
    exact .pure { hd with core := hcore }
  | backend backend => exact addBackend_sound hd ha
  | required entries => exact Sound.foldlM (fun d hd p hp => addRequired_sound hd (ha p hp)) hd
  | providerConfig config => exact .pure (hd.addProviderConfig ha)
  | cloud | resource | input | output | call => exact .pure ⟨hd.core, hd.backends, hd.requirements⟩

end Draft

theorem coreConstraints_points {version : Placed String} (h : P version.range) :
    Points P (coreConstraints version) := by
  unfold coreConstraints
  split
  · exact .pure trivial
  · exact .complain h (.pure trivial)

theorem theBackend_points {backends : List (String × Placed Backend)}
    (h : ∀ b ∈ backends, P b.2.range) : Points P (theBackend backends) := by
  unfold theBackend
  split
  · exact .pure trivial
  · exact .pure trivial
  · rename_i first _ second rest
    have hfirst : P first.range := h _ (List.mem_cons_self ..)
    have hsecond : P second.range := h _ (List.mem_cons_of_mem _ (List.mem_cons_self ..))
    refine .reject trivial ⟨⟨second.range, rfl, hsecond⟩, ?_⟩
    rintro r ⟨⟩
    exact hfirst

theorem versionConstraints_points {versions : List (Placed String)}
    (h : ∀ v ∈ versions, P v.range) : Points P (versionConstraints versions) := by
  have hgiven : ∀ v ∈ versions.filter fun v => !(Text.trim v.value).isEmpty,
      Points P (RequiredProvider.constraints v) := fun v hv =>
    RequiredProvider.constraints_points (h v (List.mem_filter.1 hv).1)
  exact (Sound.mapM hgiven).bind fun _ _ => .pure trivial

theorem Providers.addRequirement_points (ps : Providers) (name : String) {r : Requirement}
    (hr : r.At P) : Points P (ps.addRequirement name r) := by
  unfold Providers.addRequirement
  refine (RequiredProvider.address_points name hr.source).bind fun p _ => ?_
  cases p with
  | none => exact .pure trivial
  | some p => exact (versionConstraints_points hr.versions).bind fun _ _ => .pure trivial

theorem resolve_points (path : String) (filenames : List String) {d : Draft} (hd : d.At P) :
    Points P (resolve path filenames d) := by
  have hcore : ∀ v ∈ d.core, Points P (coreConstraints v) := fun v hv =>
    coreConstraints_points (hd.core v hv)
  have hproviders : Points P (Providers.resolve d) :=
    (Sound.foldlM (fun ps _ r hr => ps.addRequirement_points r.1 (hd.requirements r hr))
      trivial).bind fun _ _ => .pure trivial
  refine (Sound.mapM hcore).bind fun _ _ => ?_
  refine (theBackend_points hd.backends).bind fun _ _ => ?_
  exact hproviders.bind fun _ _ => .pure trivial

theorem pointing (P : SourceRange → Prop) :
    dialect.Pointing P (Declaration.At P) (Draft.At P) where
  root := rfl
  declare hP hb hadmits := Declaration.ofBlock_sound hP hb hadmits
  start := ⟨nofun, nofun, nofun⟩
  absorb _ hd _ ha := Draft.absorb_sound hd ha
  resolve path filenames _ hd := resolve_points path filenames hd

end ModuleConfig

/-! ### Files -/

namespace FileSet

/-- The place lies in the text of one of the files, given how many bytes each has. -/
def Contains (files : FileSet) (size : String → Nat) (r : SourceRange) : Prop :=
  r.filename ∈ files.names ∧ r.start ≤ r.stop ∧ r.stop ≤ size r.filename

theorem covers_contains {files : FileSet} (size : String → Nat) {f : String × Hcl.Body}
    (hf : f ∈ files) : Covers (files.Contains size) f.1 (size f.1) :=
  fun _ hs => ⟨List.mem_map_of_mem hf, hs.1, hs.2⟩

/-- **Diagnostics point into the files.** If all syntax lies within the text of its file, then in
every dialect every diagnostic has a subject, and its subject and what is shown around it lie within
the text of one of the files. -/
theorem diagnostics_in_files (files : FileSet) (size : String → Nat)
    (h : ∀ f ∈ files, Hcl.Body.Within (size f.1) f.2) (path : String) :
    let PointsIn (ds : Diagnostics) := ∀ d ∈ ds,
      (∃ r, d.subject = some r ∧ files.Contains size r) ∧
        ∀ r, d.context = some r → files.Contains size r
    PointsIn (ModuleConfig.load path files).diagnostics ∧
      PointsIn (StackConfig.load path files).diagnostics ∧
      PointsIn (SearchConfig.load path files).diagnostics ∧
      PointsIn (PolicyTestConfig.load path files).diagnostics ∧
      PointsIn (TestConfig.load path files).diagnostics := by
  intro PointsIn
  have hP : ∀ f ∈ files, Covers (files.Contains size) f.1 (size f.1) := fun f =>
    covers_contains size
  have hpoints : ∀ {α : Type} {x : Diagnosed α}, Points (files.Contains size) x →
      PointsIn x.diagnostics := fun hx d hd =>
    ⟨(hx.diagnostics d hd).subject, (hx.diagnostics d hd).context⟩
  exact ⟨hpoints ((ModuleConfig.pointing _).load hP h path),
    hpoints ((StackConfig.pointing _).load hP h path),
    hpoints ((SearchConfig.pointing _).load hP h path),
    hpoints ((PolicyTestConfig.pointing _).load hP h path),
    hpoints ((TestConfig.pointing _).load hP h path)⟩

/-- A block of settings with a backend, at the start of a file. -/
def settingsWithBackend (type : String) (stop : Nat) : Hcl.Item :=
  .block ⟨⟨"terraform", ⟨0, 9⟩⟩, []⟩ [
    .block ⟨⟨"backend", ⟨14, 21⟩⟩, [⟨type, ⟨22, stop⟩⟩]⟩ []]

/-- A run of another module that does not say which. -/
def sourcelessRun : Hcl.Item :=
  .block ⟨⟨"run", ⟨40, 43⟩⟩, [⟨"first", ⟨44, 51⟩⟩]⟩ [
    .block ⟨⟨"module", ⟨56, 62⟩⟩, []⟩ []]

/-- Two backends in two files, and an argument that is missing. -/
theorem diagnostics_in_files_backends :
    let files : FileSet := [("backend.tf", [settingsWithBackend "s3" 26]),
      ("main.tf", [settingsWithBackend "gcs" 27, sourcelessRun])]
    let size (name : String) : Nat := if name = "main.tf" then 70 else 33
    (∀ f ∈ files, Hcl.Body.Within (size f.1) f.2) ∧
      (ModuleConfig.load "" files).diagnostics.map (fun d => (d.subject, d.context)) =
        [(some ⟨"main.tf", 14, 27⟩, some ⟨"backend.tf", 14, 26⟩)] ∧
      (TestConfig.load "" files).diagnostics.map (fun d => (d.subject, d.context)) =
        [(some ⟨"main.tf", 56, 62⟩, none)] ∧
      (∀ d ∈ (ModuleConfig.load "" files).diagnostics,
        ∀ r, d.context = some r → files.Contains size r) ∧
      ∀ d ∈ (TestConfig.load "" files).diagnostics,
        ∃ r, d.subject = some r ∧ files.Contains size r := by
  intro files size
  have hfiles : ∀ f ∈ files, Hcl.Body.Within (size f.1) f.2 := by decide
  obtain ⟨hmodule, -, -, -, htest⟩ := diagnostics_in_files files size hfiles ""
  exact ⟨hfiles, by decide, by decide, fun d hd => (hmodule d hd).2, fun d hd => (htest d hd).1⟩

end FileSet

end EarlyConfig
