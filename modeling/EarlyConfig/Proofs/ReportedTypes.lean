import EarlyConfig.Proofs.Defaults
import EarlyConfig.Proofs.TypeTexts
import EarlyConfig.Report.Configuration

/-! Types in reports. A report shows the types of variables, of what a stack puts out and of the
parts of a type that have defaults, each as a text. From the report all of them can be told
(`ModuleConfig.showsTypes`, `StackConfig.showsTypes`, `SearchConfig.showsTypes`); the reports on
tests show no types. -/
namespace EarlyConfig

/-! ### Places of types -/

/-- The document at the end of a path of field names. -/
inductive Document.At : Document → List String → Document → Prop
  | here {d : Document} : At d [] d
  | field {fields : List (String × Document)} {name : String} {d e : Document} {path : List String}
      (mem : (name, d) ∈ fields) (inner : At d path e) : At (.record fields) (name :: path) e

/-- A type that a report shows, and the path to its text. -/
structure TypePlace where
  path : List String
  type : Ty

namespace TypePlace

def within (name : String) (ps : List TypePlace) : List TypePlace :=
  ps.map fun p => ⟨name :: p.path, p.type⟩

/-- The places in a record whose fields are the entries. -/
def ofEntries (places : α → List TypePlace) (es : List (String × α)) : List TypePlace :=
  es.flatMap fun e => within e.1 (places e.2)

/-- All names of attributes in the types are identifiers. -/
def Named (ps : List TypePlace) : Prop :=
  ∀ p ∈ ps, p.type.Named

end TypePlace

open TypePlace (within ofEntries)

mutual

def Defaults.typePlaces : Defaults → List TypePlace
  | ⟨type, _, children⟩ => ⟨["type"], type⟩ :: within "children" (childTypePlaces children)
termination_by structural d => d

def Defaults.childTypePlaces : List (String × Defaults) → List TypePlace
  | [] => []
  | (k, d) :: rest => within k d.typePlaces ++ childTypePlaces rest
termination_by structural ds => ds

end

def Variable.typePlaces (v : Variable) : List TypePlace :=
  ⟨["type"], v.type⟩ ::
    match v.typeDefaults with
    | none => []
    | some d => within "type_defaults" d.typePlaces

def StackConfig.Output.typePlaces (o : Output) : List TypePlace :=
  [⟨["type"], o.type⟩]

def ModuleConfig.typePlaces (m : ModuleConfig) : List TypePlace :=
  within "variables" (ofEntries Variable.typePlaces m.inputs.entries)

def StackConfig.typePlaces (s : StackConfig) : List TypePlace :=
  within "variables" (ofEntries Variable.typePlaces s.inputs.entries) ++
    within "outputs" (ofEntries Output.typePlaces s.outputs.entries)

def SearchConfig.typePlaces (s : SearchConfig) : List TypePlace :=
  within "variables" (ofEntries Variable.typePlaces s.inputs.entries)

/-! ### What a document shows -/

/-- Each type is written at its place, and as long as the names of attributes are identifiers the
document determines all of them. -/
structure ShowsTypes (document : α → Document) (places : α → List TypePlace) : Prop where
  written : ∀ a, ∀ p ∈ places a, (document a).At p.path (.text p.type.text)
  determined : ∀ a b, TypePlace.Named (places a) → TypePlace.Named (places b) →
    document a = document b → places a = places b

namespace TypePlace

theorem named_within {name : String} {ps : List TypePlace} : Named (within name ps) ↔ Named ps := by
  simp [Named, within]

theorem named_append {ps qs : List TypePlace} : Named (ps ++ qs) ↔ Named ps ∧ Named qs := by
  simp only [Named, List.forall_mem_append]

theorem named_cons {p : TypePlace} {ps : List TypePlace} :
    Named (p :: ps) ↔ p.type.Named ∧ Named ps := by
  simp only [Named, List.forall_mem_cons]

theorem written_within {fields : List (String × Document)} {name : String} {d : Document}
    (hmem : (name, d) ∈ fields) {ps : List TypePlace}
    (h : ∀ p ∈ ps, d.At p.path (.text p.type.text)) :
    ∀ p ∈ within name ps, (Document.record fields).At p.path (.text p.type.text) := by
  intro p hp
  obtain ⟨q, hq, rfl⟩ := List.mem_map.1 hp
  exact .field hmem (h q hq)

section Entries

variable {document : α → Document} {places : α → List TypePlace}

theorem written_ofEntries {es : List (String × α)}
    (h : ∀ e ∈ es, ∀ p ∈ places e.2, (document e.2).At p.path (.text p.type.text)) :
    ∀ p ∈ ofEntries places es, (Document.record (es.map fun e => (e.1, document e.2))).At p.path
      (.text p.type.text) := by
  intro p hp
  obtain ⟨e, he, hp⟩ := List.mem_flatMap.1 hp
  have hfield : (e.1, document e.2) ∈ es.map fun e => (e.1, document e.2) :=
    List.mem_map_of_mem he
  exact written_within hfield (h e he) p hp

theorem determined_ofEntries {es es' : List (String × α)}
    (h : ∀ e ∈ es, ∀ b, Named (places e.2) → Named (places b) → document e.2 = document b →
      places e.2 = places b)
    (hes : Named (ofEntries places es)) (hes' : Named (ofEntries places es'))
    (hdoc : es.map (fun e => (e.1, document e.2)) = es'.map (fun e => (e.1, document e.2))) :
    ofEntries places es = ofEntries places es' := by
  induction es generalizing es' with
  | nil =>
    cases es' with
    | nil => rfl
    | cons e' es' => cases hdoc
  | cons e es ih =>
    cases es' with
    | nil => cases hdoc
    | cons e' es' =>
      obtain ⟨hhead, htail⟩ := List.cons.inj hdoc
      obtain ⟨hname, hvalue⟩ := Prod.mk.inj hhead
      obtain ⟨hnamed, hrest⟩ := named_append.1 hes
      obtain ⟨hnamed', hrest'⟩ := named_append.1 hes'
      have hplaces := h e (.head _) e'.2 (named_within.1 hnamed) (named_within.1 hnamed') hvalue
      have hothers := ih (fun f hf => h f (.tail _ hf)) hrest hrest' htail
      change within e.1 (places e.2) ++ ofEntries places es =
        within e'.1 (places e'.2) ++ ofEntries places es'
      rw [hname, hplaces, hothers]

end Entries

end TypePlace

open TypePlace

theorem ShowsTypes.ofNamed {document : α → Document} {places : α → List TypePlace}
    (h : ShowsTypes document places) :
    ShowsTypes (Document.ofNamed document) fun m => ofEntries places m.entries where
  written _ := written_ofEntries fun e _ => h.written e.2
  determined _ _ hm hn hdoc :=
    determined_ofEntries (fun e _ b => h.determined e.2 b) hm hn (Document.record.inj hdoc)

namespace Defaults

theorem childDocuments_eq (children : List (String × Defaults)) :
    childDocuments children = children.map fun e => (e.1, e.2.document) := by
  induction children with
  | nil => rfl
  | cons e rest ih => exact congrArg ((e.1, e.2.document) :: ·) ih

theorem childTypePlaces_eq (children : List (String × Defaults)) :
    childTypePlaces children = ofEntries typePlaces children := by
  induction children with
  | nil => rfl
  | cons e rest ih => exact congrArg (within e.1 e.2.typePlaces ++ ·) ih

theorem document_eq (type : Ty) (values : List (String × Value))
    (children : List (String × Defaults)) :
    document ⟨type, values, children⟩ = .record [
      ("type", .text type.text),
      ("default_values", .record (entryDocuments values)),
      ("children", .record (children.map fun e => (e.1, e.2.document)))] := by
  rw [← childDocuments_eq]
  rfl

theorem typePlaces_eq (type : Ty) (values : List (String × Value))
    (children : List (String × Defaults)) :
    typePlaces ⟨type, values, children⟩ =
      ⟨["type"], type⟩ :: within "children" (ofEntries typePlaces children) := by
  rw [← childTypePlaces_eq]
  rfl

theorem showsTypes : ShowsTypes document typePlaces where
  written d := by
    induction d using induction with
    | step type values children ih =>
      rw [document_eq, typePlaces_eq]
      refine List.forall_mem_cons.2 ⟨.field (.head _) .here, ?_⟩
      exact written_within (by simp) (written_ofEntries ih)
  determined d e hd he hdoc := by
    induction d using induction generalizing e with
    | step type values children ih =>
      obtain ⟨type', values', children'⟩ := e
      rw [typePlaces_eq, named_cons, named_within] at hd he
      rw [document_eq, document_eq] at hdoc
      simp only [Document.record.injEq, List.cons.injEq, Prod.mk.injEq, Document.text.injEq,
        true_and, and_true] at hdoc
      obtain ⟨htype, _, hchildren⟩ := hdoc
      have htype : type = type' := Ty.eq_of_text hd.1 he.1 htype
      rw [typePlaces_eq, typePlaces_eq, htype, determined_ofEntries ih hd.2 he.2 hchildren]

end Defaults

theorem Variable.showsTypes : ShowsTypes Variable.document Variable.typePlaces where
  written v := by
    refine List.forall_mem_cons.2 ⟨.field (.head _) .here, ?_⟩
    obtain ⟨type, description, sensitive, ephemeral, default?, typeDefaults⟩ := v
    cases typeDefaults with
    | none => exact fun p h => nomatch h
    | some d => exact written_within (by simp) (Defaults.showsTypes.written d)
  determined v w hv hw hdoc := by
    obtain ⟨type, description, sensitive, ephemeral, default?, typeDefaults⟩ := v
    obtain ⟨type', description', sensitive', ephemeral', default?', typeDefaults'⟩ := w
    simp only [document, Document.record.injEq, List.cons_append, List.nil_append, List.cons.injEq,
      Prod.mk.injEq, Document.text.injEq, true_and] at hdoc
    obtain ⟨htype, _, _, _, _, hdefaults⟩ := hdoc
    obtain ⟨hv, hvdefaults⟩ := named_cons.1 hv
    obtain ⟨hw, hwdefaults⟩ := named_cons.1 hw
    have htype : type = type' := Ty.eq_of_text hv hw htype
    subst htype
    cases typeDefaults with
    | none =>
      cases typeDefaults' with
      | none => rfl
      | some d' => cases hdefaults
    | some d =>
      cases typeDefaults' with
      | none => cases hdefaults
      | some d' =>
        have hplaces : d.typePlaces = d'.typePlaces :=
          Defaults.showsTypes.determined d d' (named_within.1 hvdefaults)
            (named_within.1 hwdefaults) (Prod.mk.inj (List.cons.inj hdefaults).1).2
        simp only [typePlaces, hplaces]

theorem StackConfig.Output.showsTypes : ShowsTypes Output.document Output.typePlaces where
  written o := List.forall_mem_singleton.2 (.field (.head _) .here)
  determined o o' ho ho' hdoc := by
    simp only [document, Document.record.injEq, List.cons.injEq, Prod.mk.injEq, Document.text.injEq,
      true_and] at hdoc
    have htype : o.type = o'.type :=
      Ty.eq_of_text (named_cons.1 ho).1 (named_cons.1 ho').1 hdoc.1
    rw [typePlaces, typePlaces, htype]

theorem ModuleConfig.showsTypes : ShowsTypes ModuleConfig.document ModuleConfig.typePlaces where
  written m := written_within (by simp) (Variable.showsTypes.ofNamed.written m.inputs)
  determined m n hm hn hdoc := by
    simp only [document, Document.record.injEq, List.cons.injEq, Prod.mk.injEq, true_and] at hdoc
    obtain ⟨_, _, _, _, _, _, _, hinputs, _⟩ := hdoc
    exact congrArg (within "variables")
      (Variable.showsTypes.ofNamed.determined _ _ (named_within.1 hm) (named_within.1 hn) hinputs)

theorem StackConfig.showsTypes : ShowsTypes StackConfig.document StackConfig.typePlaces where
  written s := List.forall_mem_append.2
    ⟨written_within (by simp) (Variable.showsTypes.ofNamed.written s.inputs),
      written_within (by simp) (Output.showsTypes.ofNamed.written s.outputs)⟩
  determined s t hs ht hdoc := by
    simp only [document, Document.record.injEq, List.cons.injEq, Prod.mk.injEq, true_and] at hdoc
    obtain ⟨_, _, _, hinputs, houtputs, _⟩ := hdoc
    obtain ⟨hsin, hsout⟩ := named_append.1 hs
    obtain ⟨htin, htout⟩ := named_append.1 ht
    have hin := Variable.showsTypes.ofNamed.determined _ _ (named_within.1 hsin)
      (named_within.1 htin) hinputs
    have hout := Output.showsTypes.ofNamed.determined _ _ (named_within.1 hsout)
      (named_within.1 htout) houtputs
    rw [typePlaces, typePlaces, hin, hout]

theorem SearchConfig.showsTypes : ShowsTypes SearchConfig.document SearchConfig.typePlaces where
  written s := written_within (by simp) (Variable.showsTypes.ofNamed.written s.inputs)
  determined s t hs ht hdoc := by
    simp only [document, Document.record.injEq, List.cons.injEq, Prod.mk.injEq, true_and] at hdoc
    obtain ⟨_, _, hinputs, _⟩ := hdoc
    exact congrArg (within "variables")
      (Variable.showsTypes.ofNamed.determined _ _ (named_within.1 hs) (named_within.1 ht) hinputs)

/-- **The text of a type is unambiguous.** Types whose attributes have identifiers for their names
are the same, in the order of attributes and in which are optional too, if their texts are. So a
report, in which every type stands as its text, determines the types. -/
theorem Ty.text_unambiguous :
    (∀ s t : Ty, s.Named → t.Named → s.text = t.text → s = t) ∧
    ShowsTypes ModuleConfig.document ModuleConfig.typePlaces ∧
    ShowsTypes StackConfig.document StackConfig.typePlaces ∧
    ShowsTypes SearchConfig.document SearchConfig.typePlaces :=
  ⟨fun _ _ => eq_of_text, ModuleConfig.showsTypes, StackConfig.showsTypes, SearchConfig.showsTypes⟩

/-- Deep inside a type, an optional attribute is told from one that has to be given. -/
theorem Ty.text_unambiguous_optional :
    let disk (optional : Bool) : Ty := .list (.object [⟨"size", optional, .set .number⟩])
    (disk true).Named ∧ (disk false).Named ∧ (disk true).text ≠ (disk false).text := by
  intro disk
  have hsize : Text.isIdentifier "size" := by decide +kernel
  have hnamed : ∀ optional, (disk optional).Named := fun optional =>
    .list (.object (List.forall_mem_singleton.2 hsize)
      (List.forall_mem_singleton.2 (.set .number)))
  refine ⟨hnamed true, hnamed false, fun h => ?_⟩
  cases Ty.text_unambiguous.1 _ _ (hnamed true) (hnamed false) h

end EarlyConfig
