import EarlyConfig.Dialect.Search
import EarlyConfig.Dialect.Stack.Resolve
import EarlyConfig.Proofs.KeyedBlocks
import EarlyConfig.Proofs.Module.Collected

/-! Variables are the same in every dialect that has them. Modules, stacks and searches know
different blocks, and they do not agree on what may stand inside the block of a variable. The
variables of a set of files can still be said without any of the dialects (`FileSet.variables`), and
all three find just these (`inputs_agree`). -/
namespace EarlyConfig

open Hcl (Block Body)

/-! ### The block of a variable -/

namespace Variable

/-- The attributes that are looked at. -/
def attributeNames : List String :=
  ["description", "type", "sensitive", "ephemeral", "default"]

theorem decode_congr {file : String} {b b' : Body}
    (h : ∀ name ∈ attributeNames, b.attribute? name = b'.attribute? name) :
    decode file b = decode file b' := by
  simp only [attributeNames, List.forall_mem_cons] at h
  obtain ⟨hdescription, htype, hsensitive, hephemeral, hdefault, -⟩ := h
  simp only [decode, decodeTypeOf, Body.string, Body.string?, Body.bool, hdescription, htype,
    hsensitive, hephemeral, hdefault]

/-- A schema may list whatever else it likes. -/
theorem decode_select {s : Schema} (hs : ∀ name ∈ attributeNames, s.listsAttribute name)
    (file : String) (body : Body) :
    decode file (s.select file body).value = decode file body :=
  decode_congr fun name hname => Schema.attribute?_select (hs name hname) file body

/-- The variable that a block declares: one of the right type, with a name and no other label. -/
def declaredBy (file : String) (b : Block) : List (String × Variable) :=
  if b.kind = "variable" ∧ b.labels.length = 1 ∧ b.label 0 ≠ "" then
    [(b.label 0, (decode file b.body).value)]
  else []

end Variable

/-- The variables that the blocks of the files declare, by name. Of one name the last counts. -/
def FileSet.variables (files : FileSet) : SortedMap String Variable :=
  .ofList (files.flatMap fun (file, body) => body.blocks.flatMap (Variable.declaredBy file))

namespace Dialect

variable {δ σ μ : Type} (d : Dialect δ σ μ)

theorem found_variables (pick : δ → List (String × Variable))
    (hroot : d.root.block? "variable" = some ⟨"variable", ["name"]⟩)
    (hvariable : ∀ file b, b.kind = "variable" →
      ((d.declare file b).filterMap (·.value)).flatMap pick =
        if b.label 0 = "" then [] else [(b.label 0, (Variable.decode file b.body).value)])
    (hother : ∀ file b, b.kind ≠ "variable" →
      ((d.declare file b).filterMap (·.value)).flatMap pick = []) :
    d.found pick = Variable.declaredBy := by
  funext file b
  rw [d.found_labelled hroot (hvariable file b) (hother file b), Block.labelled,
    Variable.declaredBy]
  split <;> rfl

/-- A dialect that takes variables from their blocks only, and keeps the last of each name, collects
the variables of the files. -/
theorem collected_variables (inputs : σ → SortedMap String Variable)
    (pick : δ → List (String × Variable)) (hstart : inputs d.start = .empty)
    (habsorb : ∀ s a, inputs (d.absorb s a).value =
      (pick a).foldl (fun m e => m.insert e.1 e.2) (inputs s))
    (hfound : d.found pick = Variable.declaredBy) (files : FileSet) :
    inputs (d.collected files) = files.variables := by
  rw [d.collected_part inputs pick _ habsorb files, d.flatMap_declared, hfound, hstart]
  rfl

end Dialect

/-! ### Modules -/

namespace ModuleConfig

namespace Declaration

theorem value_ofVariable (file : String) (b : Block) :
    (ofVariable file b).value = if b.label 0 = "" then none else
      some (.input (b.label 0) (Variable.decode file b.body).value) := by
  rw [ofVariable, Diagnosed.value_bind, Block.value_name?]
  by_cases h : b.label 0 = ""
  · simp [h]
  · simp [h, Variable.decode_select (s := Schema.inputVariable) (by decide)]

end Declaration

theorem found_inputs : dialect.found Declaration.inputs = Variable.declaredBy := by
  refine dialect.found_variables _ rfl (fun file b hkind => ?_) (fun file b hkind => ?_)
  · simp only [dialect, Declaration.ofBlock, hkind]
    by_cases h : b.label 0 = "" <;> simp [Declaration.value_ofVariable, h, Declaration.inputs]
  · refine Declaration.picked_eq_nil fun a hhome => ?_
    cases a with
    | input name v => exact absurd (List.mem_singleton.1 hhome) hkind
    | _ => rfl

theorem load_inputs (path : String) (files : FileSet) :
    (load path files).value.inputs = files.variables := by
  refine dialect.collected_variables Draft.inputs _ rfl (fun d a => ?_) found_inputs files
  show (Draft.absorb d a).value.inputs = _
  simp only [Draft.value_absorb, Draft.plus, List.flatMap_singleton]

end ModuleConfig

/-! ### Stacks -/

namespace StackConfig

namespace Declaration

def inputs : Declaration → List (String × Variable)
  | .input name v => [(name, v)]
  | _ => []

theorem value_named (file : String) (n : Nat) (b : Block)
    (declare : String → Diagnosed Declaration) :
    (named file n b declare).value =
      if b.label n = "" then none else some (declare (b.label n)).value := by
  rw [named, Diagnosed.value_bind, Block.value_name?]
  by_cases h : b.label n = "" <;> simp [h]

theorem value_ofVariable (file name : String) (b : Block) :
    (ofVariable file name b).value = .input name (Variable.decode file b.body).value := by
  simp [ofVariable, Variable.decode_select (s := Schema.stackVariable) (by decide)]

/-- The type of the blocks that declare such a thing. -/
def home : Declaration → String
  | .required _ => "required_providers"
  | .component _ _ => "component"
  | .input _ _ => "variable"
  | .output _ _ => "output"
  | .deployment _ _ => "deployment"
  | .store _ _ => "store"
  | .orchestration _ _ => "orchestrate"
  | .identityToken _ => "identity_token"

theorem kind_eq_home {file : String} {b : Block} {a : Declaration}
    (h : (ofBlock file b).value = some a) : b.kind = a.home := by
  unfold ofBlock at h
  split at h
  case h_1 hkind =>
    cases h
    exact hkind
  case h_9 => cases h
  -- All others have to have a name.
  all_goals
    rename_i hkind
    rw [value_named] at h
    split at h <;> cases h
    exact hkind

/-- A block holds nothing for a part that takes only things of other types. -/
theorem picked_eq_nil {ε : Type} {pick : Declaration → List ε} {file : String} {b : Block}
    (h : ∀ a : Declaration, b.kind = a.home → pick a = []) :
    ([ofBlock file b].filterMap (·.value)).flatMap pick = [] :=
  Diagnosed.picked_eq_nil fun a ha => h a (kind_eq_home ha)

end Declaration

theorem found_inputs : dialect.found Declaration.inputs = Variable.declaredBy := by
  refine dialect.found_variables _ rfl (fun file b hkind => ?_) (fun file b hkind => ?_)
  · simp only [dialect, Declaration.ofBlock, hkind]
    by_cases h : b.label 0 = "" <;>
      simp [Declaration.value_named, Declaration.value_ofVariable, h, Declaration.inputs]
  · refine Declaration.picked_eq_nil fun a hhome => ?_
    cases a with
    | input name v => exact absurd hhome hkind
    | _ => rfl

/-- Required providers leave every part alone that does not read them. -/
theorem Draft.absorb_required {α : Type} (d : Draft) (part : Draft → α)
    (hpart : ∀ (d' : Draft) (p : RequiredProvider), part (d'.addRequired p).value = part d')
    (entries : List RequiredProvider) :
    part (d.absorb (.required entries)).value = part d := by
  show part (List.foldlM Draft.addRequired d entries).value = part d
  rw [Diagnosed.value_foldlM]
  exact List.foldlRecOn entries _ (motive := fun d' : Draft => part d' = part d) rfl
    fun d' hd' p _ => (hpart d' p).trans hd'

theorem load_inputs (path : String) (files : FileSet) :
    (load path files).value.inputs = files.variables := by
  refine dialect.collected_variables Draft.inputs _ rfl (fun d a => ?_) found_inputs files
  cases a with
  | required entries => exact d.absorb_required Draft.inputs (fun _ _ => rfl) entries
  | _ => rfl

end StackConfig

/-! ### Searches -/

namespace SearchConfig

namespace Declaration

def inputs : Declaration → List (String × Variable)
  | .input name v => [(name, v)]
  | _ => []

theorem value_ofVariable (file : String) (b : Block) :
    (ofVariable file b).value = if b.label 0 = "" then none else
      some (.input (b.label 0) (Variable.decode file b.body).value) := by
  rw [ofVariable, Diagnosed.value_bind, Block.value_name?]
  by_cases h : b.label 0 = ""
  · simp [h]
  · simp [h, Variable.decode_select (s := Schema.inputVariable) (by decide)]

/-- The type of the blocks that declare such a thing. -/
def home : Declaration → String
  | .list _ => "list"
  | .providerConfig _ => "provider"
  | .input _ _ => "variable"

theorem kind_eq_home {file : String} {b : Block} {a : Declaration}
    (h : (ofBlock file b).value = some a) : b.kind = a.home := by
  unfold ofBlock at h
  split at h
  case h_1 hkind | h_2 hkind =>
    cases h
    exact hkind
  case h_3 hkind =>
    rw [value_ofVariable] at h
    split at h <;> cases h
    exact hkind
  case h_4 => cases h

/-- A block holds nothing for a part that takes only things of other types. -/
theorem picked_eq_nil {ε : Type} {pick : Declaration → List ε} {file : String} {b : Block}
    (h : ∀ a : Declaration, b.kind = a.home → pick a = []) :
    ([ofBlock file b].filterMap (·.value)).flatMap pick = [] :=
  Diagnosed.picked_eq_nil fun a ha => h a (kind_eq_home ha)

end Declaration

theorem found_inputs : dialect.found Declaration.inputs = Variable.declaredBy := by
  refine dialect.found_variables _ rfl (fun file b hkind => ?_) (fun file b hkind => ?_)
  · simp only [dialect, Declaration.ofBlock, hkind]
    by_cases h : b.label 0 = "" <;> simp [Declaration.value_ofVariable, h, Declaration.inputs]
  · refine Declaration.picked_eq_nil fun a hhome => ?_
    cases a with
    | input name v => exact absurd hhome hkind
    | _ => rfl

theorem load_inputs (path : String) (files : FileSet) :
    (load path files).value.inputs = files.variables :=
  dialect.collected_variables Draft.inputs Declaration.inputs rfl
    (fun d a => by cases a <;> rfl) found_inputs files

end SearchConfig

/-- **Variables decode alike.** Whatever the files hold, a module, a stack and a search find the
same variables in them: the same names, and for each name the same type, description, marks and
defaults. They are those that the blocks of the files declare. -/
theorem FileSet.inputs_agree (modulePath stackPath searchPath : String) (files : FileSet) :
    (ModuleConfig.load modulePath files).value.inputs =
        (StackConfig.load stackPath files).value.inputs ∧
      (StackConfig.load stackPath files).value.inputs =
        (SearchConfig.load searchPath files).value.inputs ∧
      (SearchConfig.load searchPath files).value.inputs = files.variables := by
  rw [ModuleConfig.load_inputs, StackConfig.load_inputs, SearchConfig.load_inputs]
  exact ⟨rfl, rfl, rfl⟩

end EarlyConfig
