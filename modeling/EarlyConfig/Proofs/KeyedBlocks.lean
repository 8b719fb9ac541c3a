import EarlyConfig.Dialect.Attribute
import EarlyConfig.Proofs.Collecting
import EarlyConfig.Proofs.LookUps

/-! Blocks by key. Many parts of a configuration are filled from blocks of some types, under a key
that the labels of the block give. Of the blocks with one key the last counts (`FileSet.block?`), so
what the part says about a key is what is read from that block (`Dialect.get?_keyed`). -/
namespace EarlyConfig

open Hcl (Block)

theorem Hcl.Block.value_name? (file : String) (n : Nat) (b : Block) :
    (b.name? file n).value = if b.label n = "" then none else some (b.label n) := by
  rw [name?]
  by_cases h : b.label n = "" <;> simp [h]

/-- A declaration on its own holds nothing for a part that does not take it. -/
theorem Diagnosed.picked_eq_nil {δ ε : Type} {pick : δ → List ε} {x : Diagnosed (Option δ)}
    (h : ∀ a, x.value = some a → pick a = []) : ([x].filterMap (·.value)).flatMap pick = [] := by
  cases hx : x.value with
  | none => simp [hx]
  | some a => simp [hx, h a hx]

/-! ### Keys -/

namespace Hcl.Block

/-- A block of the type whose one label names it. -/
def labelled (kind : String) (b : Block) : Option String :=
  if b.kind = kind ∧ b.labels.length = 1 ∧ b.label 0 ≠ "" then some (b.label 0) else none

/-- A block of the type that goes by both of its labels, with something in front of them. -/
def addressed (kind : String) (lead : List String) (b : Block) : Option String :=
  if b.kind = kind ∧ b.labels.length = 2 then
    some (".".intercalate (lead ++ [b.label 0, b.label 1]))
  else none

end Hcl.Block

namespace FileSet

/-- All blocks that have a key, in the order of the files. -/
def keyed (key : Block → Option String) (files : FileSet) : List (String × Block) :=
  files.flatMap fun f => f.2.blocks.filterMap fun b => (key b).map (·, b)

/-- The block that counts for a key: the last that has it. -/
def block? (key : Block → Option String) (files : FileSet) (k : String) : Option Block :=
  (Entries.under k (files.keyed key)).getLast?

end FileSet

/-! ### Parts that are filled from such blocks -/

namespace Dialect

variable {δ σ μ α : Type} (d : Dialect δ σ μ) {pick : δ → List (String × α)}

section

variable {kind : String} {value : α} {file : String} {b : Block}

/-- What a dialect owes for a part that is filled from the blocks of one type with one label, the
name: it knows these blocks, and takes one thing from each that has a name and nothing from any
other. -/
theorem found_labelled {label : String} (hroot : d.root.block? kind = some ⟨kind, [label]⟩)
    (hkind : b.kind = kind → ((d.declare file b).filterMap (·.value)).flatMap pick =
      if b.label 0 = "" then [] else [(b.label 0, value)])
    (hother : b.kind ≠ kind → ((d.declare file b).filterMap (·.value)).flatMap pick = []) :
    d.found pick file b = ((b.labelled kind).map fun k => (k, value)).toList := by
  rw [d.found_eq hroot hkind hother, Block.labelled]
  by_cases hname : b.label 0 = ""
  · simp [hname]
  · by_cases h : b.kind = kind ∧ b.labels.length = 1 <;> simp [hname, h]

/-- The same for blocks of one type that go by both of their labels. -/
theorem found_addressed {first second : String} {lead : List String}
    (hroot : d.root.block? kind = some ⟨kind, [first, second]⟩)
    (hkind : b.kind = kind → ((d.declare file b).filterMap (·.value)).flatMap pick =
      [(".".intercalate (lead ++ [b.label 0, b.label 1]), value)])
    (hother : b.kind ≠ kind → ((d.declare file b).filterMap (·.value)).flatMap pick = []) :
    d.found pick file b = ((b.addressed kind lead).map fun k => (k, value)).toList := by
  rw [d.found_eq hroot hkind hother, Block.addressed]
  by_cases h : b.kind = kind ∧ b.labels.length = 2 <;> simp [h]

end

variable {key : Block → Option String} {read : Block → α}
  (hfound : ∀ file b, d.found pick file b = ((key b).map fun k => (k, read b)).toList)
include hfound

theorem flatMap_declared_keyed (files : FileSet) :
    (d.declared files).flatMap pick = (files.keyed key).map fun e => (e.1, read e.2) := by
  rw [d.flatMap_declared, FileSet.keyed, List.map_flatMap]
  apply List.flatMap_congr
  intro f _
  rw [List.map_filterMap, List.filterMap_eq_flatMap_toList]
  apply List.flatMap_congr
  intro b _
  rw [hfound, Option.map_map]
  rfl

/-- A part that is filled from the blocks with a key, the last of each key over those before it,
holds what is read from the one that counts. -/
theorem get?_keyed (part : σ → SortedMap String α) (hstart : part d.start = .empty)
    (habsorb : ∀ s a, part (d.absorb s a).value =
      (pick a).foldl (fun m e => m.insert e.1 e.2) (part s)) (files : FileSet) (k : String) :
    (part (d.collected files)).get? k = (files.block? key k).map read := by
  have hunder := Entries.under_map (g := id) (fun _ _ h => h) read k (files.keyed key)
  rw [d.collected_part part pick _ habsorb files, hstart, d.flatMap_declared_keyed hfound]
  show (SortedMap.ofList _).get? k = _
  rw [SortedMap.get?_ofList, FileSet.block?, ← List.getLast?_map, ← hunder]
  rfl

end Dialect

end EarlyConfig
