import EarlyConfig.Schema.Basic
import Mathlib.Data.List.Basic

/-! What a schema selects from a body. The attributes it lists are found in the selection as in the
body itself (`attribute?_select`), and the blocks are those of the body that it admits
(`blocks_select`). A body of nothing but blocks of one type is complained about block by block
(`diagnostics_select_ofBlocks`). -/
namespace EarlyConfig

open Hcl (Attribute Block Body Item)

namespace Schema

/-- Whether a block is of a type that is listed, with as many labels as it should have. -/
def admitsBlock (s : Schema) (b : Block) : Bool :=
  (s.block? b.kind).any fun expected => expected.labels.length = b.header.labels.length

theorem admitsBlock_of_block? {s : Schema} {b : Block} {expected : BlockSchema}
    (h : s.block? b.kind = some expected) :
    s.admitsBlock b = decide (b.labels.length = expected.labels.length) := by
  rw [admitsBlock, h, Option.any_some, Block.labels, List.length_map]
  exact decide_eq_decide.2 eq_comm

theorem blocks_select (s : Schema) (file : String) (body : Body) :
    (s.select file body).value.blocks = body.blocks.filter s.admitsBlock := by
  show Body.blocks (body.filter s.admits) = _
  induction body with
  | nil => rfl
  | cons item rest ih =>
    cases item with
    | attr a =>
      by_cases h : s.listsAttribute a.name <;>
        simpa [admits, h, Body.blocks, List.filterMap_cons, Item.block?] using ih
    | block header inner =>
      have hadmits : s.admits (.block header inner) = s.admitsBlock ⟨header, inner⟩ := rfl
      by_cases h : s.admitsBlock ⟨header, inner⟩ <;>
        simpa [hadmits, h, Body.blocks, Item.block?] using ih

theorem attributes_filter_admits (s : Schema) (body : Body) :
    Body.attributes (body.filter s.admits) =
      body.attributes.filter fun a => s.listsAttribute a.name := by
  induction body with
  | nil => rfl
  | cons item rest ih =>
    cases item with
    | attr a =>
      by_cases h : s.listsAttribute a.name <;>
        simpa [admits, h, Body.attributes, Item.attr?] using ih
    | block header inner =>
      by_cases h : s.admits (.block header inner) <;>
        simpa [h, Body.attributes, List.filterMap_cons, Item.attr?] using ih

theorem attribute?_select {s : Schema} {name : String} (h : s.listsAttribute name) (file : String)
    (body : Body) : (s.select file body).value.attribute? name = body.attribute? name := by
  have hfilter : ((body.attributes.filter fun a => s.listsAttribute a.name).filter
      fun a => a.name = name) = body.attributes.filter fun a => a.name = name := by
    rw [List.filter_filter]
    refine List.filter_congr fun a _ => ?_
    by_cases ha : a.name = name
    · simp [ha, h]
    · simp [ha]
  show (List.filter _ (Body.attributes (body.filter s.admits))).getLast? = _
  rw [attributes_filter_admits, hfilter]
  rfl

end Schema

/-! ### Blocks of one type -/

namespace Hcl.Body

/-- The body that holds these blocks and nothing else. -/
def ofBlocks (bs : List Block) : Body :=
  bs.map fun b => .block b.header b.body

theorem blocks_ofBlocks (bs : List Block) : (ofBlocks bs).blocks = bs := by
  rw [blocks, ofBlocks, List.filterMap_map]
  exact List.filterMap_some

theorem attributes_ofBlocks (bs : List Block) : (ofBlocks bs).attributes = [] := by
  simp [attributes, ofBlocks, Item.attr?]

end Hcl.Body

namespace Schema

variable {s : Schema} {kind : String} {expected : BlockSchema}
  (hs : s.block? kind = some expected) {bs : List Block} (hkind : ∀ b ∈ bs, b.kind = kind)
include hs hkind

theorem filter_admitsBlock (hlabels : expected.labels = []) :
    bs.filter s.admitsBlock = bs.filter (·.labels.isEmpty) := by
  refine List.filter_congr fun b hb => ?_
  rw [admitsBlock_of_block? (hkind b hb ▸ hs), hlabels]
  cases b.labels <;> simp

theorem diagnostics_select_ofBlocks (hoptional : ∀ a ∈ s.attributes, a.required = false)
    (file : String) :
    (s.select file (.ofBlocks bs)).diagnostics = bs.filterMap (labelProblem file expected) := by
  have hmissing : s.missing (.ofBlocks bs) = [] := by
    rw [missing, List.map_eq_nil_iff, List.filter_eq_nil_iff]
    exact fun a ha => by simp [hoptional a ha]
  simp only [select, hmissing, List.map_nil, List.append_nil]
  rw [Body.ofBlocks, List.filterMap_map]
  refine List.filterMap_congr fun b hb => ?_
  have hblock : s.block? b.kind = some expected := hkind b hb ▸ hs
  simp only [Function.comp_apply, problem]
  rw [hblock]

end Schema

end EarlyConfig
