import EarlyConfig.Proofs.LookUps
import EarlyConfig.Proofs.Reading
import EarlyConfig.Proofs.Selection
import EarlyConfig.Schema.Tables

/-! What becomes of each item of a body. A schema without repeated names sorts the items of a body
into three: those that fit it are kept (`Fits`), those that have a listed name and the wrong form
are complained about (`Faulty`), and those that it does not list are passed over. Both are said by
the lists of the schema and not by the way in which it is searched. The main statement
(`select_partition`) says that nothing else happens, and in which order. -/
namespace EarlyConfig

open Hcl (Attribute Block Body Header Item Located)

/-- The name of an attribute or the type of a block. -/
def Hcl.Item.name : Item → String
  | .attr a => a.name
  | .block header _ => header.kind.value

namespace Schema

/-! ### Items and schemas -/

/-- No name is listed twice, be it of an attribute or of a type of blocks. -/
structure Proper (s : Schema) : Prop where
  attributes : (s.attributes.map (·.name)).Nodup
  blocks : (s.blocks.map (·.kind)).Nodup
  apart : ∀ a ∈ s.attributes, ∀ b ∈ s.blocks, a.name ≠ b.kind

instance (s : Schema) : Decidable s.Proper :=
  decidable_of_iff ((s.attributes.map (·.name)).Nodup ∧ (s.blocks.map (·.kind)).Nodup ∧
      ∀ a ∈ s.attributes, ∀ b ∈ s.blocks, a.name ≠ b.kind)
    ⟨fun h => ⟨h.1, h.2.1, h.2.2⟩, fun h => ⟨h.attributes, h.blocks, h.apart⟩⟩

/-- The schemas of all dialects are of that kind. -/
theorem tables_proper : ∀ e ∈ tables, e.2.Proper := by
  decide +kernel

/-- A block of a listed type with as many labels as it should have. -/
def FitsBlock (s : Schema) (b : Block) : Prop :=
  ∃ expected ∈ s.blocks, expected.kind = b.kind ∧ b.labels.length = expected.labels.length

def FitsAttribute (s : Schema) (a : Attribute) : Prop :=
  ∃ listed ∈ s.attributes, listed.name = a.name

def Fits (s : Schema) : Item → Prop
  | .attr a => s.FitsAttribute a
  | .block header body => s.FitsBlock ⟨header, body⟩

instance (s : Schema) : DecidablePred s.FitsBlock := fun b =>
  inferInstanceAs (Decidable (∃ expected ∈ s.blocks, expected.kind = b.kind ∧
    b.labels.length = expected.labels.length))

instance (s : Schema) : DecidablePred s.FitsAttribute := fun a =>
  inferInstanceAs (Decidable (∃ listed ∈ s.attributes, listed.name = a.name))

/-- An item whose name is listed but whose form is wrong, and the complaint about it. -/
inductive Faulty (s : Schema) (file : String) : Item → Diagnostic → Prop
  | attr {a : Attribute} {listed : BlockSchema} (mem : listed ∈ s.blocks)
      (name : listed.kind = a.name) : Faulty s file (.attr a) (unexpectedAttribute file a)
  | block {header : Header} {body : Body} {listed : AttributeSchema} (mem : listed ∈ s.attributes)
      (name : listed.name = header.kind.value) :
      Faulty s file (.block header body) (unexpectedBlock file ⟨header, body⟩)
  | labelMissing {header : Header} {body : Body} {expected : BlockSchema} {label : String}
      (mem : expected ∈ s.blocks) (kind : expected.kind = header.kind.value)
      (missing : expected.labels[header.labels.length]? = some label) :
      Faulty s file (.block header body) (missingLabel file expected label ⟨header, body⟩)
  | labelExtra {header : Header} {body : Body} {expected : BlockSchema} {label : Located String}
      (mem : expected ∈ s.blocks) (kind : expected.kind = header.kind.value)
      (extra : header.labels[expected.labels.length]? = some label) :
      Faulty s file (.block header body) (extraneousLabel file expected label ⟨header, body⟩)

/-- A name that the schema has a use for. -/
def Lists (s : Schema) (name : String) : Prop :=
  (∃ listed ∈ s.attributes, listed.name = name) ∨ ∃ listed ∈ s.blocks, listed.kind = name

/-- A required attribute that a body does not have. -/
def Lacks (body : Body) (listed : AttributeSchema) : Prop :=
  listed.required = true ∧ ∀ a ∈ body.attributes, a.name ≠ listed.name

instance (body : Body) : DecidablePred (Lacks body) := fun listed =>
  inferInstanceAs (Decidable (listed.required = true ∧ ∀ a ∈ body.attributes, a.name ≠ listed.name))

/-! ### Searching -/

theorem listsAttribute_iff {s : Schema} {name : String} :
    s.listsAttribute name ↔ ∃ listed ∈ s.attributes, listed.name = name := by
  simp [listsAttribute]

theorem block?_eq_none {s : Schema} {kind : String} :
    s.block? kind = none ↔ ¬∃ listed ∈ s.blocks, listed.kind = kind := by
  simp [block?]

section
variable {s : Schema} (hs : s.Proper)
include hs

theorem block?_eq_some {kind : String} {expected : BlockSchema} :
    s.block? kind = some expected ↔ expected ∈ s.blocks ∧ expected.kind = kind :=
  find?_eq_some_of_nodup hs.blocks

theorem admitsBlock_iff {b : Block} : s.admitsBlock b ↔ s.FitsBlock b := by
  rw [admitsBlock, Option.any_eq_true]
  simp only [block?_eq_some hs, decide_eq_true_eq, Block.labels, List.length_map, FitsBlock]
  constructor
  · rintro ⟨expected, ⟨hmem, hkind⟩, hlabels⟩
    exact ⟨expected, hmem, hkind, hlabels.symm⟩
  · rintro ⟨expected, hmem, hkind, hlabels⟩
    exact ⟨expected, ⟨hmem, hkind⟩, hlabels.symm⟩

/-- A name stands for one thing in a schema. -/
theorem not_both {name : String} {listed : AttributeSchema} {expected : BlockSchema}
    (ha : listed ∈ s.attributes) (hname : listed.name = name) (hb : expected ∈ s.blocks)
    (hkind : expected.kind = name) : False :=
  hs.apart listed ha expected hb (hname.trans hkind.symm)

end

/-- The first label that is missing, else the first that is too much. -/
theorem labelProblem_eq (file : String) (expected : BlockSchema) (b : Block) :
    labelProblem file expected b =
      ((expected.labels[b.header.labels.length]?).map (missingLabel file expected · b)).or
        ((b.header.labels[expected.labels.length]?).map (extraneousLabel file expected · b)) := by
  rw [labelProblem, ← List.head?_drop, ← List.head?_drop]
  cases expected.labels.drop b.header.labels.length with
  | cons missing _ => rfl
  | nil => cases b.header.labels.drop expected.labels.length <;> rfl

theorem labelProblem_eq_some {file : String} {expected : BlockSchema} {b : Block}
    {d : Diagnostic} :
    labelProblem file expected b = some d ↔
      (∃ label, expected.labels[b.header.labels.length]? = some label ∧
        missingLabel file expected label b = d) ∨
      ∃ label, b.header.labels[expected.labels.length]? = some label ∧
        extraneousLabel file expected label b = d := by
  rw [labelProblem_eq, Option.or_eq_some_iff, Option.map_eq_some_iff, Option.map_eq_some_iff]
  refine or_congr_right (and_iff_right_of_imp fun ⟨label, hlabel, _⟩ => ?_)
  -- A label too much leaves none to be missed.
  have hlength := (List.getElem?_eq_some_iff.1 hlabel).1
  rw [List.getElem?_eq_none (Nat.le_of_lt hlength), Option.map_none]

theorem labelProblem_eq_none {file : String} {expected : BlockSchema} {b : Block} :
    labelProblem file expected b = none ↔ b.header.labels.length = expected.labels.length := by
  rw [labelProblem_eq, Option.or_eq_none_iff, Option.map_eq_none_iff, Option.map_eq_none_iff,
    List.getElem?_eq_none_iff, List.getElem?_eq_none_iff]
  omega

section
variable {s : Schema} {file : String} {header : Header} {body : Body}

theorem problem_of_block? {expected : BlockSchema}
    (h : s.block? header.kind.value = some expected) :
    s.problem file (.block header body) = labelProblem file expected ⟨header, body⟩ := by
  have hkind : s.block? (Block.kind ⟨header, body⟩) = some expected := h
  simp only [problem, hkind]

theorem problem_of_not_block? (h : s.block? header.kind.value = none) :
    s.problem file (.block header body) =
      if s.listsAttribute header.kind.value then some (unexpectedBlock file ⟨header, body⟩)
      else none := by
  have hkind : s.block? (Block.kind ⟨header, body⟩) = none := h
  simp only [problem, hkind]
  rfl

end

section
variable {s : Schema} (hs : s.Proper) {file : String}
include hs

theorem problem_attr_eq_some {a : Attribute} {d : Diagnostic} :
    s.problem file (.attr a) = some d ↔ Faulty s file (.attr a) d := by
  constructor
  · intro h
    simp only [problem] at h
    split at h
    · rename_i hlisted
      cases h
      simp only [Bool.and_eq_true, Option.isSome_iff_exists] at hlisted
      obtain ⟨-, expected, hexpected⟩ := hlisted
      obtain ⟨hmem, hkind⟩ := (block?_eq_some hs).1 hexpected
      exact .attr hmem hkind
    · cases h
  · intro h
    cases h with
    | attr hmem hkind =>
      have hnot : ¬s.listsAttribute a.name := fun h => by
        obtain ⟨listed, ha, hname⟩ := listsAttribute_iff.1 h
        exact not_both hs ha hname hmem hkind
      have hblock := (block?_eq_some hs).2 ⟨hmem, hkind⟩
      simp [problem, hnot, hblock]

theorem problem_block_eq_some {header : Header} {body : Body} {d : Diagnostic} :
    s.problem file (.block header body) = some d ↔ Faulty s file (.block header body) d := by
  constructor
  · intro h
    cases hblock : s.block? header.kind.value with
    | some expected =>
      rw [problem_of_block? hblock] at h
      obtain ⟨hmem, hkind⟩ := (block?_eq_some hs).1 hblock
      rcases labelProblem_eq_some.1 h with ⟨label, hlabel, rfl⟩ | ⟨label, hlabel, rfl⟩
      · exact .labelMissing hmem hkind hlabel
      · exact .labelExtra hmem hkind hlabel
    | none =>
      rw [problem_of_not_block? hblock] at h
      split at h
      · rename_i hlisted
        cases h
        obtain ⟨listed, ha, hname⟩ := listsAttribute_iff.1 hlisted
        exact .block ha hname
      · cases h
  · intro h
    cases h with
    | block ha hname =>
      have hnone : s.block? header.kind.value = none :=
        block?_eq_none.2 fun ⟨expected, hb, hkind⟩ => not_both hs ha hname hb hkind
      rw [problem_of_not_block? hnone, if_pos (listsAttribute_iff.2 ⟨_, ha, hname⟩)]
    | labelMissing hmem hkind hlabel =>
      rw [problem_of_block? ((block?_eq_some hs).2 ⟨hmem, hkind⟩)]
      exact labelProblem_eq_some.2 (.inl ⟨_, hlabel, rfl⟩)
    | labelExtra hmem hkind hlabel =>
      rw [problem_of_block? ((block?_eq_some hs).2 ⟨hmem, hkind⟩)]
      exact labelProblem_eq_some.2 (.inr ⟨_, hlabel, rfl⟩)

theorem problem_eq_some {item : Item} {d : Diagnostic} :
    s.problem file item = some d ↔ Faulty s file item d := by
  cases item with
  | attr a => exact problem_attr_eq_some hs
  | block header body => exact problem_block_eq_some hs

theorem problem_of_fits {item : Item} (h : s.Fits item) : s.problem file item = none := by
  cases item with
  | attr a =>
    have hlisted : s.listsAttribute a.name = true := listsAttribute_iff.2 h
    simp [problem, hlisted]
  | block header body =>
    obtain ⟨expected, hmem, hkind, hlabels⟩ := h
    rw [problem_of_block? ((block?_eq_some hs).2 ⟨hmem, hkind⟩), labelProblem_eq_none]
    simpa [Block.labels] using hlabels

theorem fits_or_faulty {item : Item} (h : s.Lists item.name) :
    s.Fits item ∨ ∃ d, Faulty s file item d := by
  cases item with
  | attr a =>
    rcases h with h | ⟨expected, hmem, hkind⟩
    · exact .inl h
    · exact .inr ⟨_, .attr hmem hkind⟩
  | block header body =>
    rcases h with ⟨listed, ha, hname⟩ | ⟨expected, hmem, hkind⟩
    · exact .inr ⟨_, .block ha hname⟩
    · by_cases hlabels : header.labels.length = expected.labels.length
      · exact .inl ⟨expected, hmem, hkind, by simpa [Block.labels] using hlabels⟩
      · obtain ⟨d, hd⟩ := Option.ne_none_iff_exists'.1
          (mt labelProblem_eq_none.1 hlabels : labelProblem file expected ⟨header, body⟩ ≠ none)
        rw [← problem_of_block? ((block?_eq_some hs).2 ⟨hmem, hkind⟩)] at hd
        exact .inr ⟨d, (problem_eq_some hs).1 hd⟩

end

theorem Fits.lists {s : Schema} {item : Item} (h : s.Fits item) : s.Lists item.name := by
  cases item with
  | attr a => exact .inl h
  | block header body =>
    obtain ⟨expected, hmem, hkind, -⟩ := h
    exact .inr ⟨expected, hmem, hkind⟩

theorem Faulty.lists {s : Schema} {file : String} {item : Item} {d : Diagnostic}
    (h : Faulty s file item d) : s.Lists item.name := by
  cases h with
  | attr hmem hkind => exact .inr ⟨_, hmem, hkind⟩
  | block ha hname => exact .inl ⟨_, ha, hname⟩
  | labelMissing hmem hkind => exact .inr ⟨_, hmem, hkind⟩
  | labelExtra hmem hkind => exact .inr ⟨_, hmem, hkind⟩

/-! ### Missing attributes -/

theorem attribute?_eq_none {body : Body} {name : String} :
    body.attribute? name = none ↔ ∀ a ∈ body.attributes, a.name ≠ name := by
  simp [Body.attribute?]

theorem missing_eq (s : Schema) (body : Body) :
    s.missing body = (s.attributes.filter (Lacks body ·)).map (·.name) := by
  rw [missing]
  congr 1
  refine List.filter_congr fun listed _ => ?_
  rw [Bool.eq_iff_iff, Bool.and_eq_true, Option.isNone_iff_eq_none, attribute?_eq_none,
    decide_eq_true_eq]
  rfl

/-! ### Items that are not listed -/

section
variable {s : Schema} {item : Item} (h : ¬s.Lists item.name)
include h

theorem admits_of_not_lists : s.admits item = false := by
  obtain ⟨hattributes, hblocks⟩ := not_or.1 h
  cases item with
  | attr a => exact Bool.eq_false_iff.2 (mt listsAttribute_iff.1 hattributes)
  | block header body =>
    have hnone : s.block? header.kind.value = none := block?_eq_none.2 hblocks
    simp [admits, hnone]

theorem problem_of_not_lists (file : String) : s.problem file item = none := by
  obtain ⟨hattributes, hblocks⟩ := not_or.1 h
  cases item with
  | attr a =>
    have hnone : s.block? a.name = none := block?_eq_none.2 hblocks
    simp [problem, hnone]
  | block header body =>
    have hnot : ¬s.listsAttribute header.kind.value := mt listsAttribute_iff.1 hattributes
    rw [problem_of_not_block? (block?_eq_none.2 hblocks), if_neg hnot]

theorem missing_insert (before after : Body) :
    s.missing (before ++ item :: after) = s.missing (before ++ after) := by
  rw [missing_eq, missing_eq]
  congr 1
  refine List.filter_congr fun listed hlisted => decide_eq_decide.2 (and_congr_right fun _ => ?_)
  obtain ⟨hattributes, -⟩ := not_or.1 h
  cases item with
  | attr a =>
    have hne : a.name ≠ listed.name := fun heq => hattributes ⟨listed, hlisted, heq.symm⟩
    have hinsert : Body.attributes (before ++ .attr a :: after) =
        before.attributes ++ a :: after.attributes := by simp [Body.attributes, Item.attr?]
    have hwithout : Body.attributes (before ++ after) = before.attributes ++ after.attributes := by
      simp [Body.attributes]
    rw [hinsert, hwithout, List.forall_mem_append, List.forall_mem_append, List.forall_mem_cons,
      and_iff_right hne]
  | block header body => simp [Body.attributes, Item.attr?]

theorem select_insert (file : String) (before after : Body) :
    s.select file (before ++ item :: after) = s.select file (before ++ after) := by
  simp only [select, missing_insert h, List.filter_append, List.filterMap_append,
    List.filter_cons_of_neg (Bool.eq_false_iff.1 (admits_of_not_lists h)),
    List.filterMap_cons_none (problem_of_not_lists h file)]

end

/-! ### The whole body -/

theorem isError_of_faulty {s : Schema} {file : String} {item : Item} {d : Diagnostic}
    (h : Faulty s file item d) : d.isError = true := by
  cases h <;> rfl

/-- **A schema sorts a body item by item.** The blocks that are kept are those of a listed type with
as many labels as that has, and the attributes those that are listed, both in the order of the body.
Each item that is listed and does not fit is complained about once, in the order of the body, and
after that each required attribute that the body lacks, in the order of the schema; all complaints
are errors. An item is listed just if it fits or is complained about, and never both. An item that
is not listed makes no difference wherever it stands. -/
theorem select_partition {s : Schema} (hs : s.Proper) (file : String) (body : Body) :
    (s.select file body).value.blocks = body.blocks.filter (s.FitsBlock ·) ∧
    (s.select file body).value.attributes = body.attributes.filter (s.FitsAttribute ·) ∧
    (∃ complaint? : Item → Option Diagnostic,
      (∀ item d, complaint? item = some d ↔ Faulty s file item d) ∧
      (s.select file body).diagnostics = body.filterMap complaint? ++
        (s.attributes.filter (Lacks body ·)).map fun listed => missingAttribute listed.name) ∧
    (∀ d ∈ (s.select file body).diagnostics, d.isError = true) ∧
    (∀ item : Item, (s.Lists item.name ↔ s.Fits item ∨ ∃ d, Faulty s file item d) ∧
      ¬(s.Fits item ∧ ∃ d, Faulty s file item d)) ∧
    ∀ before item after, ¬s.Lists (Item.name item) →
      s.select file (before ++ item :: after) = s.select file (before ++ after) := by
  refine ⟨?_, ?_, ⟨s.problem file, fun item d => problem_eq_some hs, ?_⟩, ?_, fun item => ⟨?_, ?_⟩,
    fun before item after h => select_insert h file before after⟩
  · rw [blocks_select]
    refine List.filter_congr fun b _ => ?_
    rw [Bool.eq_iff_iff, admitsBlock_iff hs, decide_eq_true_eq]
  · show Body.attributes (body.filter s.admits) = _
    rw [attributes_filter_admits]
    refine List.filter_congr fun a _ => ?_
    rw [Bool.eq_iff_iff, listsAttribute_iff, decide_eq_true_eq]
    rfl
  · show body.filterMap (s.problem file) ++ (s.missing body).map missingAttribute = _
    rw [missing_eq, List.map_map]
    rfl
  · intro d hd
    rcases List.mem_append.1 hd with hd | hd
    · obtain ⟨item, -, hitem⟩ := List.mem_filterMap.1 hd
      exact isError_of_faulty ((problem_eq_some hs).1 hitem)
    · obtain ⟨name, -, rfl⟩ := List.mem_map.1 hd
      rfl
  · exact ⟨fits_or_faulty hs, fun h => h.elim Fits.lists fun ⟨_, hd⟩ => hd.lists⟩
  · rintro ⟨hfits, d, hd⟩
    cases (problem_of_fits hs hfits).symm.trans ((problem_eq_some hs).2 hd)

/-- Two attributes, of which one is required, and two types of blocks. -/
def thingSchema : Schema where
  attributes := [⟨"name", true⟩, ⟨"nested", false⟩]
  blocks := [⟨"thing", ["kind", "name"]⟩, ⟨"settings", []⟩]

/-- Attributes and blocks of all forms, the right one and the wrong ones. -/
def thingBody : Body :=
  (Body.ofText? ("other = 1\nsettings = 2\nnested \x7b\n\x7d\nthing \"a\" \x7b\n\x7d\n" ++
    "thing \"a\" \"b\" \x7b\n\x7d\nthing \"a\" \"b\" \"c\" \x7b\n\x7d\nnested = 3\n" ++
    "unknown \x7b\n\x7d\nsettings \x7b\n\x7d\n")).getD []

theorem select_partition_things :
    thingSchema.Proper ∧ ¬thingSchema.Lists "other" ∧
      (thingSchema.select "main.tf" thingBody).value.blocks.map (·.labels) = [["a", "b"], []] ∧
      (thingSchema.select "main.tf" thingBody).value.attributes.map (·.name) = ["nested"] ∧
      (thingSchema.select "main.tf" thingBody).diagnostics.summaries =
        ["Unsupported argument", "Unsupported block type", "Missing name for thing",
          "Extraneous label for thing", "Missing required argument"] ∧
      thingSchema.select "main.tf" thingBody = thingSchema.select "main.tf" thingBody.tail := by
  have hproper : thingSchema.Proper := by decide
  have hother : ¬thingSchema.Lists "other" := by simp [Lists, thingSchema]
  obtain ⟨hblocks, hattributes, -, -, -, hinsert⟩ := select_partition hproper "main.tf" thingBody
  have hfacts : (thingBody.blocks.filter (thingSchema.FitsBlock ·)).map (·.labels) =
        [["a", "b"], []] ∧
      (thingBody.attributes.filter (thingSchema.FitsAttribute ·)).map (·.name) = ["nested"] ∧
      (thingSchema.select "main.tf" thingBody).diagnostics.summaries =
        ["Unsupported argument", "Unsupported block type", "Missing name for thing",
          "Extraneous label for thing", "Missing required argument"] ∧
      thingBody.head?.map Item.name = some "other" := by decide +kernel
  obtain ⟨hlabels, hnames, hsummaries, hhead⟩ := hfacts
  obtain ⟨item, hitem, hname⟩ := Option.map_eq_some_iff.1 hhead
  obtain ⟨rest, hbody⟩ := List.head?_eq_some_iff.1 hitem
  refine ⟨hproper, hother, hblocks ▸ hlabels, hattributes ▸ hnames, hsummaries, ?_⟩
  rw [hbody]
  exact hinsert [] item rest (hname ▸ hother)

end Schema

end EarlyConfig
