import EarlyConfig.Dialect.Backend
import EarlyConfig.Dialect.ModuleOrigin
import EarlyConfig.Dialect.RequiredProvider
import EarlyConfig.Dialect.Variable
import EarlyConfig.Provider.Argument
import EarlyConfig.Proofs.Collecting
import EarlyConfig.Proofs.Places.Syntax

/-! Decoding without places. A run and the same run on syntax without places have the same value but
for places, and complain about the same things (`Diagnosed.ErasesTo`). Runs put together from such
runs are such again, so each decoder that dialects share is taken through its steps once. -/
namespace EarlyConfig

def SourceRange.nowhere : SourceRange :=
  ⟨"", 0, 0⟩

def Placed.unplaced (p : Placed α) : Placed α :=
  ⟨p.value, .nowhere⟩

@[simp] theorem Placed.value_unplaced (p : Placed α) : p.unplaced.value = p.value := rfl

/-! ### Runs without places -/

namespace Diagnosed

/-- The second run is the first one without places: its value is what is left of the first one's,
and it complains about the same things. -/
structure ErasesTo (f : α → β) (x : Diagnosed α) (y : Diagnosed β) : Prop where
  value : f x.value = y.value
  messages : x.diagnostics.messages = y.diagnostics.messages

namespace ErasesTo

theorem refl (x : Diagnosed α) : ErasesTo id x x :=
  ⟨rfl, rfl⟩

theorem pure {f : α → β} {a : α} {b : β} (h : f a = b) : ErasesTo f (Pure.pure a) (Pure.pure b) :=
  ⟨h, rfl⟩

theorem report {d e : Diagnostic} (h : d.message = e.message) :
    ErasesTo id (report d) (report e) :=
  ⟨rfl, congrArg (fun m => [m]) h⟩

theorem reject {f : Option α → Option β} (hf : f none = none) {d e : Diagnostic}
    (h : d.message = e.message) : ErasesTo f (reject d) (reject e) :=
  ⟨hf, congrArg (fun m => [m]) h⟩

variable {α β α' β' : Type} {f : α → α'} {g : β → β'}

theorem bind {x : Diagnosed α} {y : Diagnosed α'} (h : ErasesTo f x y) {k : α → Diagnosed β}
    {l : α' → Diagnosed β'} (hk : ∀ a, ErasesTo g (k a) (l (f a))) :
    ErasesTo g (x >>= k) (y >>= l) := by
  have hrest := hk x.value
  rw [h.value] at hrest
  refine ⟨hrest.value, ?_⟩
  rw [diagnostics_bind, diagnostics_bind, Diagnostics.messages_append,
    Diagnostics.messages_append, h.messages, hrest.messages]

theorem mapM {k : α → Diagnosed β} {l : α' → Diagnosed β'}
    (h : ∀ a, ErasesTo g (k a) (l (f a))) (xs : List α) :
    ErasesTo (List.map g) (xs.mapM k) ((xs.map f).mapM l) := by
  induction xs with
  | nil => exact .pure rfl
  | cons a rest ih =>
    rw [List.map_cons, List.mapM_cons, List.mapM_cons]
    exact (h a).bind fun b => ih.bind fun bs => .pure rfl

theorem foldlM {σ σ' : Type} {e : σ → σ'} {k : σ → α → Diagnosed σ} {l : σ' → α' → Diagnosed σ'}
    (h : ∀ s a, ErasesTo e (k s a) (l (e s) (f a))) (s : σ) (xs : List α) :
    ErasesTo e (xs.foldlM k s) ((xs.map f).foldlM l (e s)) := by
  induction xs generalizing s with
  | nil => exact .pure rfl
  | cons a rest ih =>
    rw [List.map_cons, List.foldlM_cons, List.foldlM_cons]
    exact (h s a).bind ih

end ErasesTo

end Diagnosed

open Diagnosed (ErasesTo)

/-! ### Schemas -/

namespace Schema

open Hcl (Body Block Item)

theorem message_labelProblem (file : String) (expected : BlockSchema) (b : Block) :
    (labelProblem "" expected b.unplaced).map Diagnostic.message =
      (labelProblem file expected b).map Diagnostic.message := by
  simp only [labelProblem, Block.unplaced, Hcl.Header.unplaced, List.length_map, ← List.map_drop]
  cases expected.labels.drop b.header.labels.length with
  | cons missing _ => rfl
  | nil => cases b.header.labels.drop expected.labels.length <;> rfl

theorem message_problem (s : Schema) (file : String) (item : Item) :
    (s.problem "" item.unplaced).map Diagnostic.message =
      (s.problem file item).map Diagnostic.message := by
  cases item with
  | attr a =>
    by_cases h : (!s.listsAttribute a.name && (s.block? a.name).isSome) = true
    · have hplaced : s.problem file (.attr a) = some (unexpectedAttribute file a) := if_pos h
      have hunplaced : s.problem "" (Item.attr a).unplaced =
          some (unexpectedAttribute "" a.unplaced) := if_pos h
      rw [hplaced, hunplaced]
      rfl
    · have hplaced : s.problem file (.attr a) = none := if_neg h
      have hunplaced : s.problem "" (Item.attr a).unplaced = none := if_neg h
      rw [hplaced, hunplaced]
  | block header body =>
    have hkind : Block.kind ⟨header.unplaced, Body.unplaced body⟩ = Block.kind ⟨header, body⟩ := rfl
    simp only [problem, Item.unplaced, hkind]
    cases s.block? (Block.kind ⟨header, body⟩) with
    | some expected => exact message_labelProblem file expected ⟨header, body⟩
    | none => by_cases h : s.listsAttribute (Block.kind ⟨header, body⟩) <;> simp only [h] <;> rfl

theorem missing_unplaced (s : Schema) (body : Body) : s.missing body.unplaced = s.missing body := by
  simp [missing]

theorem select_erases (s : Schema) (file : String) (body : Body) :
    (s.select file body).ErasesTo Body.unplaced (s.select "" body.unplaced) where
  value := by
    simp only [select, Body.unplaced_eq_map, List.filter_map]
    congr 1
    exact List.filter_congr fun item _ => (s.admits_unplaced item).symm
  messages := by
    have hproblems : (body.filterMap (s.problem file)).map Diagnostic.message =
        (body.unplaced.filterMap (s.problem "")).map Diagnostic.message := by
      rw [Body.unplaced_eq_map, List.filterMap_map, List.map_filterMap, List.map_filterMap]
      exact List.filterMap_congr fun item _ => (s.message_problem file item).symm
    simp only [select, missing_unplaced, Diagnostics.messages, List.map_append, hproblems]

end Schema

/-! ### Attributes -/

namespace Hcl

@[simp] theorem Attribute.range_unplaced (a : Attribute) : a.unplaced.range "" = .nowhere := rfl

@[simp] theorem Block.range_unplaced (b : Block) : b.unplaced.range "" = .nowhere := by
  rw [Block.range, show b.unplaced.header = b.header.unplaced from rfl, Header.span_unplaced]
  rfl

@[simp] theorem Attribute.literal?_unplaced (a : Attribute) : a.unplaced.literal? = a.literal? :=
  Expr.literal?_unplaced a.value.value

@[simp] theorem Attribute.keyNames_unplaced (a : Attribute) : a.unplaced.keyNames = a.keyNames := by
  rw [Attribute.keyNames, Attribute.keyNames, Attribute.value_unplaced]
  cases a.value.value
  case object items =>
    simp only [Expr.unplaced, unplacedEntries_eq_map, List.filterMap_map]
    exact List.filterMap_congr fun e _ => Expr.keyName?_unplaced e.1.value
  all_goals rfl

theorem Attribute.decode_erases (file : String) (t : Ty) (a : Attribute) :
    (a.decode file t).ErasesTo id (a.unplaced.decode "" t) := by
  simp only [Attribute.decode, Attribute.literal?_unplaced]
  cases a.literal? with
  | none => exact .refl _
  | some v =>
    dsimp only
    split
    · exact .refl _
    · cases v.convert t with
      | ok w => exact .refl _
      | error e => exact .reject rfl rfl

theorem Attribute.string?_erases (file : String) (a : Attribute) :
    (a.string? file).ErasesTo id (a.unplaced.string? "") :=
  .bind (a.decode_erases file .string) fun _ => .refl _

theorem Attribute.bool?_erases (file : String) (a : Attribute) :
    (a.bool? file).ErasesTo id (a.unplaced.bool? "") :=
  .bind (a.decode_erases file .bool) fun _ => .refl _

namespace Body

theorem string?_erases (file : String) (b : Body) (name : String) :
    (b.string? file name).ErasesTo id (b.unplaced.string? "" name) := by
  rw [string?, string?, attribute?_unplaced]
  cases b.attribute? name with
  | none => exact .refl _
  | some a => exact a.string?_erases file

theorem placed?_erases (file : String) (b : Body) (name : String) :
    (b.placed? file name).ErasesTo (Option.map Placed.unplaced) (b.unplaced.placed? "" name) := by
  rw [placed?, placed?, attribute?_unplaced]
  cases b.attribute? name with
  | none => exact .pure rfl
  | some a =>
    refine .bind (a.string?_erases file) fun text => ?_
    cases text <;> exact .pure rfl

theorem string_erases (file : String) (b : Body) (name : String) :
    (b.string file name).ErasesTo id (b.unplaced.string "" name) :=
  .bind (b.string?_erases file name) fun _ => .refl _

theorem bool_erases (file : String) (b : Body) (name : String) :
    (b.bool file name).ErasesTo id (b.unplaced.bool "" name) := by
  rw [bool, bool, attribute?_unplaced]
  cases b.attribute? name with
  | none => exact .refl _
  | some a => exact .bind (a.bool?_erases file) fun _ => .refl _

@[simp] theorem literalString_unplaced (b : Body) (name : String) :
    literalString b.unplaced name = b.literalString name := by
  rw [literalString, literalString, attribute?_unplaced]
  cases b.attribute? name with
  | none => rfl
  | some a => rw [Option.map_some, Option.bind_some, Attribute.literal?_unplaced]; rfl

@[simp] theorem objectKeys_unplaced (b : Body) (name : String) :
    objectKeys b.unplaced name = b.objectKeys name := by
  rw [objectKeys, objectKeys, attribute?_unplaced]
  cases b.attribute? name with
  | none => rfl
  | some a => simp only [Option.map_some, Attribute.objectKeys, Attribute.keyNames_unplaced]

@[simp] theorem attributeNamesExcept_unplaced (b : Body) (excluded : List String) :
    attributeNamesExcept b.unplaced excluded = b.attributeNamesExcept excluded := by
  rw [attributeNamesExcept, attributeNamesExcept, attributeNames_unplaced]

end Body

theorem Block.name?_erases (file : String) (n : Nat) (b : Block) :
    (b.name? file n).ErasesTo id (b.unplaced.name? "" n) := by
  rw [Block.name?, Block.name?, Block.label_unplaced]
  split
  · exact .reject rfl rfl
  · exact .refl _

end Hcl

/-! ### Variables -/

namespace Variable

/-- A type that is not in quotes is read as an expression. -/
theorem decodeType_of_ne {a : Hcl.Attribute} (h : ∀ hint, a.value.value ≠ .text hint)
    (file : String) :
    decodeType file a =
      match TypeExpr.read a.value.value with
      | .ok decoded => return decoded
      | .error err => do
        .report (.error "Invalid type specification" err.message (a.range file))
        return (.any, none) := by
  unfold decodeType
  split
  · rename_i hint htext
    exact absurd htext (h hint)
  · rfl

theorem decodeType_erases (file : String) (a : Hcl.Attribute) :
    (decodeType file a).ErasesTo id (decodeType "" a.unplaced) := by
  by_cases htext : ∃ hint, a.value.value = .text hint
  · obtain ⟨hint, htext⟩ := htext
    simp only [decodeType, Hcl.Attribute.value_unplaced, htext, Hcl.Expr.unplaced]
    cases TypeExpr.legacyHint? hint with
    | some t => exact .bind (.report (by rfl)) fun _ => .refl _
    | none => exact .bind (.report (by rfl)) fun _ => .refl _
  · have hne : ∀ hint, a.value.value ≠ .text hint := fun hint heq => htext ⟨hint, heq⟩
    rw [decodeType_of_ne hne, decodeType_of_ne (a := a.unplaced) (Hcl.Expr.unplaced_ne_text hne),
      Hcl.Attribute.value_unplaced, TypeExpr.read_unplaced]
    cases TypeExpr.read a.value.value with
    | ok decoded => exact .refl _
    | error e => exact .bind (.report (by rfl)) fun _ => .refl _

theorem decodeTypeOf_erases (file : String) (b : Hcl.Body) :
    (decodeTypeOf file b).ErasesTo id (decodeTypeOf "" b.unplaced) := by
  rw [decodeTypeOf, decodeTypeOf, Hcl.Body.attribute?_unplaced]
  cases b.attribute? "type" with
  | none => exact .refl _
  | some a => exact decodeType_erases file a

theorem decodeDefault_erases (file : String) (t : Ty) (defaults : Option Defaults)
    (a : Hcl.Attribute) :
    (decodeDefault file t defaults a).ErasesTo id (decodeDefault "" t defaults a.unplaced) := by
  rw [decodeDefault, decodeDefault, Hcl.Attribute.literal?_unplaced]
  cases a.literal? with
  | none => exact .refl _
  | some v =>
    dsimp only
    cases (Defaults.applyTo defaults v).convert t with
    | ok w => exact .refl _
    | error e => exact .bind (.report (by rfl)) fun _ => .refl _

theorem decode_erases (file : String) (b : Hcl.Body) :
    (decode file b).ErasesTo id (decode "" b.unplaced) := by
  unfold decode
  refine .bind (b.string_erases file "description") fun description => ?_
  refine .bind (decodeTypeOf_erases file b) fun type => ?_
  refine .bind (b.bool_erases file "sensitive") fun sensitive => ?_
  refine .bind (b.bool_erases file "ephemeral") fun ephemeral => ?_
  rw [Hcl.Body.attribute?_unplaced]
  cases b.attribute? "default" with
  | none => exact .refl _
  | some a => exact .bind (decodeDefault_erases file _ _ a) fun _ => .refl _

end Variable

/-! ### Origins, references and backends -/

namespace ModuleOrigin

theorem decodeVersion_erases (file : String) (a : Hcl.Attribute) :
    (decodeVersion file a).ErasesTo id (decodeVersion "" a.unplaced) := by
  refine .bind (a.string?_erases file) fun text => ?_
  cases text with
  | none => exact .refl _
  | some text =>
    dsimp only [id]
    cases Constraints.read text with
    | ok cs => exact .refl _
    | error e => exact .reject rfl (by rfl)

theorem decode_erases (file : String) (b : Hcl.Body) :
    (decode file b).ErasesTo id (decode "" b.unplaced) := by
  unfold decode
  refine .bind (b.string_erases file "source") fun source => ?_
  rw [Hcl.Body.attribute?_unplaced]
  cases b.attribute? "version" with
  | none => exact .refl _
  | some a => exact .bind (decodeVersion_erases file a) fun _ => .refl _

end ModuleOrigin

theorem ProviderRef.argument_erases (file : String) (b : Hcl.Body) :
    (argument file b).ErasesTo id (argument "" b.unplaced) := by
  rw [argument, argument, Hcl.Body.attribute?_unplaced]
  cases b.attribute? "provider" with
  | none => exact .refl _
  | some a =>
    simp only [Option.map_some, Hcl.Attribute.value_unplaced, ofArgument_unplaced]
    cases ofArgument a.value.value with
    | ok ref => exact .refl _
    | error e => exact .reject rfl (by rfl)

theorem Backend.decode_erases (file : String) (b : Hcl.Block) :
    (decode file b).ErasesTo id (decode "" b.unplaced) := by
  unfold decode
  rw [Hcl.Block.label_unplaced]
  split
  · refine .bind (Schema.backendRemote.select_erases file b.body) fun content => ?_
    rw [Hcl.Body.literalString_unplaced]
    exact .refl _
  · exact .refl _

theorem Cloud.decode_erases (file : String) (b : Hcl.Block) :
    (decode file b).ErasesTo id (decode "" b.unplaced) := by
  refine .bind (Schema.cloud.select_erases file b.body) fun content => ?_
  rw [Hcl.Body.literalString_unplaced, Hcl.Body.literalString_unplaced]
  exact .refl _

/-! ### Required providers -/

namespace RequiredProvider

open Hcl (Expr Located)

def unplaced (p : RequiredProvider) : RequiredProvider :=
  { p with versions := p.versions.map Placed.unplaced, range := .nowhere }

theorem decodeAlias_erases (file name : String) (e : Located Expr) :
    (decodeAlias file name e).ErasesTo id (decodeAlias "" name (e.unplaced Expr.unplaced)) := by
  simp only [decodeAlias, Located.value_unplaced, ProviderRef.ofAddress_unplaced]
  cases ProviderRef.ofAddress e.value with
  | error err => exact .reject rfl (by rfl)
  | ok ref =>
    by_cases hname : ref.localName = name
    · simp only [hname, if_true]
      exact .refl _
    · simp only [hname, if_false]
      exact .reject rfl (by rfl)

theorem decodeAliases_erases (file name : String) (e : Located Expr) :
    (decodeAliases file name e).ErasesTo id
      (decodeAliases "" name (e.unplaced Expr.unplaced)) := by
  rw [decodeAliases, decodeAliases, Located.value_unplaced]
  cases e.value
  case list items =>
    simp only [Expr.unplaced, Hcl.unplacedItems_eq_map]
    refine .bind (.mapM (decodeAlias_erases file name) items) fun refs => ?_
    rw [List.map_id]
    exact .refl _
  all_goals exact .bind (.report (by rfl)) fun _ => .refl _

theorem addSetting_erases (file : String) (p : RequiredProvider) (key value : Located Expr) :
    (p.addSetting file key value).ErasesTo unplaced
      (p.unplaced.addSetting "" (key.unplaced Expr.unplaced) (value.unplaced Expr.unplaced)) := by
  unfold addSetting
  rw [Located.value_unplaced, Located.value_unplaced, Expr.keyName?_unplaced,
    Expr.literal?_unplaced]
  split
  · cases value.value.literal?.bind Value.text? with
    | some version => exact .pure (by simp [unplaced, Placed.unplaced, SourceRange.ofSpan]; rfl)
    | none => exact .bind (.report (by rfl)) fun _ => .pure rfl
  · cases value.value.literal?.bind Value.text? with
    | some source => exact .pure rfl
    | none => exact .bind (.report (by rfl)) fun _ => .pure rfl
  · refine .bind (decodeAliases_erases file p.name value) fun refs => ?_
    exact .pure rfl
  · exact .bind (.report (by rfl)) fun _ => .pure rfl

/-- An entry that is not written as an object is a version. -/
theorem decodeEntry_of_ne {a : Hcl.Attribute} (h : ∀ items, a.value.value ≠ .object items)
    (file : String) :
    decodeEntry file a =
      match a.value.value.literal?.bind versionText? with
      | some version =>
        pure (some { name := a.name, versions := [⟨version, a.range file⟩], range := a.range file })
      | none => .reject (invalidSyntax (a.range file)) := by
  unfold decodeEntry
  dsimp only
  split
  · rename_i items hobject
    exact absurd hobject (h items)
  · rfl

theorem decodeEntry_erases (file : String) (a : Hcl.Attribute) :
    (decodeEntry file a).ErasesTo (Option.map unplaced) (decodeEntry "" a.unplaced) := by
  by_cases hobject : ∃ items, a.value.value = .object items
  · obtain ⟨items, hobject⟩ := hobject
    simp only [decodeEntry, Hcl.Attribute.value_unplaced, hobject, Expr.unplaced,
      Hcl.unplacedEntries_eq_map]
    refine .bind (f := unplaced) ?_ fun _ => .pure (by rfl)
    exact .foldlM (fun p item => addSetting_erases file p item.1 item.2) _ items
  · have hne : ∀ items, a.value.value ≠ .object items := fun items heq => hobject ⟨items, heq⟩
    rw [decodeEntry_of_ne hne, decodeEntry_of_ne (a := a.unplaced) (Expr.unplaced_ne_object hne),
      Hcl.Attribute.value_unplaced, Expr.literal?_unplaced]
    cases a.value.value.literal?.bind versionText? with
    | some version => exact .pure rfl
    | none => exact .reject (by rfl) (by rfl)

theorem decode_erases (file : String) (b : Hcl.Block) :
    (decode file b).ErasesTo (List.map unplaced) (decode "" b.unplaced) := by
  have hblocks : (b.body.blocks.forM fun nested =>
        (Diagnosed.report (unexpectedBlock file nested) : Diagnosed Unit)).ErasesTo id
      ((b.body.blocks.map Hcl.Block.unplaced).forM fun nested =>
        .report (unexpectedBlock "" nested)) := by
    induction b.body.blocks with
    | nil => exact .refl _
    | cons nested rest ih => exact .bind (.report (by rfl)) fun _ => ih
  unfold decode
  rw [Hcl.Block.body_unplaced, Hcl.Body.blocks_unplaced, Hcl.Body.attributes_unplaced]
  refine .bind hblocks fun _ => ?_
  refine .bind (.mapM (decodeEntry_erases file) b.body.attributes) fun entries => ?_
  exact .pure (by rw [List.filterMap_map, List.map_filterMap]; rfl)

/-! ### Requirements -/

theorem keepFirst_erases (known : Option (Placed String)) (given : Placed String)
    {complaint complaint' : Placed String → Diagnostic}
    (h : ∀ k, (complaint k).message = (complaint' k.unplaced).message) :
    (keepFirst known given complaint).ErasesTo (Option.map Placed.unplaced)
      (keepFirst (known.map Placed.unplaced) given.unplaced complaint') := by
  unfold keepFirst
  rw [Placed.value_unplaced]
  by_cases hempty : given.value.isEmpty
  · rw [if_pos hempty, if_pos hempty]
    exact .pure rfl
  · rw [if_neg hempty, if_neg hempty]
    cases known with
    | none => exact .pure rfl
    | some k =>
      by_cases hsame : k.value = given.value
      · simp only [Option.map_some, Placed.value_unplaced, hsame, ne_eq, not_true_eq_false,
          if_false]
        exact .pure rfl
      · simp only [Option.map_some, Placed.value_unplaced, hsame, ne_eq, not_false_eq_true, if_true]
        exact .bind (.report (h k)) fun _ => .pure rfl

theorem mergeSource_erases (known : Option (Placed String)) (p : RequiredProvider) :
    (p.mergeSource known).ErasesTo (Option.map Placed.unplaced)
      (p.unplaced.mergeSource (known.map Placed.unplaced)) :=
  keepFirst_erases known ⟨p.source, p.range⟩ (by intro k; rfl)

theorem address_erases (name : String) (source : Option (Placed String)) :
    (address name source).ErasesTo id (address name (source.map Placed.unplaced)) := by
  cases source with
  | none => exact .refl _
  | some s =>
    simp only [address, Option.map_some, Placed.value_unplaced]
    cases Provider.ofSource s.value with
    | ok p => exact .refl _
    | error e => exact .reject rfl (by rfl)

theorem constraints_erases (version : Placed String) :
    (constraints version).ErasesTo id (constraints version.unplaced) := by
  rw [constraints, constraints, Placed.value_unplaced]
  cases Constraints.read version.value with
  | ok cs => exact .refl _
  | error e => exact .bind (.report (by rfl)) fun _ => .refl _

end RequiredProvider

end EarlyConfig
