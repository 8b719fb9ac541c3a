import EarlyConfig.Proofs.Selection
import EarlyConfig.Proofs.TypeExpressions
import EarlyConfig.Provider.Reference

/-! Syntax without its places. Places tell a reader where to look, and nothing else may depend on
them: an expression has the same value (`Hcl.Expr.chain_unplaced`), says the same type
(`TypeExpr.read_unplaced`) and refers to the same thing (`DottedName.ofExpr?_unplaced`) when its
places are gone, and a schema admits the same items (`Schema.admits_unplaced`). -/
namespace EarlyConfig

namespace Hcl

/-! ### Expressions -/

/-- The place of syntax whose place does not matter. -/
def Span.nowhere : Span := ⟨0, 0⟩

mutual

/-- The expression with all its places gone. -/
def Expr.unplaced : Expr → Expr
  | .null => .null
  | .bool b => .bool b
  | .number n => .number n
  | .text s => .text s
  | .list items => .list (unplacedItems items)
  | .object items => .object (unplacedEntries items)
  | .template parts => .template (unplacedParts parts)
  | .variable name => .variable name
  | .traversal root steps => .traversal root.unplaced (unplacedSteps steps)
  | .call name args spread => .call name (unplacedExprs args) spread
  | .paren inner => .paren inner.unplaced
  | .unary op arg => .unary op arg.unplaced
  | .binary left op right => .binary left.unplaced op right.unplaced
  | .conditional cond yes no => .conditional cond.unplaced yes.unplaced no.unplaced
  | .forList key item source body guard =>
    .forList key item source.unplaced body.unplaced (unplacedGuard guard)
  | .forObject key item source name body group guard =>
    .forObject key item source.unplaced name.unplaced body.unplaced group (unplacedGuard guard)
termination_by structural e => e

def unplacedGuard : Option Expr → Option Expr
  | none => none
  | some e => some e.unplaced
termination_by structural g => g

def unplacedExprs : List Expr → List Expr
  | [] => []
  | e :: rest => e.unplaced :: unplacedExprs rest
termination_by structural es => es

def unplacedItems : List (Located Expr) → List (Located Expr)
  | [] => []
  | ⟨e, _⟩ :: rest => ⟨e.unplaced, .nowhere⟩ :: unplacedItems rest
termination_by structural items => items

def unplacedEntries : List (Located Expr × Located Expr) → List (Located Expr × Located Expr)
  | [] => []
  | (⟨k, _⟩, ⟨e, _⟩) :: rest =>
    (⟨k.unplaced, .nowhere⟩, ⟨e.unplaced, .nowhere⟩) :: unplacedEntries rest
termination_by structural items => items

def unplacedParts : List Part → List Part
  | [] => []
  | p :: rest => p.unplaced :: unplacedParts rest
termination_by structural parts => parts

def unplacedSteps : List Step → List Step
  | [] => []
  | s :: rest => s.unplaced :: unplacedSteps rest
termination_by structural steps => steps

def Part.unplaced : Part → Part
  | .literal s => .literal s
  | .interpolation e strip => .interpolation e.unplaced strip
  | .choice cond opening yes middle no closing =>
    .choice cond.unplaced opening (unplacedParts yes) middle (unplacedParts no) closing
  | .loop key item source opening body closing =>
    .loop key item source.unplaced opening (unplacedParts body) closing
termination_by structural p => p

def Step.unplaced : Step → Step
  | .attr name => .attr name
  | .position n => .position n
  | .index e => .index e.unplaced
  | .attributeSplat => .attributeSplat
  | .fullSplat => .fullSplat
termination_by structural s => s

end

theorem Expr.unplaced_ne_text {e : Expr} (h : ∀ s, e ≠ .text s) (s : String) :
    e.unplaced ≠ .text s := by
  intro heq
  cases e <;> cases heq
  exact h _ rfl

theorem Expr.unplaced_ne_object {e : Expr} (h : ∀ items, e ≠ .object items)
    (items : List (Located Expr × Located Expr)) : e.unplaced ≠ .object items := by
  intro heq
  cases e <;> cases heq
  exact h _ rfl

theorem unplacedItems_eq_map (items : List (Located Expr)) :
    unplacedItems items = items.map fun e => ⟨e.value.unplaced, .nowhere⟩ := by
  induction items with
  | nil => rfl
  | cons e rest ih => rw [unplacedItems, ih, List.map_cons]

theorem unplacedEntries_eq_map (items : List (Located Expr × Located Expr)) :
    unplacedEntries items =
      items.map fun e => (⟨e.1.value.unplaced, .nowhere⟩, ⟨e.2.value.unplaced, .nowhere⟩) := by
  induction items with
  | nil => rfl
  | cons e rest ih => rw [unplacedEntries, ih, List.map_cons]

/-! ### Values -/

theorem stripsBefore_unplaced (atEnd : Bool) (parts : List Part) :
    stripsBefore atEnd (unplacedParts parts) = stripsBefore atEnd parts := by
  cases parts with
  | nil => rfl
  | cons p rest => cases p <;> rfl

/-- Only a template that is one sequence has more than a text. -/
theorem Expr.chain_template {parts : List Part} (h : ∀ e strip, parts ≠ [.interpolation e strip])
    (scope : Scope) :
    (Expr.template parts).chain scope =
      (partsText scope false false parts).map fun cs => .value (.text (String.ofList cs)) := by
  rw [Expr.chain]
  · cases partsText scope false false parts <;> rfl
  · exact h

theorem Expr.chain_template_unplaced {parts : List Part}
    (h : ∀ e strip, parts ≠ [.interpolation e strip]) {scope : Scope}
    (htext : partsText scope false false (unplacedParts parts) =
      partsText scope false false parts) :
    (Expr.template parts).unplaced.chain scope = (Expr.template parts).chain scope := by
  have h' : ∀ e strip, unplacedParts parts ≠ [.interpolation e strip] := by
    intro e strip heq
    match parts with
    | [.interpolation e _] => exact h e _ rfl
    | [.literal _] => cases heq
    | [.choice _ _ _ _ _ _] => cases heq
    | [.loop _ _ _ _ _ _] => cases heq
  rw [Expr.unplaced, Expr.chain_template h, Expr.chain_template h', htext]

/-- The name an entry of an object gets. A bare variable stands for its own name. -/
def entryKey (scope : Scope) : Expr → Option String
  | .variable name => some name
  | k => do keyText (← (← k.chain scope).result)

theorem entryKey_unplaced {scope : Scope} {k : Expr}
    (h : k.unplaced.chain scope = k.chain scope) :
    entryKey scope k.unplaced = entryKey scope k := by
  cases k
  all_goals first
    | exact congrArg (fun c => c.bind fun c => c.result.bind keyText) h
    | rfl

theorem entryValues_cons (scope : Scope) (k e : Located Expr)
    (rest : List (Located Expr × Located Expr)) :
    entryValues scope ((k, e) :: rest) = (do
      let key ← entryKey scope k.value
      return (key, ← (← e.value.chain scope).result) :: (← entryValues scope rest)) := by
  obtain ⟨k, -⟩ := k
  cases k <;> simp only [entryValues, entryKey, bind_assoc]
  rfl

-- The induction is that of evaluation itself, with the scope free, since loops change it.
mutual

theorem Expr.chain_unplaced (scope : Scope) (e : Expr) :
    e.unplaced.chain scope = e.chain scope := by
  match e with
  | .null => rfl
  | .bool b => rfl
  | .number n => rfl
  | .text s => rfl
  | .list items => rw [Expr.unplaced, Expr.chain, Expr.chain, itemValues_unplaced scope items]
  | .object items => rw [Expr.unplaced, Expr.chain, Expr.chain, entryValues_unplaced scope items]
  | .template [] => rfl
  | .template [.interpolation e _] =>
    rw [Expr.unplaced, unplacedParts, unplacedParts, Part.unplaced, Expr.chain, Expr.chain,
      e.chain_unplaced scope]
  | .template [.literal _] => rfl
  | .template [.choice ..] =>
    exact Expr.chain_template_unplaced (by simp) (partsText_unplaced scope false false _)
  | .template [.loop ..] =>
    exact Expr.chain_template_unplaced (by simp) (partsText_unplaced scope false false _)
  | .template (_ :: _ :: _) =>
    exact Expr.chain_template_unplaced (by simp) (partsText_unplaced scope false false _)
  | .variable name => rfl
  | .traversal root steps =>
    simp only [Expr.unplaced, Expr.chain, root.chain_unplaced scope,
      fun focus => walk_unplaced scope focus steps]
  | .call name args spread => rfl
  | .paren inner => rw [Expr.unplaced, Expr.chain, Expr.chain, inner.chain_unplaced scope]
  | .unary op arg => rw [Expr.unplaced, Expr.chain, Expr.chain, arg.chain_unplaced scope]
  | .binary left op right =>
    rw [Expr.unplaced, Expr.chain, Expr.chain, left.chain_unplaced scope,
      right.chain_unplaced scope]
  | .conditional cond yes no =>
    rw [Expr.unplaced, Expr.chain, Expr.chain, cond.chain_unplaced scope, yes.chain_unplaced scope,
      no.chain_unplaced scope]
  | .forList key item source body guard =>
    simp only [Expr.unplaced, Expr.chain, source.chain_unplaced scope,
      fun s => body.chain_unplaced s, fun s => admits_unplaced s guard]
  | .forObject key item source name body group guard =>
    simp only [Expr.unplaced, Expr.chain, source.chain_unplaced scope,
      fun s => name.chain_unplaced s, fun s => body.chain_unplaced s,
      fun s => admits_unplaced s guard]
termination_by structural e

theorem admits_unplaced (scope : Scope) (g : Option Expr) :
    admits scope (unplacedGuard g) = admits scope g := by
  match g with
  | none => rfl
  | some e => rw [unplacedGuard, admits, admits, e.chain_unplaced scope]
termination_by structural g

theorem itemValues_unplaced (scope : Scope) (items : List (Located Expr)) :
    itemValues scope (unplacedItems items) = itemValues scope items := by
  match items with
  | [] => rfl
  | ⟨e, _⟩ :: rest =>
    rw [unplacedItems, itemValues, itemValues, e.chain_unplaced scope,
      itemValues_unplaced scope rest]
termination_by structural items

theorem entryValues_unplaced (scope : Scope) (items : List (Located Expr × Located Expr)) :
    entryValues scope (unplacedEntries items) = entryValues scope items := by
  match items with
  | [] => rfl
  | (⟨k, _⟩, ⟨e, _⟩) :: rest =>
    rw [unplacedEntries, entryValues_cons, entryValues_cons,
      entryKey_unplaced (k.chain_unplaced scope), e.chain_unplaced scope,
      entryValues_unplaced scope rest]
termination_by structural items

theorem walk_unplaced (scope : Scope) (focus : Focus) (steps : List Step) :
    walk scope focus (unplacedSteps steps) = walk scope focus steps := by
  match focus, steps with
  | focus, [] => rfl
  | .one v, .attr name :: rest =>
    simp only [unplacedSteps, Step.unplaced, walk, fun f => walk_unplaced scope f rest]
  | .each vs, .attr name :: rest =>
    simp only [unplacedSteps, Step.unplaced, walk, fun f => walk_unplaced scope f rest]
  | focus, .position n :: rest =>
    simp only [unplacedSteps, Step.unplaced, walk, fun f => walk_unplaced scope f rest]
  | focus, .index e :: rest =>
    simp only [unplacedSteps, Step.unplaced, walk, fun f => walk_unplaced scope f rest,
      e.chain_unplaced scope]
  | focus, .attributeSplat :: rest =>
    simp only [unplacedSteps, Step.unplaced, walk, fun f => walk_unplaced scope f rest]
  | focus, .fullSplat :: rest =>
    simp only [unplacedSteps, Step.unplaced, walk, fun f => walk_unplaced scope f rest]
termination_by structural steps

theorem partsText_unplaced (scope : Scope) (start stop : Bool) (parts : List Part) :
    partsText scope start stop (unplacedParts parts) = partsText scope start stop parts := by
  match parts with
  | [] => rfl
  | .literal s :: rest =>
    rw [unplacedParts, Part.unplaced, partsText, partsText, stripsBefore_unplaced,
      partsText_unplaced scope false stop rest]
  | .interpolation e strip :: rest =>
    rw [unplacedParts, Part.unplaced, partsText, partsText, e.chain_unplaced scope,
      partsText_unplaced scope strip.after stop rest]
  | .choice cond opening yes middle no closing :: rest =>
    simp only [unplacedParts, Part.unplaced, partsText, cond.chain_unplaced scope,
      fun start stop => partsText_unplaced scope start stop yes,
      fun start stop => partsText_unplaced scope start stop no,
      partsText_unplaced scope closing.after stop rest]
  | .loop key item source opening body closing :: rest =>
    simp only [unplacedParts, Part.unplaced, partsText, source.chain_unplaced scope,
      fun scope start stop => partsText_unplaced scope start stop body,
      partsText_unplaced scope closing.after stop rest]
termination_by structural parts

end

theorem Expr.keyName?_unplaced (e : Expr) : e.unplaced.keyName? = e.keyName? := by
  cases e <;> rfl

theorem Expr.literal?_unplaced (e : Expr) : e.unplaced.literal? = e.literal? := by
  rw [Expr.literal?, Expr.evalIn, Expr.chain_unplaced]
  rfl

end Hcl

/-! ### Types -/

namespace TypeExpr

open Hcl

theorem readElements_unplaced {items : List (Located Expr)}
    (h : ∀ e ∈ items, TypeExpr.read e.value.unplaced = TypeExpr.read e.value) (i : Nat) :
    readElements i (unplacedItems items) = readElements i items := by
  induction items generalizing i with
  | nil => rfl
  | cons e rest ih =>
    obtain ⟨he, hrest⟩ := List.forall_mem_cons.1 h
    simp only [unplacedItems, readElements, he, ih hrest]

/-- An entry without the mark of an optional attribute is read as a type. -/
theorem readAttribute_of_ne {e : Expr} (h : ∀ args spread, e ≠ .call "optional" args spread)
    (name : String) (span : Span) :
    readAttribute name ⟨e, span⟩ = (do
      let (t, d) ← TypeExpr.read e
      return ⟨name, false, t, none, d⟩) := by
  rw [readAttribute]
  · exact fun _ _ => h _ _
  · exact fun _ _ _ => h _ _
  · exact fun _ _ => h _ _

theorem readAttribute_unplaced {e : Expr}
    (h : TypeExpr.read (marked e).type.unplaced = TypeExpr.read (marked e).type) (name : String)
    (span : Span) :
    readAttribute name ⟨e.unplaced, .nowhere⟩ = readAttribute name ⟨e, span⟩ := by
  by_cases hcall : ∃ args spread, e = .call "optional" args spread
  · obtain ⟨args, spread, rfl⟩ := hcall
    match args with
    | [] => rfl
    | [a] =>
      simp only [marked] at h
      simp only [Expr.unplaced, unplacedExprs, readAttribute, h]
    | [a, default] =>
      simp only [marked] at h
      simp only [Expr.unplaced, unplacedExprs, readAttribute, h, defaultValue,
        Expr.literal?_unplaced]
    | _ :: _ :: _ :: _ => rfl
  · have hne : ∀ args spread, e ≠ .call "optional" args spread :=
      fun args spread heq => hcall ⟨args, spread, heq⟩
    have hmarked : (marked e).type = e := by
      rw [marked]
      · exact fun _ _ => hne _ _
      · exact fun _ _ _ => hne _ _
    have hne' : ∀ args spread, e.unplaced ≠ .call "optional" args spread := by
      intro args spread heq
      cases e <;> cases heq
      exact hne _ _ rfl
    rw [hmarked] at h
    rw [readAttribute_of_ne hne, readAttribute_of_ne hne', h]

theorem readAttributes_unplaced {entries : List (Located Expr × Located Expr)}
    (h : ∀ e ∈ entries, TypeExpr.read (marked e.2.value).type.unplaced =
      TypeExpr.read (marked e.2.value).type) (as : Attributes) :
    readAttributes as (unplacedEntries entries) = readAttributes as entries := by
  induction entries generalizing as with
  | nil => rfl
  | cons e rest ih =>
    obtain ⟨he, hrest⟩ := List.forall_mem_cons.1 h
    simp only [unplacedEntries, readAttributes, Expr.keyName?_unplaced,
      fun name => readAttribute_unplaced he name e.2.span, ih hrest]

/-- Every constructor takes one argument. -/
theorem read_call_of_ne {name : String} {args : List Expr} (spread : Bool)
    (hone : ∀ e, args ≠ [e]) :
    TypeExpr.read (.call name args spread) = .error (callError name) := by
  rw [TypeExpr.read]
  · exact fun _ _ => hone _
  · exact fun _ _ => hone _
  · exact fun _ _ => hone _
  · exact fun _ _ => hone _
  · exact fun _ _ => hone _

/-- The induction is on the size of the expression. A call that is no type is none without places
either, since its arguments have the same form. -/
theorem read_unplaced (e : Expr) : TypeExpr.read e.unplaced = TypeExpr.read e := by
  induction hsize : sizeOf e using Nat.strongRecOn generalizing e with
  | ind n ih =>
    subst hsize
    have inner : ∀ e', Part e e' → TypeExpr.read e'.unplaced = TypeExpr.read e' :=
      fun e' hp => ih _ hp.sizeOf_lt e' rfl
    conv_rhs => unfold TypeExpr.read
    split
    · rfl
    · rename_i e
      exact inner e .paren
    · rename_i e spread
      simp only [Expr.unplaced, unplacedExprs, TypeExpr.read, inner _ .list]
    · rename_i e spread
      simp only [Expr.unplaced, unplacedExprs, TypeExpr.read, inner _ .set]
    · rename_i e spread
      simp only [Expr.unplaced, unplacedExprs, TypeExpr.read, inner _ .map]
    · rename_i items spread
      have hitems := readElements_unplaced fun e he => inner _ (.item he)
      simp only [Expr.unplaced, unplacedExprs, TypeExpr.read, hitems]
    · rename_i entries spread
      have hentries := readAttributes_unplaced fun e he => inner _ (.entry he)
      simp only [Expr.unplaced, unplacedExprs, TypeExpr.read, hentries]
    · rename_i name args spread hlist hset hmap htuple hobject
      match args with
      | [] => exact read_call_of_ne spread (by simp [unplacedExprs])
      | _ :: _ :: _ => exact read_call_of_ne spread (by simp [unplacedExprs])
      | [a] =>
        simp only [Expr.unplaced, unplacedExprs]
        rw [TypeExpr.read]
        · exact fun _ hname _ => hlist a hname rfl
        · exact fun _ hname _ => hset a hname rfl
        · exact fun _ hname _ => hmap a hname rfl
        · intro _ hname heq
          cases a <;> cases heq
          exact htuple _ hname rfl
        · intro _ hname heq
          cases a <;> cases heq
          exact hobject _ hname rfl
    · rename_i hvariable hparen _ _ _ _ _ hcall
      cases e
      all_goals first
        | rfl
        | exact absurd rfl (hvariable _)
        | exact absurd rfl (hparen _)
        | exact absurd rfl (hcall _ _ _)

end TypeExpr

/-! ### References -/

namespace DottedName

theorem ofSteps_unplaced (root : String) (steps : List Hcl.Step) :
    ofSteps root (Hcl.unplacedSteps steps) = ofSteps root steps := by
  induction steps with
  | nil => rfl
  | cons step rest ih =>
    cases step
    case attr name => simp only [Hcl.unplacedSteps, Hcl.Step.unplaced, ofSteps, ih]
    all_goals rfl

@[simp] theorem ofExpr?_unplaced (e : Hcl.Expr) : ofExpr? e.unplaced = ofExpr? e := by
  fun_induction ofExpr? e with
  | case1 name => rfl
  | case2 name steps => exact congrArg some (ofSteps_unplaced name steps)
  | case3 inner ih => exact ih
  | case4 e hvariable htraversal hparen =>
    cases e
    case traversal root steps =>
      cases root
      all_goals first
        | rfl
        | exact absurd rfl (htraversal _ _)
    all_goals first
      | rfl
      | exact absurd rfl (hvariable _)
      | exact absurd rfl (hparen _)

end DottedName

namespace ProviderRef

@[simp] theorem ofArgument_unplaced (e : Hcl.Expr) : ofArgument e.unplaced = ofArgument e := by
  simp only [ofArgument, DottedName.ofExpr?_unplaced, Hcl.Expr.literal?_unplaced]

@[simp] theorem ofAddress_unplaced (e : Hcl.Expr) : ofAddress e.unplaced = ofAddress e := by
  simp only [ofAddress, DottedName.ofExpr?_unplaced]

end ProviderRef

/-! ### Bodies -/

namespace Hcl

/-- What is left of something located when its place is gone. -/
def Located.unplaced (f : α → α) (l : Located α) : Located α :=
  ⟨f l.value, .nowhere⟩

def Attribute.unplaced (a : Attribute) : Attribute :=
  ⟨a.key.unplaced id, a.value.unplaced Expr.unplaced⟩

def Header.unplaced (h : Header) : Header :=
  ⟨h.kind.unplaced id, h.labels.map (Located.unplaced id)⟩

mutual

def Item.unplaced : Item → Item
  | .attr a => .attr a.unplaced
  | .block header body => .block header.unplaced (Body.unplaced body)
termination_by structural item => item

/-- The body with all its places gone. -/
def Body.unplaced : Body → Body
  | [] => []
  | item :: rest => item.unplaced :: Body.unplaced rest
termination_by structural body => body

end

def Block.unplaced (b : Block) : Block :=
  ⟨b.header.unplaced, Body.unplaced b.body⟩

@[simp] theorem Located.value_unplaced (f : α → α) (l : Located α) :
    (l.unplaced f).value = f l.value := rfl

@[simp] theorem Attribute.value_unplaced (a : Attribute) :
    a.unplaced.value.value = a.value.value.unplaced := rfl

@[simp] theorem Block.kind_unplaced (b : Block) : b.unplaced.kind = b.kind := rfl

@[simp] theorem Block.body_unplaced (b : Block) : b.unplaced.body = Body.unplaced b.body := rfl

@[simp] theorem Header.span_unplaced (h : Header) : h.unplaced.span = .nowhere := by
  simp only [Header.span, Header.unplaced, List.getLast?_map]
  cases h.labels.getLast? <;> rfl

@[simp] theorem Block.labels_unplaced (b : Block) : b.unplaced.labels = b.labels := by
  simp [Block.labels, Block.unplaced, Header.unplaced, Located.unplaced]

@[simp] theorem Block.label_unplaced (b : Block) (n : Nat) : b.unplaced.label n = b.label n := by
  rw [Block.label, Block.labels_unplaced, Block.label]

namespace Body

theorem unplaced_eq_map (b : Body) : unplaced b = b.map Item.unplaced := by
  induction b with
  | nil => rfl
  | cons item rest ih => rw [unplaced, ih, List.map_cons]

theorem unplaced_append (b c : Body) : unplaced (b ++ c) = unplaced b ++ unplaced c := by
  simp only [unplaced_eq_map, List.map_append]

@[simp] theorem attributes_unplaced (b : Body) :
    attributes (unplaced b) = b.attributes.map Attribute.unplaced := by
  rw [unplaced_eq_map, attributes, attributes, List.filterMap_map, List.map_filterMap]
  refine List.filterMap_congr fun item _ => ?_
  cases item <;> rfl

@[simp] theorem blocks_unplaced (b : Body) :
    blocks (unplaced b) = b.blocks.map Block.unplaced := by
  rw [unplaced_eq_map, blocks, blocks, List.filterMap_map, List.map_filterMap]
  refine List.filterMap_congr fun item _ => ?_
  cases item <;> rfl

@[simp] theorem attributeNames_unplaced (b : Body) :
    attributeNames (unplaced b) = b.attributeNames := by
  rw [attributeNames, attributes_unplaced, List.map_map]
  rfl

@[simp] theorem attribute?_unplaced (b : Body) (name : String) :
    attribute? (unplaced b) name = (b.attribute? name).map Attribute.unplaced := by
  rw [attribute?, attributes_unplaced, List.filter_map, List.getLast?_map]
  rfl

end Body

end Hcl

namespace Schema

open Hcl (Body Block Item)

@[simp] theorem admits_unplaced (s : Schema) (item : Item) :
    s.admits item.unplaced = s.admits item := by
  cases item with
  | attr a => rfl
  | block header body =>
    simp [admits, Item.unplaced, Hcl.Header.unplaced, Hcl.Located.unplaced]

@[simp] theorem admitsBlock_unplaced (s : Schema) (b : Block) :
    s.admitsBlock b.unplaced = s.admitsBlock b := by
  simp [admitsBlock, Block.unplaced, Hcl.Header.unplaced, Block.kind, Hcl.Located.unplaced]

end Schema

end EarlyConfig
