import EarlyConfig.Literal.Operator

/-! Evaluation of expressions that need no context. The only variables are those of enclosing loops,
there are no functions, and whatever fails makes the whole expression no literal. -/
namespace EarlyConfig.Hcl

/-- The loop variables, innermost first. -/
abbrev Scope := List (String × Value)

namespace Scope

/-- The scope of one turn of a loop. -/
def bind (scope : Scope) (key : Option String) (item : String) (entry : Value × Value) : Scope :=
  match key with
  | none => (item, entry.2) :: scope
  | some k => (item, entry.2) :: (k, entry.1) :: scope

end Scope

/-! ### Values in their places -/

/-- The text a key of an object may be given as. -/
def keyText : Value → Option String
  | .text s => some s
  | .number n => some n.text
  | .bool b => some (Value.boolText b)
  | _ => none

/-- The text of a value inside a template. -/
def templateText : Value → Option String
  | .null => some "null"
  | v => keyText v

/-- What a loop runs over: values with their positions or keys. -/
def turns : Value → Option (List (Value × Value))
  | .tuple elements => some (elements.mapIdx fun i v => (.number (.int i), v))
  | .object entries => some (entries.map fun e => (.text e.1, e.2))
  | _ => none

/-- The element of a list at a number, or the entry of an object under a text. -/
def indexed : Value → Value → Option Value
  | .tuple elements, .number (.int n) => if 0 ≤ n then elements[n.toNat]? else none
  | .object entries, .text s => Entries.get? s entries
  | _, _ => none

/-- What a splat runs over: nothing for null, and any value but a list as one element. -/
def splatted : Value → List Value
  | .null => []
  | .tuple elements => elements
  | v => [v]

/-- Adds a value to the group of its key. -/
def putGrouped (k : String) (v : Value) (groups : List (String × Value)) : List (String × Value) :=
  match Entries.get? k groups with
  | some (.tuple vs) => Entries.put k (.tuple (vs ++ [v])) groups
  | _ => Entries.put k (.tuple [v]) groups

/-- The object of a loop's results. Without grouping no key may come twice. -/
def collect (group : Bool) (entries : List (String × Value)) : Option Value :=
  if group then some (.object (entries.foldl (fun acc e => putGrouped e.1 e.2 acc) []))
  else if entries.map (·.1) |>.Pairwise (· ≠ ·) then some (.object entries)
  else none

/-- Where a traversal stands: at one value, or at each of those behind a splat after a dot. -/
inductive Focus where
  | one (v : Value)
  | each (vs : List Value)

def Focus.value : Focus → Value
  | .one v => v
  | .each vs => .tuple vs

/-! ### Stripping -/

/-- Without the spaces and tabs at its start and one line end after them. -/
def stripStart (cs : List Char) : List Char :=
  match cs.dropWhile fun c => c = ' ' || c = '\t' with
  | '\r' :: '\n' :: rest => rest
  | '\n' :: rest => rest
  | rest => rest

/-- Without the spaces and tabs at its end and one line end before them. -/
def stripEnd (cs : List Char) : List Char :=
  match cs.reverse.dropWhile fun c => c = ' ' || c = '\t' with
  | '\n' :: '\r' :: rest => rest.reverse
  | '\n' :: rest => rest.reverse
  | rest => rest.reverse

def stripText (start stop : Bool) (s : String) : List Char :=
  let cs := if start then stripStart s.toList else s.toList
  if stop then stripEnd cs else cs

/-- Whether the next sequence takes the blanks before it; at the end of the parts it is as given. -/
def stripsBefore (atEnd : Bool) : List Part → Bool
  | [] => atEnd
  | .literal _ :: _ => false
  | .interpolation _ strip :: _ => strip.before
  | .choice _ opening _ _ _ _ :: _ => opening.before
  | .loop _ _ _ opening _ _ :: _ => opening.before

/-! ### Expressions -/

mutual

/-- The values of an expression's operands, joined by its operators. -/
def Expr.chain (scope : Scope) : Expr → Option Chain
  | .null => some (.value .null)
  | .bool b => some (.value (.bool b))
  | .number n => some (.value (.number n))
  | .text s => some (.value (.text s))
  | .list items => do
    return .value (.tuple (← itemValues scope items))
  | .object items => do
    return .value (.object (Entries.ofList (← entryValues scope items)))
  | .template [.interpolation e _] => do
    return .value (← (← e.chain scope).result)
  | .template parts => do
    return .value (.text (String.ofList (← partsText scope false false parts)))
  | .variable name => (Entries.get? name scope).map .value
  | .traversal root steps => do
    return .value (← walk scope (.one (← (← root.chain scope).result)) steps)
  | .call _ _ _ => none
  | .paren inner => do
    return .value (← (← inner.chain scope).result)
  | .unary op arg => do
    return .value (← op.apply (← (← arg.chain scope).result))
  | .binary left op right => do
    return .node (.value (← (← left.chain scope).result)) op (← right.chain scope)
  | .conditional cond yes no => do
    match ← (← cond.chain scope).result with
    | .bool true => return .value (← (← yes.chain scope).result)
    | .bool false => return .value (← (← no.chain scope).result)
    | _ => none
  | .forList key item source body guard => do
    let found ← (← turns (← (← source.chain scope).result)).mapM fun t => do
      let inner := scope.bind key item t
      if ← admits inner guard then return [← (← body.chain inner).result] else return []
    return .value (.tuple found.flatten)
  | .forObject key item source name body group guard => do
    let found ← (← turns (← (← source.chain scope).result)).mapM fun t => do
      let inner := scope.bind key item t
      if ← admits inner guard then
        return [(← keyText (← (← name.chain inner).result), ← (← body.chain inner).result)]
      else return []
    return .value (← collect group found.flatten)
termination_by structural e => e

/-- Whether a loop keeps a turn. -/
def admits (scope : Scope) : Option Expr → Option Bool
  | none => some true
  | some e => do
    (← (← e.chain scope).result).bool?
termination_by structural g => g

def itemValues (scope : Scope) : List (Located Expr) → Option (List Value)
  | [] => some []
  | ⟨e, _⟩ :: rest => do
    return (← (← e.chain scope).result) :: (← itemValues scope rest)
termination_by structural items => items

def entryValues (scope : Scope) :
    List (Located Expr × Located Expr) → Option (List (String × Value))
  | [] => some []
  | (⟨.variable name, _⟩, ⟨e, _⟩) :: rest => do
    return (name, ← (← e.chain scope).result) :: (← entryValues scope rest)
  | (⟨k, _⟩, ⟨e, _⟩) :: rest => do
    let key ← keyText (← (← k.chain scope).result)
    return (key, ← (← e.chain scope).result) :: (← entryValues scope rest)
termination_by structural items => items

/-- The value a traversal comes to. A splat after a dot takes the attribute steps right after it
along to each element, a splat in brackets all steps after it. -/
def walk (scope : Scope) : Focus → List Step → Option Value
  | focus, [] => some focus.value
  | .one v, .attr name :: rest => do
    walk scope (.one (← indexed v (.text name))) rest
  | .each vs, .attr name :: rest => do
    walk scope (.each (← vs.mapM fun v => indexed v (.text name))) rest
  | focus, .position n :: rest => do
    walk scope (.one (← indexed focus.value (.number (.int n)))) rest
  | focus, .index e :: rest => do
    walk scope (.one (← indexed focus.value (← (← e.chain scope).result))) rest
  | focus, .attributeSplat :: rest => walk scope (.each (splatted focus.value)) rest
  | focus, .fullSplat :: rest => do
    return .tuple (← (splatted focus.value).mapM fun v => walk scope (.one v) rest)
termination_by structural _ steps => steps

/-- The text of a template whose surroundings take the blanks at its start or at its end. -/
def partsText (scope : Scope) (start stop : Bool) : List Part → Option (List Char)
  | [] => some []
  | .literal s :: rest => do
    return stripText start (stripsBefore stop rest) s ++ (← partsText scope false stop rest)
  | .interpolation e strip :: rest => do
    let s ← templateText (← (← e.chain scope).result)
    return s.toList ++ (← partsText scope strip.after stop rest)
  | .choice cond opening yes middle no closing :: rest => do
    let chosen ← match ← (← cond.chain scope).result with
      | .bool true => partsText scope opening.after ((middle.getD closing).before) yes
      | .bool false => partsText scope ((middle.getD opening).after) closing.before no
      | _ => none
    return chosen ++ (← partsText scope closing.after stop rest)
  | .loop key item source opening body closing :: rest => do
    let texts ← (← turns (← (← source.chain scope).result)).mapM fun t =>
      partsText (scope.bind key item t) opening.after closing.before body
    return texts.flatten ++ (← partsText scope closing.after stop rest)
termination_by structural parts => parts

end

/-- The value of an expression in a scope. -/
def Expr.evalIn (scope : Scope) (e : Expr) : Option Value :=
  (e.chain scope).bind Chain.result

/-- The value of an expression that needs no context, or nothing when it is no literal. -/
def Expr.literal? (e : Expr) : Option Value :=
  e.evalIn []

end EarlyConfig.Hcl
