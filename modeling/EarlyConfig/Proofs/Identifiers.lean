import EarlyConfig.Hcl.Read.Expr
import EarlyConfig.Proofs.Reading
import EarlyConfig.Text.Identifier

/-! Names in the language. The words that are read from a text are identifiers
(`Hcl.Read.identifier_isIdentifier`), and so are the bare names with which an expression starts that
was read (`Hcl.Expr.bareNames_of_ofText?`). -/
namespace EarlyConfig

namespace Text

theorem not_mem_of_isIdentifier {s : String} (h : isIdentifier s) {c : Char}
    (hc : isNamePart c = false) : c ∉ s.toList := by
  unfold isIdentifier at h
  split at h
  · cases h
  · rename_i first rest hlist
    rw [Bool.and_eq_true, List.all_eq_true] at h
    rw [hlist]
    intro hmem
    rcases List.mem_cons.1 hmem with rfl | hmem
    · simp [isNamePart, h.1] at hc
    · simp [h.2 c hmem] at hc

theorem inRanges_of_mem {ranges : List (Nat × Nat)} {r : Nat × Nat} (hr : r ∈ ranges) {c : Char}
    (h : r.1 ≤ c.toNat ∧ c.toNat ≤ r.2) : inRanges ranges c :=
  List.any_eq_true.2 ⟨r, hr, by simpa using h⟩

theorem isNameStart_of_isAlpha {c : Char} (h : c.isAlpha) : isNameStart c := by
  have hletter : inRanges letterRanges c := by
    delta Char.isAlpha Char.isUpper Char.isLower at h
    simp only [Bool.or_eq_true, Bool.and_eq_true, decide_eq_true_eq, ge_iff_le,
      UInt32.le_iff_toNat_le, Char.toNat_val] at h
    rcases h with hupper | hlower
    · exact inRanges_of_mem (List.Mem.head _) hupper
    · exact inRanges_of_mem (.tail _ (.head _)) hlower
  rw [isNameStart, hletter, Bool.or_true]

theorem isNamePart_of_isDigit {c : Char} (h : c.isDigit) : isNamePart c := by
  have hdigit : inRanges continuingRanges c :=
    inRanges_of_mem (List.Mem.head _) (Char.isDigit_iff_toNat.1 h)
  rw [isNamePart, hdigit, Bool.or_true]

end Text

namespace Hcl

/-! ### Words -/

namespace Read

theorem isNameStart_of_isWordStart {c : Char} (h : isWordStart c) : Text.isNameStart c := by
  rw [isWordStart, Bool.or_eq_true, decide_eq_true_eq] at h
  rcases h with h | rfl
  · exact Text.isNameStart_of_isAlpha h
  · rfl

theorem isNamePart_of_isWordPart {c : Char} (h : isWordPart c) : Text.isNamePart c := by
  have hstart : Text.isNameStart c → Text.isNamePart c := fun hstart => by
    simp [Text.isNamePart, hstart]
  delta isWordPart Char.isAlphanum at h
  simp only [Bool.or_eq_true, decide_eq_true_eq] at h
  rcases h with ((halpha | hdigit) | rfl) | rfl
  · exact hstart (Text.isNameStart_of_isAlpha halpha)
  · exact Text.isNamePart_of_isDigit hdigit
  · rfl
  · decide +kernel

theorem charIf_gives (p : Char → Bool) : Gives (charIf p) fun c => p c := by
  intro c a c' h
  unfold charIf at h
  split at h
  · cases h
  · split at h
    · rename_i hp
      cases h
      exact hp
    · cases h

theorem identifier_isIdentifier : Gives identifier fun s => Text.isIdentifier s := by
  refine (charIf_gives _).bind fun first hfirst => ?_
  refine (charIf_gives _).many.bind fun others hothers => gives_pure ?_
  rw [Text.isIdentifier, String.toList_ofList]
  dsimp only
  rw [isNameStart_of_isWordStart hfirst, Bool.true_and, List.all_eq_true]
  exact fun c hc => isNamePart_of_isWordPart (hothers c hc)

end Read

/-! ### Bare names -/

/-- A name after a dot is an identifier. -/
def Step.BareName : Step → Prop
  | .attr name => Text.isIdentifier name
  | _ => True

/-- The bare names with which the expression starts are identifiers. -/
def Expr.BareNames : Expr → Prop
  | .variable name => Text.isIdentifier name
  | .traversal root steps => root.BareNames ∧ ∀ step ∈ steps, step.BareName
  | .paren inner => inner.BareNames
  | _ => True
termination_by structural e => e

namespace Read

/-- What is read as an expression has identifiers for its bare names. -/
abbrev Bare (p : Reader (Located Expr)) : Prop :=
  Gives p fun e => e.value.BareNames

section

variable {nested : ExprReader}

/-- Lists and loops in brackets start with no bare name. -/
theorem bracketed_bare : Gives (bracketed nested) Expr.BareNames := by
  have hlist : Gives (list nested) Expr.BareNames :=
    gives_bind fun _ => gives_bind fun _ => gives_pure trivial
  have hloop : Gives (forList nested) Expr.BareNames :=
    gives_bind fun _ => gives_bind fun _ => gives_bind fun _ => gives_bind fun _ =>
      gives_bind fun _ => gives_pure trivial
  refine gives_bind fun _ => gives_bind fun loop => ?_
  cases loop
  · exact hlist.bind fun _ he => gives_bind fun _ => gives_pure he
  · exact hloop.bind fun _ he => gives_bind fun _ => gives_pure he

theorem braced_bare : Gives (braced nested) Expr.BareNames := by
  have hobject : Gives (object nested) Expr.BareNames :=
    gives_bind fun _ => gives_bind fun _ => gives_pure trivial
  have hloop : Gives (forObject nested) Expr.BareNames :=
    gives_bind fun _ => gives_bind fun _ => gives_bind fun _ => gives_bind fun _ =>
      gives_bind fun _ => gives_bind fun _ => gives_bind fun _ => gives_bind fun _ =>
        gives_pure trivial
  refine gives_bind fun _ => gives_bind fun loop => ?_
  cases loop
  · exact hobject.bind fun _ he => gives_bind fun _ => gives_pure he
  · exact hloop.bind fun _ he => gives_bind fun _ => gives_pure he

theorem named_bare : Gives (named nested) Expr.BareNames := by
  refine identifier_isIdentifier.bind fun name hname => gives_bind fun found => ?_
  split
  all_goals first
    | exact gives_pure trivial
    | exact gives_pure hname

theorem steps_bare (lineEnds : Bool) :
    Gives (steps nested lineEnds) fun path => ∀ step ∈ path, step.BareName := by
  have hposition : Gives attributeStep.position Step.BareName := by
    refine gives_bind fun _ => ?_
    dsimp only
    split
    · exact gives_pure trivial
    · exact gives_failure
  have hattribute : Gives attributeStep Step.BareName := by
    refine gives_bind fun _ => gives_bind fun _ => ?_
    exact .orElse (.seqRight _ (gives_pure trivial))
      (.orElse hposition (identifier_isIdentifier.map fun _ hname => hname))
  have hindex : Gives (indexStep nested) Step.BareName := by
    have hinner : Gives (char '*' *> pure .fullSplat <|> .index <$> bare nested) Step.BareName :=
      .orElse (.seqRight _ (gives_pure trivial)) ((gives_true _).map fun _ _ => trivial)
    exact gives_bind fun _ => gives_bind fun _ => hinner.bind fun _ hstep =>
      gives_bind fun _ => gives_bind fun _ => gives_pure hstep
  exact ((hattribute.orElse hindex).seqRight (around lineEnds)).many

theorem operation_bare {lineEnds : Bool} {left : Located Expr} (hleft : left.value.BareNames) :
    Bare (operation nested lineEnds left) := by
  refine .orElse ?_ (.orElse ?_ (gives_pure hleft))
  · exact gives_bind fun _ => gives_bind fun _ => gives_bind fun _ => gives_bind fun _ =>
      gives_bind fun _ => gives_bind fun _ => gives_bind fun _ => gives_bind fun _ =>
        gives_pure trivial
  · exact gives_bind fun _ => gives_bind fun _ => gives_bind fun _ => gives_bind fun _ =>
      gives_pure trivial

variable (hnested : ∀ lineEnds, Bare (nested lineEnds))
include hnested

theorem parenthesized_bare : Gives (parenthesized nested) Expr.BareNames :=
  gives_bind fun _ => gives_bind fun _ => (hnested true).bind fun _ he =>
    gives_bind fun _ => gives_bind fun _ => gives_pure he

theorem bareTerm_bare : Gives (bareTerm nested) Expr.BareNames := by
  have hmap {α : Type} {f : α → Expr} {p : Reader α} (hf : ∀ a, (f a).BareNames) :
      Gives (f <$> p) Expr.BareNames := (gives_true p).map fun a _ => hf a
  have hnegative : Gives negativeNumber Expr.BareNames :=
    gives_bind fun _ => gives_bind fun _ => gives_bind fun _ => gives_pure trivial
  unfold bareTerm
  refine .orElse (hmap fun _ => trivial) (.orElse hnegative (.orElse (hmap fun _ => trivial) ?_))
  refine .orElse (hmap fun _ => trivial) (.orElse (hmap fun _ => trivial) ?_)
  exact .orElse bracketed_bare
    (.orElse braced_bare (.orElse (parenthesized_bare hnested) named_bare))

theorem term_bare (lineEnds : Bool) : Bare (term nested lineEnds) := by
  refine gives_bind fun ops => (bareTerm_bare hnested).located.bind fun e he => ?_
  split
  · exact gives_pure he
  · exact gives_pure trivial

theorem exprOver_bare (lineEnds : Bool) : Bare (exprOver nested lineEnds) := by
  refine (term_bare hnested lineEnds).bind fun root hroot => ?_
  refine (steps_bare _).located.bind fun path hpath => ?_
  obtain ⟨taken, span⟩ := path
  cases taken with
  | nil => exact operation_bare hroot
  | cons step rest => exact operation_bare ⟨hroot, hpath⟩

end

theorem exprWithin_bare (depth : Nat) (lineEnds : Bool) : Bare (exprWithin depth lineEnds) := by
  induction depth generalizing lineEnds with
  | zero => exact gives_failure
  | succ depth ih => exact exprOver_bare ih lineEnds

end Read

theorem Expr.bareNames_of_ofText? {s : String} {e : Expr} (h : ofText? s = some e) : e.BareNames :=
  ((Read.gives_bind fun n => Read.exprWithin_bare (n + 1) false).map fun _ he => he).whole h

end Hcl

end EarlyConfig
