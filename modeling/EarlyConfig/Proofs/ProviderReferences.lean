import EarlyConfig.Proofs.Identifiers
import EarlyConfig.Proofs.Text
import EarlyConfig.Provider.Reference

/-! The spellings of a provider reference. A reference that is found in an expression is made of
identifiers (`named_of_ofArgument`), so it is found again in its own text in quotes
(`ofArgument_text`). An address is a bare reference with nothing left over (`ofAddress_eq_ok`), and
is taken for the same reference where more may be left over (`ofArgument_of_ofAddress`). -/
namespace EarlyConfig

/-! ### Dotted names -/

namespace DottedName

/-- All names are identifiers. -/
def Named (d : DottedName) : Prop :=
  ∀ name ∈ d.root :: d.attrs, Text.isIdentifier name

theorem named_ofSteps {root : String} (hroot : Text.isIdentifier root) {steps : List Hcl.Step}
    (h : ∀ step ∈ steps, step.BareName) : (ofSteps root steps).Named := by
  fun_induction ofSteps root steps with
  | case1 => exact List.forall_mem_singleton.2 hroot
  | case2 name rest d ih =>
    obtain ⟨hname, hrest⟩ := List.forall_mem_cons.1 h
    have hattrs := (List.forall_mem_cons.1 (ih hrest)).2
    exact List.forall_mem_cons.2 ⟨hroot, List.forall_mem_cons.2 ⟨hname, hattrs⟩⟩
  | case3 => exact List.forall_mem_singleton.2 hroot

/-- An expression that starts with a bare name, perhaps in parentheses, and its dotted name. -/
inductive Refers : Hcl.Expr → DottedName → Prop
  | name (name : String) : Refers (.variable name) ⟨name, [], false⟩
  | steps (name : String) (steps : List Hcl.Step) :
      Refers (.traversal (.variable name) steps) (ofSteps name steps)
  | paren {e : Hcl.Expr} {d : DottedName} (inner : Refers e d) : Refers (.paren e) d

theorem refers_of_ofExpr? {e : Hcl.Expr} {d : DottedName} (h : ofExpr? e = some d) :
    Refers e d := by
  -- Bare names are looked for under parentheses too, so their cases are the ones needed here.
  induction e using Hcl.Expr.BareNames.induct with
  | case1 name =>
    cases h
    exact .name name
  | case2 root steps =>
    cases root <;> cases h
    exact .steps _ steps
  | case3 inner ih => exact .paren (ih h)
  | case4 e hvariable htraversal hparen =>
    cases e
    all_goals first
      | exact absurd rfl (hvariable _)
      | exact absurd rfl (htraversal _ _)
      | exact absurd rfl (hparen _)
      | cases h

theorem Refers.named {e : Hcl.Expr} {d : DottedName} (h : Refers e d) (he : e.BareNames) :
    d.Named := by
  induction h with
  | name name => exact List.forall_mem_singleton.2 he
  | steps name steps => exact named_ofSteps he.1 he.2
  | paren _ ih => exact ih he

theorem named_of_ofText? {s : String} {d : DottedName} (h : ofText? s = some d) : d.Named := by
  unfold ofText? at h
  split at h
  · split at h
    · rename_i hall
      cases h
      exact List.all_eq_true.1 hall
    · cases h
  · cases h

theorem ofText?_intercalate {root : String} {attrs : List String} (h : Named ⟨root, attrs, false⟩) :
    ofText? (".".intercalate (root :: attrs)) = some ⟨root, attrs, false⟩ := by
  have hpoint : Text.isNamePart '.' = false := by decide +kernel
  have hpieces : Text.pieces '.' (".".intercalate (root :: attrs)) = root :: attrs :=
    Text.pieces_intercalate (by simp) fun p hp => Text.not_mem_of_isIdentifier (h p hp) hpoint
  unfold ofText?
  rw [hpieces]
  exact if_pos (List.all_eq_true.2 h)

end DottedName

namespace ProviderRef

/-! ### Arguments -/

/-- The local name is an identifier, and so is the alias if there is one. -/
structure Named (r : ProviderRef) : Prop where
  localName : Text.isIdentifier r.localName
  aliasName : r.aliasName ≠ "" → Text.isIdentifier r.aliasName

/-- The reference in a dotted name: its root and the first attribute. -/
def ofDotted (d : DottedName) : ProviderRef :=
  ⟨d.root, d.attrs.headD ""⟩

theorem named_ofDotted {d : DottedName} (h : d.Named) : (ofDotted d).Named := by
  obtain ⟨root, attrs, more⟩ := d
  obtain ⟨hroot, hattrs⟩ := List.forall_mem_cons.1 h
  refine ⟨hroot, fun halias => ?_⟩
  cases attrs with
  | nil => exact absurd rfl halias
  | cons aliasName rest => exact hattrs aliasName (List.mem_cons_self ..)

theorem ofArgument_eq_ok {e : Hcl.Expr} {r : ProviderRef} :
    ofArgument e = .ok r ↔ ∃ d, ofDotted d = r ∧ (DottedName.ofExpr? e = some d ∨
      DottedName.ofExpr? e = none ∧
        ∃ s, e.literal? = some (.text s) ∧ DottedName.ofText? s = some d) := by
  have htext : ∀ (v : Value) (s : String), v.text? = some s ↔ v = .text s := by
    intro v s
    cases v <;> simp [Value.text?]
  have hquoted : ∀ d, (e.literal?.bind Value.text?).bind DottedName.ofText? = some d ↔
      ∃ s, e.literal? = some (.text s) ∧ DottedName.ofText? s = some d := by
    simp [Option.bind_eq_some_iff, htext]
  simp only [← hquoted, ← Option.or_eq_some_iff]
  unfold ofArgument
  cases (DottedName.ofExpr? e).or ((e.literal?.bind Value.text?).bind DottedName.ofText?) with
  | some d => simp [ofDotted]
  | none => simp

theorem literal?_text (s : String) : (Hcl.Expr.text s).literal? = some (.text s) := by
  change (Hcl.Chain.value (.text s)).result = _
  rw [Hcl.Chain.result]
  rfl

theorem ofArgument_text {r : ProviderRef} (h : r.Named) : ofArgument (.text r.text) = .ok r := by
  have hquoted : ∀ attrs, DottedName.Named ⟨r.localName, attrs, false⟩ →
      r.text = ".".intercalate (r.localName :: attrs) → attrs.headD "" = r.aliasName →
      ofArgument (.text r.text) = .ok r := by
    intro attrs hnamed htext halias
    refine ofArgument_eq_ok.2 ⟨⟨r.localName, attrs, false⟩, ?_, .inr ⟨rfl, r.text, ?_, ?_⟩⟩
    · rw [ofDotted, halias]
    · exact literal?_text r.text
    · rw [htext]
      exact DottedName.ofText?_intercalate hnamed
  by_cases halias : r.aliasName = ""
  · refine hquoted [] (List.forall_mem_singleton.2 h.localName) ?_ halias.symm
    simp [text, halias]
  · refine hquoted [r.aliasName] ?_ ?_ rfl
    · exact List.forall_mem_cons.2 ⟨h.localName, List.forall_mem_singleton.2 (h.aliasName halias)⟩
    · simp [text, halias]

theorem named_of_ofArgument {e : Hcl.Expr} {r : ProviderRef} (he : e.BareNames)
    (h : ofArgument e = .ok r) : r.Named := by
  obtain ⟨d, rfl, hd | ⟨-, s, -, hd⟩⟩ := ofArgument_eq_ok.1 h
  · exact named_ofDotted ((DottedName.refers_of_ofExpr? hd).named he)
  · exact named_ofDotted (DottedName.named_of_ofText? hd)

/-! ### Addresses -/

theorem ofAddress_eq_ok {e : Hcl.Expr} {r : ProviderRef} :
    ofAddress e = .ok r ↔ ∃ d, DottedName.ofExpr? e = some d ∧ d.more = false ∧
      d.attrs.length ≤ 1 ∧ ofDotted d = r := by
  unfold ofAddress
  cases DottedName.ofExpr? e with
  | none => simp
  | some d =>
    obtain ⟨root, attrs, more⟩ := d
    cases more with
    | true => simp
    | false => rcases attrs with _ | ⟨aliasName, _ | ⟨_, _⟩⟩ <;> simp [ofDotted, ofName]

/-- An address is a bare reference with nothing left over, so it is the same as an argument. -/
theorem ofArgument_of_ofAddress {e : Hcl.Expr} {r : ProviderRef} (h : ofAddress e = .ok r) :
    ofArgument e = .ok r := by
  obtain ⟨d, hd, -, -, hr⟩ := ofAddress_eq_ok.1 h
  exact ofArgument_eq_ok.2 ⟨d, hr, .inl hd⟩

/-- An expression that is a reference and nothing more, perhaps in parentheses. -/
inductive IsAddress : Hcl.Expr → ProviderRef → Prop
  | name (localName : String) : IsAddress (.variable localName) (.ofName localName)
  | noSteps (localName : String) :
      IsAddress (.traversal (.variable localName) []) (.ofName localName)
  | aliased (localName aliasName : String) :
      IsAddress (.traversal (.variable localName) [.attr aliasName]) ⟨localName, aliasName⟩
  | paren {e : Hcl.Expr} {r : ProviderRef} (inner : IsAddress e r) : IsAddress (.paren e) r

theorem isAddress_of_ofSteps {root : String} {steps : List Hcl.Step}
    (hmore : (DottedName.ofSteps root steps).more = false)
    (hattrs : (DottedName.ofSteps root steps).attrs.length ≤ 1) :
    IsAddress (.traversal (.variable root) steps) (ofDotted (DottedName.ofSteps root steps)) := by
  rcases steps with _ | ⟨first, _ | ⟨second, rest⟩⟩
  · exact .noSteps root
  · cases first with
    | attr aliasName => exact .aliased root aliasName
    | _ => cases hmore
  · cases first with
    | attr aliasName => cases second <;> simp [DottedName.ofSteps] at hmore hattrs
    | _ => cases hmore

theorem isAddress_iff {e : Hcl.Expr} {r : ProviderRef} : IsAddress e r ↔ ofAddress e = .ok r := by
  constructor
  · intro h
    induction h with
    | name localName => rfl
    | noSteps localName => rfl
    | aliased localName aliasName => rfl
    | paren _ ih => exact ih
  · intro h
    obtain ⟨d, hd, hmore, hattrs, rfl⟩ := ofAddress_eq_ok.1 h
    induction DottedName.refers_of_ofExpr? hd with
    | name name => exact .name name
    | steps name steps => exact isAddress_of_ofSteps hmore hattrs
    | paren inner ih => exact .paren (ih hd hmore hattrs h)

/-- **The spellings of a reference agree.** A reference that is found in an expression, bare or in
quotes, is found in its own text in quotes too. Where a reference is asked for with nothing after
its alias, which is in a bare one or none, it is the one found otherwise. All this asks is that the
bare names of the expression are identifiers, as in every expression that is read from a text. -/
theorem spellings_agree (e : Hcl.Expr) :
    (e.BareNames → ∀ r, ofArgument e = .ok r → ofArgument (.text r.text) = .ok r) ∧
    (∀ r, ofAddress e = .ok r → ofArgument e = .ok r) ∧
    (∀ r, ofAddress e = .ok r ↔ IsAddress e r) ∧
    ∀ s, Hcl.Expr.ofText? s = some e → e.BareNames := by
  refine ⟨fun he r h => ?_, fun r => ofArgument_of_ofAddress, fun r => isAddress_iff.symm, ?_⟩
  · exact ofArgument_text (named_of_ofArgument he h)
  · exact fun s => Hcl.Expr.bareNames_of_ofText?

/-- A second attribute and a splat after the alias are dropped from an argument, but not from an
address. -/
theorem spellings_agree_longer :
    let r : ProviderRef := ⟨"aws", "east"⟩
    ∃ e, Hcl.Expr.ofText? "(aws.east.west[*])" = some e ∧ ofArgument e = .ok r ∧
      ofArgument (.text "aws.east") = .ok r ∧ ¬IsAddress e r := by
  intro r
  obtain ⟨e, hread⟩ : ∃ e, Hcl.Expr.ofText? "(aws.east.west[*])" = some e :=
    Option.isSome_iff_exists.1 (by decide +kernel)
  have hfound : (Hcl.Expr.ofText? "(aws.east.west[*])").map (fun e => (ofArgument e).toOption) =
      some (some r) := by decide +kernel
  have hstrict : (Hcl.Expr.ofText? "(aws.east.west[*])").map (fun e => (ofAddress e).toOption) =
      some none := by decide +kernel
  rw [hread, Option.map_some, Option.some.injEq] at hfound hstrict
  have hargument : ofArgument e = .ok r := by
    cases h : ofArgument e with
    | ok r' =>
      rw [h] at hfound
      exact congrArg Except.ok (Option.some.inj hfound)
    | error _ =>
      rw [h] at hfound
      cases hfound
  obtain ⟨hquoted, -, haddress, hnames⟩ := spellings_agree e
  refine ⟨e, hread, hargument, hquoted (hnames _ hread) r hargument, fun h => ?_⟩
  rw [(haddress r).2 h] at hstrict
  cases hstrict

end ProviderRef

end EarlyConfig
