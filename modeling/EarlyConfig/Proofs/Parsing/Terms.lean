import EarlyConfig.Proofs.Parsing.Runs

/-! Terms of an expression. What is none of the literals is told from its first character
(`NoLiteral`); an expression goes on after a term only if an operator or a step comes next
(`Stops`). So a name, a call, a list or an object is read as an expression where something closes
after it (`reads_exprOver_start`). -/
namespace EarlyConfig.Hcl.Read

/-! ### What closes -/

/-- The text is at its end or at something that ends what stands in brackets. -/
def Closing (s : List Char) : Prop :=
  NoStart (fun c => !([')', ']', '}', ','].contains c)) s

theorem Closing.noStart {s : List Char} (h : Closing s) {p : Char → Bool}
    (hp : [')', ']', '}', ','].all fun c => !p c) : NoStart p s := by
  intro c hc
  have hclosing : c ∈ [')', ']', '}', ','] := by
    have hone := h c hc
    rwa [Bool.not_eq_false', List.contains_iff_mem] at hone
  have hnone := List.all_eq_true.1 hp c hclosing
  rwa [Bool.not_eq_true'] at hnone

theorem Closing.solid {s : List Char} (h : Closing s) : Solid s :=
  h.noStart (by decide)

/-! ### Operators -/

theorem fails_binaryOp {s : List Char} (heq : Fails (word "==") s)
    (h : NoStart (fun c => ['!', '<', '>', '&', '|', '+', '-', '*', '%', '/'].contains c) s) :
    Fails binaryOp s := by
  have hword : ∀ {w : String} {c : Char} {x : List Char} {op : BinaryOp}, w.toList = c :: x →
      ['!', '<', '>', '&', '|', '+', '-', '*', '%', '/'].contains c →
      Fails (word w *> (pure op : Reader BinaryOp)) s :=
    fun hw hc => (fails_word hw (h.ne hc)).seqRight
  have hchar : ∀ {c : Char} {op : BinaryOp},
      ['!', '<', '>', '&', '|', '+', '-', '*', '%', '/'].contains c →
      Fails (char c *> (pure op : Reader BinaryOp)) s :=
    fun hc => (fails_char (h.ne hc)).seqRight
  have hslash : s.head? ≠ some '/' := h.ne (by decide)
  have hdiv : Fails (notAhead (word "//" <|> word "/*") *> char '/' *>
      (pure .div : Reader BinaryOp)) s :=
    ((((fails_word String.toList_ofList hslash).orElse
      (fails_word String.toList_ofList hslash)).notAhead).seqRight_fails
        (fails_char hslash)).seqRight
  apply heq.seqRight.orElse
  apply (hword String.toList_ofList (by decide)).orElse
  apply (hword String.toList_ofList (by decide)).orElse
  apply (hword String.toList_ofList (by decide)).orElse
  refine (hchar (by decide)).orElse ((hchar (by decide)).orElse ?_)
  apply (hword String.toList_ofList (by decide)).orElse
  apply (hword String.toList_ofList (by decide)).orElse
  refine (hchar (by decide)).orElse ((hchar (by decide)).orElse ?_)
  exact (hchar (by decide)).orElse ((hchar (by decide)).orElse hdiv)

/-- No expression goes on here. -/
def Stops (s : List Char) : Prop :=
  ∃ t, Reads space s t (fun _ => True) ∧ NoStart (fun c => ['.', '[', '?'].contains c) t ∧
    Fails binaryOp t

theorem Closing.stops {s : List Char} (h : Closing s) : Stops s := by
  refine ⟨s, h.solid.reads_space, h.noStart (by decide), ?_⟩
  have heq : s.head? ≠ some '=' := (h.noStart (p := fun c => c = '=') (by decide)).ne (by decide)
  exact fails_binaryOp (fails_word String.toList_ofList heq) (h.noStart (by decide))

section

variable {nested : ExprReader} {s t : List Char} {P : Expr → Prop}

/-- An expression is its first term where it goes on no further. -/
theorem reads_exprOver (hterm : Reads (term nested false) s t fun e =>
      P e.value ∧ isParenthesized e.value = false) (hstops : Stops t) :
    Reads (exprOver nested false) s t fun e => P e.value := by
  obtain ⟨u, hspace, hstart, hbinary⟩ := hstops
  have hsteps : Reads (steps nested false) t t (· = []) := by
    apply Fails.many
    apply hspace.seqRight_fails
    exact (fails_char (hstart.ne (by decide))).bind.orElse (fails_char (hstart.ne (by decide))).bind
  apply hterm.bind
  intro root hroot
  obtain ⟨hP, hparen⟩ := hroot
  simp only [hparen, Bool.or_false]
  apply hsteps.located.bind
  intro path hpath
  rw [hpath]
  have hconditional : Fails (operation.conditional nested false root) t :=
    hspace.bind_fails fun _ _ => (fails_char (hstart.ne (by decide))).bind
  have hbinary : Fails (operation.binary nested false root) t :=
    hspace.bind_fails fun _ _ => hbinary.bind
  exact hconditional.orElse_reads (hbinary.orElse_reads (reads_pure hP))

/-! ### Terms -/

theorem fails_unaryOp (h : NoStart (fun c => ['-', '!'].contains c) s) (lineEnds : Bool) :
    Fails (unaryOp lineEnds) s := by
  have hminus : Fails (char '-') s := fails_char (h.ne (by decide))
  have hnot : Fails (char '!') s := fails_char (h.ne (by decide))
  have hnegative : Fails negativeNumber s := hminus.bind
  exact hnegative.notAhead.bind_fails fun _ _ =>
    (hminus.seqRight.orElse hnot.seqRight).located.bind

theorem reads_term (h : NoStart (fun c => ['-', '!'].contains c) s) {P : Expr → Prop}
    (hbare : Reads (bareTerm nested) s t P) :
    Reads (term nested false) s t fun e => P e.value := by
  apply (fails_unaryOp h false).many.bind
  intro ops hops
  apply hbare.located.bind
  intro e he
  subst hops
  exact reads_pure he

/-- The text starts with nothing that a number or a quoted string starts with. -/
def NoLiteral (s : List Char) : Prop :=
  NoStart (fun c => c.isDigit || ['-', '"', '<'].contains c) s

section NoLiteral

variable (h : NoLiteral s)
include h

theorem NoLiteral.ne {c : Char} (hc : ['-', '"', '<'].contains c) : s.head? ≠ some c :=
  NoStart.ne h (by simp only [hc, Bool.or_true])

theorem NoLiteral.fails_number : Fails number s := by
  have hdigit : NoStart Char.isDigit s := fun c hc => by
    have := h c hc
    rw [Bool.or_eq_false_iff] at this
    exact this.1
  exact (fails_charsWhile1 hdigit).bind

theorem NoLiteral.bareTerm_eq (nested : ExprReader) (n : Nat) :
    bareTerm nested (facing n s) =
      (bracketed nested <|> braced nested <|> parenthesized nested <|> named nested)
        (facing n s) := by
  have hminus : Fails negativeNumber s := (fails_char (h.ne (by decide))).bind
  have hquote : Fails (char '"') s := fails_char (h.ne (by decide))
  have hstring : Fails quotedString s := hquote.bind
  have htemplate : Fails (quotedTemplate (bare nested)) s := hquote.bind
  have hheredoc : Fails (heredoc (bare nested)) s :=
    (fails_word String.toList_ofList (h.ne (by decide))).bind
  rw [bareTerm, h.fails_number.map.orElse_eq, hminus.orElse_eq, hstring.map.orElse_eq,
    htemplate.map.orElse_eq, hheredoc.map.orElse_eq]

end NoLiteral

/-- Nothing that closes starts an expression. -/
theorem Closing.fails_exprOver (h : Closing s) : Fails (exprOver nested false) s := by
  have hliteral : NoLiteral s := h.noStart (by decide)
  have hne : ∀ {c : Char}, ['[', '{', '('].contains c → s.head? ≠ some c := fun {c} hc =>
    (h.noStart (p := fun c => ['[', '{', '('].contains c) (by decide)).ne hc
  have hword : Fails identifier s := (fails_charIf (h.noStart (by decide))).bind
  have hrest : Fails
      (bracketed nested <|> braced nested <|> parenthesized nested <|> named nested) s := by
    apply (fails_char (hne (by decide))).bind.orElse
    apply (fails_char (hne (by decide))).bind.orElse
    exact (fails_char (hne (by decide))).bind.orElse hword.bind
  have hbare : Fails (bareTerm nested) s :=
    fun n => (hliteral.bareTerm_eq nested n).trans (hrest n)
  apply Fails.bind
  exact (fails_unaryOp (h.noStart (by decide)) false).many.bind_fails fun _ _ => hbare.located.bind

/-! ### Words -/

/-- The text is one word of the language. -/
def isWord (w : String) : Bool :=
  match w.toList with
  | [] => false
  | c :: x => isWordStart c && x.all isWordPart

theorem reads_identifier {w : String} (hw : isWord w) (ht : NoStart isWordPart t) :
    Reads identifier (w.toList ++ t) t (· = w) := by
  unfold isWord at hw
  split at hw
  · cases hw
  · rename_i c x hlist
    rw [Bool.and_eq_true, List.all_eq_true] at hw
    rw [hlist]
    apply (reads_charIf hw.1 _).bind
    intro first hfirst
    refine (reads_charsWhile hw.2 ht).bind fun others hothers => reads_pure ?_
    rw [hfirst, hothers, ← hlist, String.ofList_toList]

theorem isWordPart_of_isWordStart {c : Char} (h : isWordStart c) : isWordPart c := by
  unfold isWordStart at h
  unfold isWordPart Char.isAlphanum
  simp only [Bool.or_eq_true] at h ⊢
  tauto

theorem isWordPart_of_mem {w : String} (hw : isWord w) {c : Char} (hc : c ∈ w.toList) :
    isWordPart c := by
  unfold isWord at hw
  split at hw
  · cases hw
  · rename_i first others hlist
    rw [Bool.and_eq_true, List.all_eq_true] at hw
    rw [hlist] at hc
    rcases List.mem_cons.1 hc with rfl | hc
    · exact isWordPart_of_isWordStart hw.1
    · exact hw.2 c hc

/-- What a name, a call, a list or an object starts with. -/
def startsTerm (c : Char) : Bool :=
  isWordStart c || ['[', '{'].contains c

theorem isDigit_of_startsTerm {c : Char} (h : startsTerm c) : c.isDigit = false := by
  rw [← Bool.not_eq_true]
  intro hdigit
  have hrange := Char.isDigit_iff_toNat.1 hdigit
  have hother : ∀ {d : Char}, d.isDigit = false → c ≠ d := by
    intro d hd hcd
    rw [← hcd, hdigit] at hd
    cases hd
  rw [startsTerm, isWordStart] at h
  simp only [Bool.or_eq_true, decide_eq_true_eq, List.contains_iff_mem, List.mem_cons,
    List.not_mem_nil, or_false] at h
  rcases h with (halpha | rfl) | rfl | rfl
  · delta Char.isAlpha Char.isUpper Char.isLower at halpha
    simp only [Bool.or_eq_true, Bool.and_eq_true, decide_eq_true_eq, ge_iff_le,
      UInt32.le_iff_toNat_le, Char.toNat_val] at halpha
    have hcodes : '9'.toNat < 'A'.toNat ∧ '9'.toNat < 'a'.toNat := by decide
    omega
  · exact absurd rfl (hother (by decide))
  · exact absurd rfl (hother (by decide))
  · exact absurd rfl (hother (by decide))

/-- The text starts with one of the characters that a term starts with. -/
def StartsTerm (s : List Char) : Prop :=
  ∃ c x, s = c :: x ∧ startsTerm c

theorem StartsTerm.append (h : StartsTerm s) (t : List Char) : StartsTerm (s ++ t) := by
  obtain ⟨c, x, rfl, hc⟩ := h
  exact ⟨c, x ++ t, rfl, hc⟩

theorem StartsTerm.noStart (h : StartsTerm s) (others : List Char)
    (hothers : others.all fun c => !startsTerm c) : NoStart (others.contains ·) s := by
  obtain ⟨c, x, rfl, hc⟩ := h
  apply noStart_cons
  rw [← Bool.not_eq_true, List.contains_iff_mem]
  intro hmem
  have hnone := List.all_eq_true.1 hothers c hmem
  rw [hc] at hnone
  cases hnone

theorem StartsTerm.solid (h : StartsTerm s) : Solid s := by
  have hblank := h.noStart [' ', '\t', '\n', '\r', '#', '/'] (by decide)
  intro c hc
  have hnone := hblank c hc
  simp at hnone
  simp [isGap, isSpace, hnone]

theorem StartsTerm.noLiteral (h : StartsTerm s) : NoLiteral s := by
  have hmark := h.noStart ['-', '"', '<'] (by decide)
  obtain ⟨c, x, rfl, hc⟩ := h
  apply noStart_cons
  rw [isDigit_of_startsTerm hc, Bool.false_or]
  exact hmark c rfl

theorem startsTerm_of_isWord {w : String} (h : isWord w) : StartsTerm w.toList := by
  unfold isWord at h
  split at h
  · cases h
  · rename_i c x hlist
    rw [Bool.and_eq_true] at h
    exact ⟨c, x, hlist, by rw [startsTerm, h.1, Bool.true_or]⟩

/-! ### Names and calls -/

/-- The words that stand for values. -/
def literalWords : List String :=
  ["null", "true", "false"]

/-- A word that is not called and stands for no value is a name. -/
theorem reads_variable {w : String} (hw : isWord w) (hplain : w ∉ literalWords)
    (ht : NoStart isWordPart t) (hcall : Fails (gap *> arguments nested) t) :
    Reads (named nested) (w.toList ++ t) t (· = .variable w) := by
  apply (reads_identifier hw ht).bind
  intro name hname
  apply hcall.opt.bind
  intro found hfound
  subst hname hfound
  simp only [literalWords, List.mem_cons, List.not_mem_nil, or_false, not_or] at hplain
  split
  case h_1 h => cases h
  case h_2 => exact absurd rfl hplain.1
  case h_3 => exact absurd rfl hplain.2.1
  case h_4 => exact absurd rfl hplain.2.2
  case h_5 => exact reads_pure rfl

theorem reads_call {w : String} (hw : isWord w) {Q : List Expr × Bool → Prop}
    (hargs : Reads (arguments nested) ('(' :: s) t Q) :
    Reads (named nested) (w.toList ++ '(' :: s) t
      fun e => ∃ args spread, e = .call w args spread ∧ Q (args, spread) := by
  apply (reads_identifier hw (noStart_cons (by decide) s)).bind
  intro name hname
  have hparen : Solid ('(' :: s) := noStart_cons (by decide) s
  apply (hparen.reads_gap.seqRight hargs).opt.bind
  intro found hfound
  obtain ⟨⟨args, spread⟩, rfl, hQ⟩ := hfound
  subst hname
  exact reads_pure ⟨args, spread, rfl, hQ⟩

/-- An expression that is a list, an object or a name, called or not. -/
theorem reads_exprOver_start (hs : StartsTerm s)
    (hterm : Reads (bracketed nested <|> braced nested <|> parenthesized nested <|> named nested)
      s t fun e => P e ∧ isParenthesized e = false) (hstops : Stops t) :
    Reads (exprOver nested false) s t fun e => P e.value := by
  have hbare : Reads (bareTerm nested) s t fun e => P e ∧ isParenthesized e = false := by
    intro n
    rw [hs.noLiteral.bareTerm_eq]
    exact hterm n
  exact reads_exprOver (reads_term (hs.noStart ['-', '!'] (by decide)) hbare) hstops

theorem reads_exprOver_named {w : String} (hw : isWord w)
    (hnamed : Reads (named nested) (w.toList ++ s) t fun e => P e ∧ isParenthesized e = false)
    (hstops : Stops t) : Reads (exprOver nested false) (w.toList ++ s) t fun e => P e.value := by
  have hne : ∀ {c : Char}, isWordPart c = false → (w.toList ++ s).head? ≠ some c := by
    intro c hc hhead
    obtain ⟨d, x, hlist, -⟩ := startsTerm_of_isWord hw
    rw [hlist, List.cons_append, List.head?_cons, Option.some.injEq] at hhead
    have hpart : isWordPart c := isWordPart_of_mem hw (by simp [hlist, hhead])
    rw [hc] at hpart
    cases hpart
  refine reads_exprOver_start ((startsTerm_of_isWord hw).append s) ?_ hstops
  apply (fails_char (hne (by decide))).bind.orElse_reads
  apply (fails_char (hne (by decide))).bind.orElse_reads
  exact (fails_char (hne (by decide))).bind.orElse_reads hnamed

end

end EarlyConfig.Hcl.Read
