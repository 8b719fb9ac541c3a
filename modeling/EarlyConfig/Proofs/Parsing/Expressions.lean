import EarlyConfig.Proofs.Parsing.Brackets

/-! Expressions that are read from texts. Names, calls, lists and objects are read whatever reads
the expressions in them (`readable_name` and the like). Since each level of nesting takes a
character or more, a text that is put together from such parts is read as a whole
(`IsRead.ofText?`). -/
namespace EarlyConfig.Hcl.Read

/-! ### One level -/

section

variable {nested : ExprReader} {P : Expr → Prop}

theorem readable_name {w : String} (hw : isWord w) (hplain : w ∉ literalWords) :
    Readable (exprOver nested) w.toList (· = .variable w) where
  start := startsTerm_of_isWord hw
  read {t} ht := by
    have hparen : t.head? ≠ some '(' :=
      (ht.noStart (p := fun c => c = '(') (by decide)).ne (by decide)
    have hcall : Fails (gap *> arguments nested) t :=
      ht.solid.reads_gap.seqRight_fails (fails_char hparen).bind
    have hname := reads_variable hw hplain (ht.noStart (by decide)) hcall
    refine reads_exprOver_named hw (hname.imp fun e he => ⟨he, ?_⟩) ht.stops
    rw [he]
    rfl

theorem readableKey_name {w : String} (hw : isWord w) (hplain : w ∉ literalWords) :
    ReadableKey (exprOver nested) w := by
  intro s
  have heq : Solid ('=' :: ' ' :: s) := noStart_cons (by decide) _
  have hstops : Stops (' ' :: '=' :: ' ' :: s) := by
    refine ⟨'=' :: ' ' :: s, reads_space (x := [' ']) (by decide) heq,
      noStart_cons (by decide) _, ?_⟩
    have hdouble : Fails (word "==") ('=' :: ' ' :: s) := by
      have hword : word "==" = chars ['=', '='] := congrArg chars String.toList_ofList
      rw [hword]
      exact (reads_char '=' _).bind_fails fun _ _ => (fails_char (by simp)).bind
    exact fails_binaryOp hdouble (noStart_cons (by decide) _)
  have hcall : Fails (gap *> arguments nested) (' ' :: '=' :: ' ' :: s) :=
    (reads_gap (x := [' ']) (by decide) heq).seqRight_fails (fails_char (by simp)).bind
  have hname := reads_variable hw hplain (noStart_cons (by decide) _) hcall
  refine reads_exprOver_named hw (hname.imp fun e he => ⟨he, ?_⟩) hstops
  rw [he]
  rfl

theorem readable_call {w : String} (hw : isWord w) {x : List Char} (harg : Readable nested x P) :
    Readable (exprOver nested) (w.toList ++ '(' :: (x ++ [')'])) (IsCall w P) where
  start := (startsTerm_of_isWord hw).append _
  read {t} ht := by
    have htext : w.toList ++ '(' :: (x ++ [')']) ++ t = w.toList ++ '(' :: (x ++ ')' :: t) := by
      simp
    rw [htext]
    refine reads_exprOver_named hw ((reads_call hw harg.arguments).imp fun e he => ?_) ht.stops
    obtain ⟨args, spread, rfl, e', hargs, he'⟩ := he
    obtain ⟨rfl, rfl⟩ := Prod.mk.inj hargs
    exact ⟨⟨e', rfl, he'⟩, rfl⟩

section

variable {ι : Type} {P : ι → Expr → Prop} {is : List ι}

theorem readable_list {code : ι → List Char} (his : ∀ j ∈ is, Readable nested (code j) (P j))
    (hloop : ∀ j ∈ is, (code j).head? ≠ some 'f') :
    Readable (exprOver nested) ('[' :: (row code is ++ [']'])) (IsList P is) where
  start := ⟨'[', _, rfl, by decide⟩
  read {t} ht := by
    have htext : '[' :: (row code is ++ [']']) ++ t = '[' :: (row code is ++ ']' :: t) := by simp
    rw [htext]
    refine reads_exprOver_start ⟨'[', _, rfl, by decide⟩ ?_ ht.stops
    refine ((reads_bracketed his hloop).imp fun e he => ⟨he, ?_⟩).orElse
    obtain ⟨items, rfl, -⟩ := he
    rfl

theorem readable_object {name : ι → String} {value : ι → List Char}
    (hfail : ∀ t, Fails (nested false) ('}' :: t))
    (his : ∀ j ∈ is, ReadableEntry nested (name j) (value j) (P j))
    (hfor : ∀ j ∈ is, name j ≠ "for") (hnames : (is.map name).Nodup) :
    Readable (exprOver nested) ('{' :: (row (fun j => entryText (name j) (value j)) is ++ ['}']))
      (IsObject name P is) where
  start := ⟨'{', _, rfl, by decide⟩
  read {t} ht := by
    have htext : '{' :: (row (fun j => entryText (name j) (value j)) is ++ ['}']) ++ t =
        '{' :: (row (fun j => entryText (name j) (value j)) is ++ '}' :: t) := by simp
    rw [htext]
    refine reads_exprOver_start ⟨'{', _, rfl, by decide⟩ ?_ ht.stops
    have hbracket : Fails (char '[')
        ('{' :: (row (fun j => entryText (name j) (value j)) is ++ '}' :: t)) :=
      fails_char (by simp)
    apply hbracket.bind.orElse_reads
    refine ((reads_braced (hfail t) his hfor hnames).imp fun e he => ⟨he, ?_⟩).orElse
    obtain ⟨entries, rfl, -⟩ := he
    rfl

end

end

/-! ### Nesting -/

theorem length_le_row {ι : Type} (code : ι → List Char) {is : List ι} {i : ι} (h : i ∈ is) :
    (code i).length ≤ (row code is).length := by
  cases is with
  | nil => cases h
  | cons j is =>
    rw [row, List.length_append]
    rcases List.mem_cons.1 h with rfl | h
    · omega
    · have hpart : (code i).length ≤ (continued code is).length := by
        obtain ⟨before, after, rfl⟩ := List.append_of_mem h
        simp [continued]
        omega
      omega

/-- The text is read as such an expression if expressions may nest as deep as it is long. -/
def IsRead (x : List Char) (P : Expr → Prop) : Prop :=
  ∀ depth, x.length ≤ depth → Readable (exprWithin depth) x P

theorem IsRead.imp {x : List Char} {P Q : Expr → Prop} (h : IsRead x P) (hPQ : ∀ e, P e → Q e) :
    IsRead x Q := by
  intro depth hdepth
  have hx := h depth hdepth
  exact ⟨hx.start, fun ht => (hx.read ht).imp fun e he => hPQ e.value he⟩

/-- A text that is read at one level more than what is in it. -/
theorem isRead_of_succ {x : List Char} {P : Expr → Prop} (hx : x ≠ [])
    (h : ∀ depth, x.length ≤ depth + 1 → Readable (exprOver (exprWithin depth)) x P) :
    IsRead x P := by
  intro depth hdepth
  cases depth with
  | zero => exact absurd (List.eq_nil_of_length_eq_zero (Nat.le_zero.1 hdepth)) hx
  | succ depth => exact h depth hdepth

theorem ne_nil_of_isWord {w : String} (hw : isWord w) : w.toList ≠ [] := by
  obtain ⟨c, x, hlist, -⟩ := startsTerm_of_isWord hw
  rw [hlist]
  exact List.cons_ne_nil c x

theorem isRead_name {w : String} (hw : isWord w) (hplain : w ∉ literalWords) :
    IsRead w.toList (· = .variable w) :=
  isRead_of_succ (ne_nil_of_isWord hw) fun _ _ => readable_name hw hplain

theorem isRead_call {w : String} (hw : isWord w) {x : List Char} {P : Expr → Prop}
    (hx : IsRead x P) : IsRead (w.toList ++ '(' :: (x ++ [')'])) (IsCall w P) := by
  refine isRead_of_succ (by simp) fun depth hdepth => readable_call hw (hx depth ?_)
  simp at hdepth
  omega

theorem isRead_list {ι : Type} {code : ι → List Char} {P : ι → Expr → Prop} {is : List ι}
    (his : ∀ i ∈ is, IsRead (code i) (P i)) (hloop : ∀ i ∈ is, (code i).head? ≠ some 'f') :
    IsRead ('[' :: (row code is ++ [']'])) (IsList P is) := by
  refine isRead_of_succ (by simp) fun depth hdepth => readable_list (fun i hi => ?_) hloop
  have hlength : (code i).length ≤ (row code is).length := length_le_row code hi
  simp at hdepth
  exact his i hi depth (by omega)

theorem isRead_object {ι : Type} {name : ι → String} {value : ι → List Char}
    {P : ι → Expr → Prop} {is : List ι}
    (hname : ∀ i ∈ is, isWord (name i) ∧ name i ∉ literalWords ∧ name i ≠ "for")
    (hvalue : ∀ i ∈ is, IsRead (value i) (P i)) (hnames : (is.map name).Nodup) :
    IsRead ('{' :: (row (fun i => entryText (name i) (value i)) is ++ ['}']))
      (IsObject name P is) := by
  refine isRead_of_succ (by simp) fun depth hdepth => ?_
  have hfail : ∀ t, Fails (exprWithin depth false) ('}' :: t) := by
    intro t
    cases depth with
    | zero => exact fun _ => rfl
    | succ depth => exact Closing.fails_exprOver (noStart_cons (by decide) t)
  refine readable_object hfail (fun i hi => ?_) (fun i hi => (hname i hi).2.2) hnames
  obtain ⟨hword, hplain, -⟩ := hname i hi
  have hlength := length_le_row (fun i => entryText (name i) (value i)) hi
  simp [entryText] at hlength hdepth
  refine ⟨hword, ?_, hvalue i hi depth (by omega)⟩
  cases depth with
  | zero => omega
  | succ depth => exact readableKey_name hword hplain

/-- A text that is read as an expression is one as a whole. -/
theorem IsRead.ofText? {s : String} {P : Expr → Prop} (h : IsRead s.toList P) :
    ∃ e, Expr.ofText? s = some e ∧ P e := by
  have hlength : ∀ x : List Char, x.length ≤ String.utf8Len x := by
    intro x
    induction x with
    | nil => exact Nat.le_refl 0
    | cons c x ih =>
      have hc := c.utf8Size_pos
      rw [List.length_cons, String.utf8Len_cons]
      omega
  have hexpr : Reads expr (s.toList ++ []) [] fun e => P e.value := by
    rw [List.append_nil]
    apply (reads_bytesLeft s.toList).bind
    intro n hn
    have hread := (h (n + 1) (by have := hlength s.toList; omega)).read (t := []) nofun
    rwa [List.append_nil] at hread
  obtain ⟨e, m, he, hP⟩ := (hexpr.map (f := (·.value)) (Q := P) fun _ he => he) 0
  have hstart : start s = facing 0 (s.toList ++ []) := by
    rw [start, ← String.utf8Len_toList, List.append_nil, facing, Nat.zero_add]
  refine ⟨e, ?_, hP⟩
  rw [Expr.ofText?, whole, hstart, he]
  rfl

end EarlyConfig.Hcl.Read
