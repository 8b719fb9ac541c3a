import EarlyConfig.Proofs.Parsing.Terms
import Mathlib.Data.List.Induction

/-! What stands in brackets. Items are read one after another up to what closes them
(`reads_items`), and so are the arguments of a call (`Readable.arguments`), lists
(`reads_bracketed`) and objects (`reads_braced`). -/
namespace EarlyConfig.Hcl.Read

variable {nested : ExprReader} {s t : List Char} {P : Expr → Prop}

/-! ### Items -/

/-- The text is read as such an expression wherever something closes after it. -/
structure Readable (nested : ExprReader) (x : List Char) (P : Expr → Prop) : Prop where
  start : StartsTerm x
  read : ∀ {t}, Closing t → Reads (nested false) (x ++ t) t fun e => P e.value

theorem Readable.item {x : List Char} (h : Readable nested x P) {stops : List Char}
    (hstops : stops.all fun c => !startsTerm c) (blank : List Char) (hblank : blank.all isGap)
    (ht : Closing t) :
    Reads (gap *> notAhead (charIf (stops.contains ·)) *> nested false <* gap) (blank ++ (x ++ t)) t
      fun e => P e.value := by
  have hstart := h.start.append t
  have hahead := fails_charIf (hstart.noStart stops hstops)
  exact (((reads_gap hblank hstart.solid).seqRight hahead.notAhead).seqRight (h.read ht)).seqLeft
    ht.solid.reads_gap

/-- Texts with commas before them. -/
def continued {ι : Type} (code : ι → List Char) (is : List ι) : List Char :=
  is.flatMap fun i => ',' :: ' ' :: code i

theorem closing_continued {ι : Type} (code : ι → List Char) (is : List ι) (h : Closing s) :
    Closing (continued code is ++ s) := by
  cases is with
  | nil => exact h
  | cons i is => exact noStart_cons (by decide) _

section Items

variable {ι : Type} (code : ι → List Char) (P : ι → Expr → Prop) {i : ι} {is : List ι}
  {stops : List Char} (hstops : stops.all fun c => !startsTerm c)
  (hcomma : s.head? ≠ some ',') (hclosing : Closing s)
include hstops hcomma hclosing

theorem repeats_items (his : ∀ j ∈ is, Readable nested (code j) (P j)) :
    Repeats (char ',' *> (gap *> notAhead (charIf (stops.contains ·)) *> nested false <* gap))
      (fun j e => P j e.value) is (continued code is ++ s) s := by
  induction is with
  | nil => exact .nil (fails_char hcomma).seqRight
  | cons j is ih =>
    obtain ⟨hj, his⟩ := List.forall_mem_cons.1 his
    have htail := closing_continued code is hclosing
    have hitem := hj.item hstops [' '] (by decide) htail
    have htext : continued code (j :: is) ++ s =
        ',' :: ([' '] ++ (code j ++ (continued code is ++ s))) := by
      simp [continued]
    rw [htext]
    refine .cons ((reads_char ',' _).seqRight hitem) ?_ (ih his)
    simp only [String.utf8Len_cons, String.utf8Len_append]
    have := Char.utf8Size_pos ','
    omega

/-- Items with commas between them. -/
theorem reads_items (his : ∀ j ∈ i :: is, Readable nested (code j) (P j)) :
    Reads (items nested stops) (code i ++ (continued code is ++ s)) s
      (List.Forall₂ (fun j e => P j e.value) (i :: is)) := by
  obtain ⟨hi, his⟩ := List.forall_mem_cons.1 his
  have htail := closing_continued code is hclosing
  apply (hi.item hstops [] (by simp) htail).bind
  intro e he
  exact (repeats_items code P hstops hcomma hclosing his).many.bind fun es hes =>
    reads_pure (.cons he hes)

end Items

/-- The call of a name with one such argument. -/
def IsCall (w : String) (P : Expr → Prop) (e : Expr) : Prop :=
  ∃ arg, e = .call w [arg] false ∧ P arg

theorem Readable.arguments {x : List Char} (h : Readable nested x P) :
    Reads (arguments nested) ('(' :: (x ++ ')' :: t)) t fun r => ∃ e, r = ([e], false) ∧ P e := by
  have hclose : Closing (')' :: t) := noStart_cons (by decide) t
  have hstops : [',', '.', ')'].all fun c => !startsTerm c := by decide
  have hone : ∀ j ∈ [()], Readable nested x P := fun _ _ => h
  have hitems := reads_items (fun _ => x) (fun _ => P) hstops (by simp) hclose hone
  have hdots : Fails (word "...") (')' :: t) := fails_word String.toList_ofList (by simp)
  have hcomma : Fails (char ',') (')' :: t) := fails_char (by simp)
  apply (reads_char '(' _).bind
  intro _ _
  refine Reads.bind (P := fun o => ∃ r, o = some r ∧ ∃ e, r = ([e], false) ∧ P e)
    (Reads.opt (t := ')' :: t) ?_) fun o ho => ?_
  · apply hitems.bind
    intro args hargs
    apply hdots.flag.bind
    intro spread hspread
    subst hspread
    refine hcomma.opt.bind fun _ _ => reads_pure ?_
    obtain ⟨e, he, rfl⟩ : ∃ e : Located Expr, P e.value ∧ args = [e] := by
      cases hargs with
      | cons he hrest =>
        cases hrest
        exact ⟨_, he, rfl⟩
    exact ⟨e.value, rfl, he⟩
  · obtain ⟨r, rfl, e, rfl, he⟩ := ho
    apply hclose.solid.reads_gap.bind
    intro _ _
    exact (reads_char ')' t).bind fun _ _ => reads_pure ⟨e, rfl, he⟩

/-! ### Lists -/

/-- A list of such items. -/
def IsList {ι : Type} (P : ι → Expr → Prop) (is : List ι) (e : Expr) : Prop :=
  ∃ items, e = .list items ∧ List.Forall₂ (fun i (item : Located Expr) => P i item.value) is items

/-- Texts with commas between them. -/
def row {ι : Type} (code : ι → List Char) : List ι → List Char
  | [] => []
  | i :: is => code i ++ continued code is

theorem fails_loopAhead (hsolid : Solid s) (h : s.head? ≠ some 'f') : Fails loopAhead s := by
  have hword : Fails (word "for") s := fails_word String.toList_ofList h
  exact ((hsolid.reads_gap.seqRight_fails hword).seqRight).ahead

section Lists

variable {ι : Type} {code : ι → List Char} {P : ι → Expr → Prop} {is : List ι}
  (his : ∀ j ∈ is, Readable nested (code j) (P j))
include his

theorem reads_list : Reads (list nested) (row code is ++ ']' :: t) (']' :: t) (IsList P is) := by
  have hclose : Closing (']' :: t) := noStart_cons (by decide) t
  have hstops : [',', ']'].all fun c => !startsTerm c := by decide
  have hgap := hclose.solid.reads_gap
  cases is with
  | nil =>
    have hstop : Reads (charIf ([',', ']'].contains ·)) (']' :: t) t (· = ']') :=
      reads_charIf (by decide) t
    have hitems : Fails (items nested [',', ']']) (']' :: t) :=
      ((hgap.seqRight_fails hstop.notAhead).seqRight.seqLeft).bind
    refine hitems.seqLeft.opt.bind fun o ho => hgap.bind fun _ _ => reads_pure ?_
    rw [ho]
    exact ⟨[], rfl, .nil⟩
  | cons i is =>
    have hitems := reads_items code P hstops (by simp) hclose his
    have hcomma : Fails (char ',') (']' :: t) := fails_char (by simp)
    rw [row, List.append_assoc]
    refine (hitems.seqLeft hcomma.opt).opt.bind fun o ho => hgap.bind fun _ _ => reads_pure ?_
    obtain ⟨found, rfl, hfound⟩ := ho
    exact ⟨found, rfl, hfound⟩

/-- A list in brackets. -/
theorem reads_bracketed (hloop : ∀ j ∈ is, (code j).head? ≠ some 'f') :
    Reads (bracketed nested) ('[' :: (row code is ++ ']' :: t)) t (IsList P is) := by
  have hnoLoop : Fails loopAhead (row code is ++ ']' :: t) := by
    cases is with
    | nil => exact fails_loopAhead (noStart_cons (by decide) t) (by simp [row])
    | cons i is =>
      have hstart := (his i (.head _)).start
      rw [row, List.append_assoc]
      apply fails_loopAhead (hstart.append _).solid
      obtain ⟨c, x, hcode, -⟩ := hstart
      have hhead := hloop i (.head _)
      rw [hcode] at hhead ⊢
      exact hhead
  apply (reads_char '[' _).bind
  intro _ _
  apply hnoLoop.flag.bind
  intro loop hl
  subst hl
  apply (reads_list his).bind
  intro e he
  exact (reads_char ']' t).bind fun _ _ => reads_pure he

end Lists

/-! ### Objects -/

theorem putEntry_of_new {key value : Located Expr} {entries : List (Located Expr × Located Expr)}
    (h : ∀ entry ∈ entries, entry.1.value.sameSyntax key.value = false) :
    putEntry key value entries = entries ++ [(key, value)] := by
  induction entries with
  | nil => rfl
  | cons entry rest ih =>
    obtain ⟨hentry, hrest⟩ := List.forall_mem_cons.1 h
    obtain ⟨k, v⟩ := entry
    simp only [putEntry, hentry, Bool.false_eq_true, if_false, ih hrest, List.cons_append]

/-- Entries of different keys stand in an object as they are written. -/
theorem foldl_putEntry {entries : List (Located Expr × Located Expr)}
    (h : entries.Pairwise fun a b => a.1.value.sameSyntax b.1.value = false) :
    entries.foldl (fun acc e => putEntry e.1 e.2 acc) [] = entries := by
  induction entries using List.reverseRecOn with
  | nil => rfl
  | append_singleton entries entry ih =>
    obtain ⟨hentries, -, hentry⟩ := List.pairwise_append.1 h
    rw [List.foldl_concat, ih hentries]
    exact putEntry_of_new fun e he => hentry e he entry (List.mem_singleton_self _)

theorem sameSyntax_variable {a b : String} :
    (Expr.variable a).sameSyntax (.variable b) = decide (a = b) := by
  simp [Expr.sameSyntax, Expr.shape, List.isEqv, Mark.same]

/-- An object that gives such values to the names. -/
def IsObject {ι : Type} (name : ι → String) (P : ι → Expr → Prop) (is : List ι) (e : Expr) : Prop :=
  ∃ entries, e = .object entries ∧ List.Forall₂ (fun i (entry : Located Expr × Located Expr) =>
    entry.1.value = .variable (name i) ∧ P i entry.2.value) is entries

/-- An entry of an object: a name, and what it is given. -/
def entryText (name : String) (value : List Char) : List Char :=
  name.toList ++ ' ' :: '=' :: ' ' :: value

/-- The name is read where an entry gives it something. -/
def ReadableKey (nested : ExprReader) (name : String) : Prop :=
  ∀ s, Reads (nested false) (name.toList ++ ' ' :: '=' :: ' ' :: s) (' ' :: '=' :: ' ' :: s)
    fun e => e.value = .variable name

/-- The value is read for an expression of the kind, and the name of the entry as a name. -/
structure ReadableEntry (nested : ExprReader) (name : String) (x : List Char) (P : Expr → Prop) :
    Prop where
  word : isWord name
  key : ReadableKey nested name
  value : Readable nested x P

theorem ReadableEntry.reads {name : String} {x blank u : List Char}
    (h : ReadableEntry nested name x P) (hblank : blank.all isGap) (ht : Closing t)
    (hend : Reads entryEnd t u fun _ => True) :
    Reads (entry nested) (blank ++ (entryText name x ++ t)) u fun entry =>
      entry.1.value = .variable name ∧ P entry.2.value := by
  have htext : entryText name x ++ t = name.toList ++ ' ' :: '=' :: ' ' :: (x ++ t) := by
    simp [entryText]
  have hspace : ∀ {s : List Char}, Solid s → Reads space (' ' :: s) s fun _ => True :=
    fun hs => reads_space (x := [' ']) (by decide) hs
  rw [htext]
  apply (reads_gap hblank ((startsTerm_of_isWord h.word).append _).solid).bind
  intro _ _
  apply (h.key _).bind
  intro key hk
  apply (hspace (noStart_cons (by decide) _)).bind
  intro _ _
  apply (reads_char '=' _).orElse.bind
  intro _ _
  apply (hspace (h.value.start.append t).solid).bind
  intro _ _
  apply (h.value.read ht).bind
  intro value hv
  apply ht.solid.reads_space.bind
  intro _ _
  exact hend.bind fun _ _ => reads_pure ⟨hk, hv⟩

theorem reads_entryEnd_comma : Reads entryEnd (',' :: t) t fun _ => True :=
  (reads_char ',' t).orElse

theorem reads_entryEnd_brace : Reads entryEnd ('}' :: t) ('}' :: t) fun _ => True := by
  have hsolid : Solid ('}' :: t) := noStart_cons (by decide) t
  have hline : Fails lineEnd ('}' :: t) :=
    (fails_char (by simp)).orElse (fails_word String.toList_ofList (by simp))
  refine (fails_char (by simp)).orElse_reads (hline.orElse_reads ?_)
  exact hsolid.fails_lineComment.seqRight.orElse_reads (reads_char '}' t).ahead

section Objects

variable {ι : Type} {name : ι → String} {value : ι → List Char} {P : ι → Expr → Prop}
  (hfail : Fails (nested false) ('}' :: t))
include hfail

/-- The entries of an object, from some blanks before the first of them to the brace. -/
theorem repeats_entries {i : ι} {is : List ι} (blank : List Char) (hblank : blank.all isGap)
    (his : ∀ j ∈ i :: is, ReadableEntry nested (name j) (value j) (P j)) :
    Repeats (entry nested)
      (fun j entry => entry.1.value = .variable (name j) ∧ P j entry.2.value) (i :: is)
      (blank ++ (entryText (name i) (value i) ++
        (continued (fun j => entryText (name j) (value j)) is ++ '}' :: t))) ('}' :: t) := by
  have hbrace : Closing ('}' :: t) := noStart_cons (by decide) t
  have hshorter : ∀ (name : String) (value rest blank : List Char),
      String.utf8Len rest < String.utf8Len (blank ++ (entryText name value ++ rest)) := by
    intro name value rest blank
    have hspace := Char.utf8Size_pos ' '
    simp only [entryText, String.utf8Len_append, String.utf8Len_cons]
    omega
  induction is generalizing i blank with
  | nil =>
    have hnone : Fails (entry nested) ('}' :: t) :=
      hbrace.solid.reads_gap.bind_fails fun _ _ => hfail.bind
    have hentry := (his i (.head _)).reads hblank hbrace reads_entryEnd_brace
    exact .cons hentry (hshorter _ _ _ _) (.nil hnone)
  | cons j is ih =>
    obtain ⟨hi, hrest⟩ := List.forall_mem_cons.1 his
    have htext : continued (fun j => entryText (name j) (value j)) (j :: is) ++ '}' :: t =
        ',' :: ([' '] ++ (entryText (name j) (value j) ++
          (continued (fun j => entryText (name j) (value j)) is ++ '}' :: t))) := by
      simp [continued]
    have hcomma : ∀ u, Closing (',' :: u) := fun u => noStart_cons (by decide) u
    rw [htext]
    refine .cons (hi.reads hblank (hcomma _) reads_entryEnd_comma) ?_ (ih [' '] (by decide) hrest)
    refine Nat.lt_trans ?_ (hshorter _ _ _ _)
    rw [String.utf8Len_cons]
    have := Char.utf8Size_pos ','
    omega

theorem reads_object {is : List ι}
    (his : ∀ j ∈ is, ReadableEntry nested (name j) (value j) (P j))
    (hnames : (is.map name).Nodup) :
    Reads (object nested) (row (fun j => entryText (name j) (value j)) is ++ '}' :: t) ('}' :: t)
      (IsObject name P is) := by
  have hbrace : Solid ('}' :: t) := noStart_cons (by decide) t
  have hgap := hbrace.reads_gap
  have hentries : Reads (many (entry nested))
      (row (fun j => entryText (name j) (value j)) is ++ '}' :: t) ('}' :: t) (List.Forall₂
        (fun j (entry : Located Expr × Located Expr) =>
          entry.1.value = .variable (name j) ∧ P j entry.2.value) is) := by
    cases is with
    | nil => exact (Repeats.nil (hgap.bind_fails fun _ _ => hfail.bind)).many
    | cons i is =>
      rw [row, List.append_assoc]
      exact (repeats_entries hfail [] (by simp) his).many
  refine hentries.bind fun entries hforall => hgap.bind fun _ _ => reads_pure ?_
  have hkeys : entries.map (·.1.value) = is.map fun j => .variable (name j) := by
    clear hentries his hnames
    induction hforall with
    | nil => rfl
    | cons h _ ih => rw [List.map_cons, List.map_cons, h.1, ih]
  have hdistinct : (entries.map (·.1.value)).Pairwise fun a b => a.sameSyntax b = false := by
    rw [hkeys, List.pairwise_map]
    apply (List.pairwise_map.1 hnames).imp
    intro i j hij
    rw [sameSyntax_variable]
    exact decide_eq_false hij
  rw [foldl_putEntry (List.pairwise_map.1 hdistinct)]
  exact ⟨entries, rfl, hforall⟩

end Objects

/-- Where a text starts with a word and with other letters, the word goes on after the letters. -/
theorem isWordPart_after {w : String} (hw : isWord w) {x u : List Char} (hne : w.toList ≠ x)
    (hblank : ' ' ∉ x) (h : x ++ u = w.toList ++ ' ' :: s) : ∃ c y, u = c :: y ∧ isWordPart c := by
  rcases List.append_eq_append_iff.1 h with ⟨y, hy, rfl⟩ | ⟨y, hy, hrest⟩
  · cases y with
    | nil => exact absurd (by simpa using hy) hne
    | cons c y => exact ⟨c, _, rfl, isWordPart_of_mem hw (by simp [hy])⟩
  · cases y with
    | nil => exact absurd (by simpa using hy.symm) hne
    | cons c y =>
      refine absurd ?_ hblank
      rw [hy, (List.cons.inj hrest).1]
      simp

/-- A word before a blank starts no loop unless it is the one that does. -/
theorem fails_loopAhead_word {w : String} (hw : isWord w) (hfor : w ≠ "for") (s : List Char) :
    Fails loopAhead (w.toList ++ ' ' :: s) := by
  have hsolid := ((startsTerm_of_isWord hw).append (' ' :: s)).solid
  have hgap := hsolid.reads_gap
  have hword : word "for" = chars ['f', 'o', 'r'] := congrArg chars String.toList_ofList
  have hne : w.toList ≠ ['f', 'o', 'r'] := by
    intro heq
    exact hfor (String.toList_inj.1 (heq.trans String.toList_ofList.symm))
  unfold loopAhead
  rw [hword]
  apply Fails.ahead
  by_cases hstart : ['f', 'o', 'r'] <+: w.toList ++ ' ' :: s
  · obtain ⟨u, hu⟩ := hstart
    have hnext : NoStart (fun c => isSpace c || c = '#' || c = '/') u := by
      obtain ⟨c, y, rfl, hpart⟩ := isWordPart_after hw hne (by decide) hu
      have hblank : [' ', '\t', '#', '/'].all fun d => !isWordPart d := by decide
      apply noStart_cons
      rw [← Bool.not_eq_true]
      intro hc
      have hmem : c ∈ [' ', '\t', '#', '/'] := by
        simpa [isSpace, or_assoc] using hc
      have hnone := List.all_eq_true.1 hblank c hmem
      simp [hpart] at hnone
    rw [← hu] at hgap ⊢
    exact (hgap.seqRight (reads_chars _ u)).seqRight_fails (fails_charIf hnext)
  · exact (hgap.seqRight_fails (fails_chars hstart)).seqRight

/-- An object in braces. -/
theorem reads_braced {ι : Type} {name : ι → String} {value : ι → List Char} {P : ι → Expr → Prop}
    (hfail : Fails (nested false) ('}' :: t)) {is : List ι}
    (his : ∀ j ∈ is, ReadableEntry nested (name j) (value j) (P j))
    (hfor : ∀ j ∈ is, name j ≠ "for") (hnames : (is.map name).Nodup) :
    Reads (braced nested)
      ('{' :: (row (fun j => entryText (name j) (value j)) is ++ '}' :: t)) t
      (IsObject name P is) := by
  have hnoLoop : Fails loopAhead (row (fun j => entryText (name j) (value j)) is ++ '}' :: t) := by
    cases is with
    | nil => exact fails_loopAhead (noStart_cons (by decide) t) (by simp [row])
    | cons i is =>
      rw [row, entryText, List.append_assoc, List.append_assoc]
      exact fails_loopAhead_word (his i (.head _)).word (hfor i (.head _)) _
  apply (reads_char '{' _).bind
  intro _ _
  apply hnoLoop.flag.bind
  intro loop hl
  subst hl
  apply (reads_object hfail his hnames).bind
  intro e he
  exact (reads_char '}' t).bind fun _ _ => reads_pure he

end EarlyConfig.Hcl.Read
