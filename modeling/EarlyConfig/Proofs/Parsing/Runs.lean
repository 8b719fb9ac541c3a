import EarlyConfig.Hcl.Read.Expr
import Mathlib.Data.List.Forall2
import Mathlib.Data.String.Basic

/-! Runs of readers on a text that is known. A reader may get through a part of the text, and then
it gives something and leaves the rest (`Reads`), or it fails there (`Fails`). Both can be told from
left to right: what is put together from readers runs as they do, one after another. -/
namespace EarlyConfig.Hcl.Read

/-! ### Places in a text -/

/-- With this text still to be read, and so many bytes before it. -/
def facing (n : Nat) (s : List Char) : Cursor :=
  ⟨s, n, n + String.utf8Len s⟩

/-- Facing the one text, the reader gives such a result and then faces the other. -/
def Reads (p : Reader α) (s t : List Char) (P : α → Prop) : Prop :=
  ∀ n, ∃ a m, p (facing n s) = some (a, facing m t) ∧ P a

/-- Facing the text, the reader fails. -/
def Fails (p : Reader α) (s : List Char) : Prop :=
  ∀ n, p (facing n s) = none

variable {p q : Reader α} {r : Reader β} {s t u : List Char} {P : α → Prop} {Q : β → Prop}

/-! ### One after another -/

theorem Reads.imp {P' : α → Prop} (h : Reads p s t P) (hP : ∀ a, P a → P' a) : Reads p s t P' := by
  intro n
  obtain ⟨a, m, ha, hPa⟩ := h n
  exact ⟨a, m, ha, hP a hPa⟩

theorem reads_pure {a : α} (h : P a) : Reads (pure a) s s P :=
  fun n => ⟨a, n, rfl, h⟩

theorem Reads.bind {f : α → Reader β} (hp : Reads p s t P) (hf : ∀ a, P a → Reads (f a) t u Q) :
    Reads (p >>= f) s u Q := by
  intro n
  obtain ⟨a, m, ha, hPa⟩ := hp n
  obtain ⟨b, k, hb, hQb⟩ := hf a hPa m
  refine ⟨b, k, ?_, hQb⟩
  show (p (facing n s)).bind (fun x => f x.1 x.2) = _
  rw [ha]
  exact hb

theorem Reads.map {f : α → β} (hp : Reads p s t P) (hf : ∀ a, P a → Q (f a)) :
    Reads (f <$> p) s t Q := by
  rw [map_eq_pure_bind]
  exact hp.bind fun a ha => reads_pure (hf a ha)

theorem Reads.seqRight (hp : Reads p s t P) (hr : Reads r t u Q) : Reads (p *> r) s u Q := by
  rw [seqRight_eq_bind]
  exact hp.bind fun _ _ => hr

theorem Reads.seqLeft (hp : Reads p s t P) (hr : Reads r t u Q) : Reads (p <* r) s u P := by
  rw [seqLeft_eq_bind]
  exact hp.bind fun a ha => hr.bind fun _ _ => reads_pure ha

theorem Fails.bind {f : α → Reader β} (h : Fails p s) : Fails (p >>= f) s := by
  intro n
  show (p (facing n s)).bind (fun x => f x.1 x.2) = _
  rw [h n]
  rfl

theorem Reads.bind_fails {f : α → Reader β} (hp : Reads p s t P) (hf : ∀ a, P a → Fails (f a) t) :
    Fails (p >>= f) s := by
  intro n
  obtain ⟨a, m, ha, hPa⟩ := hp n
  show (p (facing n s)).bind (fun x => f x.1 x.2) = _
  rw [ha]
  exact hf a hPa m

theorem Fails.map {f : α → β} (h : Fails p s) : Fails (f <$> p) s := by
  rw [map_eq_pure_bind]
  exact h.bind

theorem Fails.seqRight (h : Fails p s) : Fails (p *> r) s := by
  rw [seqRight_eq_bind]
  exact h.bind

theorem Fails.seqLeft (h : Fails p s) : Fails (p <* r) s := by
  rw [seqLeft_eq_bind]
  exact h.bind

theorem Reads.seqRight_fails (hp : Reads p s t P) (hr : Fails r t) : Fails (p *> r) s := by
  rw [seqRight_eq_bind]
  exact hp.bind_fails fun _ _ => hr

/-! ### One or the other -/

theorem Reads.orElse (hp : Reads p s t P) : Reads (p <|> q) s t P := by
  intro n
  obtain ⟨a, m, ha, hPa⟩ := hp n
  refine ⟨a, m, ?_, hPa⟩
  show (p (facing n s)).orElse (fun _ => q (facing n s)) = _
  rw [ha]
  rfl

/-- What fails leaves the text to the other. -/
theorem Fails.orElse_eq (hp : Fails p s) (q : Reader α) (n : Nat) :
    (p <|> q) (facing n s) = q (facing n s) := by
  show (p (facing n s)).orElse (fun _ => q (facing n s)) = _
  rw [hp n]
  rfl

theorem Fails.orElse_reads (hp : Fails p s) (hq : Reads q s t P) : Reads (p <|> q) s t P := by
  intro n
  rw [hp.orElse_eq]
  exact hq n

theorem Fails.orElse (hp : Fails p s) (hq : Fails q s) : Fails (p <|> q) s := by
  intro n
  rw [hp.orElse_eq]
  exact hq n

theorem Reads.opt (hp : Reads p s t P) : Reads (opt p) s t fun o => ∃ a, o = some a ∧ P a :=
  (hp.map fun a ha => ⟨a, rfl, ha⟩).orElse

theorem Fails.opt (hp : Fails p s) : Reads (opt p) s s (· = none) :=
  hp.map.orElse_reads (reads_pure rfl)

theorem Fails.flag (hp : Fails p s) : Reads (flag p) s s (· = false) :=
  hp.opt.bind fun o ho => reads_pure (by rw [ho]; rfl)

theorem Reads.ahead (hp : Reads p s t P) : Reads (ahead p) s s fun _ => True := by
  intro n
  obtain ⟨a, m, ha, -⟩ := hp n
  exact ⟨(), n, by rw [Read.ahead, ha]; rfl, trivial⟩

theorem Fails.ahead (hp : Fails p s) : Fails (ahead p) s := by
  intro n
  rw [Read.ahead, hp n]
  rfl

theorem Fails.notAhead (hp : Fails p s) : Reads (notAhead p) s s fun _ => True := by
  intro n
  exact ⟨(), n, by rw [Read.notAhead, hp n], trivial⟩

theorem Reads.notAhead (hp : Reads p s t P) : Fails (notAhead p) s := by
  intro n
  obtain ⟨a, m, ha, -⟩ := hp n
  rw [Read.notAhead, ha]

theorem Reads.located (hp : Reads p s t P) : Reads (located p) s t fun l => P l.value := by
  have hoffset : ∀ s : List Char, Reads offset s s fun _ => True :=
    fun s n => ⟨n, n, rfl, trivial⟩
  exact (hoffset s).bind fun _ _ => hp.bind fun a ha => (hoffset t).bind fun _ _ => reads_pure ha

theorem Fails.located (hp : Fails p s) : Fails (located p) s := by
  have hoffset : Reads offset s s fun _ => True := fun n => ⟨n, n, rfl, trivial⟩
  exact hoffset.bind_fails fun _ _ => hp.bind

/-! ### Again and again -/

/-- Facing the text, the reader gets through one piece of it after another, each longer than
nothing, and fails after the last. -/
inductive Repeats (p : Reader α) (P : ι → α → Prop) : List ι → List Char → List Char → Prop
  | nil {s : List Char} (h : Fails p s) : Repeats p P [] s s
  | cons {i : ι} {is : List ι} {s t u : List Char} (h : Reads p s t (P i))
      (shorter : String.utf8Len t < String.utf8Len s) (rest : Repeats p P is t u) :
      Repeats p P (i :: is) s u

theorem Repeats.upTo {P : ι → α → Prop} {is : List ι} (h : Repeats p P is s t) {bound : Nat}
    (hbound : String.utf8Len s ≤ bound) : Reads (upTo p bound) s t (List.Forall₂ P is) := by
  induction h generalizing bound with
  | nil h =>
    cases bound with
    | zero => exact reads_pure .nil
    | succ bound =>
      apply h.opt.bind
      intro o ho
      subst ho
      exact reads_pure .nil
  | cons h shorter _ ih =>
    cases bound with
    | zero => omega
    | succ bound =>
      apply h.opt.bind
      intro o ho
      obtain ⟨a, rfl, ha⟩ := ho
      exact (ih (by omega)).bind fun as has => reads_pure (.cons ha has)

theorem reads_bytesLeft (s : List Char) : Reads bytesLeft s s (· = String.utf8Len s) := by
  intro n
  refine ⟨_, n, rfl, ?_⟩
  show n + String.utf8Len s - n = String.utf8Len s
  omega

theorem Repeats.many {P : ι → α → Prop} {is : List ι} (h : Repeats p P is s t) :
    Reads (many p) s t (List.Forall₂ P is) :=
  (reads_bytesLeft s).bind fun _ hk => h.upTo (Nat.le_of_eq hk.symm)

theorem Fails.many (h : Fails p s) : Reads (many p) s s (· = []) := by
  have hnone : Repeats p (fun (_ : Unit) _ => True) [] s s := .nil h
  exact hnone.many.imp fun as has => by
    cases has
    rfl

/-! ### Characters -/

/-- The text does not start with a character of the class. -/
def NoStart (p : Char → Bool) (s : List Char) : Prop :=
  ∀ c ∈ s.head?, p c = false

theorem NoStart.ne {p : Char → Bool} (h : NoStart p s) {c : Char}
    (hc : p c = true) : s.head? ≠ some c := by
  intro hs
  rw [h c hs] at hc
  cases hc

theorem noStart_cons {p : Char → Bool} {c : Char} (h : p c = false) (s : List Char) :
    NoStart p (c :: s) := by
  intro d hd
  rw [← Option.some.inj hd]
  exact h

theorem reads_charIf {p : Char → Bool} {c : Char} (h : p c) (s : List Char) :
    Reads (charIf p) (c :: s) s (· = c) := by
  intro n
  refine ⟨c, n + c.utf8Size, ?_, rfl⟩
  simp only [charIf, facing, h, if_true, String.utf8Len_cons]
  rw [Nat.add_comm (String.utf8Len s), Nat.add_assoc]

theorem fails_charIf {p : Char → Bool} (h : NoStart p s) : Fails (charIf p) s := by
  intro n
  cases s with
  | nil => rfl
  | cons c s =>
    have hc := h c rfl
    simp [charIf, facing, hc]

theorem reads_char (c : Char) (s : List Char) : Reads (char c) (c :: s) s fun _ => True :=
  (reads_charIf (by simp) s).bind fun _ _ => reads_pure trivial

theorem fails_char {c : Char} (h : s.head? ≠ some c) : Fails (char c) s := by
  apply Fails.bind
  apply fails_charIf
  intro d hd
  rw [Option.mem_def] at hd
  simp only [decide_eq_false_iff_not]
  intro hdc
  exact h (by rw [hd, hdc])

theorem reads_chars (x s : List Char) : Reads (chars x) (x ++ s) s fun _ => True := by
  induction x with
  | nil => exact reads_pure trivial
  | cons c x ih => exact (reads_char c _).bind fun _ _ => ih

theorem fails_chars {x : List Char} (h : ¬x <+: s) : Fails (chars x) s := by
  induction x generalizing s with
  | nil => exact absurd List.nil_prefix h
  | cons c x ih =>
    cases s with
    | nil => exact (fails_char (by simp)).bind
    | cons d s =>
      by_cases hdc : d = c
      · subst hdc
        refine (reads_char d s).bind_fails fun _ _ => ih fun hx => h ?_
        exact (List.prefix_cons_inj d).2 hx
      · exact (fails_char (by simpa using hdc)).bind

theorem fails_word {w : String} {c : Char} {x : List Char} (hw : w.toList = c :: x)
    (h : s.head? ≠ some c) : Fails (word w) s := by
  rw [word, hw]
  exact (fails_char h).bind

theorem reads_charsWhile {p : Char → Bool} {x : List Char} (hx : ∀ c ∈ x, p c)
    (hs : NoStart p s) : Reads (charsWhile p) (x ++ s) s (· = x) := by
  have hrepeats : Repeats (charIf p) (fun c a => a = c) x (x ++ s) s := by
    induction x with
    | nil => exact .nil (fails_charIf hs)
    | cons c x ih =>
      obtain ⟨hc, hx⟩ := List.forall_mem_cons.1 hx
      refine .cons (reads_charIf hc _) ?_ (ih hx)
      have hsize := c.utf8Size_pos
      show String.utf8Len (x ++ s) < String.utf8Len (c :: (x ++ s))
      rw [String.utf8Len_cons]
      omega
  refine hrepeats.many.imp fun as has => ?_
  have hflip := has.flip
  rwa [List.forall₂_eq_eq_eq] at hflip

theorem fails_charsWhile1 {p : Char → Bool} (h : NoStart p s) : Fails (charsWhile1 p) s :=
  (fails_charIf h).bind

/-! ### Blanks -/

/-- The text starts with no blank and no comment. -/
def Solid (s : List Char) : Prop :=
  NoStart (fun c => isGap c || c = '#' || c = '/') s

theorem Solid.space (h : Solid s) : NoStart isSpace s := by
  intro c hc
  have hnone := h c hc
  simp only [isGap, Bool.or_eq_false_iff] at hnone
  exact hnone.1.1.1.1

theorem Solid.gap (h : Solid s) : NoStart isGap s := by
  intro c hc
  have hnone := h c hc
  simp only [Bool.or_eq_false_iff] at hnone
  exact hnone.1.1

theorem Solid.fails_bracketComment (h : Solid s) : Fails bracketComment s :=
  (fails_word String.toList_ofList (NoStart.ne h (by decide))).bind

theorem Solid.fails_lineComment (h : Solid s) : Fails lineComment s := by
  have hmark : Fails (char '#') s := fails_char (NoStart.ne h (by decide))
  have hslashes : Fails (word "//") s := fails_word String.toList_ofList (NoStart.ne h (by decide))
  exact (hmark.orElse hslashes).seqRight

/-- Blanks are read up to the first thing that is none. -/
theorem reads_space {x : List Char} (hx : x.all isSpace) (h : Solid s) :
    Reads space (x ++ s) s fun _ => True :=
  (reads_charsWhile (List.all_eq_true.1 hx) h.space).bind fun _ _ =>
    h.fails_bracketComment.seqLeft.many.bind fun _ _ => reads_pure trivial

theorem reads_gap {x : List Char} (hx : x.all isGap) (h : Solid s) :
    Reads gap (x ++ s) s fun _ => True :=
  (reads_charsWhile (List.all_eq_true.1 hx) h.gap).bind fun _ _ =>
    (h.fails_lineComment.orElse h.fails_bracketComment).seqLeft.many.bind fun _ _ =>
      reads_pure trivial

theorem Solid.reads_space (h : Solid s) : Reads Read.space s s fun _ => True :=
  Read.reads_space (x := []) rfl h

theorem Solid.reads_gap (h : Solid s) : Reads Read.gap s s fun _ => True :=
  Read.reads_gap (x := []) rfl h

end EarlyConfig.Hcl.Read
