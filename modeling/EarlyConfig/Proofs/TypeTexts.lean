import EarlyConfig.Proofs.Identifiers
import EarlyConfig.Proofs.Text
import EarlyConfig.Proofs.Types

/-! The text of a type can be read in one way only. A type starts with one of nine words, none of
which another starts with (`Ty.Word.eq_of_opening`), and the word says what comes up to the closing
bracket. So the text of a type ends where it ends whatever follows it (`Ty.delimited_chars`), as
long as the names of attributes are identifiers, and no two types have one text (`Ty.eq_of_text`).
-/
namespace EarlyConfig

/-! ### Texts one after another -/

namespace Text

/-- Two things have the same text only if they are the same, also where more text follows. -/
def Delimited (code : α → List Char) (a b : α) : Prop :=
  ∀ x y, code a ++ x = code b ++ y → a = b ∧ x = y

section List

variable {code : α → List Char}

theorem intercalate_cons (a : α) (as : List α) (x : List Char) :
    [',', ' '].intercalate ((a :: as).map code) ++ x =
      code a ++ (if as = [] then x else
        ',' :: ' ' :: ([',', ' '].intercalate (as.map code) ++ x)) := by
  cases as <;> simp [List.intercalate]

/-- Items with commas between them and a bracket after the last can be told from any other such
list, as soon as the items can and none starts with the bracket. -/
theorem delimited_intercalate {p : α → Prop} {close : Char} (hclose : close ≠ ',')
    (hstart : ∀ a, p a → ∀ x, (code a ++ x).head? ≠ some close) {as bs : List α}
    (has : ∀ a ∈ as, p a) (hbs : ∀ b ∈ bs, p b)
    (hitems : ∀ a ∈ as, ∀ b ∈ bs, Delimited code a b) {x y : List Char}
    (h : [',', ' '].intercalate (as.map code) ++ close :: x =
      [',', ' '].intercalate (bs.map code) ++ close :: y) : as = bs ∧ x = y := by
  -- Both lists are walked at once: after an item comes a comma or the bracket.
  induction as generalizing bs with
  | nil =>
    cases bs with
    | nil => exact ⟨rfl, (List.cons.inj h).2⟩
    | cons b bs =>
      rw [intercalate_cons] at h
      exact absurd (congrArg List.head? h).symm (hstart b (hbs b (.head _)) _)
  | cons a as ih =>
    cases bs with
    | nil =>
      rw [intercalate_cons] at h
      exact absurd (congrArg List.head? h) (hstart a (has a (.head _)) _)
    | cons b bs =>
      rw [intercalate_cons, intercalate_cons] at h
      obtain ⟨hab, hrest⟩ := hitems a (.head _) b (.head _) _ _ h
      have hrec := @ih bs (fun a' ha' => has a' (.tail _ ha')) (fun b' hb' => hbs b' (.tail _ hb'))
        (fun a' ha' b' hb' => hitems a' (.tail _ ha') b' (.tail _ hb'))
      subst hab
      cases as with
      | nil =>
        cases bs with
        | nil => exact ⟨rfl, (List.cons.inj hrest).2⟩
        | cons b' bs => exact absurd (List.cons.inj hrest).1 hclose
      | cons a' as =>
        cases bs with
        | nil => exact absurd (List.cons.inj hrest).1.symm hclose
        | cons b' bs =>
          obtain ⟨htail, hxy⟩ := hrec (List.cons.inj (List.cons.inj hrest).2).2
          exact ⟨congrArg (a :: ·) htail, hxy⟩

end List

end Text

namespace Ty

/-! ### The words of a type -/

/-- What a type or the mark of an optional attribute starts with. -/
inductive Word where
  | any
  | string
  | number
  | bool
  | list
  | set
  | map
  | tuple
  | object
  | optional

/-- The word and the brackets that it opens. -/
def Word.opening : Word → List Char
  | .any => ['a', 'n', 'y']
  | .string => ['s', 't', 'r', 'i', 'n', 'g']
  | .number => ['n', 'u', 'm', 'b', 'e', 'r']
  | .bool => ['b', 'o', 'o', 'l']
  | .list => ['l', 'i', 's', 't', '(']
  | .set => ['s', 'e', 't', '(']
  | .map => ['m', 'a', 'p', '(']
  | .tuple => ['t', 'u', 'p', 'l', 'e', '(', '[']
  | .object => ['o', 'b', 'j', 'e', 'c', 't', '(', '{']
  | .optional => ['o', 'p', 't', 'i', 'o', 'n', 'a', 'l', '(']

/-- The word with which a text starts, told from its first two characters. -/
def Word.ofStart : List Char → Option Word
  | 'a' :: _ => some .any
  | 's' :: 't' :: _ => some .string
  | 's' :: 'e' :: _ => some .set
  | 'n' :: _ => some .number
  | 'b' :: _ => some .bool
  | 'l' :: _ => some .list
  | 'm' :: _ => some .map
  | 't' :: _ => some .tuple
  | 'o' :: 'b' :: _ => some .object
  | 'o' :: 'p' :: _ => some .optional
  | _ => none

theorem Word.ofStart_opening (w : Word) (x : List Char) : ofStart (w.opening ++ x) = some w := by
  cases w <;> rfl

theorem Word.eq_of_opening {k l : Word} {x y : List Char} (h : k.opening ++ x = l.opening ++ y) :
    k = l ∧ x = y := by
  have hword : some k = some l := by rw [← ofStart_opening k x, h, ofStart_opening]
  cases hword
  exact ⟨rfl, List.append_cancel_left h⟩

def word : Ty → Word
  | .any => .any
  | .string => .string
  | .number => .number
  | .bool => .bool
  | .list _ => .list
  | .set _ => .set
  | .map _ => .map
  | .tuple _ => .tuple
  | .object _ => .object

/-- The type of an attribute, with the mark of an optional one. -/
def markedText (f : Field Ty) : List Char :=
  if f.optional then Word.optional.opening ++ (f.type.chars ++ [')']) else f.type.chars

/-- An attribute of an object type, as it is written. -/
def fieldText (f : Field Ty) : List Char :=
  f.name.toList ++ ' ' :: '=' :: ' ' :: markedText f

/-- What follows the word. -/
def inside : Ty → List Char
  | .list t | .set t | .map t => t.chars ++ [')']
  | .tuple ts => [',', ' '].intercalate (ts.map chars) ++ [']', ')']
  | .object fields => [',', ' '].intercalate (fields.map fieldText) ++ ['}', ')']
  | _ => []

theorem elementChars_eq (ts : List Ty) : elementChars ts = ts.map chars := by
  induction ts with
  | nil => rfl
  | cons t ts ih => exact congrArg (t.chars :: ·) ih

theorem fieldChars_eq (fields : List (Field Ty)) : fieldChars fields = fields.map fieldText := by
  induction fields with
  | nil => rfl
  | cons f fields ih =>
    obtain ⟨name, optional, type⟩ := f
    have hfield : name.toList ++ " = ".toList ++
        (if optional then "optional(".toList ++ type.chars ++ [')'] else type.chars) =
          fieldText ⟨name, optional, type⟩ := by
      cases optional <;> simp [fieldText, markedText, Word.opening]
    rw [List.map_cons, ← hfield, ← ih]
    rfl

theorem chars_eq (t : Ty) : t.chars = t.word.opening ++ t.inside := by
  have hopen : ∀ {word opening : List Char}, word = opening → ∀ inner close : List Char,
      word ++ inner ++ close = opening ++ (inner ++ close) := by
    intro word opening h inner close
    rw [h, List.append_assoc]
  cases t with
  | any => exact String.toList_ofList
  | string => exact String.toList_ofList
  | number => exact String.toList_ofList
  | bool => exact String.toList_ofList
  | list t => exact hopen String.toList_ofList _ _
  | set t => exact hopen String.toList_ofList _ _
  | map t => exact hopen String.toList_ofList _ _
  | tuple ts =>
    change "tuple([".toList ++ [',', ' '].intercalate (elementChars ts) ++ [']', ')'] = _
    rw [elementChars_eq]
    exact hopen String.toList_ofList _ _
  | object fields =>
    change "object(\x7b".toList ++ [',', ' '].intercalate (fieldChars fields) ++ ['}', ')'] = _
    rw [fieldChars_eq]
    exact hopen String.toList_ofList _ _

/-! ### Texts determine types -/

/-- Every attribute that an object type in it declares has an identifier for its name. -/
inductive Named : Ty → Prop
  | any : Named .any
  | string : Named .string
  | number : Named .number
  | bool : Named .bool
  | list {t : Ty} (element : Named t) : Named (.list t)
  | set {t : Ty} (element : Named t) : Named (.set t)
  | map {t : Ty} (element : Named t) : Named (.map t)
  | tuple {ts : List Ty} (elements : ∀ t ∈ ts, Named t) : Named (.tuple ts)
  | object {fields : List (Field Ty)} (names : ∀ f ∈ fields, Text.isIdentifier f.name)
      (types : ∀ f ∈ fields, Named f.type) : Named (.object fields)

/-- Two types can be told apart by their words or by what follows these. -/
theorem delimited_of_inside {s t : Ty}
    (h : s.word = t.word → ∀ x y, s.inside ++ x = t.inside ++ y → s = t ∧ x = y) :
    Text.Delimited chars s t := by
  intro x y hchars
  rw [chars_eq, chars_eq, List.append_assoc, List.append_assoc] at hchars
  obtain ⟨hword, hinside⟩ := Word.eq_of_opening hchars
  exact h hword x y hinside

/-- The types with one type inside, which a bracket closes. -/
theorem eq_of_element (wrap : Ty → Ty) {s t : Ty} (h : Text.Delimited chars s t) (x y : List Char)
    (hinside : s.chars ++ [')'] ++ x = t.chars ++ [')'] ++ y) : wrap s = wrap t ∧ x = y := by
  rw [List.append_assoc, List.append_assoc] at hinside
  obtain ⟨heq, hclose⟩ := h _ _ hinside
  exact ⟨congrArg wrap heq, (List.cons.inj hclose).2⟩

theorem head?_chars_append (t : Ty) (x : List Char) : (t.chars ++ x).head? ≠ some ']' := by
  rw [chars_eq, List.append_assoc]
  cases t.word <;> simp [Word.opening]

theorem head?_fieldText_append {f : Field Ty} (h : Text.isIdentifier f.name) (x : List Char) :
    (fieldText f ++ x).head? ≠ some '}' := by
  have hbrace := Text.not_mem_of_isIdentifier h (c := '}') (by decide +kernel)
  intro hhead
  rw [fieldText, List.append_assoc] at hhead
  cases hname : f.name.toList with
  | nil => simp [hname] at hhead
  | cons c cs =>
    rw [hname, List.cons_append, List.head?_cons, Option.some.injEq] at hhead
    exact hbrace (by simp [hname, hhead])

/-- The mark of an optional attribute is not the start of a type. -/
theorem optional_append_ne (t : Ty) (x y : List Char) :
    Word.optional.opening ++ x ≠ t.chars ++ y := by
  rw [chars_eq, List.append_assoc]
  intro h
  have hword := (Word.eq_of_opening h).1
  cases t <;> cases hword

theorem eq_of_markedText {f g : Field Ty} (htype : Text.Delimited chars f.type g.type)
    {x y : List Char} (h : markedText f ++ x = markedText g ++ y) :
    f.optional = g.optional ∧ f.type = g.type ∧ x = y := by
  unfold markedText at h
  cases hf : f.optional <;> cases hg : g.optional <;>
    simp only [hf, hg, if_true, Bool.false_eq_true, if_false, List.append_assoc] at h
  · exact ⟨rfl, htype _ _ h⟩
  · exact absurd h.symm (optional_append_ne _ _ _)
  · exact absurd h (optional_append_ne _ _ _)
  · obtain ⟨heq, hclose⟩ := htype _ _ (Word.eq_of_opening h).2
    exact ⟨rfl, heq, (List.cons.inj hclose).2⟩

theorem delimited_fieldText {f g : Field Ty} (hf : Text.isIdentifier f.name)
    (hg : Text.isIdentifier g.name) (htype : Text.Delimited chars f.type g.type) :
    Text.Delimited fieldText f g := by
  intro x y h
  have hspace : Text.isNamePart ' ' = false := by decide +kernel
  -- The name ends at the first space.
  have hcut := congrArg (Text.cut ' ') h
  simp only [fieldText, List.append_assoc, List.cons_append,
    Text.cut_append (Text.not_mem_of_isIdentifier hf hspace),
    Text.cut_append (Text.not_mem_of_isIdentifier hg hspace)] at hcut
  obtain ⟨hname, hrest⟩ := Prod.mk.inj hcut
  have hmarked := (List.cons.inj (List.cons.inj (Option.some.inj hrest)).2).2
  obtain ⟨hoptional, heq, hxy⟩ := eq_of_markedText htype hmarked
  obtain ⟨name, optional, type⟩ := f
  obtain ⟨name', optional', type'⟩ := g
  have hname : name = name' := String.toList_inj.1 hname
  cases hname
  cases hoptional
  cases heq
  exact ⟨rfl, hxy⟩

/-- The text of a type ends where it ends, whatever follows. -/
theorem delimited_chars {s t : Ty} (hs : s.Named) (ht : t.Named) : Text.Delimited chars s t := by
  -- The first word says how both types are built, so the types inside are at the same places.
  induction s generalizing t with
  | any | string | number | bool =>
    refine delimited_of_inside fun hword x y hinside => ?_
    cases t <;> first | exact ⟨rfl, hinside⟩ | cases hword
  | list s ih =>
    refine delimited_of_inside fun hword => ?_
    cases t with
    | list t =>
      cases hs with | list hs =>
      cases ht with | list ht =>
      exact eq_of_element .list (ih hs ht)
    | _ => cases hword
  | set s ih =>
    refine delimited_of_inside fun hword => ?_
    cases t with
    | set t =>
      cases hs with | set hs =>
      cases ht with | set ht =>
      exact eq_of_element .set (ih hs ht)
    | _ => cases hword
  | map s ih =>
    refine delimited_of_inside fun hword => ?_
    cases t with
    | map t =>
      cases hs with | map hs =>
      cases ht with | map ht =>
      exact eq_of_element .map (ih hs ht)
    | _ => cases hword
  | tuple ss ih =>
    refine delimited_of_inside fun hword x y hinside => ?_
    cases t with
    | tuple ts =>
      cases hs with | tuple hs =>
      cases ht with | tuple ht =>
      simp only [inside, List.append_assoc] at hinside
      obtain ⟨heq, hclose⟩ := Text.delimited_intercalate (by decide)
        (fun t _ => head?_chars_append t) hs ht
        (fun s hmem t hmem' => ih s hmem (hs s hmem) (ht t hmem')) hinside
      exact ⟨congrArg Ty.tuple heq, (List.cons.inj hclose).2⟩
    | _ => cases hword
  | object fs ih =>
    refine delimited_of_inside fun hword x y hinside => ?_
    cases t with
    | object gs =>
      cases hs with | object hnames htypes =>
      cases ht with | object hnames' htypes' =>
      simp only [inside, List.append_assoc] at hinside
      obtain ⟨heq, hclose⟩ := Text.delimited_intercalate (by decide)
        (fun f hf => head?_fieldText_append hf) hnames hnames'
        (fun f hmem g hmem' => delimited_fieldText (hnames f hmem) (hnames' g hmem')
          (ih f hmem (htypes f hmem) (htypes' g hmem'))) hinside
      exact ⟨congrArg Ty.object heq, (List.cons.inj hclose).2⟩
    | _ => cases hword

theorem eq_of_text {s t : Ty} (hs : s.Named) (ht : t.Named) (h : s.text = t.text) : s = t := by
  have hchars : s.chars ++ [] = t.chars ++ [] := congrArg (· ++ []) (String.ofList_injective h)
  exact (delimited_chars hs ht [] [] hchars).1

-- A key in quotes may be any text, and then a name can look like several attributes.
example : text (.object [⟨"a = any, b", false, .any⟩]) =
    text (.object [⟨"a", false, .any⟩, ⟨"b", false, .any⟩]) := by
  simp [text, chars_eq, word, Word.opening, inside, fieldText, markedText, List.intercalate]

end Ty

end EarlyConfig
