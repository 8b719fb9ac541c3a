import EarlyConfig.Proofs.Parsing.Expressions
import EarlyConfig.Proofs.TypeSpelling
import EarlyConfig.Proofs.TypeTexts

/-! The text of a type is source text. If the names of its attributes are plain words, the text is
read as an expression that spells the type (`Ty.isRead_chars`), and so the type is read back from
its own text. -/
namespace EarlyConfig

open Hcl (Expr Located)
open Hcl.Read
open TypeExpr (Spells entryValue)

theorem intercalate_eq_row {ι : Type} (code : ι → List Char) (is : List ι) :
    [',', ' '].intercalate (is.map code) = row code is := by
  cases is with
  | nil => rfl
  | cons i is =>
    induction is generalizing i with
    | nil => simp [row, continued, List.intercalate]
    | cons j is ih =>
      have hcons : [',', ' '].intercalate ((i :: j :: is).map code) =
          code i ++ ',' :: ' ' :: [',', ' '].intercalate ((j :: is).map code) := by
        simp [List.intercalate]
      rw [hcons, ih]
      simp [row, continued]

namespace Ty

/-- The names that are read as names wherever they stand in an object. -/
def isPlainName (name : String) : Bool :=
  isWord name && !(["null", "true", "false", "for"].contains name)

/-- Every attribute that an object type in it declares has such a name. -/
inductive Plain : Ty → Prop
  | any : Plain .any
  | string : Plain .string
  | number : Plain .number
  | bool : Plain .bool
  | list {t : Ty} (element : Plain t) : Plain (.list t)
  | set {t : Ty} (element : Plain t) : Plain (.set t)
  | map {t : Ty} (element : Plain t) : Plain (.map t)
  | tuple {ts : List Ty} (elements : ∀ t ∈ ts, Plain t) : Plain (.tuple ts)
  | object {fields : List (Field Ty)} (names : ∀ f ∈ fields, isPlainName f.name)
      (types : ∀ f ∈ fields, Plain f.type) : Plain (.object fields)

theorem of_isPlainName {name : String} (h : isPlainName name) :
    isWord name ∧ name ∉ literalWords ∧ name ≠ "for" := by
  rw [isPlainName, Bool.and_eq_true, Bool.not_eq_true', ← Bool.not_eq_true,
    List.contains_iff_mem] at h
  refine ⟨h.1, fun hmem => h.2 ?_, fun heq => h.2 ?_⟩
  · simp only [literalWords, List.mem_cons, List.not_mem_nil, or_false] at hmem ⊢
    tauto
  · rw [heq]
    decide

theorem head?_chars_ne (t : Ty) : t.chars.head? ≠ some 'f' := by
  rw [chars_eq]
  cases t <;> simp [word, Word.opening]

theorem isRead_keyword {w : String} {t : Ty} (htext : t.chars = w.toList) (hw : isWord w)
    (hplain : w ∉ literalWords) (hspells : Spells (.variable w) t) :
    IsRead t.chars (Spells · t) := by
  rw [htext]
  exact (isRead_name hw hplain).imp fun e he => he ▸ hspells

theorem isRead_element (w : String) {s t : Ty}
    (htext : t.chars = w.toList ++ '(' :: (s.chars ++ [')'])) (hw : isWord w)
    (hspells : ∀ e, Spells e s → Spells (.call w [e] false) t) (hs : IsRead s.chars (Spells · s)) :
    IsRead t.chars (Spells · t) := by
  rw [htext]
  refine (isRead_call hw hs).imp fun e he => ?_
  obtain ⟨arg, rfl, harg⟩ := he
  exact hspells arg harg

/-- What is written for an attribute: its type, with the mark of an optional one. -/
theorem isRead_markedText {f : Field Ty} (h : IsRead f.type.chars (Spells · f.type)) :
    IsRead (markedText f) fun e => ∃ type, e = entryValue f.optional type ∧ Spells type f.type := by
  unfold markedText entryValue
  cases f.optional with
  | true =>
    have htext : Word.optional.opening ++ (f.type.chars ++ [')']) =
        "optional".toList ++ '(' :: (f.type.chars ++ [')']) := by
      rw [String.toList_ofList]
      rfl
    simp only [if_true, htext]
    exact isRead_call (by decide) h
  | false =>
    refine h.imp fun e he => ⟨e, rfl, he⟩

theorem spells_of_isList {ts : List Ty} {e : Expr} (h : IsList (fun t e => Spells e t) ts e) :
    Spells (.call "tuple" [e] false) (.tuple ts) := by
  obtain ⟨items, rfl, hitems⟩ := h
  refine .tuple hitems.length_eq.symm fun p hp => ?_
  exact (List.forall₂_iff_zip.1 hitems.flip).2 hp

theorem spells_of_isObject {fields : List (Field Ty)} {e : Expr}
    (h : IsObject Field.name
      (fun f e => ∃ type, e = entryValue f.optional type ∧ Spells type f.type) fields e) :
    Spells (.call "object" [e] false) (.object fields) := by
  obtain ⟨entries, rfl, hentries⟩ := h
  have htypes : ∃ types : List Expr, types.length = fields.length ∧
      entries.map (fun entry => (entry.1.value, entry.2.value)) =
        (types.zip fields).map (fun p => (.variable p.2.name, entryValue p.2.optional p.1)) ∧
      ∀ p ∈ types.zip fields, Spells p.1 p.2.type := by
    induction hentries with
    | nil => exact ⟨[], rfl, rfl, nofun⟩
    | cons hentry _ ih =>
      obtain ⟨hkey, type, hvalue, htype⟩ := hentry
      obtain ⟨types, hlength, hwritten, hspells⟩ := ih
      refine ⟨type :: types, ?_, ?_, ?_⟩
      · simp [hlength]
      · simp [hkey, hvalue, hwritten]
      · exact List.forall_mem_cons.2 ⟨htype, hspells⟩
  obtain ⟨types, hlength, hwritten, hspells⟩ := htypes
  exact .object hlength hwritten hspells

theorem isRead_tuple {ts : List Ty} (h : ∀ t ∈ ts, IsRead t.chars (Spells · t)) :
    IsRead (Ty.tuple ts).chars (Spells · (.tuple ts)) := by
  have htext : (Ty.tuple ts).chars =
      "tuple".toList ++ '(' :: (('[' :: (row chars ts ++ [']'])) ++ [')']) := by
    rw [chars_eq, inside, intercalate_eq_row, String.toList_ofList]
    simp [word, Word.opening]
  rw [htext]
  have hlist := isRead_list h fun t _ => head?_chars_ne t
  refine (isRead_call (by decide) hlist).imp fun e he => ?_
  obtain ⟨arg, rfl, harg⟩ := he
  exact spells_of_isList harg

theorem isRead_fields {fields : List (Field Ty)} (hplain : ∀ f ∈ fields, isPlainName f.name)
    (hnames : (fields.map (·.name)).Nodup)
    (h : ∀ f ∈ fields, IsRead f.type.chars (Spells · f.type)) :
    IsRead (Ty.object fields).chars (Spells · (.object fields)) := by
  have htext : (Ty.object fields).chars = "object".toList ++ '(' ::
      (('{' :: (row (fun f => entryText f.name (markedText f)) fields ++ ['}'])) ++ [')']) := by
    rw [chars_eq, inside, intercalate_eq_row, String.toList_ofList]
    simp [word, Word.opening]
    rfl
  rw [htext]
  have hobject := isRead_object (fun f hf => of_isPlainName (hplain f hf))
    (fun f hf => isRead_markedText (h f hf)) hnames
  refine (isRead_call (by decide) hobject).imp fun e he => ?_
  obtain ⟨arg, rfl, harg⟩ := he
  exact spells_of_isObject harg

/-- The text of a type is read as one of the spellings of the type. -/
theorem isRead_chars {t : Ty} (hplain : t.Plain) (hw : t.WellFormed) :
    IsRead t.chars (Spells · t) := by
  induction t with
  | any => exact isRead_keyword rfl (by decide) (by decide) .any
  | string => exact isRead_keyword rfl (by decide) (by decide) .string
  | number => exact isRead_keyword rfl (by decide) (by decide) .number
  | bool => exact isRead_keyword rfl (by decide) (by decide) .bool
  | list t ih =>
    cases hplain with | list hplain =>
    cases hw with | list hw =>
    have htext : (Ty.list t).chars = "list".toList ++ '(' :: (t.chars ++ [')']) := by
      rw [chars_eq, String.toList_ofList]
      rfl
    exact isRead_element "list" htext (by decide) (fun _ => .list) (ih hplain hw)
  | set t ih =>
    cases hplain with | set hplain =>
    cases hw with | set hw =>
    have htext : (Ty.set t).chars = "set".toList ++ '(' :: (t.chars ++ [')']) := by
      rw [chars_eq, String.toList_ofList]
      rfl
    exact isRead_element "set" htext (by decide) (fun _ => .set) (ih hplain hw)
  | map t ih =>
    cases hplain with | map hplain =>
    cases hw with | map hw =>
    have htext : (Ty.map t).chars = "map".toList ++ '(' :: (t.chars ++ [')']) := by
      rw [chars_eq, String.toList_ofList]
      rfl
    exact isRead_element "map" htext (by decide) (fun _ => .map) (ih hplain hw)
  | tuple ts ih =>
    cases hplain with | tuple hplain =>
    cases hw with | tuple hw =>
    exact isRead_tuple fun t ht => ih t ht (hplain t ht) (hw t ht)
  | object fields ih =>
    cases hplain with | object hplain htypes =>
    cases hw with | object hnames hw =>
    exact isRead_fields hplain hnames fun f hf => ih f hf (htypes f hf) (hw f hf)

/-- **Every type can be written and reads back.** There is an expression that spells the type. Each
that does, with parentheses around whichever types in it, reads as the type, without defaults. The
text of the type is such an expression, unless one of its attributes has a name that is no plain
word. -/
theorem spelled_reads_back {t : Ty} (hw : t.WellFormed) :
    Spells (TypeExpr.spelling t) t ∧
    (∀ e, Spells e t → TypeExpr.read e = .ok (t, none)) ∧
    (t.Plain → ∃ e, Expr.ofText? t.text = some e ∧ Spells e t) := by
  refine ⟨TypeExpr.spells_spelling t, fun e he => he.read_eq hw, fun hplain => ?_⟩
  apply IsRead.ofText?
  rw [text, String.toList_ofList]
  exact isRead_chars hplain hw

/-- A type whose attributes are named like types. -/
def namedLikeTypes : Ty :=
  .list (.object [⟨"any", true, .map .string⟩, ⟨"tuple", false, .tuple []⟩,
    ⟨"optional", true, .object []⟩])

theorem spelled_reads_back_namedLikeTypes :
    namedLikeTypes.WellFormed ∧ namedLikeTypes.Plain ∧
    namedLikeTypes.text = "list(object(\x7bany = optional(map(string)), tuple = tuple([]), " ++
      "optional = optional(object(\x7b\x7d))\x7d))" ∧
    (∃ e, Expr.ofText? namedLikeTypes.text = some e ∧
      TypeExpr.read (.paren e) = .ok (namedLikeTypes, none)) := by
  have hw : namedLikeTypes.WellFormed := by
    refine .list (.object (by decide) ?_)
    simp only [List.forall_mem_cons]
    exact ⟨.map .string, .tuple nofun, .object .nil nofun, nofun⟩
  have hplain : namedLikeTypes.Plain := by
    refine .list (.object (by decide) ?_)
    simp only [List.forall_mem_cons]
    exact ⟨.map .string, .tuple nofun, .object nofun nofun, nofun⟩
  obtain ⟨-, hread, htext⟩ := spelled_reads_back hw
  obtain ⟨e, he, hspells⟩ := htext hplain
  exact ⟨hw, hplain, by decide +kernel, e, he, hread _ (.paren hspells)⟩

-- An attribute named as a value or as a loop starts cannot be written as a bare word.
example : (Expr.ofText? (text (.object [⟨"null", false, .any⟩]))).map
    (fun e => (TypeExpr.read e).isOk) = some false := by decide +kernel

example : (Expr.ofText? (text (.object [⟨"for", false, .any⟩]))).isSome = false := by
  decide +kernel

end Ty

end EarlyConfig
