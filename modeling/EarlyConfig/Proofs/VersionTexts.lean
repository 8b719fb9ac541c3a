import EarlyConfig.Proofs.Results
import EarlyConfig.Proofs.Text
import EarlyConfig.Version.Basic
import Mathlib.Algebra.Group.Nat.Defs
import Mathlib.Data.List.Forall2

/-! The text of a version. A grammar says which texts are versions and which version each of them
spells (`Spells`), without saying where a text is cut. Each text can be cut in one way at most
(`Cut`), so reading accepts just the texts of the grammar, and it complains about the numbers of a
text before it looks at the rest (`read_iff_spells`). -/
namespace EarlyConfig

/-! ### Cutting at a character -/

namespace Text

/-- A part of a text with the mark in front of it, if it is there. -/
def marked (c : Char) (part : Option (List Char)) : List Char :=
  part.elim [] (c :: ·)

theorem cut_marked {c : Char} {before : List Char} (h : c ∉ before) (part : Option (List Char)) :
    cut c (before ++ marked c part) = (before, part) := by
  cases part with
  | none => rw [marked, Option.elim_none, List.append_nil, cut_of_not_mem h]
  | some after => exact cut_append h after

theorem exists_marked (c : Char) (cs : List Char) :
    ∃ before part, c ∉ before ∧ cs = before ++ marked c part := by
  by_cases h : c ∈ cs
  · obtain ⟨before, after, hcs, hbefore⟩ := List.eq_append_cons_of_mem h
    exact ⟨before, some after, hbefore, hcs⟩
  · exact ⟨cs, none, h, (List.append_nil cs).symm⟩

theorem after?_eq_none {c : Char} {cs : List Char} (h : cs.head? ≠ some c) :
    after? [c] cs = none := by
  cases cs with
  | nil => rfl
  | cons d rest =>
    have hne : c ≠ d := fun heq => h (by rw [heq, List.head?_cons])
    simp [after?, hne]

theorem ofList_marked (c : Char) (cs : List Char) :
    String.ofList (marked c (some cs)) = String.singleton c ++ String.ofList cs := by
  rw [← String.toList_inj]
  simp [marked]

end Text

namespace Version

open Text (marked)

/-! ### The grammar -/

/-- A number of 64 bits in decimal digits, with zeros in front or without. -/
structure IsNumber (s : String) (n : Nat) : Prop where
  nonempty : s ≠ ""
  digits : ∀ c ∈ s.toList, c.isDigit
  value : Decimal.natOfDigits s.toList = n
  small : n < 2 ^ 64

/-- One to three numbers with points between them. -/
def IsCore (s : String) (numbers : List Nat) : Prop :=
  ∃ texts : List String, texts ≠ [] ∧ texts.length ≤ 3 ∧ List.Forall₂ IsNumber texts numbers ∧
    s = ".".intercalate texts

/-- Letters, digits and dashes. -/
structure IsBuildPart (s : String) : Prop where
  nonempty : s ≠ ""
  chars : ∀ c ∈ s.toList, c.isAlphanum ∨ c = '-'

/-- The same, but a number has no zero in front. -/
structure IsPrePart (s : String) : Prop extends IsBuildPart s where
  plain : (∀ c ∈ s.toList, c.isDigit) → s.toList.head? = some '0' → s = "0"

/-- Parts with points between them, after a mark. There may be no parts, and no mark either. -/
inductive IsTail (mark : String) (P : String → Prop) : String → List String → Prop
  | absent : IsTail mark P "" []
  | given {ids : List String} (parts : ∀ id ∈ ids, P id) :
      IsTail mark P (mark ++ ".".intercalate ids) ids

/-- A text that spells a version, and how many numbers are written in it. The others are zero. -/
inductive Spells : String → Version → Nat → Prop
  | intro {lead core pre build : String} {numbers : List Nat} {v : Version}
      (hlead : lead = "" ∨ lead = "v") (hcore : IsCore core numbers)
      (hpre : IsTail "-" IsPrePart pre v.pre) (hbuild : IsTail "+" IsBuildPart build v.build)
      (hnumbers : [v.major, v.minor, v.patch] =
        numbers ++ List.replicate (3 - numbers.length) 0) :
      Spells (lead ++ core ++ pre ++ build) v numbers.length

/-- A text that starts with the numbers of a version, up to its end or to one of the marks. -/
inductive HasCore : String → Prop
  | intro {lead core rest : String} {numbers : List Nat}
      (hlead : lead = "" ∨ lead = "v") (hcore : IsCore core numbers)
      (hrest : ∀ c, rest.toList.head? = some c → c = '-' ∨ c = '+') : HasCore (lead ++ core ++ rest)

/-! ### Numbers -/

theorem segment?_eq_some {cs : List Char} {n : Nat} :
    segment? cs = some n ↔ IsNumber (String.ofList cs) n := by
  have hbound : segmentBound = 2 ^ 64 := rfl
  unfold segment?
  rw [hbound]
  constructor
  · intro h
    split at h
    · rename_i hcs
      simp only [Bool.and_eq_true, Bool.not_eq_true', List.isEmpty_eq_false_iff, List.all_eq_true,
        decide_eq_true_eq] at hcs
      obtain rfl := Option.some.inj h
      exact ⟨by simpa using hcs.1.1, by simpa using hcs.1.2, by simp, hcs.2⟩
    · cases h
  · rintro ⟨hne, hdigits, rfl, hsmall⟩
    simp only [String.toList_ofList] at hdigits hsmall ⊢
    have hgiven : cs.isEmpty = false := by simpa using hne
    have hall : cs.all Char.isDigit = true := List.all_eq_true.2 hdigits
    rw [hgiven, hall, decide_eq_true hsmall]
    rfl

theorem IsNumber.not_mem {s : String} {n : Nat} (h : IsNumber s n) {c : Char}
    (hc : c.isDigit = false) : c ∉ s.toList := fun hmem => by
  simp [h.digits c hmem] at hc

theorem not_mem_of_isNumber {texts : List String} {numbers : List Nat}
    (h : List.Forall₂ IsNumber texts numbers) {c : Char} (hc : c.isDigit = false) :
    ∀ p ∈ texts, c ∉ p.toList :=
  ((List.forall₂_and_left texts numbers).1 (h.imp fun _ _ hp => ⟨hp.not_mem hc, hp⟩)).1

theorem mapM_eq_some {α β : Type} {f : α → Option β} {xs : List α} {ys : List β} :
    xs.mapM f = some ys ↔ List.Forall₂ (fun x y => f x = some y) xs ys := by
  induction xs generalizing ys with
  | nil => simp [eq_comm]
  | cons x rest ih =>
    rw [List.mapM_cons, List.forall₂_cons_left_iff]
    simp only [← ih]
    cases f x with
    | none => simp
    | some y => cases rest.mapM f <;> simp [eq_comm]

theorem segments?_eq_some {cs : List Char} {numbers : List Nat} :
    segments? cs = some numbers ↔ IsCore (String.ofList cs) numbers := by
  have hpieces : Text.pieces '.' (String.ofList cs) = (cs.splitOn '.').map String.ofList := by
    rw [Text.pieces, String.toList_ofList]
  have hread : (cs.splitOn '.').mapM segment? = some numbers ↔
      List.Forall₂ IsNumber (Text.pieces '.' (String.ofList cs)) numbers := by
    rw [mapM_eq_some, hpieces, List.forall₂_map_left_iff]
    simp only [segment?_eq_some]
  have hlength : (cs.splitOn '.').length = (Text.pieces '.' (String.ofList cs)).length := by
    rw [hpieces, List.length_map]
  unfold segments?
  dsimp only
  rw [hlength]
  constructor
  · intro h
    split at h
    · rename_i hfew
      exact ⟨_, Text.pieces_ne_nil _ _, hfew, hread.1 h, (Text.intercalate_pieces '.' _).symm⟩
    · cases h
  · rintro ⟨texts, hsome, hfew, hnumbers, htext⟩
    have htexts : Text.pieces '.' (String.ofList cs) = texts := by
      rw [htext]
      exact Text.pieces_intercalate hsome (not_mem_of_isNumber hnumbers rfl)
    rw [htexts, if_pos hfew, hread, htexts]
    exact hnumbers

theorem length_of_segments? {cs : List Char} {numbers : List Nat}
    (h : segments? cs = some numbers) : numbers.length ≤ 3 := by
  obtain ⟨texts, -, hfew, hnumbers, -⟩ := segments?_eq_some.1 h
  rwa [← hnumbers.length_eq]

/-- Numbers that are left out are zero. -/
theorem padded {numbers : List Nat} (h : numbers.length ≤ 3) :
    [numbers.getD 0 0, numbers.getD 1 0, numbers.getD 2 0] =
      numbers ++ List.replicate (3 - numbers.length) 0 := by
  rcases numbers with _ | ⟨a, _ | ⟨b, _ | ⟨c, _ | ⟨d, rest⟩⟩⟩⟩
  · rfl
  · rfl
  · rfl
  · rfl
  · simp only [List.length_cons] at h
    omega

theorem IsCore.not_mem {s : String} {numbers : List Nat} (h : IsCore s numbers) {c : Char}
    (hc : c.isDigit = false) (hpoint : c ≠ '.') : c ∉ s.toList := by
  obtain ⟨texts, -, -, hnumbers, rfl⟩ := h
  intro hmem
  rcases Text.mem_of_mem_intercalate hmem with hmem | ⟨p, hp, hmem⟩
  · exact hpoint (by simpa using hmem)
  · exact not_mem_of_isNumber hnumbers hc p hp hmem

/-! ### Parts after a mark -/

theorem isIdentifier_iff {cs : List Char} :
    isIdentifier cs ↔ IsBuildPart (String.ofList cs) := by
  simp only [isIdentifier, Bool.and_eq_true, Bool.not_eq_true', List.isEmpty_eq_false_iff,
    List.all_eq_true, Bool.or_eq_true, decide_eq_true_eq]
  constructor
  · rintro ⟨hsome, hchars⟩
    exact ⟨by simpa using hsome, by simpa using hchars⟩
  · intro h
    exact ⟨by simpa using h.nonempty, by simpa using h.chars⟩

theorem isPreIdentifier_iff {cs : List Char} :
    isPreIdentifier cs ↔ IsPrePart (String.ofList cs) := by
  have hzero : ¬(cs.all Char.isDigit ∧ cs.head? = some '0' ∧ 1 < cs.length) ↔
      ((∀ c ∈ cs, c.isDigit) → cs.head? = some '0' → cs = ['0']) := by
    rw [List.all_eq_true]
    cases cs with
    | nil => simp
    | cons c rest => cases rest <;> simp
  rw [isPreIdentifier, Bool.and_eq_true, isIdentifier_iff, Bool.not_eq_true', ← Bool.not_eq_true]
  simp only [Bool.and_eq_true, decide_eq_true_eq, and_assoc, hzero]
  have hword : String.ofList cs = "0" ↔ cs = ['0'] := by
    rw [← String.toList_inj, String.toList_ofList]
    rfl
  constructor
  · rintro ⟨hpart, hplain⟩
    exact ⟨hpart, by simpa [hword] using hplain⟩
  · intro h
    exact ⟨h.toIsBuildPart, by simpa [hword] using h.plain⟩

theorem IsBuildPart.not_mem {s : String} (h : IsBuildPart s) {c : Char} (hc : c.isAlphanum = false)
    (hdash : c ≠ '-') : c ∉ s.toList := fun hmem =>
  (h.chars c hmem).elim (fun halpha => by simp [hc] at halpha) hdash

section
variable {ok : List Char → Bool} {P : String → Prop} (hok : ∀ cs, ok cs ↔ P (String.ofList cs))
include hok

/-- Text after a mark is cut at its points. -/
theorem identifiers?_some {cs : List Char} (hcs : cs ≠ []) {ids : List String} :
    identifiers? ok (some cs) = .ok ids ↔
      Text.pieces '.' (String.ofList cs) = ids ∧ ∀ id ∈ ids, P id := by
  have hpieces : Text.pieces '.' (String.ofList cs) = (cs.splitOn '.').map String.ofList := by
    rw [Text.pieces, String.toList_ofList]
  have hall : (cs.splitOn '.').all ok ↔ ∀ id ∈ Text.pieces '.' (String.ofList cs), P id := by
    rw [hpieces, List.forall_mem_map, List.all_eq_true]
    exact forall₂_congr fun id _ => hok id
  have hread : identifiers? ok (some cs) =
      if (cs.splitOn '.').all ok then .ok (Text.pieces '.' (String.ofList cs))
      else .error .metadata := by
    rw [hpieces]
    cases cs with
    | nil => exact absurd rfl hcs
    | cons c rest => rfl
  rw [hread]
  constructor
  · intro h
    split at h
    · rename_i hparts
      cases h
      exact ⟨rfl, hall.1 hparts⟩
    · cases h
  · rintro ⟨rfl, hparts⟩
    rw [if_pos (hall.2 hparts)]

theorem identifiers?_intercalate (hP : ∀ s, P s → IsBuildPart s) {ids : List String}
    (h : ∀ id ∈ ids, P id) {cs : List Char} (hcs : String.ofList cs = ".".intercalate ids) :
    identifiers? ok (some cs) = .ok ids := by
  cases ids with
  | nil =>
    obtain rfl : cs = [] := by simpa using hcs
    rfl
  | cons id rest =>
    have hpieces : Text.pieces '.' (String.ofList cs) = id :: rest := by
      rw [hcs]
      exact Text.pieces_intercalate (by simp) fun p hp => (hP p (h p hp)).not_mem rfl (by decide)
    have hsome : cs ≠ [] := by
      rintro rfl
      have hid : id = "" := by
        have hempty : Text.pieces '.' "" = [""] := by decide
        rw [String.ofList_nil, hempty] at hpieces
        exact (List.cons.inj hpieces).1.symm
      exact (hP id (h id (List.mem_cons_self ..))).nonempty hid
    exact (identifiers?_some hok hsome).2 ⟨hpieces, h⟩

theorem identifiers?_eq_ok (hP : ∀ s, P s → IsBuildPart s) {c : Char}
    {part : Option (List Char)} {ids : List String} :
    identifiers? ok part = .ok ids ↔
      IsTail (String.singleton c) P (String.ofList (marked c part)) ids := by
  constructor
  · intro h
    cases part with
    | none =>
      cases h
      exact .absent
    | some cs =>
      have hids : (∀ id ∈ ids, P id) ∧ ".".intercalate ids = String.ofList cs := by
        by_cases hcs : cs = []
        · subst hcs
          cases h
          simp
        · obtain ⟨hpieces, hparts⟩ := (identifiers?_some hok hcs).1 h
          exact ⟨hparts, hpieces ▸ Text.intercalate_pieces '.' _⟩
      rw [Text.ofList_marked, ← hids.2]
      exact .given hids.1
  · intro h
    generalize htail : String.ofList (marked c part) = tail at h
    cases h with
    | absent =>
      cases part with
      | none => rfl
      | some cs => simp [marked] at htail
    | given hparts =>
      cases part with
      | none =>
        have hlist := congrArg String.toList htail
        simp [marked] at hlist
      | some cs =>
        rw [Text.ofList_marked, String.append_right_inj] at htail
        exact identifiers?_intercalate hok hP hparts htail

end

theorem identifiers?_eq_error {ok : List Char → Bool} {part : Option (List Char)}
    {e : VersionError} (h : identifiers? ok part = .error e) : e = .metadata := by
  unfold identifiers? at h
  split at h
  · cases h
  · cases h
  · dsimp only at h
    split at h <;> cases h
    rfl

/-! ### Cutting a text -/

/-- The parts into which a text is cut: a `v` or nothing, the numbers, and what follows the marks.
-/
structure Cut (s : String) (lead core : List Char) (pre build : Option (List Char)) : Prop where
  text : s.toList = lead ++ (core ++ marked '-' pre ++ marked '+' build)
  lead : lead = ['v'] ∨ lead = [] ∧ core.head? ≠ some 'v'
  coreDash : '-' ∉ core
  corePlus : '+' ∉ core
  prePlus : '+' ∉ marked '-' pre

theorem exists_cut (s : String) : ∃ lead core pre build, Cut s lead core pre build := by
  obtain ⟨lead, rest, hs, hlead⟩ : ∃ lead rest, s.toList = lead ++ rest ∧
      (lead = ['v'] ∨ lead = [] ∧ rest.head? ≠ some 'v') := by
    by_cases hv : s.toList.head? = some 'v'
    · obtain ⟨rest, hrest⟩ := List.head?_eq_some_iff.1 hv
      exact ⟨['v'], rest, hrest, .inl rfl⟩
    · exact ⟨[], s.toList, rfl, .inr ⟨rfl, hv⟩⟩
  obtain ⟨front, build, hfront, rfl⟩ := Text.exists_marked '+' rest
  obtain ⟨core, pre, hcore, rfl⟩ := Text.exists_marked '-' front
  rw [List.mem_append, not_or] at hfront
  refine ⟨lead, core, pre, build, hs, hlead.imp_right fun h => ⟨h.1, fun hv => h.2 ?_⟩, hcore,
    hfront.1, hfront.2⟩
  obtain ⟨after, rfl⟩ := List.head?_eq_some_iff.1 hv
  rfl

namespace Cut

variable {s : String} {lead core : List Char} {pre build : Option (List Char)}
  (h : Cut s lead core pre build)
include h

theorem eq_join : s = String.ofList lead ++ String.ofList core ++ String.ofList (marked '-' pre) ++
    String.ofList (marked '+' build) := by
  rw [← String.toList_inj, h.text]
  simp

theorem lead_text : String.ofList lead = "" ∨ String.ofList lead = "v" := by
  rcases h.lead with rfl | ⟨rfl, -⟩
  · exact .inr rfl
  · exact .inl rfl

theorem after_lead : (Text.after? ['v'] s.toList).getD s.toList =
    core ++ marked '-' pre ++ marked '+' build := by
  rw [h.text]
  rcases h.lead with rfl | ⟨rfl, hcore⟩
  · simp [Text.after?]
  · have hhead : (core ++ marked '-' pre ++ marked '+' build).head? ≠ some 'v' := by
      cases core with
      | nil => cases pre <;> cases build <;> simp [marked]
      | cons c rest => simpa using hcore
    rw [List.nil_append, Text.after?_eq_none hhead, Option.getD_none]

theorem read_of_core (numbers : Option (List Nat)) (hcore : segments? core = numbers) :
    read s = numbers.elim (.error (.malformedVersion s)) fun numbers => do
      let pre ← identifiers? isPreIdentifier pre
      let build ← identifiers? isIdentifier build
      return (⟨numbers.getD 0 0, numbers.getD 1 0, numbers.getD 2 0, pre, build⟩,
        numbers.length) := by
  have hfront : '+' ∉ core ++ marked '-' pre := by
    rw [List.mem_append, not_or]
    exact ⟨h.corePlus, h.prePlus⟩
  rw [read]
  simp only [h.after_lead, Text.cut_marked hfront, Text.cut_marked h.coreDash, hcore]
  cases numbers <;> rfl

theorem read_eq_ok {v : Version} {count : Nat} :
    read s = .ok (v, count) ↔ ∃ numbers, IsCore (String.ofList core) numbers ∧
      IsTail "-" IsPrePart (String.ofList (marked '-' pre)) v.pre ∧
      IsTail "+" IsBuildPart (String.ofList (marked '+' build)) v.build ∧
      [v.major, v.minor, v.patch] = numbers ++ List.replicate (3 - numbers.length) 0 ∧
      count = numbers.length := by
  have hpre : ∀ ids, identifiers? isPreIdentifier pre = .ok ids ↔
      IsTail "-" IsPrePart (String.ofList (marked '-' pre)) ids := fun ids =>
    identifiers?_eq_ok (c := '-') (fun _ => isPreIdentifier_iff) fun _ hs => hs.toIsBuildPart
  have hbuild : ∀ ids, identifiers? isIdentifier build = .ok ids ↔
      IsTail "+" IsBuildPart (String.ofList (marked '+' build)) ids := fun ids =>
    identifiers?_eq_ok (c := '+') (fun _ => isIdentifier_iff) fun _ hs => hs
  simp only [← segments?_eq_some, ← hpre, ← hbuild]
  cases hcore : segments? core with
  | none =>
    rw [h.read_of_core none hcore]
    simp
  | some numbers =>
    have hpadded := padded (length_of_segments? hcore)
    rw [h.read_of_core (some numbers) hcore]
    simp only [Option.elim_some, Except.bind_eq_ok, Except.pure_eq_ok, Prod.mk.injEq,
      Option.some.injEq, exists_eq_left', ← hpadded]
    obtain ⟨major, minor, patch, vpre, vbuild⟩ := v
    simp

theorem read_of_not_isCore (hcore : ¬∃ numbers, IsCore (String.ofList core) numbers) :
    read s = .error (.malformedVersion s) := by
  refine h.read_of_core none (Option.eq_none_iff_forall_ne_some.2 fun numbers hnumbers => ?_)
  exact hcore ⟨numbers, segments?_eq_some.1 hnumbers⟩

/-- Once the numbers are read, only what follows them can be wrong. -/
theorem eq_metadata {numbers : List Nat} (hcore : IsCore (String.ofList core) numbers)
    {e : VersionError} (he : read s = .error e) : e = .metadata := by
  rw [h.read_of_core (some numbers) (segments?_eq_some.2 hcore), Option.elim_some] at he
  cases hpre : identifiers? isPreIdentifier pre with
  | error e' =>
    rw [hpre] at he
    cases he
    exact identifiers?_eq_error hpre
  | ok ids =>
    cases hbuild : identifiers? isIdentifier build with
    | error e' =>
      rw [hpre, hbuild] at he
      cases he
      exact identifiers?_eq_error hbuild
    | ok ids' =>
      rw [hpre, hbuild] at he
      cases he

end Cut

theorem head?_marked {pre build : Option (List Char)} {c : Char}
    (h : (marked '-' pre ++ marked '+' build).head? = some c) : c = '-' ∨ c = '+' := by
  cases pre with
  | some cs => exact .inl (Option.some.inj h).symm
  | none =>
    cases build with
    | some cs => exact .inr (Option.some.inj h).symm
    | none => cases h

/-! ### Texts of the grammar -/

theorem IsTail.parts {mark : String} {P : String → Prop} {s : String} {ids : List String}
    (h : IsTail mark P s ids) : ∀ id ∈ ids, P id := by
  cases h with
  | absent => simp
  | given parts => exact parts

theorem IsTail.exists_marked {c : Char} {P : String → Prop} {s : String} {ids : List String}
    (h : IsTail (String.singleton c) P s ids) : ∃ part, s = String.ofList (marked c part) := by
  cases h with
  | absent => exact ⟨none, rfl⟩
  | given parts =>
    refine ⟨some (".".intercalate ids).toList, ?_⟩
    rw [Text.ofList_marked, String.ofList_toList]

theorem IsTail.not_mem {mark : String} {P : String → Prop} (hP : ∀ s, P s → IsBuildPart s)
    {s : String} {ids : List String} (h : IsTail mark P s ids) {c : Char}
    (hc : c.isAlphanum = false) (hdash : c ≠ '-') (hpoint : c ≠ '.') (hmark : c ∉ mark.toList) :
    c ∉ s.toList := by
  cases h with
  | absent => simp
  | given parts =>
    rw [String.toList_append, List.mem_append, not_or]
    refine ⟨hmark, fun hmem => ?_⟩
    rcases Text.mem_of_mem_intercalate hmem with hmem | ⟨id, hid, hmem⟩
    · exact hpoint (by simpa using hmem)
    · exact (hP id (parts id hid)).not_mem hc hdash hmem

/-- A text that is put together from a `v` or nothing, numbers and what may follow them is cut
there. -/
theorem cut_of_isCore {lead core : String} {numbers : List Nat} {pre build : Option (List Char)}
    (hlead : lead = "" ∨ lead = "v") (hcore : IsCore core numbers) (hpre : '+' ∉ marked '-' pre) :
    Cut (lead ++ core ++ String.ofList (marked '-' pre) ++ String.ofList (marked '+' build))
      lead.toList core.toList pre build where
  text := by simp
  lead := by
    rcases hlead with rfl | rfl
    · refine .inr ⟨rfl, fun hv => ?_⟩
      exact hcore.not_mem (by decide) (by decide) (List.mem_of_head? hv)
    · exact .inl rfl
  coreDash := hcore.not_mem (by decide) (by decide)
  corePlus := hcore.not_mem (by decide) (by decide)
  prePlus := hpre

theorem read_eq_ok {s : String} {v : Version} {count : Nat} :
    read s = .ok (v, count) ↔ Spells s v count := by
  constructor
  · intro h
    obtain ⟨lead, core, pre, build, hcut⟩ := exists_cut s
    obtain ⟨numbers, hcore, hpre, hbuild, hnumbers, rfl⟩ := hcut.read_eq_ok.1 h
    rw [hcut.eq_join]
    exact .intro hcut.lead_text hcore hpre hbuild hnumbers
  · rintro ⟨hlead, hcore, hpre, hbuild, hnumbers⟩
    obtain ⟨pre, rfl⟩ := IsTail.exists_marked (c := '-') hpre
    obtain ⟨build, rfl⟩ := IsTail.exists_marked (c := '+') hbuild
    have hplus : '+' ∉ marked '-' pre := by
      have h := hpre.not_mem (fun _ hs => hs.toIsBuildPart) (c := '+') (by decide) (by decide)
        (by decide) (by decide)
      simpa using h
    refine (cut_of_isCore hlead hcore hplus).read_eq_ok.2 ⟨_, ?_, hpre, hbuild, hnumbers, rfl⟩
    rwa [String.ofList_toList]

/-- A text has numbers at its beginning just if they are the first part it is cut into. -/
theorem hasCore_iff {s : String} :
    HasCore s ↔ ∃ lead core pre build numbers, Cut s lead core pre build ∧
      IsCore (String.ofList core) numbers := by
  constructor
  · rintro ⟨hlead, hcore, hrest⟩
    rename_i lead core rest numbers
    obtain ⟨front, build, hfront, hcut⟩ := Text.exists_marked '+' rest.toList
    obtain ⟨pre, rfl⟩ : ∃ pre, front = marked '-' pre := by
      cases front with
      | nil => exact ⟨none, rfl⟩
      | cons c cs =>
        have hmark := hrest c (by rw [hcut]; rfl)
        have hplus : c ≠ '+' := fun heq => hfront (heq ▸ List.mem_cons_self ..)
        exact ⟨some cs, by rw [hmark.resolve_right hplus]; rfl⟩
    have hs : lead ++ core ++ rest = lead ++ core ++ String.ofList (marked '-' pre) ++
        String.ofList (marked '+' build) := by
      rw [← String.toList_inj, String.toList_append, hcut]
      simp
    rw [hs]
    exact ⟨_, _, pre, build, numbers, cut_of_isCore hlead hcore hfront,
      by rwa [String.ofList_toList]⟩
  · rintro ⟨lead, core, pre, build, numbers, hcut, hcore⟩
    rw [hcut.eq_join, String.append_assoc]
    refine .intro hcut.lead_text hcore fun c hc => ?_
    rw [String.toList_append, String.toList_ofList, String.toList_ofList] at hc
    exact head?_marked hc

/-! ### Reading and writing -/

theorem isNumber_natText {n : Nat} (h : n < 2 ^ 64) : IsNumber (Decimal.natText n) n where
  nonempty := by simp [Decimal.natText, Nat.toDigits_ne_nil]
  digits c hc := by
    rw [Decimal.natText, String.toList_ofList] at hc
    exact Nat.isDigit_of_mem_toDigits (by decide) (by decide) hc
  value := by
    rw [Decimal.natText, String.toList_ofList, Decimal.natOfDigits, Nat.ofDigitChars_ten_toDigits]
  small := h

theorem IsCore.small {s : String} {numbers : List Nat} (h : IsCore s numbers) :
    ∀ n ∈ numbers, n < 2 ^ 64 := by
  obtain ⟨texts, -, -, hnumbers, -⟩ := h
  have hsmall : List.Forall₂ (fun n _ => n < 2 ^ 64 ∧ True) numbers texts :=
    (hnumbers.imp fun _ _ hn => ⟨hn.small, trivial⟩).flip
  exact ((List.forall₂_and_left numbers texts).1 hsmall).1

theorem IsTail.rewritten {mark : String} {P : String → Prop} {s : String} {ids : List String}
    (h : IsTail mark P s ids) :
    IsTail mark P (if ids.isEmpty then "" else mark ++ ".".intercalate ids) ids := by
  cases ids with
  | nil => exact .absent
  | cons id rest => exact .given h.parts

/-- The text of a version that was read spells it, with all three numbers. -/
theorem Spells.text {s : String} {v : Version} {count : Nat} (h : Spells s v count) :
    Spells v.text v 3 := by
  obtain ⟨hlead, hcore, hpre, hbuild, hnumbers⟩ := h
  rename_i numbers
  have hsmall : ∀ n ∈ [v.major, v.minor, v.patch], n < 2 ^ 64 := by
    rw [hnumbers]
    refine List.forall_mem_append.2 ⟨hcore.small, fun n hn => ?_⟩
    rw [List.eq_of_mem_replicate hn]
    decide
  have hfull : IsCore (".".intercalate ([v.major, v.minor, v.patch].map Decimal.natText))
      [v.major, v.minor, v.patch] := by
    refine ⟨_, by simp, by simp, ?_, rfl⟩
    rw [List.forall₂_map_left_iff, List.forall₂_same]
    exact fun n hn => isNumber_natText (hsmall n hn)
  have htext := Spells.intro (.inl rfl) hfull hpre.rewritten hbuild.rewritten rfl
  rwa [String.empty_append] at htext

/-- **Reading takes the versions and nothing else.** A text is read just if it spells a version: a
`v` or nothing, one to three numbers of 64 bits with points between them, and what marks a
pre-release and a build, each with its mark. The result is that version, with zeros for the numbers
left out, and how many are written. A text without such numbers at its beginning is malformed; in
any other that is refused something is wrong behind a mark. The text of a version that was read is
read as the same version, with three numbers. -/
theorem read_iff_spells (s : String) :
    (∀ v count, read s = .ok (v, count) ↔ Spells s v count) ∧
    (∀ t, read s = .error (.malformedVersion t) ↔ ¬HasCore s ∧ t = s) ∧
    (read s = .error .metadata ↔ HasCore s ∧ ¬∃ v count, Spells s v count) ∧
    ∀ v count, read s = .ok (v, count) → read v.text = .ok (v, 3) := by
  have hbad : ¬HasCore s → read s = .error (.malformedVersion s) := by
    intro h
    obtain ⟨lead, core, pre, build, hcut⟩ := exists_cut s
    refine hcut.read_of_not_isCore fun ⟨numbers, hcore⟩ => h ?_
    exact hasCore_iff.2 ⟨lead, core, pre, build, numbers, hcut, hcore⟩
  have hgood : HasCore s → ∀ e, read s = .error e → e = .metadata := by
    intro h e he
    obtain ⟨lead, core, pre, build, numbers, hcut, hcore⟩ := hasCore_iff.1 h
    exact hcut.eq_metadata hcore he
  refine ⟨fun v count => read_eq_ok, fun t => ⟨fun h => ?_, ?_⟩, ⟨fun h => ?_, ?_⟩, ?_⟩
  · have hcore : ¬HasCore s := fun hs => by cases hgood hs _ h
    rw [hbad hcore] at h
    cases h
    exact ⟨hcore, rfl⟩
  · rintro ⟨h, rfl⟩
    exact hbad h
  · constructor
    · by_contra hcore
      cases (hbad hcore).symm.trans h
    · rintro ⟨v, count, hs⟩
      cases (read_eq_ok.2 hs).symm.trans h
  · rintro ⟨hcore, hnone⟩
    cases hread : read s with
    | error e => rw [hgood hcore e hread]
    | ok r => exact absurd ⟨r.1, r.2, read_eq_ok.1 hread⟩ hnone
  · intro v count h
    exact read_eq_ok.2 (read_eq_ok.1 h).text

/-- A `v`, a zero in front of a number, a number left out, and a dash behind the second mark. -/
theorem read_iff_spells_shortened :
    let v : Version := ⟨1, 2, 0, ["rc", "1"], ["a-b"]⟩
    read "v01.2-rc.1+a-b" = .ok (v, 2) ∧ Spells "v01.2-rc.1+a-b" v 2 ∧
      read "1.2.0-rc.1+a-b" = .ok (v, 3) := by
  intro v
  have hread : read "v01.2-rc.1+a-b" = .ok (v, 2) := by with_unfolding_all rfl
  obtain ⟨hspells, -, -, hback⟩ := read_iff_spells "v01.2-rc.1+a-b"
  have htext : v.text = "1.2.0-rc.1+a-b" := by decide
  exact ⟨hread, (hspells v 2).1 hread, htext ▸ hback v 2 hread⟩

end Version

end EarlyConfig
