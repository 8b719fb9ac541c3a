import EarlyConfig.Proofs.LookUps
import Mathlib.Data.List.Lex
import Mathlib.Data.List.Sort
import Mathlib.Data.String.Basic

/-! The order of texts is the order of their bytes in UTF-8: a character that comes before another
is encoded in bytes that come before those of the other, whatever follows (`lex_encodeChar`), so
texts can be compared by characters or by bytes (`bytesLt_iff`). A set of texts has one list with
each of them once in this order (`Enumerates.unique`). It is what the keys of a sorted map are, and
what is left of a list that is sorted and rid of repeats (`enumerates_eraseReps`). -/
namespace EarlyConfig

namespace Text

/-- The text in UTF-8. -/
def bytes (s : String) : List UInt8 :=
  s.toUTF8.data.toList

/-- The bytes of the one text come before those of the other. -/
def BytesLt (s t : String) : Prop :=
  List.Lex (· < ·) (bytes s) (bytes t)

/-- Not after the other. -/
def BytesLe (s t : String) : Prop :=
  ¬BytesLt t s

theorem bytes_eq (s : String) : bytes s = s.toList.flatMap String.utf8EncodeChar := by
  rw [bytes, ← String.ofList_toList (s := s)]
  show (List.utf8Encode _).data.toList = _
  rw [String.toList_ofList]
  exact List.toList_data_toByteArray

/-- Numbers compare as their digits in base 64 do, up to four of them. -/
theorem digits_lt {v w : Nat} (h : v < w) :
    v / 262144 < w / 262144 ∨ v / 262144 = w / 262144 ∧
      (v / 4096 % 64 < w / 4096 % 64 ∨ v / 4096 % 64 = w / 4096 % 64 ∧
        (v / 64 % 64 < w / 64 % 64 ∨ v / 64 % 64 = w / 64 % 64 ∧ v % 64 < w % 64)) := by
  have hdigit : ∀ m n : Nat, m < n → m / 64 < n / 64 ∨ m / 64 = n / 64 ∧ m % 64 < n % 64 := by
    omega
  have hhigher : ∀ n : Nat, n / 64 / 64 = n / 4096 ∧ n / 4096 / 64 = n / 262144 := by
    intro n
    simp [Nat.div_div_eq_div_mul]
  have hv := hhigher v
  have hw := hhigher w
  rcases hdigit _ _ h with h64 | h64
  · rcases hdigit _ _ h64 with h4096 | h4096
    · have htop := hdigit _ _ h4096
      rw [hv.1, hw.1] at htop
      omega
    · omega
  · omega

/-- The encodings of two characters differ in a byte, and the first such byte is in the order of the
characters. -/
theorem lex_encodeChar {c d : Char} (h : c < d) (x y : List UInt8) :
    List.Lex (· < ·) (String.utf8EncodeChar c ++ x) (String.utf8EncodeChar d ++ y) := by
  have hlt : c.val.toNat < d.val.toNat := h
  have hmax : d.val.toNat < 0x110000 := by
    have := d.valid
    omega
  unfold String.utf8EncodeChar
  generalize c.val.toNat = v at hlt
  generalize d.val.toNat = w at hlt hmax
  have hdigits := digits_lt hlt
  dsimp only
  split_ifs <;>
    simp (disch := omega) only [List.cons_append, List.nil_append, List.cons_lex_cons_iff,
      UInt8.lt_iff_toNat_lt, ← UInt8.toNat_inj, UInt8.toNat_ofNat', Nat.mod_eq_of_lt] <;>
    omega

theorem lex_encode {cs ds : List Char} (h : cs < ds) :
    List.Lex (· < ·) (cs.flatMap String.utf8EncodeChar) (ds.flatMap String.utf8EncodeChar) := by
  induction cs generalizing ds with
  | nil =>
    cases ds with
    | nil => exact absurd h (List.lt_irrefl _)
    | cons d ds =>
      rw [List.flatMap_nil, List.flatMap_cons]
      cases hd : String.utf8EncodeChar d with
      | nil => exact absurd hd String.utf8EncodeChar_ne_nil
      | cons b bs => exact .nil
  | cons c cs ih =>
    cases ds with
    | nil => exact absurd h (List.not_lt_nil _)
    | cons d ds =>
      rw [List.flatMap_cons, List.flatMap_cons]
      rcases List.cons_lt_cons_iff.1 h with hcd | ⟨rfl, hrest⟩
      · exact lex_encodeChar hcd _ _
      · exact (ih hrest).append_left _ _

theorem bytesLt_iff {s t : String} : BytesLt s t ↔ s < t := by
  have hlex : ∀ {s t : String}, s < t → BytesLt s t := by
    intro s t h
    rw [BytesLt, bytes_eq, bytes_eq]
    exact lex_encode (String.lt_iff.1 h)
  constructor
  · intro h
    rcases lt_trichotomy s t with hlt | rfl | hgt
    · exact hlt
    · exact absurd h (irrefl (r := List.Lex fun a b : UInt8 => a < b) _)
    · exact absurd (hlex hgt) (asymm (r := List.Lex fun a b : UInt8 => a < b) h)
  · exact hlex

theorem bytesLe_iff {s t : String} : BytesLe s t ↔ s ≤ t := by
  rw [BytesLe, bytesLt_iff, not_lt]

theorem compare_eq_lt {s t : String} : compare s t = .lt ↔ BytesLt s t :=
  compare_lt_iff_lt.trans bytesLt_iff.symm

/-! ### Sorting -/

theorem pairwise_mergeSort (texts : List String) :
    (texts.mergeSort (· ≤ ·)).Pairwise (· ≤ ·) := by
  have hle : (texts.mergeSort (· ≤ ·)).Pairwise fun s t => decide (s ≤ t) = true :=
    List.pairwise_mergeSort (by simpa using fun a b c => le_trans) (by simpa using le_total) _
  simpa using hle

/-- A list that is in order already is what sorting gives. -/
theorem mergeSort_eq {texts sorted : List String} (hsorted : sorted.Pairwise (· ≤ ·))
    (hperm : sorted.Perm texts) : texts.mergeSort (· ≤ ·) = sorted :=
  ((List.mergeSort_perm ..).trans hperm.symm).eq_of_pairwise (fun _ _ _ _ => le_antisymm)
    (pairwise_mergeSort texts) hsorted

theorem mergeSort_eq_of_perm {texts texts' : List String} (h : texts.Perm texts') :
    texts.mergeSort (· ≤ ·) = texts'.mergeSort (· ≤ ·) :=
  mergeSort_eq (pairwise_mergeSort texts') ((List.mergeSort_perm ..).trans h.symm)

/-! ### Sets of texts as lists -/

/-- The list has each text with the property once, in ascending order of bytes, and no other. -/
structure Enumerates (names : List String) (p : String → Prop) : Prop where
  ascending : names.Pairwise BytesLt
  mem_iff : ∀ n, n ∈ names ↔ p n

namespace Enumerates

variable {names names' : List String} {p q : String → Prop}

theorem congr (h : Enumerates names p) (hpq : ∀ n, p n ↔ q n) : Enumerates names q :=
  ⟨h.ascending, fun n => (h.mem_iff n).trans (hpq n)⟩

/-- Each set of texts has one such list. -/
theorem unique (h : Enumerates names p) (h' : Enumerates names' q) (hpq : ∀ n, p n ↔ q n) :
    names = names' := by
  have hlt : ∀ {ns : List String}, ns.Pairwise BytesLt → ns.Pairwise (· < ·) :=
    fun hns => hns.imp bytesLt_iff.1
  apply (hlt h.ascending).eq_of_mem_iff (hlt h'.ascending)
  intro n
  rw [h.mem_iff, h'.mem_iff, hpq]

end Enumerates

/-! ### Repeats -/

section
variable {α : Type} [BEq α]

theorem eraseReps_loop_cons (x y : α) (rest kept : List α) :
    List.eraseRepsBy.loop (· == ·) x (y :: rest) kept =
      if x == y then List.eraseRepsBy.loop (· == ·) x rest kept
      else List.eraseRepsBy.loop (· == ·) y rest (x :: kept) := by
  rw [List.eraseRepsBy.loop]
  cases x == y <;> rfl

/-- What is kept already stands in front of what is kept of the rest. -/
theorem eraseReps_loop (x : α) (rest kept : List α) :
    List.eraseRepsBy.loop (· == ·) x rest kept = kept.reverse ++ (x :: rest).eraseReps := by
  show _ = kept.reverse ++ List.eraseRepsBy.loop (· == ·) x rest []
  induction rest generalizing x kept with
  | nil => exact List.reverse_cons
  | cons y rest ih =>
    rw [eraseReps_loop_cons, eraseReps_loop_cons]
    split
    · exact ih x kept
    · rw [ih y (x :: kept), ih y [x], List.reverse_cons, List.append_assoc]
      rfl

end

theorem eraseReps_cons_cons (s t : String) (rest : List String) :
    (s :: t :: rest).eraseReps =
      if s = t then (t :: rest).eraseReps else s :: (t :: rest).eraseReps := by
  show List.eraseRepsBy.loop (· == ·) s (t :: rest) [] = _
  rw [eraseReps_loop_cons, eraseReps_loop, eraseReps_loop]
  by_cases h : s = t
  · rw [if_pos h, if_pos (beq_iff_eq.2 h), h]
    rfl
  · rw [if_neg h, if_neg (mt beq_iff_eq.1 h)]
    rfl

theorem mem_eraseReps {texts : List String} {s : String} : s ∈ texts.eraseReps ↔ s ∈ texts := by
  induction texts with
  | nil => rfl
  | cons t rest ih =>
    cases rest with
    | nil => rfl
    | cons u rest =>
      rw [eraseReps_cons_cons]
      by_cases h : t = u
      · simp [h, ih]
      · simp [h, ih]

/-- In a list that is in order, equal texts stand next to each other. -/
theorem pairwise_eraseReps {texts : List String} (h : texts.Pairwise (· ≤ ·)) :
    texts.eraseReps.Pairwise (· < ·) := by
  induction texts with
  | nil => exact .nil
  | cons s rest ih =>
    obtain ⟨hs, hrest⟩ := List.pairwise_cons.1 h
    cases rest with
    | nil => exact List.pairwise_singleton _ _
    | cons t rest =>
      rw [eraseReps_cons_cons]
      by_cases hst : s = t
      · rw [if_pos hst]
        exact ih hrest
      · rw [if_neg hst, List.pairwise_cons]
        refine ⟨fun u hu => ?_, ih hrest⟩
        have hlt : s < t := lt_of_le_of_ne (hs t (List.mem_cons_self ..)) hst
        rcases List.mem_cons.1 (mem_eraseReps.1 hu) with rfl | hu
        · exact hlt
        · exact lt_of_lt_of_le hlt ((List.pairwise_cons.1 hrest).1 u hu)

/-- Sorting and taking out repeats leaves each text once. -/
theorem enumerates_eraseReps (texts : List String) :
    Enumerates (texts.mergeSort (· ≤ ·)).eraseReps (· ∈ texts) where
  ascending := (pairwise_eraseReps (pairwise_mergeSort texts)).imp bytesLt_iff.2
  mem_iff s := by rw [mem_eraseReps, List.mem_mergeSort]

end Text

/-! ### Keys -/

/-- The keys of a sorted map are listed once each in this order. -/
theorem SortedMap.enumerates_keys {α : Type} (m : SortedMap String α) :
    Text.Enumerates m.keys fun k => ∃ a, m.get? k = some a where
  ascending := by
    rw [keys, List.pairwise_map]
    exact m.sorted.imp Text.compare_eq_lt.1
  mem_iff _ := mem_keys

/-- A sorted set lists what was put into it. -/
theorem SortedSet.enumerates_ofList (names : List String) :
    Text.Enumerates (SortedSet.ofList names).toList (· ∈ names) := by
  apply (SortedSet.ofList names).enumerates_keys.congr
  intro n
  show (∃ a, (names.foldl (fun m k => m.insert k ()) SortedMap.empty).get? n = some a) ↔ _
  rw [SortedMap.get?_foldl_insert]
  by_cases h : n ∈ names <;> simp [h]

end EarlyConfig
