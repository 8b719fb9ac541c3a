import EarlyConfig.Proofs.Text
import Mathlib

/-! Text in lower case. Only letters change, so the marks between the parts of a text stay where
they are (`mem_lower`, `infix_lower`), the text takes up as many bytes as before
(`utf8ByteSize_lower`), and putting it into lower case again does nothing (`lower_lower`). -/
namespace EarlyConfig.Text

/-! ### Characters -/

theorem toLower_eq_iff {c mark : Char} (hmark : mark.isAlpha = false) :
    c.toLower = mark ↔ c = mark := by
  by_cases hc : c.isUpper
  · have hlower : c.toLower.isAlpha = true := by simp [Char.isAlpha, hc]
    constructor
    · rintro rfl
      simp [hlower] at hmark
    · rintro rfl
      simp [Char.isAlpha, hc] at hmark
  · rw [Char.toLower_eq_of_not_isUpper hc]

theorem isDigit_toLower (c : Char) : c.toLower.isDigit = c.isDigit := by
  by_cases hc : c.isUpper
  · have hlower : c.toLower.isLower = true := by simp [Char.isAlpha, hc]
    have hdigit : ∀ d : Char, d.isUpper ∨ d.isLower → d.isDigit = false := by
      intro d hd
      simp only [Char.isUpper, Char.isLower, Char.isDigit, UInt32.le_iff_toNat_le] at hd ⊢
      grind
    rw [hdigit c (.inl hc), hdigit _ (.inr hlower)]
  · rw [Char.toLower_eq_of_not_isUpper hc]

theorem isAlphanum_toLower (c : Char) : c.toLower.isAlphanum = c.isAlphanum := by
  rw [Char.isAlphanum, Char.isAlphanum, isDigit_toLower, Char.isAlpha_toLower_eq_isAlpha]

theorem utf8Size_toLower (c : Char) : c.toLower.utf8Size = c.utf8Size := by
  by_cases hc : c.isUpper
  · have hlower : c.toLower.isLower = true := by simp [Char.isAlpha, hc]
    have hsize : ∀ d : Char, d.isUpper ∨ d.isLower → d.utf8Size = 1 := by
      intro d hd
      rw [Char.utf8Size_eq_one_iff]
      simp only [Char.isUpper, Char.isLower, UInt32.le_iff_toNat_le] at hd ⊢
      grind
    rw [hsize c (.inl hc), hsize _ (.inr hlower)]
  · rw [Char.toLower_eq_of_not_isUpper hc]

/-! ### Texts -/

theorem toList_lower (s : String) : (lower s).toList = s.toList.map Char.toLower :=
  String.toList_ofList

theorem lower_lower (s : String) : lower (lower s) = lower s := by
  rw [← String.toList_inj, toList_lower, toList_lower, List.map_map]
  exact List.map_congr_left fun c _ => Char.toLower_toLower_eq_toLower c

theorem lower_append (s t : String) : lower (s ++ t) = lower s ++ lower t := by
  rw [← String.toList_inj]
  simp only [toList_lower, String.toList_append, List.map_append]

theorem lower_eq_empty {s : String} : lower s = "" ↔ s = "" := by
  rw [← String.toList_eq_nil_iff, toList_lower, List.map_eq_nil_iff, String.toList_eq_nil_iff]

theorem utf8ByteSize_lower (s : String) : (lower s).utf8ByteSize = s.utf8ByteSize := by
  rw [← String.ofList_toList (s := s), lower, String.toList_ofList, String.utf8ByteSize_ofList,
    String.utf8ByteSize_ofList]
  induction s.toList with
  | nil => rfl
  | cons c rest ih =>
    rw [List.map_cons, String.utf8Len_cons, String.utf8Len_cons, ih, utf8Size_toLower]

/-- Text between marks is in lower case if what stands between them is. -/
theorem lower_intercalate {mark : String} (hmark : lower mark = mark) (ps : List String) :
    lower (mark.intercalate ps) = mark.intercalate (ps.map lower) := by
  induction ps with
  | nil => rfl
  | cons p rest ih =>
    cases rest with
    | nil => simp
    | cons q rest =>
      rw [String.intercalate_cons_cons, lower_append, lower_append, hmark, ih]
      exact String.intercalate_cons_cons.symm

theorem mem_lower {mark : Char} (hmark : mark.isAlpha = false) {s : String} :
    mark ∈ (lower s).toList ↔ mark ∈ s.toList := by
  simp only [toList_lower, List.mem_map, toLower_eq_iff hmark, exists_eq_right]

theorem map_toLower_eq_iff {cs mark : List Char} (hmark : ∀ c ∈ mark, c.isAlpha = false) :
    cs.map Char.toLower = mark ↔ cs = mark := by
  have hsame : ∀ ds : List Char, (∀ d ∈ ds, d.isAlpha = false) → ds.map Char.toLower = ds :=
    fun ds hds => (List.map_congr_left fun d hd => (toLower_eq_iff (hds d hd)).2 rfl).trans
      (List.map_id ds)
  constructor
  · rintro rfl
    refine (hsame cs fun c hc => ?_).symm
    rw [← Char.isAlpha_toLower_eq_isAlpha]
    exact hmark _ (List.mem_map_of_mem hc)
  · rintro rfl
    exact hsame cs hmark

/-- A text without letters is the lower case of itself only. -/
theorem lower_eq_iff {s mark : String} (hmark : ∀ c ∈ mark.toList, c.isAlpha = false) :
    lower s = mark ↔ s = mark := by
  rw [← String.toList_inj, toList_lower, map_toLower_eq_iff hmark, String.toList_inj]

/-- A mark without letters stands in a text just if it stands there in lower case. -/
theorem infix_lower {mark : List Char} (hmark : ∀ c ∈ mark, c.isAlpha = false) {s : String} :
    mark <:+: (lower s).toList ↔ mark <:+: s.toList := by
  rw [toList_lower, List.infix_map_iff]
  constructor
  · rintro ⟨part, hpart, heq⟩
    rwa [(map_toLower_eq_iff hmark).1 heq.symm] at hpart
  · intro h
    exact ⟨mark, h, ((map_toLower_eq_iff hmark).2 rfl).symm⟩

end EarlyConfig.Text
