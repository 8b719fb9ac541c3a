import EarlyConfig.Text.Blank
import EarlyConfig.Text.Split
import Mathlib.Data.List.DropRight

/-! Pieces of a text and what is left of it without the blanks at its ends. Cutting at a character
and putting the character between the pieces undo each other (`pieces_intercalate`,
`intercalate_pieces`), what stands around a character is what the text is cut into there
(`cut_append`, `cutLast_append`, `cutAt_append`), and taking away blanks twice is taking them away
once (`trim_trim`). -/
namespace EarlyConfig.Text

/-! ### Pieces -/

theorem not_mem_of_mem_splitOn {c : Char} {cs piece : List Char} (h : piece ∈ cs.splitOn c) :
    c ∉ piece := by
  induction cs generalizing piece with
  | nil =>
    rw [List.splitOn_nil, List.mem_singleton] at h
    simp [h]
  | cons d rest ih =>
    obtain ⟨first, others, hsplit⟩ := List.exists_cons_of_ne_nil (List.splitOn_ne_nil c rest)
    rw [List.splitOn_cons_eq_if_modifyHead] at h
    split at h
    · rcases List.mem_cons.1 h with rfl | h
      · exact List.not_mem_nil
      · exact ih h
    · rename_i hd
      rw [hsplit, List.modifyHead_cons] at h
      rcases List.mem_cons.1 h with rfl | h
      · have hfirst : c ∉ first := ih (by simp [hsplit])
        have hne : c ≠ d := fun heq => hd (by simp [heq])
        exact fun hmem => (List.mem_cons.1 hmem).elim hne hfirst
      · exact ih (by simp [hsplit, h])

theorem not_mem_of_mem_pieces {c : Char} {s piece : String} (h : piece ∈ pieces c s) :
    c ∉ piece.toList := by
  obtain ⟨cs, hcs, rfl⟩ := List.mem_map.1 h
  rw [String.toList_ofList]
  exact not_mem_of_mem_splitOn hcs

theorem pieces_of_not_mem {c : Char} {s : String} (h : c ∉ s.toList) : pieces c s = [s] := by
  rw [pieces, List.splitOn_eq_singleton h, List.map_singleton, String.ofList_toList]

theorem pieces_ne_nil (c : Char) (s : String) : pieces c s ≠ [] := by
  rw [pieces, ne_eq, List.map_eq_nil_iff]
  exact List.splitOn_ne_nil c s.toList

theorem toList_join (c : Char) (s t : String) :
    (s ++ String.singleton c ++ t).toList = s.toList ++ c :: t.toList := by
  simp

/-- A text with the character in it has the pieces before it and those after it. -/
theorem pieces_append (c : Char) (s t : String) :
    pieces c (s ++ String.singleton c ++ t) = pieces c s ++ pieces c t := by
  rw [pieces, toList_join, List.splitOn_append_cons_self, List.map_append, pieces, pieces]

theorem pieces_intercalate {c : Char} {ps : List String} (hne : ps ≠ [])
    (hps : ∀ p ∈ ps, c ∉ p.toList) : pieces c ((String.singleton c).intercalate ps) = ps := by
  have hlist : ((String.singleton c).intercalate ps).toList =
      [c].intercalate (ps.map String.toList) := by
    rw [String.toList_intercalate, String.toList_singleton]
  have hsplit : ([c].intercalate (ps.map String.toList)).splitOn c = ps.map String.toList :=
    List.splitOn_intercalate c (by simpa using hps) (by simpa using hne)
  rw [pieces, hlist, hsplit, List.map_map]
  exact List.map_id'' (fun _ => String.ofList_toList) ps

theorem intercalate_pieces (c : Char) (s : String) :
    (String.singleton c).intercalate (pieces c s) = s := by
  have hlist : (pieces c s).map String.toList = s.toList.splitOn c := by
    rw [pieces, List.map_map]
    exact List.map_id'' (fun _ => String.toList_ofList) _
  rw [← String.toList_inj, String.toList_intercalate, hlist, String.toList_singleton]
  exact List.intercalate_splitOn c

theorem mem_of_mem_intercalate {c : Char} {mark : String} {ps : List String}
    (h : c ∈ (mark.intercalate ps).toList) : c ∈ mark.toList ∨ ∃ p ∈ ps, c ∈ p.toList := by
  induction ps with
  | nil => simp at h
  | cons p rest ih =>
    cases rest with
    | nil => exact .inr ⟨p, by simp, by simpa using h⟩
    | cons q rest =>
      rw [String.intercalate_cons_cons, String.toList_append, String.toList_append,
        List.mem_append, List.mem_append] at h
      rcases h with (h | h) | h
      · exact .inr ⟨p, by simp, h⟩
      · exact .inl h
      · exact (ih h).imp_right fun ⟨p', hp', hc⟩ => ⟨p', List.mem_cons_of_mem _ hp', hc⟩

/-! ### Before and after a character -/

theorem cut_of_not_mem {c : Char} {cs : List Char} (h : c ∉ cs) : cut c cs = (cs, none) := by
  have hdrop : cs.dropWhile (· ≠ c) = [] :=
    List.dropWhile_eq_nil_iff.2 fun d hd => decide_eq_true fun heq => h (heq ▸ hd)
  rw [cut, hdrop]

theorem cut_append {c : Char} {before : List Char} (h : c ∉ before) (after : List Char) :
    cut c (before ++ c :: after) = (before, some after) := by
  have hall : ∀ d ∈ before, decide (d ≠ c) = true := fun d hd =>
    decide_eq_true fun heq => h (heq ▸ hd)
  have hdrop : (before ++ c :: after).dropWhile (· ≠ c) = c :: after := by
    rw [List.dropWhile_append_of_pos hall, List.dropWhile_cons_of_neg (by simp)]
  have htake : (before ++ c :: after).takeWhile (· ≠ c) = before := by
    rw [List.takeWhile_append_of_pos hall, List.takeWhile_cons_of_neg (by simp), List.append_nil]
  rw [cut, hdrop, htake]

theorem cutLast_of_not_mem {c : Char} {cs : List Char} (h : c ∉ cs) :
    cutLast c cs = (cs, none) := by
  rw [cutLast, cut_of_not_mem (mt List.mem_reverse.1 h)]

theorem cutLast_append {c : Char} {after : List Char} (h : c ∉ after) (before : List Char) :
    cutLast c (before ++ c :: after) = (before, some after) := by
  have hreverse : (before ++ c :: after).reverse = after.reverse ++ c :: before.reverse := by simp
  rw [cutLast, hreverse, cut_append (mt List.mem_reverse.1 h)]
  simp

/-- A character that stands in a text stands there for the last time somewhere. -/
theorem exists_last_of_mem {c : Char} {cs : List Char} (h : c ∈ cs) :
    ∃ before after, cs = before ++ c :: after ∧ c ∉ after := by
  obtain ⟨after, before, hcs, hafter⟩ := List.eq_append_cons_of_mem (List.mem_reverse.2 h)
  refine ⟨before.reverse, after.reverse, ?_, mt List.mem_reverse.1 hafter⟩
  rw [← List.reverse_reverse cs, hcs]
  simp

/-! ### Marks -/

theorem infix_append_of_not_mem {c : Char} {xs : List Char} (h : c ∉ xs) (mark ys : List Char) :
    c :: mark <:+: xs ++ ys ↔ c :: mark <:+: ys := by
  induction xs with
  | nil => rfl
  | cons x rest ih =>
    obtain ⟨hne, hrest⟩ := not_or.1 (mt List.mem_cons.2 h)
    rw [List.cons_append, List.infix_cons_iff, ih hrest, or_iff_right]
    exact fun hstart => hne (List.cons_prefix_cons.1 hstart).1

/-- A mark stands in one of two parts if the second begins with none of its characters. -/
theorem not_infix_append {mark xs ys : List Char} (hxs : ¬mark <:+: xs) (hys : ¬mark <:+: ys)
    (hstart : ∀ c ∈ mark, ys.head? ≠ some c) : ¬mark <:+: xs ++ ys := by
  rw [List.infix_append_iff]
  rintro (h | h | ⟨front, back, rfl, hfront, hback⟩)
  · exact hxs h
  · exact hys h
  · cases back with
    | nil => exact hxs (by simpa using hfront.isInfix)
    | cons c back =>
      obtain ⟨rest, rfl⟩ := hback
      exact hstart c (by simp) (by simp)

theorem not_infix_concat {c : Char} {xs : List Char} (h : c ∉ xs) : ¬[c, c] <:+: xs ++ [c] := by
  intro hinfix
  have hcount := hinfix.sublist.count_le c
  simp [List.count_eq_zero.2 h] at hcount

theorem cutAt_eq_none {mark : List Char} (hmark : mark ≠ []) {cs : List Char} :
    cutAt mark cs = none ↔ ¬mark <:+: cs := by
  induction cs with
  | nil => simp [cutAt, hmark]
  | cons c rest ih =>
    rw [cutAt, List.infix_cons_iff, not_or, ← ih]
    split
    · rename_i hstart
      simp [List.isPrefixOf_iff_prefix.1 hstart]
    · rename_i hstart
      have hnot : ¬mark <+: c :: rest := fun h => by simp [List.isPrefixOf_iff_prefix.2 h] at hstart
      simp [hnot]

theorem containsMark_iff {mark : List Char} (hmark : mark ≠ []) {cs : List Char} :
    containsMark mark cs ↔ mark <:+: cs := by
  rw [containsMark, Option.isSome_iff_ne_none, ne_eq, cutAt_eq_none hmark, not_not]

theorem eq_of_cutAt {mark cs before after : List Char} (h : cutAt mark cs = some (before, after)) :
    cs = before ++ mark ++ after := by
  induction cs generalizing before with
  | nil =>
    rw [cutAt] at h
    split at h
    · rename_i hmark
      cases h
      simpa using hmark
    · cases h
  | cons c rest ih =>
    rw [cutAt] at h
    split at h
    · rename_i hstart
      obtain ⟨rest', hrest⟩ := List.isPrefixOf_iff_prefix.1 hstart
      cases h
      rw [← hrest]
      simp
    · obtain ⟨⟨before', after'⟩, hrest, heq⟩ := Option.map_eq_some_iff.1 h
      cases heq
      rw [ih hrest]
      rfl

/-- A mark is where a text is cut, if it does not stand there before or reach into it. -/
theorem cutAt_append {mark before : List Char} (hmark : mark ≠ [])
    (h : ¬mark <:+: before ++ mark.dropLast) (after : List Char) :
    cutAt mark (before ++ mark ++ after) = some (before, after) := by
  induction before with
  | nil =>
    obtain ⟨m, ms, rfl⟩ := List.exists_cons_of_ne_nil hmark
    have hstart : (m :: ms).isPrefixOf (m :: (ms ++ after)) = true :=
      List.isPrefixOf_iff_prefix.2 (List.prefix_append ..)
    simp only [List.nil_append, List.cons_append, cutAt, hstart]
    simp
  | cons c rest ih =>
    -- The mark is shorter than what stands before it together with all of it but its end.
    have hnot : ¬mark <+: c :: (rest ++ mark ++ after) := by
      intro hstart
      have hwhole : c :: (rest ++ mark.dropLast) <+: c :: (rest ++ mark ++ after) := by
        rw [List.prefix_cons_inj, List.append_assoc, List.prefix_append_right_inj]
        exact (List.dropLast_prefix mark).trans (List.prefix_append ..)
      refine h (List.prefix_of_prefix_length_le hstart hwhole ?_).isInfix
      simp only [List.length_cons, List.length_append, List.length_dropLast]
      omega
    have hfalse : mark.isPrefixOf (c :: (rest ++ mark ++ after)) = false := by
      rw [← Bool.not_eq_true, List.isPrefixOf_iff_prefix]
      exact hnot
    have hrest : ¬mark <:+: rest ++ mark.dropLast := fun hinfix => h (List.infix_cons hinfix)
    simp only [List.cons_append, cutAt, hfalse, ih hrest, Option.map_some]

/-! ### Blanks at the ends -/

theorem stripBoth_eq (p : Char → Bool) (cs : List Char) :
    stripBoth p cs = (cs.dropWhile p).rdropWhile p := rfl

theorem infix_stripBoth (p : Char → Bool) (cs : List Char) : stripBoth p cs <:+: cs :=
  (List.rdropWhile_prefix p _).isInfix.trans (List.dropWhile_suffix p).isInfix

/-- Taking characters from the end leaves the first as it is, unless nothing is left. -/
theorem dropWhile_stripBoth (p : Char → Bool) (cs : List Char) :
    (stripBoth p cs).dropWhile p = stripBoth p cs := by
  rw [List.dropWhile_eq_self_iff]
  intro hlen
  have hstart : stripBoth p cs <+: cs.dropWhile p := List.rdropWhile_prefix p _
  have hfront := List.dropWhile_eq_self_iff.1 (List.dropWhile_idempotent p cs)
  have hlen' : 0 < (cs.dropWhile p).length := Nat.lt_of_lt_of_le hlen hstart.length_le
  rw [hstart.getElem hlen]
  exact hfront hlen'

theorem stripBoth_eq_self {p : Char → Bool} {cs : List Char} (h : ∀ c ∈ cs, ¬p c) :
    stripBoth p cs = cs := by
  have hfront : cs.dropWhile p = cs :=
    List.dropWhile_eq_self_iff.2 fun hlen => h _ (List.getElem_mem hlen)
  rw [stripBoth_eq, hfront, List.rdropWhile_eq_self_iff]
  exact fun hne => h _ (List.getLast_mem hne)

theorem stripBoth_stripBoth (p : Char → Bool) (cs : List Char) :
    stripBoth p (stripBoth p cs) = stripBoth p cs := by
  rw [stripBoth_eq p (stripBoth p cs), dropWhile_stripBoth]
  exact List.rdropWhile_idempotent p _

theorem stripBoth_eq_nil {p : Char → Bool} {cs : List Char} :
    stripBoth p cs = [] ↔ ∀ c ∈ cs, p c := by
  rw [stripBoth_eq, List.rdropWhile_eq_nil_iff]
  constructor
  · intro h c hc
    rw [← List.takeWhile_append_dropWhile (p := p) (l := cs)] at hc
    rcases List.mem_append.1 hc with hc | hc
    · exact List.mem_takeWhile_imp hc
    · exact h c hc
  · exact fun h c hc => h c ((List.dropWhile_sublist p).subset hc)

theorem not_isBlank {c : Char} (h : c.isAlphanum ∨ c = '-') : ¬isBlank c := by
  rcases h with h | rfl
  · delta Char.isAlphanum Char.isAlpha Char.isUpper Char.isLower Char.isDigit at h
    simp only [UInt32.le_iff_toNat_le, Char.toNat_val] at h
    simp only [isBlank, inRanges, blankRanges, List.any_cons, List.any_nil]
    grind
  · decide

theorem trim_isEmpty {s : String} : (trim s).isEmpty ↔ ∀ c ∈ s.toList, isBlank c := by
  rw [String.isEmpty_iff, ← String.toList_eq_nil_iff, trim, String.toList_ofList,
    stripBoth_eq_nil]

theorem trim_trim (s : String) : trim (trim s) = trim s := by
  rw [trim, trim, String.toList_ofList, stripBoth_stripBoth]

theorem not_mem_trim {c : Char} {s : String} (h : c ∉ s.toList) : c ∉ (trim s).toList := by
  rw [trim, String.toList_ofList]
  exact fun hmem => h ((infix_stripBoth isBlank s.toList).subset hmem)

end EarlyConfig.Text
