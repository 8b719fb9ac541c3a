import EarlyConfig.Proofs.Conformance
import EarlyConfig.Proofs.Equality
import Mathlib.Data.List.Perm.Basic

/-! The members of a set. Conversion to a set keeps a converted element unless one that was kept
before is equal to it. Where equality is transitive, this keeps the first of each class of equal
elements (`distinct_eq_firsts`), each element is equal to exactly one member, and the order of the
elements makes no difference but to the order of the members (`distinct_perm`). Equality is
transitive unless a floating point number stands beside two integers that round to it, and with such
numbers the members do depend on the order (`set_members_iff`). -/
namespace EarlyConfig.Value

/-! ### Converted values -/

/-- A value that can be represented: no name is repeated in it, and integers are kept exactly. -/
abbrev WellFormed (v : Value) : Prop :=
  v.Over Number.InRange

theorem elements_over {N : Number → Prop} {v : Value} (h : v.Over N) {vs : List Value}
    (hvs : v.elements? = some vs) : ∀ u ∈ vs, u.Over N := by
  cases h <;> cases hvs <;> assumption

theorem entries_over {N : Number → Prop} {v : Value} (h : v.Over N) {es : List (String × Value)}
    (hes : v.entries? = some es) : (Entries.keys es).Nodup ∧ ∀ e ∈ es, e.2.Over N := by
  cases h <;> cases hes <;> exact ⟨by assumption, by assumption⟩

theorem given?_over {N : Number → Prop} {es : List (String × Value)} (hes : ∀ e ∈ es, e.2.Over N)
    {f : Field Ty} {u : Value} (h : given? f es = some u) : u.Over N := by
  rcases Option.or_eq_some_iff.1 h with hget | ⟨-, hnull⟩
  · exact hes (f.name, u) (Entries.mem_of_get? hget)
  · split at hnull
    · cases hnull
      exact .null
    · cases hnull

theorem toNumber_wellFormed {v w : Value} (hv : v.WellFormed) (h : v.toNumber = .ok w) :
    w.WellFormed := by
  unfold toNumber at h
  split at h
  · cases h
    exact hv
  · split at h
    · rename_i n hn
      cases h
      exact .number (Number.ofText?_inRange hn)
    · cases h
  · cases h

/-- Null and unknown values stay such, so only the others need a look. -/
theorem wellFormed_of_given {t : Ty} (ht : t.WellFormed)
    (h : ∀ v w, v.isGiven = true → v.WellFormed → convert t v = .ok w → w.WellFormed) (v w : Value)
    (hv : v.WellFormed) (hw : convert t v = .ok w) : w.WellFormed := by
  rcases v.null_or_unknown_or_given with rfl | ⟨s, rfl⟩ | hgiven
  · cases (convert_null t).symm.trans hw
    exact .null
  · cases (convert_unknown t s).symm.trans hw
    exact .unknown ht
  · exact h v w hgiven hv hw

theorem convert_wellFormed {t : Ty} (ht : t.WellFormed) :
    ∀ v w, v.WellFormed → convert t v = .ok w → w.WellFormed := by
  induction ht with
  | any =>
    refine wellFormed_of_given .any fun v w hgiven hv h => ?_
    rw [convert_any hgiven] at h
    cases h
    exact hv
  | string =>
    refine wellFormed_of_given .string fun v w hgiven hv h => ?_
    obtain ⟨s, rfl⟩ := toText_eq_ok (convert_string hgiven ▸ h)
    exact .text
  | number =>
    refine wellFormed_of_given .number fun v w hgiven hv h => ?_
    exact toNumber_wellFormed hv (convert_number hgiven ▸ h)
  | bool =>
    refine wellFormed_of_given .bool fun v w hgiven hv h => ?_
    obtain ⟨b, rfl⟩ := toBool_eq_ok (convert_bool hgiven ▸ h)
    exact .bool
  | list ht ih =>
    refine wellFormed_of_given (.list ht) fun v w hgiven hv h => ?_
    obtain ⟨vs, ws, hvs, hws, rfl⟩ := (convert_list_eq_ok hgiven).1 h
    refine .list fun w hw => ?_
    obtain ⟨u, hu, huw⟩ := exists_of_forall₂ hws hw
    exact ih u w (elements_over hv hvs u hu) huw
  | set ht ih =>
    refine wellFormed_of_given (.set ht) fun v w hgiven hv h => ?_
    obtain ⟨vs, ws, hvs, hws, rfl⟩ := (convert_set_eq_ok hgiven).1 h
    refine .set fun w hw => ?_
    obtain ⟨u, hu, huw⟩ := exists_of_forall₂ hws (mem_distinct hw)
    exact ih u w (elements_over hv hvs u hu) huw
  | map ht ih =>
    refine wellFormed_of_given (.map ht) fun v w hgiven hv h => ?_
    obtain ⟨es, fs, hes, hfs, rfl⟩ := (convert_map_eq_ok hgiven).1 h
    obtain ⟨hkeys, hvalues⟩ := entries_over hv hes
    have hsame : Entries.keys es = Entries.keys fs := by
      rw [← List.forall₂_eq_eq_eq, Entries.keys, Entries.keys, List.forall₂_map_left_iff,
        List.forall₂_map_right_iff]
      exact hfs.imp fun e f h => h.1.symm
    refine .map (hsame ▸ hkeys) fun f hf => ?_
    obtain ⟨e, he, -, hef⟩ := exists_of_forall₂ hfs hf
    exact ih e.2 f.2 (hvalues e he) hef
  | tuple hts ih =>
    refine wellFormed_of_given (.tuple hts) fun v w hgiven hv h => ?_
    obtain ⟨vs, ws, hvs, hlength, hws, rfl⟩ := (convert_tuple_eq_ok hgiven).1 h
    refine .tuple fun w hw => ?_
    obtain ⟨p, hp, hpw⟩ := exists_of_forall₂ hws hw
    exact ih p.1 (List.of_mem_zip hp).1 p.2 w (elements_over hv hvs p.2 (List.of_mem_zip hp).2) hpw
  | object hnames hfields ih =>
    refine wellFormed_of_given (.object hnames hfields) fun v w hgiven hv h => ?_
    obtain ⟨es, fs, hes, hfs, rfl⟩ := (convert_object_eq_ok hgiven).1 h
    have hkeys := names_eq_keys.2 (hfs.imp fun f e h => h.1)
    refine .object (hkeys ▸ hnames) fun e he => ?_
    obtain ⟨f, hf, -, u, hu, hue⟩ := exists_of_forall₂ hfs he
    exact ih f hf u e.2 (given?_over (entries_over hv hes).2 hu) hue

/-! ### First occurrences -/

/-- The elements that are equal to none before them. -/
def firsts (ws : List Value) : List Value :=
  (ws.zipIdx.filter fun e => !(ws.take e.2).any (·.same e.1)).map (·.1)

theorem firsts_concat (ws : List Value) (w : Value) :
    firsts (ws ++ [w]) = firsts ws ++ if ws.any (·.same w) then [] else [w] := by
  have hbefore : (ws.zipIdx.filter fun e => !((ws ++ [w]).take e.2).any (·.same e.1)) =
      ws.zipIdx.filter fun e => !(ws.take e.2).any (·.same e.1) := by
    refine List.filter_congr fun e he => ?_
    have hlt := List.snd_lt_of_mem_zipIdx he
    rw [List.take_append_of_le_length (by omega)]
  rw [firsts, List.zipIdx_append, List.filter_append, List.map_append, hbefore, ← firsts]
  congr 1
  cases hany : ws.any (·.same w) <;> simp [hany]

theorem distinct_concat (ws : List Value) (w : Value) :
    distinct (ws ++ [w]) = keep (distinct ws) w :=
  List.foldl_append

/-! ### Members -/

/-- Two values that are not equal, whichever comes first. -/
def Different (v w : Value) : Prop :=
  v.same w = false ∧ w.same v = false

theorem Different.symm {v w : Value} (h : Different v w) : Different w v :=
  ⟨h.2, h.1⟩

/-- Where members differ, no two of them are equal. -/
theorem eq_of_same {ms : List Value} (h : ms.Pairwise Different) {l m : Value} (hl : l ∈ ms)
    (hm : m ∈ ms) (hsame : l.same m = true) : l = m := by
  induction ms with
  | nil => cases hl
  | cons k rest ih =>
    obtain ⟨hk, hrest⟩ := List.pairwise_cons.1 h
    rcases List.mem_cons.1 hl with hlk | hlrest
    · rcases List.mem_cons.1 hm with hmk | hmrest
      · rw [hlk, hmk]
      · exact absurd (hlk ▸ hsame) (Bool.eq_false_iff.1 (hk m hmrest).1)
    · rcases List.mem_cons.1 hm with hmk | hmrest
      · exact absurd (hmk ▸ hsame) (Bool.eq_false_iff.1 (hk l hlrest).2)
      · exact ih hrest hlrest hmrest

/-- The members of two sets are the same up to equality and order. -/
def SameMembers (ms ls : List Value) : Prop :=
  ∃ ks, List.Forall₂ (fun m k => m.same k = true) ms ks ∧ ks.Perm ls

theorem SameMembers.length_eq {ms ls : List Value} (h : SameMembers ms ls) :
    ms.length = ls.length := by
  obtain ⟨ks, hks, hperm⟩ := h
  exact hks.length_eq.trans hperm.length_eq

section

variable {N : Number → Prop}

/-- Every element is equal to one that is kept. -/
theorem exists_kept {ws : List Value} (hws : ∀ w ∈ ws, w.Over N) :
    ∀ w ∈ ws, ∃ m ∈ distinct ws, m.same w = true := by
  induction ws using List.reverseRecOn with
  | nil => exact nofun
  | append_singleton ws u ih =>
    obtain ⟨hbefore, hu⟩ := List.forall_mem_append.1 hws
    have hu := hu u (List.mem_singleton_self u)
    intro w hw
    rw [distinct_concat, keep]
    rcases List.mem_append.1 hw with hw | hw
    · obtain ⟨m, hm, hsame⟩ := ih hbefore w hw
      split
      · exact ⟨m, hm, hsame⟩
      · exact ⟨m, List.mem_append_left _ hm, hsame⟩
    · rw [List.mem_singleton.1 hw]
      split
      · rename_i hany
        exact List.any_eq_true.1 hany
      · exact ⟨u, List.mem_append_right _ (List.mem_singleton_self u), same_refl hu⟩

theorem distinct_different {ws : List Value} (hws : ∀ w ∈ ws, w.Over N) :
    (distinct ws).Pairwise Different := by
  refine (distinct_pairwise ws).imp_of_mem fun {v w} hv hw hvw => ⟨hvw, ?_⟩
  rw [Bool.eq_false_iff] at hvw ⊢
  exact fun hwv => hvw (same_symm (hws w (mem_distinct hw)) (hws v (mem_distinct hv)) hwv)

variable (hN : ∀ n, N n → n.InRange) (hclash : ¬Number.Clash N)
include hN hclash

theorem any_distinct {ws : List Value} (hws : ∀ w ∈ ws, w.Over N) {w : Value} (hw : w.Over N) :
    (distinct ws).any (·.same w) = ws.any (·.same w) := by
  rw [Bool.eq_iff_iff, List.any_eq_true, List.any_eq_true]
  constructor
  · rintro ⟨m, hm, hsame⟩
    exact ⟨m, mem_distinct hm, hsame⟩
  · rintro ⟨u, hu, hsame⟩
    obtain ⟨m, hm, hmu⟩ := exists_kept hws u hu
    have hmover := hws m (mem_distinct hm)
    exact ⟨m, hm, same_trans hN hclash hmover (hws u hu) hw hmu hsame⟩

/-- What is kept is the first of each class. -/
theorem distinct_eq_firsts {ws : List Value} (hws : ∀ w ∈ ws, w.Over N) :
    distinct ws = firsts ws := by
  induction ws using List.reverseRecOn with
  | nil => rfl
  | append_singleton ws w ih =>
    obtain ⟨hbefore, hw⟩ := List.forall_mem_append.1 hws
    have hw := hw w (List.mem_singleton_self w)
    rw [distinct_concat, keep, any_distinct hN hclash hbefore hw, firsts_concat, ← ih hbefore]
    cases ws.any (·.same w) <;> simp

/-- An element is equal to one member only. -/
theorem existsUnique_kept {ws : List Value} (hws : ∀ w ∈ ws, w.Over N) {w : Value} (hw : w ∈ ws) :
    ∃! m, m ∈ distinct ws ∧ m.same w = true := by
  obtain ⟨m, hm, hmw⟩ := exists_kept hws w hw
  refine ⟨m, ⟨hm, hmw⟩, fun l hl => ?_⟩
  have hmover := hws m (mem_distinct hm)
  have hlover := hws l (mem_distinct hl.1)
  -- Both are equal to the element, hence to each other, but members differ.
  have hlm : l.same m = true :=
    same_trans hN hclash hlover (hws w hw) hmover hl.2 (same_symm hmover (hws w hw) hmw)
  exact eq_of_same (distinct_different hws) hl.1 hm hlm

/-- Sets in which no two members are equal have the same members if each member of one is equal to
one of the other. -/
theorem sameMembers_of_partners {ms ls : List Value} (hms : ∀ m ∈ ms, m.Over N)
    (hls : ∀ l ∈ ls, l.Over N) (hmsdiff : ms.Pairwise Different) (hlsdiff : ls.Pairwise Different)
    (hpartner : ∀ m ∈ ms, ∃ l ∈ ls, m.same l = true)
    (hback : ∀ l ∈ ls, ∃ m ∈ ms, m.same l = true) : SameMembers ms ls := by
  induction ms generalizing ls with
  | nil =>
    cases ls with
    | nil => exact ⟨[], .nil, .refl _⟩
    | cons l rest =>
      obtain ⟨m, hm, -⟩ := hback l List.mem_cons_self
      cases hm
  | cons m rest ih =>
    obtain ⟨hm, hrest⟩ := List.forall_mem_cons.1 hms
    obtain ⟨hmdiff, hrestdiff⟩ := List.pairwise_cons.1 hmsdiff
    obtain ⟨l, hl, hml⟩ := hpartner m List.mem_cons_self
    obtain ⟨before, after, rfl⟩ := List.append_of_mem hl
    have hperm : (before ++ l :: after).Perm (l :: (before ++ after)) := List.perm_middle
    have hlover := hls l hl
    obtain ⟨hldiff, hothersdiff⟩ :=
      List.pairwise_cons.1 ((hperm.pairwise_iff Different.symm).1 hlsdiff)
    have hothers : ∀ k ∈ before ++ after, k.Over N := fun k hk =>
      hls k (hperm.mem_iff.2 (List.mem_cons_of_mem _ hk))
    have hsame : SameMembers rest (before ++ after) := by
      refine ih hrest hothers hrestdiff hothersdiff (fun n hn => ?_) fun k hk => ?_
      · obtain ⟨k, hk, hnk⟩ := hpartner n (List.mem_cons_of_mem _ hn)
        rcases List.mem_cons.1 (hperm.mem_iff.1 hk) with rfl | hk
        · -- The partner of the first member is not free: two members would be equal.
          have hmn : m.same n = true := same_trans hN hclash hm hlover (hrest n hn) hml
            (same_symm (hrest n hn) hlover hnk)
          exact absurd hmn (Bool.eq_false_iff.1 (hmdiff n hn).1)
        · exact ⟨k, hk, hnk⟩
      · obtain ⟨n, hn, hnk⟩ := hback k (hperm.mem_iff.2 (List.mem_cons_of_mem _ hk))
        rcases List.mem_cons.1 hn with rfl | hn
        · have hlk : l.same k = true := same_trans hN hclash hlover hm (hothers k hk)
            (same_symm hm hlover hml) hnk
          exact absurd hlk (Bool.eq_false_iff.1 (hldiff k hk).1)
        · exact ⟨n, hn, hnk⟩
    obtain ⟨ks, hks, hksperm⟩ := hsame
    exact ⟨l :: ks, .cons hml hks, (hksperm.cons l).trans hperm.symm⟩

/-- The order of the elements makes no difference but to the order of the members. -/
theorem distinct_perm {us ws : List Value} (hws : ∀ w ∈ ws, w.Over N) (hperm : us.Perm ws) :
    SameMembers (distinct ws) (distinct us) := by
  have hus : ∀ u ∈ us, u.Over N := fun u hu => hws u (hperm.mem_iff.1 hu)
  refine sameMembers_of_partners hN hclash (fun m hm => hws m (mem_distinct hm))
    (fun l hl => hus l (mem_distinct hl)) (distinct_different hws) (distinct_different hus)
    (fun m hm => ?_) fun l hl => ?_
  · have hmus := hperm.mem_iff.2 (mem_distinct hm)
    obtain ⟨l, hl, hlm⟩ := exists_kept hus m hmus
    exact ⟨l, hl, same_symm (hus l (mem_distinct hl)) (hus m hmus) hlm⟩
  · exact exists_kept hws l (hperm.mem_iff.1 (mem_distinct hl))

end

/-! ### Sets -/

theorem convert_set_of_elements {t : Ty} {v : Value} {vs ws : List Value}
    (hvs : v.elements? = some vs) (hws : List.Forall₂ (fun v w => convert t v = .ok w) vs ws) :
    convert (.set t) v = .ok (.set (distinct ws)) := by
  have hgiven : v.isGiven = true := by cases v <;> cases hvs <;> rfl
  exact (convert_set_eq_ok hgiven).2 ⟨vs, ws, hvs, hws, rfl⟩

/-- Sets of elements with numbers of a class go by value: a set has the first of each class of equal
elements, no two of its members are equal, each element is equal to exactly one of them, and the
same elements in another order have the same members. -/
def SetsByValue (N : Number → Prop) : Prop :=
  ∀ (t : Ty) (v : Value) (vs ws : List Value), v.elements? = some vs →
    List.Forall₂ (fun v w => convert t v = .ok w) vs ws → (∀ w ∈ ws, w.Over N) →
    convert (.set t) v = .ok (.set (firsts ws)) ∧ (firsts ws).Pairwise Different ∧
      (∀ w ∈ ws, ∃! m, m ∈ firsts ws ∧ m.same w = true) ∧
      ∀ (u : Value) (us : List Value), u.elements? = some us → us.Perm vs →
        ∃ ms, convert (.set t) u = .ok (.set ms) ∧ SameMembers (firsts ws) ms

theorem convert_numbers (ns : List Number) :
    List.Forall₂ (fun v w => convert .number v = .ok w) (ns.map number) (ns.map number) := by
  refine List.forall₂_same.2 fun v hv => ?_
  obtain ⟨n, -, rfl⟩ := List.mem_map.1 hv
  exact convert_number rfl

theorem convert_set_numbers (ns : List Number) :
    convert (.set .number) (.tuple (ns.map number)) = .ok (.set (distinct (ns.map number))) :=
  convert_set_of_elements rfl (convert_numbers ns)

section

variable {N : Number → Prop} (hN : ∀ n, N n → n.InRange)
include hN

theorem setsByValue (hclash : ¬Number.Clash N) : SetsByValue N := by
  intro t v vs ws hvs hws hover
  rw [← distinct_eq_firsts hN hclash hover]
  refine ⟨convert_set_of_elements hvs hws, distinct_different hover,
    fun w hw => existsUnique_kept hN hclash hover hw, fun u us hus hperm => ?_⟩
  obtain ⟨xs, hxs, hxsperm⟩ := List.perm_comp_forall₂ hperm hws
  exact ⟨distinct xs, convert_set_of_elements hus hxs, distinct_perm hN hclash hover hxsperm⟩

/-- How numbers that clash compare. -/
theorem same_of_clash {m n : Int} {x : Dyadic} (hne : m ≠ n) (hm : N (.int m)) (hn : N (.int n))
    (hmx : (Number.int m).toReal = x.toRat) (hnx : (Number.int n).toReal = x.toRat) :
    (number (.int m)).same (number (.int n)) = false ∧
      (number (.int m)).same (number (.real x)) = true ∧
      (number (.real x)).same (number (.int m)) = true ∧
      (number (.real x)).same (number (.int n)) = true := by
  have hmx := Number.same_int_real.2 hmx
  have hnx := Number.same_int_real.2 hnx
  refine ⟨Bool.eq_false_iff.2 fun h => hne ((Number.same_int (hN _ hm) (hN _ hn)).1 h), hmx, ?_, ?_⟩
  · rwa [Number.same_comm] at hmx
  · rwa [Number.same_comm] at hnx

theorem not_transitive_of_clash (h : Number.Clash N) : ¬∀ u v w : Value,
    u.Over N → v.Over N → w.Over N → u.same v = true → v.same w = true → u.same w = true := by
  obtain ⟨m, n, x, hne, hm, hn, hx, hmx, hnx⟩ := h
  obtain ⟨hmn, hmx, -, hxn⟩ := same_of_clash hN hne hm hn hmx hnx
  intro htrans
  have hsame := htrans _ _ _ (.number hm) (.number hx) (.number hn) hmx hxn
  rw [hmn] at hsame
  cases hsame

/-- Numbers that clash make two members or one, depending on which comes first. -/
theorem not_setsByValue_of_clash (h : Number.Clash N) : ¬SetsByValue N := by
  obtain ⟨m, n, x, hne, hm, hn, hx, hmx, hnx⟩ := h
  obtain ⟨hmn, hmx, hxm, hxn⟩ := same_of_clash hN hne hm hn hmx hnx
  have hover : ∀ w ∈ [Number.int m, .int n, .real x].map number, w.Over N := by
    simp only [List.map_cons, List.map_nil, List.forall_mem_cons]
    exact ⟨.number hm, .number hn, .number hx, nofun⟩
  have htwo : distinct ([Number.int m, .int n, .real x].map number) =
      [Number.int m, .int n].map number := by
    simp [distinct, hmn, hmx]
  have hone : distinct ([Number.real x, .int m, .int n].map number) =
      [Number.real x].map number := by
    simp [distinct, hxm, hxn]
  have hrotate : [Number.real x, .int m, .int n].Perm [.int m, .int n, .real x] :=
    (List.perm_append_singleton (Number.real x) [.int m, .int n]).symm
  intro hsets
  obtain ⟨hfirsts, -, -, hother⟩ := hsets .number (.tuple _) _ _ rfl (convert_numbers _) hover
  obtain ⟨ms, hms, hsame⟩ := hother (.tuple _) _ rfl (hrotate.map number)
  rw [convert_set_numbers, htwo, Except.ok.injEq, Value.set.injEq] at hfirsts
  rw [convert_set_numbers, hone, Except.ok.injEq, Value.set.injEq] at hms
  rw [← hfirsts, ← hms] at hsame
  exact absurd hsame.length_eq (by simp)

/-- **Sets go by value unless a floating point number stands beside two integers that it equals.**
Equality of values is reflexive and symmetric. Over a class of numbers it is transitive just if no
two different integers of the class round to a floating point number of the class, and just then
conversion to a set keeps the first of each class of equal elements, with no two equal members and
each element equal to exactly one of them, and elements in another order give the same members.
Integers of 53 bits never clash. Values stay well-formed when they are converted, so this is about
all elements that conversion gives. -/
theorem set_members_iff :
    (∀ v : Value, v.Over N → v.same v = true) ∧
    (∀ v w : Value, v.Over N → w.Over N → v.same w = true → w.same v = true) ∧
    ((∀ u v w : Value, u.Over N → v.Over N → w.Over N → u.same v = true → v.same w = true →
      u.same w = true) ↔ ¬Number.Clash N) ∧
    (SetsByValue N ↔ ¬Number.Clash N) ∧
    ((∀ n, N (.int n) → n.natAbs < 2 ^ 53) → ¬Number.Clash N) ∧
    ∀ (t : Ty) (v w : Value), t.WellFormed → v.WellFormed → convert t v = .ok w →
      w.WellFormed := by
  refine ⟨fun v => same_refl, fun v w => same_symm, ⟨fun htrans h => ?_, fun hclash => ?_⟩,
    ⟨fun hsets h => ?_, setsByValue hN⟩, Number.not_clash,
    fun t v w ht => convert_wellFormed ht v w⟩
  · exact not_transitive_of_clash hN h htrans
  · exact fun u v w hu hv hw => same_trans hN hclash hu hv hw
  · exact not_setsByValue_of_clash hN h hsets

end

/-- Two ports, one of them given twice and once as text. -/
theorem set_members_iff_ports :
    let http : Value := .number (.int 80)
    let https : Value := .number (.int 443)
    convert (.set .number) (.tuple [.text "443", http, https]) = .ok (.set [https, http]) ∧
      (∃! m, m ∈ [https, http] ∧ m.same https = true) ∧
      ∃ ms, convert (.set .number) (.list [http, https, .text "443"]) = .ok (.set ms) ∧
        SameMembers [https, http] ms := by
  intro http https
  have hrange : ∀ n, n = Number.int 80 ∨ n = .int 443 → n.InRange := by
    rintro n (rfl | rfl)
    · exact (by decide : Number.isExact 80 = true)
    · exact (by decide : Number.isExact 443 = true)
  have hsmall : ∀ n, Number.int n = .int 80 ∨ Number.int n = .int 443 → n.natAbs < 2 ^ 53 := by
    rintro n (h | h) <;> cases h <;> decide
  obtain ⟨-, -, -, hsets, hclash, -⟩ := set_members_iff hrange
  have hconverted : List.Forall₂ (fun v w => convert .number v = .ok w)
      [.text "443", http, https] [https, http, https] :=
    .cons rfl (.cons rfl (.cons rfl .nil))
  have hover : ∀ w ∈ [https, http, https],
      w.Over fun n => n = Number.int 80 ∨ n = .int 443 := by
    simp only [List.forall_mem_cons]
    exact ⟨.number (.inr rfl), .number (.inl rfl), .number (.inr rfl), nofun⟩
  obtain ⟨hset, -, hunique, hother⟩ := hsets.2 (hclash hsmall) .number
    (.tuple [.text "443", http, https]) _ _ rfl hconverted hover
  have hfirsts : firsts [https, http, https] = [https, http] := rfl
  rw [hfirsts] at hset hunique hother
  refine ⟨hset, hunique https List.mem_cons_self, hother (.list _) _ rfl ?_⟩
  exact List.perm_append_singleton (.text "443") [http, https]

/-- The last two integers of 64 bits and the floating point number that both round to: in this order
they make one member, in another two. -/
theorem set_members_by_order :
    let last : Value := .number (.int 18446744073709551615)
    let next : Value := .number (.int 18446744073709551614)
    (convert (.set .number) (.tuple [.text "18446744073709551616", last, next])).toOption.map
        display = some "toset([1.8446744073709552e19])" ∧
      (convert (.set .number) (.tuple [last, next, .text "18446744073709551616"])).toOption.map
        display = some "toset([18446744073709551615, 18446744073709551614])" := by
  decide +kernel

end EarlyConfig.Value
