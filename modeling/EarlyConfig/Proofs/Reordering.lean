import EarlyConfig.Proofs.LookUps
import Mathlib.Data.List.Nodup
import Mathlib.Data.List.Perm.Basic

/-! Lists in another order. Parts that come from one element only do not notice the order of the
elements (`flatMap_eq_of_perm`). A map that is filled from a list does not notice the order either,
if each key has its entries in one place (`SortedMap.ofList_flatMap_eq_of_perm`) or all entries of a
key agree (`SortedMap.ofList_eq_of_perm`). What is put together from a list with one entry for each
key depends on the look-ups alone, up to order (`Entries.flatMap_perm_of_get?`). -/
namespace EarlyConfig

theorem flatMap_eq_of_perm {α β : Type} {f : α → List β} {xs ys : List α} (hperm : xs.Perm ys)
    (h : xs.Pairwise fun x y => f x = [] ∨ f y = []) : xs.flatMap f = ys.flatMap f := by
  induction hperm with
  | nil => rfl
  | cons x _ ih => rw [List.flatMap_cons, List.flatMap_cons, ih h.of_cons]
  | swap x y rest =>
    rcases (List.pairwise_cons.1 h).1 x (List.mem_cons_self ..) with hnil | hnil <;>
      simp [hnil]
  | trans hfirst _ ih₁ ih₂ => rw [ih₁ h, ih₂ (hfirst.pairwise h Or.symm)]

namespace Entries

variable {κ α β γ : Type} [DecidableEq κ]

theorem under_flatMap (k : κ) (f : γ → List (κ × α)) (xs : List γ) :
    under k (xs.flatMap f) = xs.flatMap fun x => under k (f x) := by
  simp [under, List.filterMap_flatMap]

theorem under_perm {es fs : List (κ × α)} (h : es.Perm fs) (k : κ) :
    (under k es).Perm (under k fs) :=
  h.filterMap _

/-- With one entry for each key, entries that look up the same are the same in some order. -/
theorem perm_iff_get? {es fs : List (κ × α)} (hes : (keys es).Nodup) (hfs : (keys fs).Nodup) :
    es.Perm fs ↔ ∀ k, get? k es = get? k fs := by
  have hmem : ∀ {gs : List (κ × α)}, (keys gs).Nodup → ∀ e, e ∈ gs ↔ get? e.1 gs = some e.2 :=
    fun hgs e => ⟨get?_of_mem hgs, mem_of_get?⟩
  constructor
  · intro h k
    refine Option.ext fun a => ?_
    exact (hmem hes (k, a)).symm.trans (h.mem_iff.trans (hmem hfs (k, a)))
  · intro h
    rw [List.perm_ext_iff_of_nodup (List.Nodup.of_map _ hes) (List.Nodup.of_map _ hfs)]
    intro e
    rw [hmem hes, hmem hfs, h]

/-- With one entry for each key, going through the entries is going through the keys. -/
theorem flatMap_eq_flatMap_keys {es : List (κ × α)} (hes : (keys es).Nodup)
    (f : κ × α → List β) :
    es.flatMap f = (keys es).flatMap fun k => ((get? k es).map fun a => f (k, a)).getD [] := by
  rw [keys, List.flatMap_map]
  refine List.flatMap_congr fun e he => ?_
  rw [get?_of_mem hes (a := e.2) he]
  rfl

theorem flatMap_perm_of_get? {R : α → α → Prop} {es fs : List (κ × α)} (hes : (keys es).Nodup)
    (hfs : (keys fs).Nodup) (h : ∀ k, Option.Rel R (get? k es) (get? k fs)) {f : κ × α → List β}
    (hf : ∀ k a b, R a b → (f (k, a)).Perm (f (k, b))) : (es.flatMap f).Perm (fs.flatMap f) := by
  have hkeys : (keys es).Perm (keys fs) := by
    refine (List.perm_ext_iff_of_nodup hes hfs).2 fun k => ?_
    have hk := h k
    rw [mem_keys, mem_keys]
    generalize get? k es = x, get? k fs = y at hk
    cases hk <;> simp
  rw [flatMap_eq_flatMap_keys hes, flatMap_eq_flatMap_keys hfs]
  refine hkeys.flatMap fun k _ => ?_
  have hk := h k
  generalize get? k es = x, get? k fs = y at hk
  cases hk with
  | none => exact .refl _
  | some hab => exact hf k _ _ hab

end Entries

namespace SortedMap

variable {κ α γ : Type} [Ord κ] [Std.LawfulEqOrd κ] [Std.TransOrd κ] [DecidableEq κ]

/-- Each key has its entries in one place. -/
theorem ofList_flatMap_eq_of_perm {f : γ → List (κ × α)} {xs ys : List γ} (hperm : xs.Perm ys)
    (h : xs.Pairwise fun x y => (Entries.keys (f x)).Disjoint (Entries.keys (f y))) :
    ofList (xs.flatMap f) = ofList (ys.flatMap f) := by
  refine ext fun k => ?_
  rw [get?_ofList, get?_ofList, Entries.under_flatMap, Entries.under_flatMap,
    flatMap_eq_of_perm hperm]
  refine h.imp fun hdisjoint => ?_
  simp only [Entries.under_eq_nil]
  by_contra hboth
  rw [not_or, not_not, not_not] at hboth
  exact hdisjoint hboth.1 hboth.2

/-- All entries of a key agree. -/
theorem ofList_eq_of_perm {es fs : List (κ × α)} (hperm : es.Perm fs)
    (h : ∀ k a b, (k, a) ∈ es → (k, b) ∈ es → a = b) : ofList es = ofList fs := by
  refine ext fun k => ?_
  rw [get?_ofList, get?_ofList]
  have hunder := Entries.under_perm hperm k
  cases hlast : (Entries.under k fs).getLast? with
  | none =>
    rw [List.getLast?_eq_none_iff] at hlast ⊢
    rw [hlast] at hunder
    exact hunder.eq_nil
  | some b =>
    have hb : b ∈ Entries.under k es := hunder.mem_iff.2 (List.mem_of_getLast? hlast)
    obtain ⟨a, ha⟩ := Option.ne_none_iff_exists'.1
      (mt List.getLast?_eq_none_iff.1 (List.ne_nil_of_mem hb))
    rw [ha, h k a b (Entries.mem_under.1 (List.mem_of_getLast? ha)) (Entries.mem_under.1 hb)]

end SortedMap

end EarlyConfig
