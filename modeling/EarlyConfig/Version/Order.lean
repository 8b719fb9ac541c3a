import EarlyConfig.Version.Basic

/-! The order of versions: by the three numbers, then by the pre-release, then by the build. It is a
linear order in which only equal versions compare equal. -/
namespace EarlyConfig.Version

/-! ### Identifiers -/

def isNumeric (id : String) : Bool :=
  id.toList.all Char.isDigit

def numericValue (id : String) : Nat :=
  if isNumeric id then Decimal.natOfDigits id.toList else 0

def numericWidth (id : String) : Nat :=
  if isNumeric id then id.length else 0

/-- Numbers come before words. Numbers compare by value and then by width, words as text. -/
def compareIdentifiers : String → String → Ordering :=
  compareLex (compareOn fun id => !isNumeric id)
    (compareLex (compareOn numericValue)
      (compareLex (compareOn numericWidth) (compareOn id)))

instance : Std.TransCmp compareIdentifiers :=
  inferInstanceAs (Std.TransCmp (compareLex _ _))

instance : Std.LawfulEqCmp compareIdentifiers where
  eq_of_compare h := by
    simp only [compareIdentifiers, compareLex, Ordering.then_eq_eq, compareOn] at h
    exact Std.LawfulEqCmp.eq_of_compare h.2.2.2

/-! ### Versions -/

/-- A pre-release comes before its release. Of two lists of identifiers with a common beginning the
shorter comes first. -/
protected def compare : Version → Version → Ordering :=
  compareLex (compareOn major)
    (compareLex (compareOn minor)
      (compareLex (compareOn patch)
        (compareLex (compareOn fun v => v.pre.isEmpty)
          (compareLex (fun v w => List.compareLex compareIdentifiers v.pre w.pre)
            (fun v w => List.compareLex compareIdentifiers v.build w.build)))))

instance : Ord Version := ⟨Version.compare⟩

instance : Std.LawfulEqOrd Version where
  eq_of_compare {v w} h := by
    change Version.compare v w = .eq at h
    simp only [Version.compare, compareLex, Ordering.then_eq_eq, compareOn] at h
    obtain ⟨hmajor, hminor, hpatch, -, hpre, hbuild⟩ := h
    cases v
    cases w
    simp_all [Std.LawfulEqCmp.compare_eq_iff_eq]
  compare_self {v} := by
    change Version.compare v v = .eq
    simp [Version.compare, compareLex, compareOn, Std.ReflCmp.compare_self]

instance : LT Version := ⟨fun v w => compare v w = .lt⟩

instance : LE Version := ⟨fun v w => (compare v w).isLE⟩

instance (v w : Version) : Decidable (v < w) :=
  inferInstanceAs (Decidable (compare v w = .lt))

instance (v w : Version) : Decidable (v ≤ w) :=
  inferInstanceAs (Decidable ((compare v w).isLE = true))

end EarlyConfig.Version
