import EarlyConfig.Proofs.VersionOrder
import EarlyConfig.Proofs.VersionTexts
import EarlyConfig.Version.Constraint

/-! Which versions a constraint accepts. An operator compares by the order of versions
(`accepts_iff`), so a set of constraints accepts everything between two versions that it accepts,
unless it singles out a version with `!=` (`accepts_between`). The pessimistic operator keeps the
first of the numbers that are written, and the first of all in any case
(`pessimistic_iff`). -/
namespace EarlyConfig

theorem Text.after?_eq_some {mark cs rest : List Char} :
    after? mark cs = some rest ↔ cs = mark ++ rest := by
  unfold after?
  constructor
  · intro h
    split at h
    · rename_i hstart
      obtain ⟨after, rfl⟩ := List.isPrefixOf_iff_prefix.1 hstart
      rw [List.drop_left] at h
      rw [Option.some.inj h]
    · cases h
  · intro h
    have hstart : mark.isPrefixOf cs = true := by
      rw [List.isPrefixOf_iff_prefix, h]
      exact List.prefix_append mark rest
    rw [if_pos hstart, h, List.drop_left]

/-- One to three numbers are written. -/
theorem Version.Spells.count {s : String} {v : Version} {count : Nat} (h : Spells s v count) :
    0 < count ∧ count ≤ 3 := by
  obtain ⟨-, hcore, -, -, -⟩ := h
  obtain ⟨texts, hsome, hfew, hnumbers, -⟩ := hcore
  rw [← hnumbers.length_eq]
  exact ⟨List.length_pos_iff.2 hsome, hfew⟩

namespace Constraint

/-! ### Operators -/

/-- How many numbers of the version a pessimistic constraint keeps. -/
def kept (x : Constraint) : Nat :=
  if x.segments ≤ 2 then 1 else 2

/-- What an operator asks of a version `w` that stands on its left, with `c` on its right; the
pessimistic one keeps the first `n` numbers. -/
def Operator.Holds (w c : Version) (n : Nat) : Operator → Prop
  | .equal => w = c
  | .notEqual => w ≠ c
  | .greater => c.Before w
  | .greaterEqual => ¬w.Before c
  | .less => w.Before c
  | .lessEqual => ¬c.Before w
  | .pessimistic => ¬w.Before c ∧ Version.Agree n w c

theorem agree_kept (x : Constraint) (w : Version) :
    Version.Agree x.kept w x.version ↔
      w.major = x.version.major ∧ (x.segments ≤ 2 ∨ w.minor = x.version.minor) := by
  unfold kept
  split
  · rename_i hfew
    rw [Version.agree_one, and_iff_left (.inl hfew)]
  · rename_i hmany
    rw [Version.agree_two, or_iff_right hmany]

theorem accepts_iff {x : Constraint} {w : Version} :
    x.accepts w ↔ x.operator.Holds w x.version x.kept := by
  unfold accepts
  cases x.operator with
  | equal => simp [Operator.Holds]
  | notEqual => simp [Operator.Holds]
  | greater => simp [Operator.Holds, Version.lt_iff]
  | greaterEqual => simp [Operator.Holds, Version.not_before]
  | less => simp [Operator.Holds, Version.lt_iff]
  | lessEqual => simp [Operator.Holds, Version.not_before]
  | pessimistic =>
    simp only [Operator.Holds, Version.not_before, agree_kept, Bool.and_eq_true, Bool.or_eq_true,
      decide_eq_true_eq, and_assoc]

/-- Every operator but `!=` holds between two versions for which it holds. -/
theorem Operator.Holds.between {op : Operator} (hop : op ≠ .notEqual) {a b d c : Version} {n : Nat}
    (hab : a ≤ b) (hbd : b ≤ d) (ha : op.Holds a c n) (hd : op.Holds d c n) : op.Holds b c n := by
  cases op with
  | equal =>
    obtain rfl : a = c := ha
    obtain rfl : d = a := hd
    exact Version.le_antisymm hbd hab
  | notEqual => exact absurd rfl hop
  | greater => exact Version.Before.trans_le ha hab
  | greaterEqual => exact Version.not_before.2 (Version.le_trans (Version.not_before.1 ha) hab)
  | less => exact Version.before_of_le_of_before hbd hd
  | lessEqual => exact Version.not_before.2 (Version.le_trans hbd (Version.not_before.1 hd))
  | pessimistic =>
    have hcb : c ≤ b := Version.le_trans (Version.not_before.1 ha.1) hab
    exact ⟨Version.not_before.2 hcb, Version.Agree.between hd.2.symm hcb hbd⟩

/-- The three comparisons leave no version out and share none. -/
theorem existsUnique_comparison (w c : Version) (n : Operator → Nat) :
    ∃! op : Operator, op ∈ [.less, .equal, .greater] ∧ op.Holds w c (n op) := by
  have hmem : ∀ op : Operator, op ∈ [.less, .equal, .greater] ↔
      op = .less ∨ op = .equal ∨ op = .greater := by simp
  simp only [hmem]
  rcases Version.before_trichotomy w c with hlt | rfl | hgt
  · refine ⟨.less, ⟨.inl rfl, hlt⟩, ?_⟩
    intro op hop
    obtain ⟨rfl | rfl | rfl, h⟩ := hop
    · rfl
    · exact absurd (h ▸ hlt) (Version.before_irrefl c)
    · exact absurd h hlt.asymm
  · refine ⟨.equal, ⟨.inr (.inl rfl), rfl⟩, ?_⟩
    intro op hop
    obtain ⟨rfl | rfl | rfl, h⟩ := hop
    · exact absurd h (Version.before_irrefl w)
    · rfl
    · exact absurd h (Version.before_irrefl w)
  · refine ⟨.greater, ⟨.inr (.inr rfl), hgt⟩, ?_⟩
    intro op hop
    obtain ⟨rfl | rfl | rfl, h⟩ := hop
    · exact absurd h hgt.asymm
    · exact absurd (h ▸ hgt) (Version.before_irrefl c)
    · rfl

/-- Operators that ask for the opposite accept the opposite. -/
theorem accepts_eq_not {x y : Constraint} {w : Version}
    (h : x.operator.Holds w x.version x.kept ↔ ¬y.operator.Holds w y.version y.kept) :
    x.accepts w = !y.accepts w := by
  rw [← accepts_iff, ← accepts_iff, Bool.not_eq_true, ← Bool.not_eq_true'] at h
  exact Bool.eq_iff_iff.2 h

end Constraint

namespace Constraints

open Constraint (Operator)

theorem accepts_iff_forall {cs : Constraints} {w : Version} :
    cs.accepts w ↔ ∀ x ∈ cs, x.operator.Holds w x.version x.kept := by
  simp only [accepts, List.all_eq_true, Constraint.accepts_iff]

theorem accepts_between {cs : Constraints} (h : ∀ x ∈ cs, x.operator ≠ .notEqual)
    {a b d : Version} (hab : a ≤ b) (hbd : b ≤ d) (ha : cs.accepts a) (hd : cs.accepts d) :
    cs.accepts b := by
  rw [accepts_iff_forall] at ha hd ⊢
  exact fun x hx => .between (h x hx) hab hbd (ha x hx) (hd x hx)

/-- **Operators compare by the order of versions.** The order is the one that goes by the numbers,
the pre-release and the build. However constraints on one version are written, of `<`, `=` and `>`
just one accepts a given version, which is the one that says how the two compare, and `!=`, `>=` and
`<=` accept what `=`, `<` and `>` reject. A set without `!=` accepts all that lies between two
versions that it accepts. -/
theorem accepts_by_order :
    (∀ v w : Version, v ≤ w ↔ v = w ∨ v.Before w) ∧
    (∀ (c w : Version) (segments : Operator → Nat) (text : Operator → String),
      let on (op : Operator) : Constraint := ⟨op, c, segments op, text op⟩
      ((on .less).accepts w ↔ w.Before c) ∧
      ((on .equal).accepts w ↔ w = c) ∧
      ((on .greater).accepts w ↔ c.Before w) ∧
      (∃! op, op ∈ [.less, .equal, .greater] ∧ (on op).accepts w) ∧
      (on .notEqual).accepts w = !(on .equal).accepts w ∧
      (on .greaterEqual).accepts w = !(on .less).accepts w ∧
      (on .lessEqual).accepts w = !(on .greater).accepts w) ∧
    ∀ cs : Constraints, (∀ x ∈ cs, x.operator ≠ .notEqual) → ∀ a b d : Version, a ≤ b → b ≤ d →
      cs.accepts a → cs.accepts d → cs.accepts b := by
  refine ⟨fun v w => Version.le_iff, ?_, fun cs h a b d => accepts_between h⟩
  intro c w segments text on
  refine ⟨Constraint.accepts_iff, Constraint.accepts_iff, Constraint.accepts_iff, ?_, ?_, ?_, ?_⟩
  · simp only [Constraint.accepts_iff]
    exact Constraint.existsUnique_comparison w c fun op => (on op).kept
  · exact Constraint.accepts_eq_not Iff.rfl
  · exact Constraint.accepts_eq_not Iff.rfl
  · exact Constraint.accepts_eq_not Iff.rfl

/-- A pre-release and builds with different zeros in front lie inside the interval of a set. -/
theorem accepts_by_order_between :
    let cs : Constraints := [⟨.greaterEqual, ⟨1, 2, 0, ["rc", "9"], []⟩, 2, ">= 1.2-rc.9"⟩,
      ⟨.pessimistic, ⟨1, 2, 0, [], []⟩, 2, "~> 1.2"⟩]
    let low : Version := ⟨1, 2, 0, [], ["2"]⟩
    let high : Version := ⟨1, 9, 0, [], []⟩
    cs.accepts low ∧ cs.accepts high ∧ cs.accepts ⟨1, 2, 0, [], ["02"]⟩ ∧
      cs.accepts ⟨1, 9, 0, ["rc", "10"], []⟩ := by
  intro cs low high
  obtain ⟨-, -, hbetween⟩ := accepts_by_order
  have hoperators : ∀ x ∈ cs, x.operator ≠ .notEqual := by decide
  have hlow : cs.accepts low := by decide
  have hhigh : cs.accepts high := by decide
  refine ⟨hlow, hhigh, ?_, ?_⟩
  · exact hbetween cs hoperators low _ high (by decide) (by decide) hlow hhigh
  · exact hbetween cs hoperators low _ high (by decide) (by decide) hlow hhigh

end Constraints

namespace Constraint

/-! ### The pessimistic operator -/

/-- The text is the operator and what follows it. Only equality may be left out. -/
theorem eq_of_split {cs rest : List Char} {op : Operator} (h : Operator.split cs = (op, rest)) :
    cs = op.text.toList ++ rest ∨ op = .equal := by
  unfold Operator.split at h
  dsimp only at h
  cases hfound : Operator.all.findSome? fun op =>
      (Text.after? op.text.toList cs).map fun rest => (op, rest) with
  | none =>
    rw [hfound] at h
    cases h
    exact .inr rfl
  | some found =>
    rw [hfound] at h
    obtain rfl : found = (op, rest) := h
    obtain ⟨op', -, hafter⟩ := List.exists_of_findSome?_eq_some hfound
    obtain ⟨rest', hrest, heq⟩ := Option.map_eq_some_iff.1 hafter
    cases heq
    exact .inl (Text.after?_eq_some.1 hrest)

/-- The pessimistic operator is looked for before all others. -/
theorem split_pessimistic (rest : List Char) :
    Operator.split ("~>".toList ++ rest) = (.pessimistic, rest) := rfl

theorem read_eq_ok {s : String} {x : Constraint} {op : Operator} {rest : List Char}
    (hsplit : Operator.split (Text.trim s).toList = (op, rest)) :
    read s = .ok x ↔ x.operator = op ∧ x.text = Text.trim s ∧
      Version.Spells (Text.trim (String.ofList rest)) x.version x.segments := by
  unfold read
  simp only [hsplit, ← Version.read_eq_ok]
  cases Version.read (Text.trim (String.ofList rest)) with
  | error e => simp
  | ok r =>
    obtain ⟨v, count⟩ := r
    obtain ⟨operator, version, segments, text⟩ := x
    simp only [Except.ok.injEq, Constraint.mk.injEq, Prod.mk.injEq]
    constructor
    · intro h
      obtain ⟨rfl, rfl, rfl, rfl⟩ := h
      exact ⟨rfl, rfl, rfl, rfl⟩
    · intro h
      obtain ⟨rfl, rfl, rfl, rfl⟩ := h
      exact ⟨rfl, rfl, rfl, rfl⟩

/-- A text of a pessimistic constraint on a version of which `count` numbers are written. Blanks may
stand around the text and before the version. -/
def SpellsPessimistic (s : String) (v : Version) (count : Nat) : Prop :=
  ∃ rest, Text.trim s = "~>" ++ rest ∧ Version.Spells (Text.trim rest) v count

theorem SpellsPessimistic.read_eq {s : String} {v : Version} {count : Nat}
    (h : SpellsPessimistic s v count) :
    read s = .ok ⟨.pessimistic, v, count, Text.trim s⟩ := by
  obtain ⟨rest, htext, hspells⟩ := h
  have hsplit : Operator.split (Text.trim s).toList = (.pessimistic, rest.toList) := by
    rw [htext, String.toList_append]
    exact split_pessimistic rest.toList
  rw [read_eq_ok hsplit, String.ofList_toList]
  exact ⟨rfl, rfl, hspells⟩

theorem spellsPessimistic_of_read {s : String} {x : Constraint} (hread : read s = .ok x)
    (hop : x.operator = .pessimistic) : SpellsPessimistic s x.version x.segments := by
  cases hsplit : Operator.split (Text.trim s).toList with
  | mk op rest =>
    obtain ⟨hop', -, hspells⟩ := (read_eq_ok hsplit).1 hread
    obtain rfl : op = .pessimistic := hop'.symm.trans hop
    have htext : (Text.trim s).toList = "~>".toList ++ rest :=
      (eq_of_split hsplit).resolve_right nofun
    refine ⟨String.ofList rest, ?_, hspells⟩
    rw [← String.toList_inj, htext, String.toList_append]
    exact congrArg ("~>".toList ++ ·) String.toList_ofList.symm

theorem SpellsPessimistic.count {s : String} {v : Version} {count : Nat}
    (h : SpellsPessimistic s v count) : 0 < count ∧ count ≤ 3 := by
  obtain ⟨rest, -, hversion⟩ := h
  exact hversion.count

/-- Of the numbers that are written the last may increase, but if it is the only one it may not. -/
theorem kept_eq {x : Constraint} (hsome : 0 < x.segments) (hfew : x.segments ≤ 3) :
    x.kept = max 1 (x.segments - 1) := by
  unfold kept
  split <;> omega

theorem accepts_pessimistic_iff {x : Constraint} (h : x.operator = .pessimistic) (w : Version) :
    x.accepts w ↔ x.version ≤ w ∧ Version.Agree x.kept w x.version := by
  rw [accepts_iff, h]
  exact and_congr_left' Version.not_before

/-- A version that comes no later has no greater first number. -/
theorem agree_one_iff {v w : Version} :
    (v ≤ w ∧ Version.Agree 1 w v ↔ v ≤ w) ↔ w.major ≤ v.major := by
  rw [and_iff_left_iff_imp, Version.agree_one]
  constructor
  · intro h
    by_cases hle : v ≤ w
    · exact Nat.le_of_eq (h hle)
    · have hbefore := Version.le_iff.2 (.inr (not_not.1 (mt Version.not_before.1 hle)))
      have hnumbers := Version.le_numbers hbefore
      omega
  · intro h hle
    have hnumbers := Version.le_numbers hle
    omega

/-- **A pessimistic constraint keeps all numbers but the last that is written, and always the
first.** The texts that are read as such constraints are those with the mark in front of a version,
of which one to three numbers are written. The constraint accepts the versions from the one written
on that agree with it on the numbers it keeps. So the last number that is written may increase, just
unless it is the only one. -/
theorem pessimistic_iff (s : String) :
    (∀ v count, SpellsPessimistic s v count ↔
      read s = .ok ⟨.pessimistic, v, count, Text.trim s⟩) ∧
    ∀ x, read s = .ok x → x.operator = .pessimistic →
      SpellsPessimistic s x.version x.segments ∧ x.segments ∈ [1, 2, 3] ∧ ∀ w : Version,
        (x.accepts w ↔ x.version ≤ w ∧ Version.Agree (max 1 (x.segments - 1)) w x.version) ∧
        ((x.accepts w ↔ x.version ≤ w ∧ Version.Agree (x.segments - 1) w x.version) ↔
          x.segments ≠ 1 ∨ w.major ≤ x.version.major) := by
  refine ⟨fun v count => ⟨SpellsPessimistic.read_eq, fun h => spellsPessimistic_of_read h rfl⟩, ?_⟩
  intro x hread hop
  have hspells := spellsPessimistic_of_read hread hop
  obtain ⟨hsome, hfew⟩ := hspells.count
  have haccepts := accepts_pessimistic_iff hop
  rw [kept_eq hsome hfew] at haccepts
  refine ⟨hspells, ?_, fun w => ⟨haccepts w, ?_⟩⟩
  · simp only [List.mem_cons, List.not_mem_nil, or_false]
    omega
  · by_cases hone : x.segments = 1
    · have hnone : x.version ≤ w ∧ Version.Agree (x.segments - 1) w x.version ↔ x.version ≤ w := by
        rw [hone]
        exact and_iff_left rfl
      rw [haccepts w, hnone, hone, or_iff_right (not_not.2 rfl)]
      exact agree_one_iff
    · have hsame : max 1 (x.segments - 1) = x.segments - 1 := by omega
      rw [haccepts w, hsame]
      exact iff_of_true Iff.rfl (.inl hone)

/-- Two numbers are written, so the second may increase and the first may not. -/
theorem pessimistic_iff_two :
    let v : Version := ⟨1, 2, 0, ["beta"], []⟩
    ∃ x, read " ~> v1.2-beta " = .ok x ∧ x.operator = .pessimistic ∧ x.version = v ∧
      x.segments = 2 ∧ (∀ w, x.accepts w ↔ v ≤ w ∧ w.major = 1) := by
  intro v
  have hread : read " ~> v1.2-beta " = .ok ⟨.pessimistic, v, 2, "~> v1.2-beta"⟩ := by
    with_unfolding_all rfl
  obtain ⟨-, hall⟩ := pessimistic_iff " ~> v1.2-beta "
  obtain ⟨-, -, haccepts⟩ := hall _ hread rfl
  refine ⟨_, hread, rfl, rfl, rfl, fun w => ?_⟩
  rw [(haccepts w).1]
  exact and_congr_right fun _ => Version.agree_one

/-- The only number that is written does not increase. -/
theorem pessimistic_one_number :
    let x : Constraint := ⟨.pessimistic, ⟨1, 0, 0, [], []⟩, 1, "~> 1"⟩
    let w : Version := ⟨2, 0, 0, [], []⟩
    read "~> 1" = .ok x ∧ x.version ≤ w ∧ Version.Agree (x.segments - 1) w x.version ∧
      x.accepts w = false := by
  intro x w
  have hread : read "~> 1" = .ok x := by with_unfolding_all rfl
  exact ⟨hread, by decide, by decide, by decide⟩

end Constraint

end EarlyConfig
