import LoxLexer.Decimal.Shortest
import LoxLexer.Proofs.Decimal.Value

/-!
# The shortest decimal reads back

Whatever grid the search for the shortest decimal of a magnitude ends on, the decimal it finds has
that magnitude as its nearest one (`Magnitude.nearest?_shortest`).
-/
namespace LoxLexer

theorem roundHalfEven_cases (num den : Nat) :
    roundHalfEven num den = num / den ∨ roundHalfEven num den = num / den + 1 := by
  have hlow := div_le_roundHalfEven num den
  have hhigh := roundHalfEven_le num den
  omega

namespace Decimal

theorem value_trimmed (d : Decimal) : d.trimmed.value = d.value := by
  fun_induction trimmed d with
  | case1 d h ih =>
    have hdigits : d.coefficient = d.coefficient / 10 * 10 := by omega
    rw [ih, value, value]
    conv_rhs => rw [hdigits]
    push_cast
    rw [zpow_add₀ (by norm_num), zpow_one]
    ring
  | case2 d h => rfl

theorem nearest?_of_coefficient_eq_zero {d : Decimal} (h : d.coefficient = 0) :
    d.nearest? = some Magnitude.zero := by
  rw [nearest?, ← Magnitude.nearest?_units]
  refine Magnitude.nearest?_congr d.denominator_pos Nat.one_pos ?_
  simp [numerator, h, Magnitude.units, Magnitude.zero]

end Decimal

namespace Magnitude

variable {x : Magnitude} {grid : Int} {d : Decimal}

theorem readsBack_iff : x.readsBack d = true ↔ d.nearest? = some x := decide_eq_true_iff

/-- What is chosen reads back if the nearer neighbour is one of the two. -/
theorem nearest?_choose {below above nearer : Decimal} (hnearer : nearer = below ∨ nearer = above)
    (h : choose below above nearer (x.readsBack below) (x.readsBack above) = some d) :
    d.nearest? = some x := by
  rw [← readsBack_iff]
  cases hbelow : x.readsBack below <;> cases habove : x.readsBack above <;>
    rw [hbelow, habove] at h <;> cases h
  · exact habove
  · exact hbelow
  · obtain rfl | rfl := hnearer
    · exact hbelow
    · exact habove

theorem nearest?_onGrid? (h : x.onGrid? grid = some d) : d.nearest? = some x := by
  refine nearest?_choose ?_ h
  obtain hround | hround := roundHalfEven_cases (x.units * tenPow (-grid).toNat)
    (twoPow 1074 * tenPow grid.toNat)
  · exact .inl (congrArg (Decimal.mk · grid) hround)
  · exact .inr (congrArg (Decimal.mk · grid) hround)

/-- The grid of `10 ^ -places` holds every multiple of `2 ^ -places`. -/
theorem nearest?_multiple (x : Magnitude) (places : Nat)
    (h : d = ⟨x.units * Nat.pow 5 places, -places⟩) :
    nearest? (d.numerator * twoPow places) d.denominator = some x := by
  rw [← x.nearest?_units]
  refine nearest?_congr d.denominator_pos Nat.one_pos ?_
  have hpow : 5 ^ places * 2 ^ places = 10 ^ places := (Nat.mul_pow 5 2 places).symm
  simp [h, Decimal.numerator, Decimal.denominator, tenPow, twoPow, Nat.mul_assoc, hpow]

theorem nearest?_finest (x : Magnitude) (h : d = ⟨x.units * Nat.pow 5 1074, -1074⟩) :
    d.nearest? = some x :=
  x.nearest?_multiple 1074 h

theorem nearest?_firstOnGrids (x : Magnitude) (grid : Int) (finer : Nat) :
    (x.firstOnGrids grid finer).nearest? = some x := by
  induction finer generalizing grid with
  | zero =>
    rw [firstOnGrids]
    cases h : x.onGrid? grid with
    | none => exact x.nearest?_finest rfl
    | some d => exact nearest?_onGrid? h
  | succ finer ih =>
    rw [firstOnGrids]
    cases h : x.onGrid? grid with
    | none => exact ih (grid - 1)
    | some d => exact nearest?_onGrid? h

/-- The shortest decimal of a magnitude reads back as that magnitude. -/
theorem nearest?_shortest (x : Magnitude) : x.shortest.nearest? = some x := by
  rw [shortest]
  split
  · rename_i h
    rw [h]
    exact Decimal.nearest?_of_coefficient_eq_zero rfl
  · rw [Decimal.nearest?_eq_of_value_eq (Decimal.value_trimmed _), nearest?_firstOnGrids]

/-- Only zero has a shortest decimal without a digit other than zero. -/
theorem coefficient_shortest_eq_zero_iff : x.shortest.coefficient = 0 ↔ x = zero := by
  constructor
  · intro h
    have hzero := Decimal.nearest?_of_coefficient_eq_zero h
    rw [nearest?_shortest] at hzero
    exact Option.some.inj hzero
  · rintro rfl
    rfl

theorem shortest_of_coefficient_eq_zero (h : x.shortest.coefficient = 0) : x.shortest = ⟨0, 0⟩ := by
  rw [shortest, if_pos (coefficient_shortest_eq_zero_iff.mp h)]

end Magnitude

theorem Binary64.ofDecimal_eq_finite_iff {s t : Bool} {d : Decimal} {x : Magnitude} :
    ofDecimal s d = finite t x ↔ s = t ∧ d.nearest? = some x := by
  rw [ofDecimal]
  cases d.nearest? <;> simp

/-- The shortest decimal of a finite double denotes that double. -/
theorem Binary64.ofDecimal_shortest (negative : Bool) (x : Magnitude) :
    ofDecimal negative x.shortest = finite negative x :=
  ofDecimal_eq_finite_iff.mpr ⟨rfl, x.nearest?_shortest⟩

end LoxLexer
