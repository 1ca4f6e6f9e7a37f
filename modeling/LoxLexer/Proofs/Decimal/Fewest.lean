import LoxLexer.Proofs.Decimal.ReadBack
import LoxLexer.Proofs.Decimal.Rounded
import Mathlib.Algebra.Order.Floor.Semifield
import Mathlib.Data.List.DropRight
import Mathlib.Data.Rat.Floor

/-!
# The fewest digits

The significant digits of a decimal are counted without the zeros in front of and behind them, so
their number depends on nothing but the number that the decimal denotes
(`Decimal.significantDigits_le_iff`). The decimals that read back as a magnitude have no gaps
(`Decimal.nearest?_of_between`), and so a grid of decimals holds one of them just if one of the two
neighbours of the magnitude on it reads back. The first hit of a search from coarse grids to fine
ones has the fewest significant digits of all (`Magnitude.significantDigits_shortest_le`).
-/
namespace LoxLexer

namespace Decimal

variable {d e : Decimal}

/-- How many digits a decimal has, without the zeros at the end; zero has none. -/
def significantDigits (d : Decimal) : ℕ :=
  ((Nat.toDigits 10 d.coefficient).rdropWhile (· = '0')).length

theorem value_mk (coefficient : ℕ) (exponent : ℤ) :
    value ⟨coefficient, exponent⟩ = coefficient * 10 ^ exponent := rfl

/-- Moving zeros from the exponent to the coefficient. -/
theorem value_shift (coefficient zeros : ℕ) (exponent : ℤ) :
    value ⟨coefficient * 10 ^ zeros, exponent⟩ = value ⟨coefficient, exponent + zeros⟩ := by
  rw [value_mk, value_mk, zpow_add₀ (by norm_num), zpow_natCast]
  push_cast
  ring

theorem significantDigits_mul_ten (coefficient : ℕ) (exponent exponent' : ℤ) :
    significantDigits ⟨coefficient * 10, exponent⟩ =
      significantDigits ⟨coefficient, exponent'⟩ := by
  obtain rfl | hpos := Nat.eq_zero_or_pos coefficient
  · rfl
  · have hdigits : Nat.toDigits 10 (coefficient * 10) = Nat.toDigits 10 coefficient ++ ['0'] := by
      rw [Nat.toDigits_eq_if (by decide), if_neg (by omega), Nat.mul_div_cancel _ (by decide),
        Nat.mul_mod_left]
      rfl
    rw [significantDigits, significantDigits, hdigits, List.rdropWhile_concat_pos _ _ _ (by decide)]

theorem significantDigits_mul_pow (coefficient zeros : ℕ) (exponent exponent' : ℤ) :
    significantDigits ⟨coefficient * 10 ^ zeros, exponent⟩ =
      significantDigits ⟨coefficient, exponent'⟩ := by
  induction zeros generalizing exponent with
  | zero => rw [pow_zero, Nat.mul_one]; rfl
  | succ zeros ih => rw [pow_succ, ← Nat.mul_assoc, significantDigits_mul_ten _ _ exponent, ih]

theorem significantDigits_le_of_lt {n : ℕ} (h : d.coefficient < 10 ^ n) :
    d.significantDigits ≤ n := by
  obtain hzero | hpos := Nat.eq_zero_or_pos d.coefficient
  · rw [significantDigits, hzero]
    exact Nat.zero_le n
  · have hn : 0 < n := by
      by_contra hzero
      rw [Nat.eq_zero_of_not_pos hzero] at h
      omega
    exact (List.rdropWhile_prefix _ _).length_le.trans
      ((Nat.length_toDigits_le_iff (by decide) hn).mpr h)

/-- The number that a decimal denotes fixes how many significant digits it has. -/
theorem significantDigits_congr (h : d.value = e.value) :
    d.significantDigits = e.significantDigits := by
  wlog hle : d.exponent ≤ e.exponent generalizing d e
  · exact (this h.symm (by omega)).symm
  obtain ⟨c, i⟩ := d
  obtain ⟨c', j⟩ := e
  obtain ⟨zeros, rfl⟩ := Int.le.dest hle
  have hpos : (0 : ℚ) < 10 ^ i := by positivity
  have hcoefficient : c = c' * 10 ^ zeros := by
    rw [← value_shift, value_mk, value_mk] at h
    exact_mod_cast mul_right_cancel₀ hpos.ne' h
  rw [hcoefficient, significantDigits_mul_pow]

theorem significantDigits_of_mod_ne (h : d.coefficient % 10 ≠ 0) :
    d.significantDigits = d.digitCount := by
  have hlast : (d.coefficient % 10).digitChar ≠ '0' := by
    have hdigit : ∀ digit < 10, digit ≠ 0 → digit.digitChar ≠ '0' := by decide
    exact hdigit _ (Nat.mod_lt _ (by decide)) h
  rw [significantDigits, digitCount, Nat.toDigits_eq_if (by decide)]
  split
  · rename_i hlt
    rw [Nat.mod_eq_of_lt hlt] at hlast
    rw [List.rdropWhile_singleton, if_neg (by simpa using hlast)]
  · rw [List.rdropWhile_concat, if_neg (by simpa using hlast)]

theorem coefficient_trimmed_lt (d : Decimal) :
    d.trimmed.coefficient < 10 ^ d.trimmed.significantDigits := by
  fun_induction trimmed d with
  | case1 d h ih => exact ih
  | case2 d h =>
    obtain hzero | hlast : d.coefficient = 0 ∨ d.coefficient % 10 ≠ 0 := by omega
    · rw [hzero]
      positivity
    · rw [significantDigits_of_mod_ne hlast]
      exact d.coefficient_lt

/-- A decimal has at most `n` significant digits just if a whole number of `n` digits, scaled by a
power of ten, denotes the same number. -/
theorem significantDigits_le_iff {n : ℕ} :
    d.significantDigits ≤ n ↔ ∃ c : ℕ, c < 10 ^ n ∧ ∃ i : ℤ, d.value = c * 10 ^ i := by
  constructor
  · intro hle
    refine ⟨d.trimmed.coefficient, ?_, d.trimmed.exponent, (value_trimmed d).symm⟩
    rw [← significantDigits_congr (value_trimmed d)] at hle
    exact d.coefficient_trimmed_lt.trans_le (Nat.pow_le_pow_right (by decide) hle)
  · rintro ⟨c, hc, i, hvalue⟩
    rw [significantDigits_congr (e := ⟨c, i⟩) hvalue]
    exact significantDigits_le_of_lt hc

/-- Between two decimals that read back as the same magnitude, all do. -/
theorem nearest?_of_between {x : Magnitude} {low high : Decimal} (hlow : low.nearest? = some x)
    (hhigh : high.nearest? = some x) (hle : low.value ≤ d.value) (hge : d.value ≤ high.value) :
    d.nearest? = some x := by
  have hfinite : d.nearest? ≠ none := by
    intro hnone
    rw [nearest?_eq_none_iff] at hnone
    rw [nearest?_eq_none_iff.mpr (hnone.trans hge)] at hhigh
    cases hhigh
  obtain ⟨y, hy⟩ := Option.ne_none_iff_exists'.mp hfinite
  have hxy := value_le_of_nearest? hle hlow hy
  have hyx := value_le_of_nearest? hge hy hhigh
  rw [Magnitude.value_le_value_iff] at hxy hyx
  rw [hy, Magnitude.units_injective (hyx.antisymm hxy)]

end Decimal

namespace Magnitude

variable {x : Magnitude} {grid : ℤ} {d : Decimal}

/-- The grid of `10 ^ -places` holds every multiple of `2 ^ -places`. -/
theorem value_multiple (units places : ℕ) (hgrid : grid = -places) :
    Decimal.value ⟨units * Nat.pow 5 places, grid⟩ = units / 2 ^ places := by
  have hpow : Nat.pow 5 places = 5 ^ places := rfl
  have hten : (10 : ℚ) ^ places = 2 ^ places * 5 ^ places := by rw [← mul_pow]; norm_num
  rw [Decimal.value_mk, hpow, hgrid, zpow_neg, zpow_natCast, hten]
  push_cast
  field_simp

theorem value_finest (x : Magnitude) :
    Decimal.value ⟨x.units * Nat.pow 5 1074, -1074⟩ = x.value := by
  rw [value]
  apply value_multiple
  rfl

/-- A decimal between the magnitude and one that reads back does so too. -/
theorem nearest?_of_between_value (hd : d.nearest? = some x) {c : Decimal}
    (h : d.value ≤ c.value ∧ c.value ≤ x.value ∨ x.value ≤ c.value ∧ c.value ≤ d.value) :
    c.nearest? = some x := by
  have hfinest := x.nearest?_finest rfl
  rw [← x.value_finest] at h
  obtain ⟨hlow, hhigh⟩ | ⟨hlow, hhigh⟩ := h
  · exact Decimal.nearest?_of_between hd hfinest hlow hhigh
  · exact Decimal.nearest?_of_between hfinest hd hlow hhigh

/-- How many steps of a grid a magnitude is away from zero, rounded down. -/
def gridSteps (x : Magnitude) (grid : ℤ) : ℕ :=
  x.units * tenPow (-grid).toNat / (twoPow 1074 * tenPow grid.toNat)

theorem floor_value_div (x : Magnitude) (grid : ℤ) :
    ⌊x.value / 10 ^ grid⌋₊ = x.gridSteps grid := by
  have hquotient : x.value / 10 ^ grid =
      (x.units * tenPow (-grid).toNat : ℕ) / (twoPow 1074 * tenPow grid.toNat : ℕ) := by
    rw [value, ← cast_twoPow, tenPow, tenPow]
    generalize twoPow 1074 = unit
    push_cast
    obtain ⟨n, rfl | rfl⟩ := grid.eq_nat_or_neg
    · simp [div_div]
    · simp [div_mul_eq_mul_div]
  rw [hquotient, Nat.floor_div_eq_div, gridSteps]

/-- A magnitude lies between its two neighbours on a grid. -/
theorem value_gridSteps_le (x : Magnitude) (grid : ℤ) :
    Decimal.value ⟨x.gridSteps grid, grid⟩ ≤ x.value ∧
      x.value < Decimal.value ⟨x.gridSteps grid + 1, grid⟩ := by
  have hpos : (0 : ℚ) < 10 ^ grid := by positivity
  have hnonneg : 0 ≤ x.value := by rw [value]; positivity
  rw [Decimal.value_mk, Decimal.value_mk, ← le_div_iff₀ hpos, ← div_lt_iff₀ hpos,
    ← floor_value_div]
  exact ⟨Nat.floor_le (by positivity), by exact_mod_cast Nat.lt_floor_add_one _⟩

theorem choose_eq_none_iff {below above nearer : Decimal} {belowReads aboveReads : Bool} :
    choose below above nearer belowReads aboveReads = none ↔
      belowReads = false ∧ aboveReads = false := by
  cases belowReads <;> cases aboveReads <;> simp [choose]

theorem choose_mem {below above nearer : Decimal} {belowReads aboveReads : Bool}
    (h : choose below above nearer belowReads aboveReads = some d) :
    d = below ∨ d = above ∨ d = nearer := by
  cases belowReads <;> cases aboveReads <;> cases h <;> simp

/-- A grid without a hit holds no decimal that reads back. -/
theorem nearest?_ne_of_onGrid?_eq_none (h : x.onGrid? grid = none) (coefficient : ℕ) :
    Decimal.nearest? ⟨coefficient, grid⟩ ≠ some x := by
  intro hreads
  obtain ⟨hbelow, habove⟩ : x.readsBack ⟨x.gridSteps grid, grid⟩ = false ∧
      x.readsBack ⟨x.gridSteps grid + 1, grid⟩ = false := choose_eq_none_iff.mp h
  obtain ⟨hle, hlt⟩ := x.value_gridSteps_le grid
  have hpos : (0 : ℚ) < 10 ^ grid := by positivity
  have hmono {m n : ℕ} (hmn : m ≤ n) : Decimal.value ⟨m, grid⟩ ≤ Decimal.value ⟨n, grid⟩ := by
    rw [Decimal.value_mk, Decimal.value_mk]
    gcongr
  obtain hsmall | hlarge := Nat.lt_or_ge (x.gridSteps grid) coefficient
  · have hnext := nearest?_of_between_value hreads (.inr ⟨hlt.le, hmono hsmall⟩)
    rw [readsBack_iff.mpr hnext] at habove
    cases habove
  · have hnext := nearest?_of_between_value hreads (.inl ⟨hmono hlarge, hle⟩)
    rw [readsBack_iff.mpr hnext] at hbelow
    cases hbelow

theorem onGrid?_eq_some (h : x.onGrid? grid = some d) :
    d.exponent = grid ∧ d.coefficient ≤ x.gridSteps grid + 1 := by
  rw [onGrid?] at h
  rw [gridSteps]
  generalize x.units * tenPow (-grid).toNat = num at *
  generalize twoPow 1074 * tenPow grid.toNat = den at *
  obtain rfl | rfl | rfl := choose_mem h
  · exact ⟨rfl, Nat.le_succ _⟩
  · exact ⟨rfl, Nat.le_refl _⟩
  · exact ⟨rfl, roundHalfEven_le _ _⟩

/-- A decimal next to the magnitude on its grid, where no coarser grid from the start on has a
hit. -/
structure IsFirstHit (x : Magnitude) (start : ℤ) (d : Decimal) : Prop where
  exponent_le : d.exponent ≤ start
  coefficient_le : d.coefficient ≤ x.gridSteps d.exponent + 1
  coarser : ∀ grid, d.exponent < grid → grid ≤ start → x.onGrid? grid = none

/-- The search ends with its first hit; the finest grid has one. -/
theorem isFirstHit_firstOnGrids (x : Magnitude) (start : ℤ) (finer : ℕ)
    (hfinest : start - finer = -1074) : x.IsFirstHit start (x.firstOnGrids start finer) := by
  have hhit {grid : ℤ} {d : Decimal} (h : x.onGrid? grid = some d) : x.IsFirstHit grid d := by
    obtain ⟨hexponent, hcoefficient⟩ := onGrid?_eq_some h
    rw [← hexponent] at hcoefficient ⊢
    exact ⟨le_rfl, hcoefficient, fun grid hlt hle => absurd hle hlt.not_ge⟩
  induction finer generalizing start with
  | zero =>
    rw [firstOnGrids]
    cases h : x.onGrid? start with
    | none =>
      have hstart : start = -1074 := by omega
      rw [hstart] at h
      exact absurd (x.nearest?_finest rfl) (nearest?_ne_of_onGrid?_eq_none h _)
    | some d => exact hhit h
  | succ finer ih =>
    rw [firstOnGrids]
    cases h : x.onGrid? start with
    | none =>
      obtain ⟨hexponent, hcoefficient, hcoarser⟩ := ih (start - 1) (by omega)
      rw [Option.getD_none]
      refine ⟨by omega, hcoefficient, fun grid hlt hle => ?_⟩
      obtain rfl | hbelow := hle.eq_or_lt
      · exact h
      · exact hcoarser grid hlt (by omega)
    | some d => exact hhit h

theorem mul_tenPow_zero (n : ℕ) : n * tenPow 0 = n := Nat.mul_one n

theorem leadingExponent_eq (x : Magnitude) :
    x.leadingExponent = Decimal.leadingExponent ⟨x.gridSteps (-324), -324⟩ := by
  have hnumerator : (-(-324) : ℤ).toNat = 324 := rfl
  have hdenominator : (-324 : ℤ).toNat = 0 := rfl
  rw [leadingExponent, Decimal.leadingExponent, Decimal.digitCount, gridSteps, hnumerator,
    hdenominator, mul_tenPow_zero]
  dsimp only
  omega

theorem gridSteps_ne_zero (hx : x ≠ zero) : x.gridSteps (-324) ≠ 0 := by
  have hunits : 0 < x.units := Nat.pos_of_ne_zero fun h => hx (units_eq_zero_iff.mp h)
  have hscale : twoPow 1074 ≤ tenPow 324 := by decide +kernel
  have hnumerator : (-(-324) : ℤ).toNat = 324 := rfl
  have hdenominator : (-324 : ℤ).toNat = 0 := rfl
  rw [gridSteps, hnumerator, hdenominator, mul_tenPow_zero]
  exact (Nat.div_pos (hscale.trans (Nat.le_mul_of_pos_left _ hunits)) (twoPow_pos _)).ne'

/-- The leading digit of a magnitude stands for the power of ten below it. -/
theorem tenPow_leadingExponent_le (hx : x ≠ zero) :
    (10 : ℚ) ^ x.leadingExponent ≤ x.value ∧ x.value < 10 ^ (x.leadingExponent + 1) := by
  obtain ⟨hle, hlt⟩ := x.value_gridSteps_le (-324)
  have hsteps := gridSteps_ne_zero hx
  rw [leadingExponent_eq]
  generalize x.gridSteps (-324) = n at *
  refine ⟨(Decimal.tenPow_leadingExponent_le hsteps).trans hle, hlt.trans_le ?_⟩
  rw [Decimal.tenPow_leadingExponent_succ, Decimal.value_mk]
  gcongr
  exact Decimal.coefficient_lt ⟨n, -324⟩

/-- No decimal on a grid coarser than that of the first hit reads back. -/
theorem IsFirstHit.nearest?_ne {start : ℤ} (h : x.IsFirstHit start d) (hlt : d.exponent < grid)
    (hle : grid ≤ start) {c : ℕ} {i : ℤ} (hi : grid ≤ i) : Decimal.nearest? ⟨c, i⟩ ≠ some x := by
  obtain ⟨zeros, rfl⟩ := Int.le.dest hi
  rw [← Decimal.nearest?_eq_of_value_eq (Decimal.value_shift c zeros grid)]
  exact nearest?_ne_of_onGrid?_eq_none (h.coarser grid hlt hle) _

theorem gridSteps_lt (hx : x ≠ zero) {places : ℕ}
    (hplaces : grid + places = x.leadingExponent + 1) : x.gridSteps grid < 10 ^ places := by
  have hpos : (0 : ℚ) < 10 ^ grid := by positivity
  have hlt := (tenPow_leadingExponent_le hx).2
  rw [← hplaces, zpow_add₀ (by norm_num), zpow_natCast] at hlt
  have hsteps := (x.value_gridSteps_le grid).1.trans_lt hlt
  rw [Decimal.value_mk, mul_comm] at hsteps
  exact_mod_cast lt_of_mul_lt_mul_left hsteps hpos.le

/-- A first hit has at most as many significant digits as there are grids down to its own. -/
theorem IsFirstHit.significantDigits_le (hx : x ≠ zero) (h : x.IsFirstHit x.leadingExponent d)
    {places : ℕ} (hplaces : d.exponent + places = x.leadingExponent + 1) :
    d.significantDigits ≤ places := by
  have hle := h.coefficient_le.trans (gridSteps_lt hx hplaces)
  have hexponent := h.exponent_le
  obtain heq | hlt := hle.eq_or_lt
  · refine Decimal.significantDigits_le_iff.mpr
      ⟨1, Nat.one_lt_pow (by omega) (by decide), x.leadingExponent + 1, ?_⟩
    rw [← hplaces, zpow_add₀ (by norm_num), zpow_natCast, Decimal.value, heq]
    push_cast
    ring
  · exact Decimal.significantDigits_le_of_lt hlt

theorem significantDigits_pos_of_nearest? (hx : x ≠ zero) (hd : d.nearest? = some x) :
    0 < d.significantDigits := by
  by_contra hnone
  obtain ⟨c, hc, i, hvalue⟩ := Decimal.significantDigits_le_iff.mp (Nat.le_of_not_lt hnone)
  have hzero : Decimal.nearest? ⟨c, i⟩ = some zero :=
    Decimal.nearest?_of_coefficient_eq_zero (Nat.lt_one_iff.mp hc)
  rw [← Decimal.nearest?_eq_of_value_eq hvalue, hd] at hzero
  exact hx (Option.some.inj hzero)

/-- A decimal that reads back as well has a digit for each of the grids down to the first hit. -/
theorem IsFirstHit.le_significantDigits (hx : x ≠ zero) {e : Decimal}
    (h : x.IsFirstHit x.leadingExponent e) (hd : d.nearest? = some x)
    {places : ℕ} (hplaces : e.exponent + places = x.leadingExponent + 1) :
    places ≤ d.significantDigits := by
  obtain ⟨c, hc, i, hvalue⟩ := Decimal.significantDigits_le_iff.mp (le_refl d.significantDigits)
  have hread : Decimal.nearest? ⟨c, i⟩ = some x := by
    rw [← hd]
    exact Decimal.nearest?_eq_of_value_eq hvalue.symm
  obtain hfirst | hlater := h.exponent_le.eq_or_lt
  · have hone : places = 1 := by omega
    rw [hone]
    exact significantDigits_pos_of_nearest? hx hd
  · -- the decimal is on no grid above the hit, and as large as the leading power of ten
    have hi : i ≤ e.exponent := by
      by_contra hlt
      exact h.nearest?_ne (lt_add_one _) hlater (by omega) hread
    have hlarge : (10 : ℚ) ^ x.leadingExponent ≤ c * 10 ^ i := by
      by_contra hlt
      have hpower : Decimal.nearest? ⟨1, x.leadingExponent⟩ = some x := by
        refine nearest?_of_between_value hread (.inl ?_)
        rw [Decimal.value_mk, Decimal.value_mk, Nat.cast_one, one_mul]
        exact ⟨(lt_of_not_ge hlt).le, (tenPow_leadingExponent_le hx).1⟩
      exact h.nearest?_ne hlater le_rfl le_rfl hpower
    have hdigits : (10 : ℚ) ^ x.leadingExponent < 10 ^ (d.significantDigits + i) := by
      rw [zpow_add₀ (by norm_num), zpow_natCast]
      refine hlarge.trans_lt ?_
      gcongr
      exact_mod_cast hc
    have hlt := (zpow_lt_zpow_iff_right₀ (by norm_num)).mp hdigits
    omega

/-- No decimal that reads back has fewer significant digits than the shortest. -/
theorem significantDigits_shortest_le (hd : d.nearest? = some x) :
    x.shortest.significantDigits ≤ d.significantDigits := by
  rw [shortest]
  split
  · exact Nat.zero_le _
  · rename_i hx
    have hlow : (-324 : ℤ) ≤ x.leadingExponent := by
      have hlength : 0 < Decimal.digitCount ⟨x.gridSteps (-324), -324⟩ := Nat.length_toDigits_pos
      rw [leadingExponent_eq, Decimal.leadingExponent]
      dsimp only
      omega
    have hhit := x.isFirstHit_firstOnGrids x.leadingExponent (x.leadingExponent + 1074).toNat
      (by omega)
    obtain ⟨places, hplaces⟩ := Int.le.dest hhit.exponent_le
    rw [Decimal.significantDigits_congr (Decimal.value_trimmed _)]
    have hsucc : (x.firstOnGrids x.leadingExponent (x.leadingExponent + 1074).toNat).exponent +
        (places + 1 : ℕ) = x.leadingExponent + 1 := by omega
    exact (hhit.significantDigits_le hx hsucc).trans (hhit.le_significantDigits hx hd hsucc)

end Magnitude

end LoxLexer
