import LoxLexer.Decimal.Basic

/-!
# The shortest decimal of a double

Among the decimals that read back as a given magnitude, the one with the fewest digits, and of those
the one nearest to it. The search tries one digit, then two, and so on: on each grid of decimals
only the two neighbours of the magnitude matter. It ends at the grid of `10 ^ -1074`, which holds
every magnitude.
-/
namespace LoxLexer

namespace Magnitude

/-- The exponent of the leading decimal digit. -/
def leadingExponent (x : Magnitude) : Int :=
  (Nat.toDigits 10 (x.units * tenPow 324 / twoPow 1074)).length - 325

def readsBack (x : Magnitude) (d : Decimal) : Bool := d.nearest? = some x

/-- The neighbour that reads back, or the nearer one if both do. -/
def choose (below above nearer : Decimal) : (belowReads aboveReads : Bool) → Option Decimal
  | true, true => some nearer
  | true, false => some below
  | false, true => some above
  | false, false => none

/-- The multiple of `10 ^ grid` that reads back as `x`, the nearer one if both neighbours do. -/
def onGrid? (x : Magnitude) (grid : Int) : Option Decimal :=
  let num := x.units * tenPow (-grid).toNat
  let den := twoPow 1074 * tenPow grid.toNat
  let below : Decimal := ⟨num / den, grid⟩
  let above : Decimal := ⟨num / den + 1, grid⟩
  choose below above ⟨roundHalfEven num den, grid⟩ (x.readsBack below) (x.readsBack above)

/-- The first hit on `finer + 1` grids, each ten times as fine as the one before it. -/
def firstOnGrids (x : Magnitude) (grid : Int) : (finer : Nat) → Decimal
  | 0 => (x.onGrid? grid).getD ⟨x.units * Nat.pow 5 1074, -1074⟩
  | finer + 1 => (x.onGrid? grid).getD (x.firstOnGrids (grid - 1) finer)

end Magnitude

namespace Decimal

/-- The same number with no zero at the end of its coefficient. -/
def trimmed (d : Decimal) : Decimal :=
  if h : d.coefficient ≠ 0 ∧ d.coefficient % 10 = 0 then
    trimmed ⟨d.coefficient / 10, d.exponent + 1⟩
  else d
termination_by d.coefficient
decreasing_by exact Nat.div_lt_self (Nat.pos_of_ne_zero h.1) (by decide)

end Decimal

/-- The shortest decimal that reads back as `x`; zero is written with the exponent zero. -/
def Magnitude.shortest (x : Magnitude) : Decimal :=
  if x = zero then ⟨0, 0⟩
  else (x.firstOnGrids x.leadingExponent (x.leadingExponent + 1074).toNat).trimmed

end LoxLexer
