/-!
# Ranges of code points

A set of code points is listed as ascending ranges, both ends included.
-/
namespace LoxLexer

/-- Whether a code point lies in one of the ranges, which are in ascending order. -/
def inRanges : List (Nat × Nat) → Nat → Bool
  | [], _ => false
  | (first, last) :: rest, code =>
    if code < first then false else code ≤ last || inRanges rest code

theorem inRanges_eq_false_of_between {r s : Nat × Nat} {rest : List (Nat × Nat)} {code : Nat}
    (above : r.2 < code) (below : code < s.1) : inRanges (r :: s :: rest) code = false := by
  simp [inRanges, above, below]

end LoxLexer
