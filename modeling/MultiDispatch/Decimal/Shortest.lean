/-!
# The shortest decimal that reads back

A positive binary floating-point number stands for every real number that rounds to it. Among the
decimals in that interval, the ones with the fewest digits are the shortest, and of those the one
nearest to the number is its decimal form. Of two that are equally near the larger one is taken.

All comparisons are between natural numbers. A number `x · 2 ^ e` measured in units of `10 ^ p` is a
fraction `x · a / b` whose `a` and `b` depend on `e` and `p` only, so that no rational arithmetic
and no rounding is involved.

## Main definitions

* `Binary`: a positive number `mantissa · 2 ^ exponent` together with the shape of its interval.
* `Decimal`: a number `coefficient · 10 ^ exponent`.
* `Binary.onGrid?`: the best decimal of the interval on one decimal grid.
* `Binary.shortest`: the shortest decimal of the interval.
-/

namespace MultiDispatch

/-- A positive floating-point number `mantissa · 2 ^ exponent`. `narrowBelow` says that the number
below is only half as far away as the number above, which holds at powers of two. -/
structure Binary where
  mantissa : Nat
  exponent : Int
  narrowBelow : Bool
deriving DecidableEq, Repr

/-- The number `coefficient · 10 ^ exponent`. -/
structure Decimal where
  coefficient : Nat
  exponent : Int
deriving DecidableEq, Repr

namespace Binary

/-- Four times the mantissa: the interval's ends are whole in quarters of the last place. -/
def quarters (v : Binary) : Nat :=
  4 * v.mantissa

/-- The lower end of the interval, in quarters of the last place. -/
def lower (v : Binary) : Nat :=
  v.quarters - if v.narrowBelow then 1 else 2

/-- The upper end of the interval, in quarters of the last place. -/
def upper (v : Binary) : Nat :=
  v.quarters + 2

/-- The numbers `(a, b)` such that `x` quarters of the last place are `x · a / b` times `10 ^ p`. -/
def scale (v : Binary) (p : Int) : Nat × Nat :=
  let e := v.exponent - 2
  (Nat.pow 2 e.toNat * Nat.pow 10 (-p).toNat, Nat.pow 2 (-e).toNat * Nat.pow 10 p.toNat)

/-- Whether `d · 10 ^ p` rounds to `v`. The ends of the interval belong to it exactly when the
mantissa is even, since ties of a binary rounding go to the even mantissa. -/
def contains (v : Binary) (p : Int) (d : Nat) : Bool :=
  let (a, b) := v.scale p
  if v.mantissa % 2 = 0 then v.lower * a ≤ d * b && d * b ≤ v.upper * a
  else v.lower * a < d * b && d * b < v.upper * a

/-- The multiple of `10 ^ p` nearest to `v` among the two next to it that round to `v`; the larger
one if both are equally near. -/
def onGrid? (v : Binary) (p : Int) : Option Nat :=
  let (a, b) := v.scale p
  let x := v.quarters * a
  let below := x / b
  let above := below + 1
  match v.contains p below, v.contains p above with
  | true, true => some (if x - below * b < above * b - x then below else above)
  | true, false => some below
  | false, true => some above
  | false, false => none

/-- The exponent `k` with `10 ^ (k - 1) ≤ v < 10 ^ k`, for numbers not below `10 ^ (-400)`. -/
def magnitude (v : Binary) : Int :=
  let shifted :=
    v.mantissa * Nat.pow 2 v.exponent.toNat * Nat.pow 10 400 / Nat.pow 2 (-v.exponent).toNat
  (Nat.toDigits 10 shifted).length - 400

/-- Search the grids with `n`, `n + 1`, … significant digits for a decimal that rounds to `v`. -/
def search (v : Binary) (k : Int) : Nat → Nat → Decimal
  | 0, n => ⟨v.quarters, k - n⟩
  | fuel + 1, n =>
    match v.onGrid? (k - n) with
    | some d => ⟨d, k - n⟩
    | none => v.search k fuel (n + 1)

/-- The shortest decimal that rounds to `v`. Seventeen digits tell all floating-point numbers of
double precision apart, so the search ends before its bound. -/
def shortest (v : Binary) : Decimal :=
  v.search v.magnitude 17 1

end Binary

end MultiDispatch
