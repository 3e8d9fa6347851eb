import MultiDispatch.Decimal.Shortest

/-!
# Positional text of floating-point numbers

A floating-point number is written with the digits of its shortest decimal, always positionally and
never with an exponent; a whole number has no point. The sign of a negative number and of negative
zero is written, a value that is no number is `NaN`, and the infinities are `inf` and `-inf`.

## Main definitions

* `Decimal.text`: a decimal in positional notation.
* `Binary.ofFields`: the positive number that the fields of a double encode.
* `Decimal.floatText`: the text of a floating-point number.
-/

namespace MultiDispatch

/-- The number of values of a double's fraction field, which has 52 bits; the hidden bit stands
right above the field. -/
def Binary.hiddenBit : Nat := Nat.pow 2 52

/-- The positive number encoded by the exponent and fraction fields of a double; the hidden bit is
set unless the exponent field is zero. -/
def Binary.ofFields (field fraction : Nat) : Binary :=
  if field = 0 then ⟨fraction, -1074, false⟩
  else ⟨hiddenBit + fraction, field - 1075, fraction = 0 && field ≠ 1⟩

namespace Decimal

/-- Drop up to the given number of trailing zeros that stand behind the decimal point. -/
def trim : Nat → Nat → Int → Decimal
  | 0, c, e => ⟨c, e⟩
  | bound + 1, c, e => if e < 0 ∧ c % 10 = 0 then trim bound (c / 10) (e + 1) else ⟨c, e⟩

/-- A decimal in positional notation, without a point if it is whole. -/
def text (d : Decimal) : List Char :=
  let d := trim 20 d.coefficient d.exponent
  let digits := Nat.toDigits 10 d.coefficient
  let places := (-d.exponent).toNat
  if places = 0 then digits ++ List.replicate d.exponent.toNat '0'
  else
    let padded := List.replicate (places + 1 - digits.length) '0' ++ digits
    padded.take (padded.length - places) ++ '.' :: padded.drop (padded.length - places)

/-- The text of the double with these bits. -/
def bitsText (bits : Nat) : List Char :=
  let fraction := bits % Binary.hiddenBit
  let field := bits / Binary.hiddenBit % 2048
  let sign := if bits / Nat.pow 2 63 = 1 then ['-'] else []
  if field = 2047 then
    if fraction = 0 then sign ++ ['i', 'n', 'f'] else ['N', 'a', 'N']
  else if field = 0 ∧ fraction = 0 then sign ++ ['0']
  else sign ++ (Binary.ofFields field fraction).shortest.text

/-- The text of a floating-point number. -/
def floatText (x : Float) : String :=
  String.ofList (bitsText x.toBits.toNat)

end Decimal

end MultiDispatch
