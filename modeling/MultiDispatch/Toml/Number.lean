import MultiDispatch.Text.Hex
import MultiDispatch.Toml.Blank
import MultiDispatch.Toml.Value

/-!
# TOML numbers

Integers have 64 bits with a sign; a decimal one has an optional sign and no leading zero, the other
bases have a mark of their own and no sign. A float has a fraction, an exponent or both. Between two
digits there may be an underscore.

A float is read as the nearest double. One that is too large for a double is refused if it is
positive and is negative infinity otherwise.

## Main definitions

* `digitRun`: digits with underscores between them.
* `integerAt`, `floatAt`: integers and floats.
-/

namespace MultiDispatch.Toml

/-- The rest of a run of digits, after its first one; an underscore has to have a digit on its right
as well. -/
def moreDigits (isDigit : Char → Bool) : List Char → Option (List Char × List Char)
  | '_' :: d :: rest =>
    if isDigit d then (moreDigits isDigit rest).map fun r => (d :: r.1, r.2) else none
  | ['_'] => none
  | c :: rest =>
    if isDigit c then (moreDigits isDigit rest).map fun r => (c :: r.1, r.2)
    else some ([], c :: rest)
  | [] => some ([], [])

/-- A run of digits with underscores between them; the underscores are dropped. -/
def digitRun (isDigit : Char → Bool) : List Char → Option (List Char × List Char)
  | c :: rest =>
    if isDigit c then (moreDigits isDigit rest).map fun r => (c :: r.1, r.2) else none
  | [] => none

/-- An optional sign: whether it is a minus, and the text after it. -/
def sign : List Char → Bool × List Char
  | '-' :: rest => (true, rest)
  | '+' :: rest => (false, rest)
  | s => (false, s)

/-- The digits of a decimal integer without its sign; a leading zero stands alone. -/
def wholeDigits : List Char → Option (List Char × List Char)
  | '0' :: rest => some (['0'], rest)
  | s => digitRun Char.isDigit s

/-- The number that digits of a base stand for. -/
def natOf (base : Nat) (digits : List Char) : Nat :=
  digits.foldl (fun n c => base * n + (Text.hexDigit? c).getD 0) 0

/-- An integer within 64 bits, one of which is the sign. -/
def inRange (n : Int) : Option Int :=
  if -(Nat.pow 2 63 : Int) ≤ n ∧ n < (Nat.pow 2 63 : Int) then some n else none

/-- A digit of a base up to sixteen. -/
def isDigitOf (base : Nat) (c : Char) : Bool :=
  match Text.hexDigit? c with
  | some d => d < base
  | none => false

/-- The base that a mark announces. -/
def baseOf? (c : Char) : Option Nat :=
  if c = 'x' then some 16 else if c = 'o' then some 8 else if c = 'b' then some 2 else none

/-- A decimal integer. -/
def decimalAt (s : List Char) : Option (Int × List Char) := do
  let (negative, rest) := sign s
  let (digits, rest) ← wholeDigits rest
  let n : Int := natOf 10 digits
  let n ← inRange (if negative then -n else n)
  pure (n, rest)

/-- An integer of any base. -/
def integerAt : Reader Int
  | '0' :: c :: rest =>
    match baseOf? c with
    | some base => do
      let (digits, rest) ← digitRun (isDigitOf base) rest
      let n ← inRange (natOf base digits)
      pure (n, rest)
    | none => decimalAt ('0' :: c :: rest)
  | s => decimalAt s

/-- The exponent of a float, if there is one; a mark without digits after it is an error. -/
def exponentAt : List Char → Option (Option Int × List Char)
  | c :: rest =>
    if c = 'e' ∨ c = 'E' then do
      let (negative, rest) := sign rest
      let (digits, rest) ← digitRun Char.isDigit rest
      let n : Int := natOf 10 digits
      pure (some (if negative then -n else n), rest)
    else some (none, c :: rest)
  | [] => some (none, [])

/-- The fraction of a float, if there is one; a point without digits after it is an error. -/
def fractionAt : List Char → Option (Option (List Char) × List Char)
  | '.' :: rest => (digitRun Char.isDigit rest).map fun r => (some r.1, r.2)
  | s => some (none, s)

/-- The double nearest to `digits · 10 ^ exponent`. Far outside the range of doubles the value is
infinite or zero, which is decided before any large power is computed. -/
def nearest (digits : List Char) (exponent : Int) : Float :=
  let n := natOf 10 digits
  let magnitude : Int := (Nat.toDigits 10 n).length + exponent
  if n = 0 then 0
  else if 310 < magnitude then Float.ofBits 0x7ff0000000000000
  else if magnitude < -330 then 0
  else if 0 ≤ exponent then Float.ofScientific n false exponent.toNat
  else Float.ofScientific n true (-exponent).toNat

/-- The infinity and the undefined value, which are written by name. -/
def namedFloat (s : List Char) : Option (Float × List Char) :=
  match sign s with
  | (negative, 'i' :: 'n' :: 'f' :: rest) =>
    let x := Float.ofBits 0x7ff0000000000000
    some (if negative then -x else x, rest)
  | (_, 'n' :: 'a' :: 'n' :: rest) => some (Float.ofBits 0x7ff8000000000000, rest)
  | _ => none

/-- A float written with digits. -/
def digitFloat (s : List Char) : Option (Float × List Char) := do
  let (negative, rest) := sign s
  let (whole, rest) ← wholeDigits rest
  let (fraction, rest) ← fractionAt rest
  let (exponent, rest) ← exponentAt rest
  if fraction.isNone && exponent.isNone then none
  else
    let places := fraction.getD []
    let x := nearest (whole ++ places) (exponent.getD 0 - places.length)
    if negative then some (-x, rest)
    else if x.isInf then none
    else some (x, rest)

/-- A float. -/
def floatAt : Reader Float := fun s =>
  (digitFloat s).or (namedFloat s)

end MultiDispatch.Toml
