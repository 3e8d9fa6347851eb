/-!
# Hexadecimal digits

Lower-case hexadecimal, as used for digests and escapes.

## Main definitions

* `hexByte`: the two digits of a byte.
* `hexBytes`: the digits of a run of bytes, most significant digit of each byte first.
* `hexNat`: the digits of a number, without leading zeros.
* `hexDigit?`: the value of a digit in either case.
-/

namespace MultiDispatch.Text

/-- The digit for a value below sixteen. -/
def hexDigit (n : Nat) : Char :=
  if n < 10 then Char.ofNat (0x30 + n) else Char.ofNat (0x57 + n)

/-- The two digits of a byte. -/
def hexByte (b : UInt8) : List Char :=
  [hexDigit (b.toNat / 16), hexDigit (b.toNat % 16)]

/-- The digits of a run of bytes. -/
def hexBytes (bytes : List UInt8) : List Char :=
  bytes.flatMap hexByte

/-- The digits of a number, without leading zeros. -/
def hexNat (n : Nat) : List Char :=
  Nat.toDigits 16 n

/-- The value of a hexadecimal digit in either case. -/
def hexDigit? (c : Char) : Option Nat :=
  let n := c.toNat
  if 0x30 ≤ n && n ≤ 0x39 then some (n - 0x30)
  else if 0x41 ≤ n && n ≤ 0x46 then some (n - 0x37)
  else if 0x61 ≤ n && n ≤ 0x66 then some (n - 0x57)
  else none

end MultiDispatch.Text
