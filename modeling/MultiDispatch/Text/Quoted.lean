import MultiDispatch.Text.Hex
import MultiDispatch.Text.Printable

/-!
# Quoted text

Text between double quotes such that every character of it can be told apart on a screen: the
quote, the backslash and the common controls have short escapes, every other character that does
not print on its own is written by its code point, `\u{1b}` for the escape control.

## Main definitions

* `escape`: the written form of one character.
* `quoted`: the written form of a text, quotes included.
-/

namespace MultiDispatch.Text

/-- The written form of one character of a quoted text. -/
def escape (c : Char) : List Char :=
  if c = '"' then ['\\', '"']
  else if c = '\\' then ['\\', '\\']
  else if c = '\n' then ['\\', 'n']
  else if c = '\r' then ['\\', 'r']
  else if c = '\t' then ['\\', 't']
  else if c = '\x00' then ['\\', '0']
  else if isPrintable c then [c]
  else ['\\', 'u', '\x7b'] ++ hexNat c.toNat ++ ['\x7d']

/-- The written form of a text, quotes included. -/
def quoted (s : String) : String :=
  String.ofList ('"' :: s.toList.flatMap escape ++ ['"'])

end MultiDispatch.Text
