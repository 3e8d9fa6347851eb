import MultiDispatch.Toml.Quoted

/-!
# TOML keys

A key is one part or several parts with dots between them. A part is bare, made of letters, digits,
underscores and hyphens of ASCII, or a string on one line.

## Main definitions

* `keyPart`: one part.
* `keyPath`: the parts of a key, blanks around each of them included.
-/

namespace MultiDispatch.Toml

/-- A character of a bare key. -/
def isBareChar (c : Char) : Bool :=
  c.isAlphanum || c == '_' || c == '-'

/-- One part of a key. -/
def keyPart (s : List Char) : Option (String × List Char) :=
  let (bare, rest) := s.span isBareChar
  if bare.isEmpty then shortString s else some (String.ofList bare, rest)

/-- The most parts a key may have. -/
def maxParts : Nat := 79

/-- The parts of a key of at most the given number of parts, the last part apart. -/
def keyPath : Nat → List Char → Option ((List String × String) × List Char)
  | 0, _ => none
  | n + 1, s => do
    let (part, rest) ← keyPart (skipBlanks s)
    match skipBlanks rest with
    | '.' :: rest =>
      let ((parts, last), rest) ← keyPath n rest
      pure ((part :: parts, last), rest)
    | rest => pure (([], part), rest)

end MultiDispatch.Toml
