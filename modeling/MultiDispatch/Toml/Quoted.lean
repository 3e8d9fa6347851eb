import MultiDispatch.Text.Hex
import MultiDispatch.Toml.Blank

/-!
# TOML strings

The four kinds of strings: basic strings with escapes and literal strings without, each on one line
or, with three quotes, on several. The readers of this module start after the opening quotes.

A string on several lines ends at the first three quotes in a row; up to two more quotes right after
them belong to the string. A line break in it is a line feed, whether or not a carriage return
stands before it, and a line break right after the opening quotes does not count.

## Main definitions

* `basic`, `literal`: strings on one line.
* `basicLines`, `literalLines`: strings on several lines.
* `stringAt`: any of the four, opening quotes included.
-/

namespace MultiDispatch.Toml

/-- Put a character before what a reader of characters read. -/
def prepend (c : Char) (read : Option (List Char × List Char)) : Option (List Char × List Char) :=
  read.map fun r => (c :: r.1, r.2)

/-- A character that stands for itself in a basic string. -/
def isBasicChar (c : Char) : Bool :=
  isSpace c || c.toNat == 0x21 || (0x23 ≤ c.toNat && c.toNat ≤ 0x5b) ||
    (0x5d ≤ c.toNat && c.toNat ≤ 0x7e) || isForeign c

/-- A character that stands for itself in a literal string. -/
def isLiteralChar (c : Char) : Bool :=
  c == '\t' || (0x20 ≤ c.toNat && c.toNat ≤ 0x26) || (0x28 ≤ c.toNat && c.toNat ≤ 0x7e) ||
    isForeign c

/-- The character that a short escape stands for. -/
def shortEscape? (c : Char) : Option Char :=
  if c = 'b' then some '\x08'
  else if c = 't' then some '\t'
  else if c = 'n' then some '\n'
  else if c = 'f' then some '\x0c'
  else if c = 'r' then some '\r'
  else if c = '"' then some '"'
  else if c = '\\' then some '\\'
  else none

/-- The character with a code point, if it has one. -/
def scalar? (n : Nat) : Option Char :=
  if n.isValidChar then some (Char.ofNat n) else none

/-- Where the reader of a basic string stands. -/
inductive Place where
  /-- Between characters. -/
  | text
  /-- After a backslash. -/
  | escape
  /-- Within the digits of a code point: how many are missing, and the value so far. -/
  | code (missing value : Nat)
  /-- After a backslash and blanks, before the line break that has to follow. -/
  | lineTail
  /-- After that line break, where blanks and further line breaks do not count. -/
  | lineHead
deriving DecidableEq, Repr

/-- Whether a carriage return or line feed starts a line break. -/
def startsBreak (c : Char) (rest : List Char) : Bool :=
  c == '\n' || (c == '\r' && rest.head? == some '\n')

/-- The number of digits of the code point that an escape announces. -/
def codeLength? (c : Char) : Option Nat :=
  if c = 'u' then some 4 else if c = 'U' then some 8 else none

/-- The rest of a basic string on one line. -/
def basic : Place → List Char → Option (List Char × List Char)
  | _, [] => none
  | .escape, c :: rest =>
    match codeLength? c with
    | some n => basic (.code n 0) rest
    | none => (shortEscape? c).bind fun x => prepend x (basic .text rest)
  | .code missing value, c :: rest =>
    (Text.hexDigit? c).bind fun d =>
      if missing = 1 then (scalar? (16 * value + d)).bind fun x => prepend x (basic .text rest)
      else basic (.code (missing - 1) (16 * value + d)) rest
  | _, c :: rest =>
    if c = '"' then some ([], rest)
    else if c = '\\' then basic .escape rest
    else if isBasicChar c then prepend c (basic .text rest)
    else none

/-- The quotes, at most two, that still belong to a string when its closing quotes were read. -/
def extraQuotes (q : Char) : List Char → List Char × List Char
  | a :: b :: rest =>
    if a = q then if b = q then ([q, q], rest) else ([q], b :: rest) else ([], a :: b :: rest)
  | [a] => if a = q then ([q], []) else ([], [a])
  | [] => ([], [])

/-- Whether two quotes follow, which with the quote before them close a string. -/
def twoQuotes (q : Char) (s : List Char) : Bool :=
  s.take 2 == [q, q]

/-- The rest of a basic string on several lines. -/
def basicLines : Place → List Char → Option (List Char × List Char)
  | _, [] => none
  | .escape, c :: rest =>
    match codeLength? c with
    | some n => basicLines (.code n 0) rest
    | none =>
      if isSpace c then basicLines .lineTail rest
      else if startsBreak c rest then basicLines (if c = '\n' then .lineHead else .lineTail) rest
      else (shortEscape? c).bind fun x => prepend x (basicLines .text rest)
  | .code missing value, c :: rest =>
    (Text.hexDigit? c).bind fun d =>
      if missing = 1 then (scalar? (16 * value + d)).bind fun x => prepend x (basicLines .text rest)
      else basicLines (.code (missing - 1) (16 * value + d)) rest
  | .lineTail, c :: rest =>
    if isSpace c then basicLines .lineTail rest
    else if startsBreak c rest then basicLines (if c = '\n' then .lineHead else .lineTail) rest
    else none
  | place, c :: rest =>
    if place = .lineHead ∧ (isSpace c ∨ startsBreak c rest) then basicLines .lineHead rest
    else if c = '"' then
      if twoQuotes '"' rest then some (extraQuotes '"' (rest.drop 2))
      else prepend c (basicLines .text rest)
    else if c = '\\' then basicLines .escape rest
    else if c = '\n' then prepend c (basicLines .text rest)
    else if startsBreak c rest then basicLines .text rest
    else if isBasicChar c then prepend c (basicLines .text rest)
    else none

/-- The rest of a literal string on one line. -/
def literal : List Char → Option (List Char × List Char)
  | [] => none
  | c :: rest =>
    if c = '\'' then some ([], rest)
    else if isLiteralChar c then prepend c (literal rest)
    else none

/-- The rest of a literal string on several lines. -/
def literalLines : List Char → Option (List Char × List Char)
  | [] => none
  | c :: rest =>
    if c = '\'' then
      if twoQuotes '\'' rest then some (extraQuotes '\'' (rest.drop 2))
      else prepend c (literalLines rest)
    else if c = '\n' then prepend c (literalLines rest)
    else if startsBreak c rest then literalLines rest
    else if isLiteralChar c then prepend c (literalLines rest)
    else none

/-- The text after a line break that stands first. -/
def skipFirstBreak (s : List Char) : List Char :=
  (lineBreak s).getD s

/-- A string on one line, opening quote included. -/
def shortString : Reader String
  | [] => none
  | c :: rest =>
    let read :=
      if c = '"' then basic .text rest else if c = '\'' then literal rest else none
    read.map fun r => (String.ofList r.1, r.2)

/-- A string of any kind, opening quotes included. -/
def stringAt : Reader String
  | [] => none
  | c :: rest =>
    if twoQuotes c rest then
      let body := skipFirstBreak (rest.drop 2)
      let read :=
        if c = '"' then basicLines .text body else if c = '\'' then literalLines body else none
      read.map fun r => (String.ofList r.1, r.2)
    else shortString (c :: rest)

end MultiDispatch.Toml
