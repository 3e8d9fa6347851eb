import MultiDispatch.Text.Hex

/-!
# JSON documents

The values of JSON that a report is made of, and their text on several lines: every member of an
array or object on a line of its own, indented by two spaces for each level, and an empty array or
object as its two brackets. Members keep the order in which they are given.

## Main definitions

* `Json`: a value.
* `Json.quoted`: a string between quotes, with the short escapes of JSON.
* `Json.pretty`: the text of a value on several lines.
-/

namespace MultiDispatch

/-- A JSON value; numbers are the natural numbers, which is all that a report counts with. -/
inductive Json where
  | number (n : Nat)
  | string (s : String)
  | array (items : List Json)
  | object (members : List (String × Json))

namespace Json

/-- The written form of one character of a string: only the quote, the backslash and the controls
are escaped. -/
def escape (c : Char) : List Char :=
  if c = '"' then ['\\', '"']
  else if c = '\\' then ['\\', '\\']
  else if c = '\x08' then ['\\', 'b']
  else if c = '\x0c' then ['\\', 'f']
  else if c = '\n' then ['\\', 'n']
  else if c = '\r' then ['\\', 'r']
  else if c = '\t' then ['\\', 't']
  else if c.toNat < 0x20 then ['\\', 'u', '0', '0'] ++ Text.hexByte (UInt8.ofNat c.toNat)
  else [c]

/-- A string between quotes. -/
def quoted (s : String) : String :=
  String.ofList ('"' :: s.toList.flatMap escape ++ ['"'])

/-- The start of a line at a level of nesting. -/
def indent (level : Nat) : String :=
  "\n" ++ String.ofList (List.replicate (2 * level) ' ')

mutual

/-- The text of a value whose members stand one level below `level`. -/
def prettyAt (level : Nat) : Json → String
  | number n => toString n
  | string s => quoted s
  | array items => enclose "[" "]" level (itemTexts (level + 1) items)
  | object members => enclose "\x7b" "\x7d" level (memberTexts (level + 1) members)
where
  /-- Put the texts of members, one a line, between two brackets. -/
  enclose (opening closing : String) (level : Nat) (texts : List String) : String :=
    if texts.isEmpty then opening ++ closing
    else
      opening ++ String.intercalate "," (texts.map (indent (level + 1) ++ ·)) ++ indent level ++
        closing

/-- The texts of an array's members. -/
def itemTexts (level : Nat) : List Json → List String
  | [] => []
  | item :: rest => prettyAt level item :: itemTexts level rest

/-- The texts of an object's members. -/
def memberTexts (level : Nat) : List (String × Json) → List String
  | [] => []
  | (name, value) :: rest => (quoted name ++ ": " ++ prettyAt level value) :: memberTexts level rest

end

/-- The text of a value on several lines. -/
def pretty (v : Json) : String :=
  prettyAt 0 v

end Json

end MultiDispatch
