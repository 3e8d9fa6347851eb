import MultiDispatch.Toml.DateTime
import MultiDispatch.Toml.Key
import MultiDispatch.Toml.Number
import MultiDispatch.Toml.Table

/-!
# Reading TOML documents

A document is read line by line into statements, and the statements are put together into a table.
Arrays may span lines and end with a comma; inline tables may not. Arrays and inline tables nest to
a fixed depth, which is also what makes the reader of values a plain recursion: the reader of the
items of a container is the reader for one level less.

## Main definitions

* `valueAt`: a value.
* `statements`: the statements of a document.
* `parse?`: the table of a document.
-/

namespace MultiDispatch.Toml

/-- The items of an array, after its opening bracket or a comma. The bound exceeds the number of
items when it is the length of the text. -/
def itemsAt (item : Reader Value) : Nat → Reader (List Value)
  | 0, _ => none
  | bound + 1, s =>
    match skipFill s with
    | ']' :: rest => some ([], rest)
    | s => do
      let (v, rest) ← item s
      match skipFill rest with
      | ',' :: rest =>
        let (vs, rest) ← itemsAt item bound rest
        pure (v :: vs, rest)
      | ']' :: rest => pure ([v], rest)
      | _ => none

/-- A key and its value, as they stand in an inline table. -/
def pairAt (item : Reader Value) : Reader ((List String × String) × Value) := fun s => do
  let (path, rest) ← keyPath maxParts s
  let rest ← expect '=' rest
  let (v, rest) ← item (skipBlanks rest)
  pure ((path, v), skipBlanks rest)

/-- The pairs of an inline table, of which there is at least one. -/
def pairsAt (item : Reader Value) : Nat → Reader (List ((List String × String) × Value))
  | 0, _ => none
  | bound + 1, s => do
    let (pair, rest) ← pairAt item s
    match rest with
    | ',' :: rest =>
      let (pairs, rest) ← pairsAt item bound rest
      pure (pair :: pairs, rest)
    | '}' :: rest => pure ([pair], rest)
    | _ => none

/-- An inline table, after its opening brace. -/
def inlineAt (item : Reader Value) : Reader Value := fun s =>
  match skipBlanks s with
  | '}' :: rest => some (.table .inlined [], rest)
  | _ => do
    let (pairs, rest) ← pairsAt item (s.length + 1) s
    let v ← inlineTable pairs
    pure (v, rest)

/-- Read a given word. -/
def wordAt (word : List Char) (v : Value) : Reader Value := fun s =>
  if word.isPrefixOf s then some (v, s.drop word.length) else none

/-- A date, a time or a number. -/
def scalarAt : Reader Value := fun s =>
  ((dateTimeAt s).map fun r => (.dateTime r.1, r.2)).or
    (((floatAt s).map fun r => (.float r.1, r.2)).or
      ((integerAt s).map fun r => (.integer r.1, r.2)))

/-- A value in which containers nest at most to the given depth. -/
def valueAt : Nat → Reader Value
  | depth, s =>
    match s with
    | [] => none
    | '[' :: rest =>
      match depth with
      | 0 => none
      | depth + 1 =>
        (itemsAt (valueAt depth) (rest.length + 1) rest).map fun r => (.array r.1, r.2)
    | '{' :: rest =>
      match depth with
      | 0 => none
      | depth + 1 => inlineAt (valueAt depth) rest
    | c :: rest =>
      if c = '"' ∨ c = '\'' then (stringAt (c :: rest)).map fun r => (.text r.1, r.2)
      else if c = 't' then wordAt ['t', 'r', 'u', 'e'] (.boolean true) (c :: rest)
      else if c = 'f' then wordAt ['f', 'a', 'l', 's', 'e'] (.boolean false) (c :: rest)
      else scalarAt (c :: rest)

/-- How deep containers may nest. -/
def maxDepth : Nat := 79

/-- A key, its value and the end of the line. -/
def assignmentAt : Reader Statement := fun s => do
  let ((path, key), rest) ← keyPath maxParts s
  let rest ← expect '=' rest
  let (v, rest) ← valueAt maxDepth (skipBlanks rest)
  let rest ← lineEnd rest
  pure (.assign path key v, rest)

/-- A header and the end of its line, after the opening bracket. -/
def headerAt : Reader Statement
  | '[' :: s => do
    let ((path, key), rest) ← keyPath maxParts s
    let rest ← expect ']' rest
    let rest ← expect ']' rest
    let rest ← lineEnd rest
    pure (.openElement path key, rest)
  | s => do
    let ((path, key), rest) ← keyPath maxParts s
    let rest ← expect ']' rest
    let rest ← lineEnd rest
    pure (.openTable path key, rest)

/-- The statements of a text. Lines without a statement are skipped together with the comments on
them; the bound exceeds the number of statements when it is the length of the text. -/
def statementsAt : Nat → List Char → Option (List Statement)
  | 0, _ => none
  | bound + 1, s =>
    match skipFill s with
    | [] => some []
    | '[' :: rest => do
      let (statement, rest) ← headerAt rest
      let statements ← statementsAt bound rest
      pure (statement :: statements)
    | s => do
      let (statement, rest) ← assignmentAt s
      let statements ← statementsAt bound rest
      pure (statement :: statements)

/-- The text after the byte order mark that may stand first. -/
def skipMark : List Char → List Char
  | '\ufeff' :: rest => rest
  | s => s

/-- The statements of a document. -/
def statements (s : String) : Option (List Statement) :=
  let chars := skipMark s.toList
  statementsAt (chars.length + 1) chars

/-- The table of a document, if it is one. -/
def parse? (s : String) : Option Value :=
  (statements s).bind build

end MultiDispatch.Toml
