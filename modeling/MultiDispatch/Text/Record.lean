/-!
# Text of a record

A record is written as its name and its fields in braces: `Name { field: value, … }`.

## Main definitions

* `record`: the text of a record whose field values are already written.
* `boolean`: the text of a truth value.
-/

namespace MultiDispatch.Text

/-- The text of a record, fields in the order given. -/
def record (name : String) (fields : List (String × String)) : String :=
  name ++ " \x7b " ++ String.intercalate ", " (fields.map fun f => f.1 ++ ": " ++ f.2) ++ " \x7d"

/-- The text of a truth value. -/
def boolean (b : Bool) : String :=
  if b then "true" else "false"

end MultiDispatch.Text
