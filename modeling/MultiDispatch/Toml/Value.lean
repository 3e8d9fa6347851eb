/-!
# TOML values

The values of a TOML document. A table remembers how it was written, because that decides what may
still be added to it: a table opened by a header and an inline table are closed to dotted keys, a
table that only a longer header implies may still get a header of its own, and a table that dotted
keys created may get more dotted keys but no header.

## Main definitions

* `Form`: how a table was written.
* `Value`: a value; an array of tables written with `[[…]]` headers is told apart from an array in
  brackets, which nothing can be added to.
-/

namespace MultiDispatch.Toml

/-- How a table was written. -/
inductive Form where
  /-- By a header of its own, or the document itself. -/
  | header
  /-- By a header of a table inside it. -/
  | implied
  /-- By a dotted key that leads through it. -/
  | dotted
  /-- Between braces. -/
  | inlined
deriving DecidableEq, Repr

/-- A value of a document. -/
inductive Value where
  | text (s : String)
  | integer (n : Int)
  | float (x : Float)
  | boolean (b : Bool)
  /-- A date, a time or both, as written. -/
  | dateTime (s : String)
  | array (items : List Value)
  | table (form : Form) (entries : List (String × Value))
  /-- The tables of `[[…]]` headers. -/
  | tables (items : List Value)
deriving Inhabited

end MultiDispatch.Toml
