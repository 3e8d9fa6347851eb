import MultiDispatch.Toml.Value

/-!
# Putting a TOML document together

A document is a sequence of statements: a key with its value, a header `[…]`, or a header `[[…]]`.
Each statement changes the table of the whole document, at the place where the header before it
leads.

No statement may say anything twice. A key that is present takes no second value, a table takes no
second header, and dotted keys lead only through tables that dotted keys or longer headers created.
`Value.edit` is the one way into a table: it walks down a path, creates what is missing and refuses
to enter what is closed.

## Main definitions

* `Statement`: a statement.
* `Value.edit`: change the table at the end of a path.
* `insert`, `openTable`, `openElement`: what the three statements do at the end of their paths.
* `build`: the table of a sequence of statements.
-/

namespace MultiDispatch.Toml

/-- A statement of a document. A path is given as the parts before the last and the last part. -/
inductive Statement where
  | assign (path : List String) (key : String) (value : Value)
  | openTable (path : List String) (key : String)
  | openElement (path : List String) (key : String)

/-- The entries of a table by key, in the order in which they were written. -/
abbrev Entries := List (String × Value)

/-- Replace the value of a key by what `change` makes of it; a new key comes last. -/
def alter (change : Option Value → Option Value) (key : String) : Entries → Option Entries
  | [] => (change none).map fun v => [(key, v)]
  | (k, v) :: rest =>
    if k = key then (change (some v)).map fun v => (k, v) :: rest
    else (alter change key rest).map fun rest => (k, v) :: rest

/-- How a path leads through tables. -/
inductive Through where
  /-- As the path of a header. -/
  | headers
  /-- As the parts of a dotted key. -/
  | dots
deriving DecidableEq

/-- The form of a table that a path creates on its way. -/
def Through.form : Through → Form
  | .headers => .implied
  | .dots => .dotted

/-- Whether a path may lead through a table of this form. -/
def Through.enters : Through → Form → Bool
  | .headers, f => f != .inlined
  | .dots, f => f == .implied || f == .dotted

/-- Change the table at the end of a path. An array of tables is entered at its last table. -/
def Value.edit (through : Through) (change : Form → Entries → Option Value) :
    List String → Value → Option Value
  | [], .table form entries => change form entries
  | key :: path, .table form entries =>
    let step : Option Value → Option Value
      | none => Value.edit through change path (.table through.form [])
      | some (.table f es) =>
        if through.enters f then Value.edit through change path (.table f es) else none
      | some (.tables items) => do
        let last ← items.getLast?
        let last ← Value.edit through change path last
        pure (.tables (items.dropLast ++ [last]))
      | some _ => none
    (alter step key entries).map (.table form)
  | _, _ => none

/-- Give a key its only value. A dotted key ends in a table that dotted keys created. -/
def insert (path : List String) (key : String) (value : Value) (form : Form) (entries : Entries) :
    Option Value :=
  let put (form : Form) (entries : Entries) : Option Value :=
    if path.isEmpty || form = .dotted then
      (alter (fun old => if old.isNone then some value else none) key entries).map (.table form)
    else none
  Value.edit .dots put path (.table form entries)

/-- Open a table by its header: a new one, or one that so far was only implied. -/
def openTable (key : String) (form : Form) (entries : Entries) : Option Value :=
  let change : Option Value → Option Value
    | none => some (.table .header [])
    | some (.table .implied es) => some (.table .header es)
    | some _ => none
  (alter change key entries).map (.table form)

/-- Open the next table of an array of tables. -/
def openElement (key : String) (form : Form) (entries : Entries) : Option Value :=
  let change : Option Value → Option Value
    | none => some (.tables [.table .header []])
    | some (.tables items) => some (.tables (items ++ [.table .header []]))
    | some _ => none
  (alter change key entries).map (.table form)

/-- A document under construction: its table, and the path of the header that holds. -/
structure Draft where
  here : List String
  table : Value

/-- One more statement. -/
def Draft.add (d : Draft) : Statement → Option Draft
  | .assign path key value =>
    (Value.edit .headers (insert path key value) d.here d.table).map fun t => { d with table := t }
  | .openTable path key =>
    (Value.edit .headers (openTable key) path d.table).map fun t => ⟨path ++ [key], t⟩
  | .openElement path key =>
    (Value.edit .headers (openElement key) path d.table).map fun t => ⟨path ++ [key], t⟩

/-- The table of a sequence of statements, if each of them is allowed. -/
def build (statements : List Statement) : Option Value :=
  (statements.foldlM Draft.add ⟨[], .table .header []⟩).map Draft.table

/-- The inline table with the given keys and values. -/
def inlineTable (pairs : List ((List String × String) × Value)) : Option Value :=
  pairs.foldlM
    (fun
      | .table form entries, pair => insert pair.1.1 pair.1.2 pair.2 form entries
      | _, _ => none)
    (.table .inlined [])

end MultiDispatch.Toml
