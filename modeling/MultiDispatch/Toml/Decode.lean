import MultiDispatch.Toml.Value

/-!
# Typed reading of TOML values

What a value means where a truth value, a count, a text, a list or a record is expected. Kinds are
never converted into each other. A record is a table, whose unknown keys do not matter, or an array
that gives the fields in their order and may stop early; a date has no fields and therefore stands
for a record all of whose fields are missing.

## Main definitions

* `Decoder`: a partial function on values.
* `Record`: the fields of a record, by name or by place.
* `Record.required`, `Record.optional`: the value of a field.
* `choice`: one of a fixed set of names.
-/

namespace MultiDispatch.Toml

/-- What a value means, or nothing if it does not fit. -/
abbrev Decoder (α : Type) := Value → Option α

/-- A truth value. -/
def boolean : Decoder Bool
  | .boolean b => some b
  | _ => none

/-- A text. -/
def text : Decoder String
  | .text s => some s
  | _ => none

/-- A count: an integer below `2 ^ 64` that is not negative. -/
def count : Decoder Nat
  | .integer n => if 0 ≤ n ∧ n.toNat < Nat.pow 2 64 then some n.toNat else none
  | _ => none

/-- A list. -/
def list {α : Type} (item : Decoder α) : Decoder (List α)
  | .array items => items.mapM item
  | .tables items => items.mapM item
  | _ => none

/-- The fields of a record. -/
inductive Record where
  | named (entries : List (String × Value))
  | placed (items : List Value)

/-- The record that a value stands for. -/
def record : Decoder Record
  | .table _ entries => some (.named entries)
  | .array items => some (.placed items)
  | .tables items => some (.placed items)
  | .dateTime _ => some (.named [])
  | _ => none

namespace Record

/-- The value of the field with this place and name. -/
def field? (place : Nat) (name : String) : Record → Option Value
  | .named entries => entries.lookup name
  | .placed items => items[place]?

/-- A field that has to be there. -/
def required {α : Type} (r : Record) (place : Nat) (name : String) (decode : Decoder α) :
    Option α :=
  (r.field? place name).bind decode

/-- A field with a value to fall back on. -/
def optional {α : Type} (r : Record) (place : Nat) (name : String) (decode : Decoder α)
    (default : α) : Option α :=
  match r.field? place name with
  | some v => decode v
  | none => some default

end Record

/-- Whether a value is a container without members. -/
def isEmptyContainer : Value → Bool
  | .array items => items.isEmpty
  | .tables items => items.isEmpty
  | .table _ entries => entries.isEmpty
  | _ => false

/-- One of a fixed set of names: as a text, or as the only key of a table with an empty value. -/
def choice {α : Type} (names : List (String × α)) : Decoder α
  | .text s => names.lookup s
  | .table _ [(name, v)] => if isEmptyContainer v then names.lookup name else none
  | _ => none

end MultiDispatch.Toml
