import MultiDispatch.Decimal.Positional
import MultiDispatch.Text.Quoted
import MultiDispatch.Universe.Ty

/-!
# Values

A value carries the type it is dispatched by and a payload. The payload has nothing to do with the
type. Null is no value: a missing argument is the absence of a value.

## Main definitions

* `Payload`, `Value`: values.
* `Value.text`: the text of a value, which shows numbers with a fraction and texts.
-/

namespace MultiDispatch

/-- What a value holds. -/
inductive Payload where
  | unit
  | float (x : Float)
  | text (s : String)
  | integer (n : Int)

/-- A value with the type it is dispatched by. -/
structure Value where
  type : Ty
  payload : Payload

namespace Value

/-- The type's name with the payload in parentheses; only floating-point numbers and texts are
shown. -/
def text (v : Value) : String :=
  let shown :=
    match v.payload with
    | .float x => Decimal.floatText x
    | .text s => Text.quoted s
    | .unit => ".."
    | .integer _ => ".."
  v.type.name ++ "(" ++ shown ++ ")"

/-- The number a value holds, zero if it holds none. -/
def floatOrZero (v : Value) : Float :=
  match v.payload with
  | .float x => x
  | .unit => 0
  | .text _ => 0
  | .integer _ => 0

/-- The text a value holds. -/
def text? (v : Value) : Option String :=
  match v.payload with
  | .text s => some s
  | .unit => none
  | .float _ => none
  | .integer _ => none

end Value

end MultiDispatch
