import MultiDispatch.Toml.Decode
import MultiDispatch.Toml.Document

/-!
# Loading TOML files

From the content of a file to what its document means.

## Main definitions

* `LoadError`: why a file yields nothing.
* `Toml.parseWith`: what the document in a text means.
* `Toml.load`: the same for the content of a file.
-/

namespace MultiDispatch

/-- Why a file yields nothing. -/
inductive LoadError where
  /-- There is no such file, or it is not UTF-8. -/
  | unreadable
  /-- The text is not TOML, or does not say what is expected. -/
  | invalid
deriving DecidableEq, Repr

namespace Toml

/-- Read a text as a document and decode it. -/
def parseWith {α : Type} (decode : Decoder α) (s : String) : Except LoadError α :=
  match (parse? s).bind decode with
  | some a => .ok a
  | none => .error .invalid

/-- Read the content of a file, which may not exist, with a reader of texts. -/
def load {α : Type} (read : String → Except LoadError α) (content : Option ByteArray) :
    Except LoadError α :=
  match content.bind String.fromUTF8? with
  | some s => read s
  | none => .error .unreadable

end Toml

end MultiDispatch
