import MultiDispatch.Digest.Blake3
import MultiDispatch.Text.Hex

/-!
# Identities of modules

A module is identified by the BLAKE3 digest of its name or of its content. People see the first
eight hexadecimal digits.

## Main definitions

* `ModuleId`: an identity.
* `ModuleId.ofBytes`, `ModuleId.ofName`: the identity of a content or a name.
* `ModuleId.hex`, `ModuleId.short`, `ModuleId.text`: its written forms.
* `ModuleId.precedes`: the order of identities by their bytes.
-/

namespace MultiDispatch

/-- The identity of a module, a digest. -/
structure ModuleId where
  digest : List UInt8
deriving DecidableEq

namespace ModuleId

/-- The identity of a content. -/
def ofBytes (content : List UInt8) : ModuleId :=
  ⟨Digest.digest content⟩

/-- The identity of a name, which is that of its UTF-8 form. -/
def ofName (name : String) : ModuleId :=
  ofBytes name.toUTF8.toList

/-- All hexadecimal digits. -/
def hex (m : ModuleId) : String :=
  String.ofList (Text.hexBytes m.digest)

/-- The first eight hexadecimal digits. -/
def short (m : ModuleId) : String :=
  String.ofList ((Text.hexBytes m.digest).take 8)

/-- The form in which modules are named to people. -/
def text (m : ModuleId) : String :=
  "#" ++ m.short

/-- The short form marked as an identity. -/
def tag (m : ModuleId) : String :=
  "ModuleId(" ++ m.short ++ ")"

/-- The number that the bytes spell, the first byte being the most significant one. -/
def rank (m : ModuleId) : Nat :=
  m.digest.foldl (fun n b => 256 * n + b.toNat) 0

/-- Whether the bytes of the first identity come before those of the second or are equal to them.
Digests have the same length, so that the order of the bytes is that of the numbers they spell. -/
def precedes (a b : ModuleId) : Bool :=
  a.rank ≤ b.rank

end ModuleId

end MultiDispatch
