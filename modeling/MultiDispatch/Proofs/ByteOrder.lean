import Mathlib.Data.List.Lex
import Mathlib.Data.String.Basic
import MultiDispatch.Proofs.ParetoFront

/-!
# The order of texts

Texts are compared character by character here, while a text is a sequence of bytes to others. Both
orders are the same, because UTF-8 keeps the order of characters: of two characters that take the
same number of bytes the lower one has the lower digits, and of two that do not, the shorter one has
the lower first byte. No character is the beginning of another one, so the first difference of two
texts is a difference of bytes.

## Main definitions

* `Text.bytes`: the UTF-8 bytes of a text
* `Text.codeBytes`: the bytes of one character
* `Text.ByteLE`: the order of texts by their bytes

## Main results

* `Text.lex_codeBytes_append`: a lower character has lower bytes, whatever follows
* `Text.byteLE_iff`: the two orders are the same
* `StablySorted.pairwise_byteLE`: candidates that are sorted by text are sorted by bytes
-/

namespace MultiDispatch

namespace Text

variable {a b : ℕ} {s t : String}

/-! ### Bytes -/

/-- The UTF-8 bytes of a text. -/
def bytes (s : String) : List ℕ :=
  s.toUTF8.data.toList.map UInt8.toNat

/-- The UTF-8 bytes of a character, given by its number. -/
def codeBytes (v : ℕ) : List ℕ :=
  if v ≤ 127 then [v]
  else if v ≤ 2047 then [v / 64 % 32 + 192, v % 64 + 128]
  else if v ≤ 65535 then [v / 4096 % 16 + 224, v / 64 % 64 + 128, v % 64 + 128]
  else [v / 262144 % 8 + 240, v / 4096 % 64 + 128, v / 64 % 64 + 128, v % 64 + 128]

theorem map_toNat_utf8EncodeChar (c : Char) :
    (String.utf8EncodeChar c).map UInt8.toNat = codeBytes c.toNat := by
  have hc : c.val.toNat = c.toNat := rfl
  rw [String.utf8EncodeChar, codeBytes]
  simp only [hc]
  split_ifs <;> simp [UInt8.toNat_ofNat'] <;> omega

theorem bytes_eq (s : String) : bytes s = s.toList.flatMap fun c => codeBytes c.toNat := by
  rw [bytes, String.toUTF8_eq_toByteArray, ← String.utf8Encode_toList, List.utf8Encode,
    List.data_toByteArray, List.toList_toArray, List.map_flatMap]
  simp only [map_toNat_utf8EncodeChar]

theorem toNat_lt (c : Char) : c.toNat < 1114112 := by
  rcases c.valid with h | h
  · exact Nat.lt_trans h (by decide)
  · exact h.2

theorem codeBytes_ne_nil (v : ℕ) : codeBytes v ≠ [] := by
  rw [codeBytes]
  split_ifs <;> simp

/-! ### Characters -/

theorem lex_append_of_length_eq {xs ys : List ℕ} (h : List.Lex (· < ·) xs ys)
    (hlength : xs.length = ys.length) (xs' ys' : List ℕ) :
    List.Lex (· < ·) (xs ++ xs') (ys ++ ys') := by
  induction h with
  | nil => cases hlength
  | rel h => exact .rel h
  | cons _ ih => exact .cons (ih (Nat.succ.inj hlength))

/-- Of two characters in the same number of bytes, the lower one has the lower bytes. These are its
digits, the highest first. -/
theorem lex_codeBytes (h : a < b) (hb : b < 1114112)
    (hlength : (codeBytes a).length = (codeBytes b).length) :
    List.Lex (· < ·) (codeBytes a) (codeBytes b) := by
  have hdigits : ∀ v < 1114112, v / 64 / 64 = v / 4096 ∧ v / 4096 / 64 = v / 262144 ∧
      v / 262144 % 8 = v / 262144 := by
    intro v hv
    exact ⟨Nat.div_div_eq_div_mul v 64 64, Nat.div_div_eq_div_mul v 4096 64,
      Nat.mod_eq_of_lt (Nat.div_lt_of_lt_mul (by omega))⟩
  have hda := hdigits a (h.trans hb)
  have hdb := hdigits b hb
  rw [codeBytes, codeBytes] at hlength ⊢
  split_ifs at hlength ⊢ <;>
    simp only [List.cons_lex_cons_iff, List.not_lex_nil, List.length_cons, List.length_nil] at * <;>
    omega

/-- Of two characters in different numbers of bytes, the lower one has the lower first byte. -/
theorem exists_head_codeBytes (h : a < b)
    (hlength : (codeBytes a).length ≠ (codeBytes b).length) :
    ∃ x y xs ys, codeBytes a = x :: xs ∧ codeBytes b = y :: ys ∧ x < y := by
  rw [codeBytes, codeBytes] at hlength ⊢
  split_ifs at hlength ⊢ <;>
    first
    | omega
    | exact absurd rfl hlength
    | exact ⟨_, _, _, _, rfl, rfl, by omega⟩

/-- **A lower character has lower bytes**, whatever follows. -/
theorem lex_codeBytes_append (h : a < b) (hb : b < 1114112) (xs ys : List ℕ) :
    List.Lex (· < ·) (codeBytes a ++ xs) (codeBytes b ++ ys) := by
  by_cases hlength : (codeBytes a).length = (codeBytes b).length
  · exact lex_append_of_length_eq (lex_codeBytes h hb hlength) hlength xs ys
  · obtain ⟨x, y, xs', ys', ha, hb, hxy⟩ := exists_head_codeBytes h hlength
    rw [ha, hb]
    exact .rel hxy

/-! ### Texts -/

theorem lex_flatMap_codeBytes {cs ds : List Char} (h : List.Lex (· < ·) cs ds) :
    List.Lex (· < ·) (cs.flatMap fun c => codeBytes c.toNat)
      (ds.flatMap fun c => codeBytes c.toNat) := by
  induction h with
  | @nil d ds =>
    obtain ⟨x, xs, hd⟩ := List.exists_cons_of_ne_nil (codeBytes_ne_nil d.toNat)
    rw [List.flatMap_nil, List.flatMap_cons, hd]
    exact .nil
  | @rel c cs d ds h =>
    rw [List.flatMap_cons, List.flatMap_cons]
    exact lex_codeBytes_append h (toNat_lt d) _ _
  | cons _ ih =>
    rw [List.flatMap_cons, List.flatMap_cons]
    exact List.Lex.append_left _ ih _

theorem lex_bytes_of_lt (h : s < t) : List.Lex (· < ·) (bytes s) (bytes t) := by
  rw [bytes_eq, bytes_eq]
  exact lex_flatMap_codeBytes (List.lex_lt.2 (String.lt_iff_toList_lt.1 h))

/-- The bytes of the second text do not come before those of the first. -/
def ByteLE (s t : String) : Prop :=
  ¬ List.Lex (· < ·) (bytes t) (bytes s)

/-- **The order of texts is the order of their bytes.** -/
theorem byteLE_iff : ByteLE s t ↔ s ≤ t := by
  rw [ByteLE, ← not_lt, not_iff_not]
  refine ⟨fun h => ?_, lex_bytes_of_lt⟩
  rcases lt_trichotomy t s with hlt | rfl | hgt
  · exact hlt
  · exact absurd h (irrefl _)
  · exact absurd h (asymm (lex_bytes_of_lt hgt))

end Text

/-- Candidates that are sorted by their texts are sorted by the bytes of these. -/
theorem StablySorted.pairwise_byteLE {cs sorted : List Candidate}
    (h : StablySorted Candidate.text cs sorted) :
    (sorted.map Candidate.text).Pairwise Text.ByteLE :=
  List.pairwise_map.2 (h.ordered.imp Text.byteLE_iff.2)

end MultiDispatch
