import Mathlib
import Spreadsheet.Csv.Reader
import Spreadsheet.Textual.Parentheses
/-!
# Texts as bytes

Texts are read and written as bytes of UTF-8, and positions in them are counted
in these. A character of ASCII is one byte, which is no part of what any other
character is written as: `byte_notMem_utf8EncodeChar`. So bytes can be searched
for such a character before they are decoded.
-/

namespace Spreadsheet

open Csv (byte)

/-- The bytes of a text in UTF-8. -/
def utf8 (text : List Char) : List UInt8 := text.flatMap String.utf8EncodeChar

section
variable {c d : Char} {a b : List Char}

theorem utf8_cons : utf8 (c :: a) = String.utf8EncodeChar c ++ utf8 a := List.flatMap_cons

theorem utf8_append : utf8 (a ++ b) = utf8 a ++ utf8 b := List.flatMap_append

theorem length_utf8 (text : List Char) : (utf8 text).length = Textual.byteLength text := by
  induction text with
  | nil => rfl
  | cons c text ih =>
    rw [utf8_cons, List.length_append, String.length_utf8EncodeChar, ih]
    rfl

/-! ## Characters of ASCII -/

/-- The character is one of ASCII. -/
def IsAscii (c : Char) : Prop := c.toNat < 128

instance : Decidable (IsAscii c) := inferInstanceAs (Decidable (_ < _))

theorem utf8EncodeChar_ascii (h : IsAscii c) : String.utf8EncodeChar c = [byte c] := by
  have hsize : c.val.toNat ≤ 127 := Nat.le_of_lt_succ h
  unfold String.utf8EncodeChar
  simp only [hsize, if_pos]
  rfl

theorem byte_inj (hc : IsAscii c) (hd : IsAscii d) (h : byte c = byte d) : c = d := by
  have hnat := congrArg UInt8.toNat h
  unfold IsAscii at hc hd
  simp only [byte, Nat.toUInt8_eq, UInt8.toNat_ofNat'] at hnat
  exact Char.toNat_inj.1 (by omega)

/-- All bytes of other characters have their highest bit set. -/
theorem le_toNat_of_mem_utf8EncodeChar (h : ¬ IsAscii c) {b : UInt8}
    (hb : b ∈ String.utf8EncodeChar c) : 128 ≤ b.toNat := by
  have hsize : ¬ c.val.toNat ≤ 127 := fun hle => h (Nat.lt_succ_of_le hle)
  unfold String.utf8EncodeChar at hb
  dsimp only at hb
  rw [if_neg hsize] at hb
  split at hb
  · simp only [List.mem_cons, List.not_mem_nil, or_false] at hb
    rcases hb with rfl | rfl <;> rw [UInt8.toNat_ofNat'] <;> omega
  · split at hb
    · simp only [List.mem_cons, List.not_mem_nil, or_false] at hb
      rcases hb with rfl | rfl | rfl <;> rw [UInt8.toNat_ofNat'] <;> omega
    · simp only [List.mem_cons, List.not_mem_nil, or_false] at hb
      rcases hb with rfl | rfl | rfl | rfl <;> rw [UInt8.toNat_ofNat'] <;> omega

/-- The byte of a character of ASCII is no part of another character. -/
theorem byte_notMem_utf8EncodeChar (hc : IsAscii c) (hne : d ≠ c) :
    byte c ∉ String.utf8EncodeChar d := by
  intro hmem
  by_cases hd : IsAscii d
  · rw [utf8EncodeChar_ascii hd, List.mem_singleton] at hmem
    exact hne (byte_inj hd hc hmem.symm)
  · have hle := le_toNat_of_mem_utf8EncodeChar hd hmem
    unfold IsAscii at hc
    simp only [byte, Nat.toUInt8_eq, UInt8.toNat_ofNat'] at hle
    omega

/-- The bytes of a text tell its first character. -/
theorem eq_of_utf8EncodeChar_append {x y : List UInt8}
    (h : String.utf8EncodeChar c ++ x = String.utf8EncodeChar d ++ y) : c = d := by
  have hdecode : ∀ (e : Char) (z : List UInt8),
      (String.utf8EncodeChar e ++ z).toByteArray.utf8DecodeChar? 0 = some e := by
    intro e z
    rw [List.toByteArray_append, ← List.utf8Encode_singleton]
    exact List.utf8DecodeChar?_utf8Encode_singleton_append
  have hc := hdecode c x
  rw [h, hdecode d y] at hc
  exact (Option.some.inj hc).symm

end

/-! ## Reading and writing -/

theorem toList_loop (bytes : ByteArray) (i : Nat) (front : List UInt8) :
    ByteArray.toList.loop bytes i front = front.reverse ++ bytes.data.toList.drop i := by
  fun_induction ByteArray.toList.loop bytes i front with
  | case1 i front h ih =>
    have hi : i < bytes.data.toList.length := h
    rw [ih, List.drop_eq_getElem_cons hi, List.reverse_cons, List.append_assoc]
    simp [ByteArray.get!, getElem!_pos bytes.data i h]
  | case2 i front h =>
    have hi : bytes.data.toList.length ≤ i := Nat.le_of_not_lt h
    rw [List.drop_eq_nil_of_le hi, List.append_nil]

theorem toUTF8_toList (s : String) : s.toUTF8.toList = utf8 s.toList := by
  have hdata : s.toUTF8.data.toList = utf8 s.toList := by
    rw [String.toUTF8_eq_toByteArray, ← String.utf8Encode_toList]
    exact List.toList_data_toByteArray
  rw [ByteArray.toList, toList_loop, hdata]
  rfl

/-- What a text is written as is read as that text. -/
theorem fieldText_utf8 (text : List Char) :
    Csv.fieldText (utf8 text) = .ok (String.ofList text) := by
  have hbytes : ByteArray.mk (utf8 text).toArray = (String.ofList text).toByteArray := by
    rw [String.toByteArray_ofList]
    exact ByteArray.ext List.data_toByteArray.symm
  have hdecode : String.fromUTF8? (String.ofList text).toByteArray = some (String.ofList text) := by
    unfold String.fromUTF8?
    rw [dif_pos (String.ofList text).isValidUTF8]
    rfl
  unfold Csv.fieldText
  rw [hbytes, hdecode]

end Spreadsheet
