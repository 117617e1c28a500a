import Tilewalk.Text.Basic
import Tilewalk.Text.Percent

/-! # Percent escapes are undone

Escaping writes ASCII only, so each byte can be read back from what stands for it, whatever follows.
-/

namespace Tilewalk.Text.Percent

/-! ## What stands for a byte -/

/-- A property of all bytes can be checked digit by digit. -/
theorem forall_byte {P : UInt8 → Prop}
    (h : ∀ high < 16, ∀ low < 16, P (UInt8.ofNat (16 * high + low))) (b : UInt8) : P b := by
  have hhigh : b.toNat / 16 < 16 := Nat.div_lt_of_lt_mul b.toNat_lt
  have hb := h _ hhigh _ (Nat.mod_lt b.toNat (by decide))
  rwa [Nat.div_add_mod, UInt8.ofNat_toNat] at hb

theorem all_escapeByte (b : UInt8) :
    ((escapeByte b).all fun c => c.toNat < 128 && !isBlank c) = true :=
  forall_byte (P := fun b => ((escapeByte b).all fun c => c.toNat < 128 && !isBlank c) = true)
    (by decide +kernel) b

theorem of_mem_escapeByte {b : UInt8} {c : Char} (hc : c ∈ escapeByte b) :
    c.toNat < 128 ∧ isBlank c = false := by
  simpa using List.all_eq_true.mp (all_escapeByte b) c hc

theorem ne_mark_of_isSafe (b : UInt8) : isSafe b = true → b ≠ mark :=
  forall_byte (P := fun b => isSafe b = true → b ≠ mark) (by decide +kernel) b

theorem hexByte?_upperHexDigit (b : UInt8) :
    hexByte? (UInt8.ofNat (upperHexDigit (b.toNat / 16)).toNat)
      (UInt8.ofNat (upperHexDigit (b.toNat % 16)).toNat) = some b :=
  forall_byte (P := fun b => hexByte? (UInt8.ofNat (upperHexDigit (b.toNat / 16)).toNat)
    (UInt8.ofNat (upperHexDigit (b.toNat % 16)).toNat) = some b) (by decide +kernel) b

theorem not_isBlank_of_mem_escape {bytes : List UInt8} {c : Char}
    (h : c ∈ bytes.flatMap escapeByte) : isBlank c = false := by
  obtain ⟨b, -, hc⟩ := List.mem_flatMap.mp h
  exact (of_mem_escapeByte hc).2

/-! ## Reading an escape -/

theorem utf8EncodeChar_of_ascii {c : Char} (h : c.toNat < 128) :
    String.utf8EncodeChar c = [UInt8.ofNat c.toNat] := by
  have hle : c.val.toNat ≤ 127 := Nat.le_of_lt_succ h
  unfold String.utf8EncodeChar
  simp only [hle, if_true]
  rfl

theorem unescape_cons_of_ne {b : UInt8} (h : b ≠ mark) (rest : List UInt8) :
    unescape (b :: rest) = b :: unescape rest := by
  rcases rest with _ | ⟨high, _ | ⟨low, rest⟩⟩
  · rfl
  · rfl
  · rw [unescape, if_neg h]

theorem unescape_escapeByte (b : UInt8) (rest : List UInt8) :
    unescape ((escapeByte b).flatMap String.utf8EncodeChar ++ rest) = b :: unescape rest := by
  have hascii : ∀ c ∈ escapeByte b, String.utf8EncodeChar c = [UInt8.ofNat c.toNat] :=
    fun c hc => utf8EncodeChar_of_ascii (of_mem_escapeByte hc).1
  by_cases h : isSafe b = true
  · -- The byte stands for itself.
    simp only [escapeByte, h, if_true, List.mem_singleton, forall_eq] at hascii ⊢
    have hbyte : UInt8.ofNat (Char.ofUInt8 b).toNat = b := UInt8.ofNat_toNat
    rw [List.flatMap_singleton, hascii, hbyte]
    exact unescape_cons_of_ne (ne_mark_of_isSafe b h) rest
  · simp only [escapeByte, h, Bool.false_eq_true, if_false, List.mem_cons, List.not_mem_nil,
      or_false, forall_eq_or_imp, forall_eq] at hascii ⊢
    obtain ⟨hmark, hhigh, hlow⟩ := hascii
    simp only [List.flatMap_cons, List.flatMap_nil, hmark, hhigh, hlow, List.cons_append,
      List.nil_append]
    rw [unescape, if_pos (by decide), hexByte?_upperHexDigit]

theorem unescape_flatMap_escapeByte (bytes rest : List UInt8) :
    unescape ((bytes.flatMap escapeByte).flatMap String.utf8EncodeChar ++ rest) =
      bytes ++ unescape rest := by
  induction bytes with
  | nil => rfl
  | cons b bytes ih =>
    rw [List.flatMap_cons, List.flatMap_append, List.append_assoc, unescape_escapeByte, ih]
    rfl

/-! ## Texts -/

theorem fromUTF8?_utf8 (s : String) : String.fromUTF8? (utf8 s).toByteArray = some s := by
  have hbytes : (utf8 s).toByteArray = s.toByteArray := s.utf8Encode_toList
  unfold String.fromUTF8?
  rw [hbytes, dif_pos s.isValidUTF8]
  rfl

/-- Behind a text, bytes are UTF-8 exactly when they are so by themselves. -/
theorem isValidUTF8_append_iff (cs : List Char) (bytes : ByteArray) :
    (cs.utf8Encode ++ bytes).IsValidUTF8 ↔ bytes.IsValidUTF8 := by
  induction cs with
  | nil => simp
  | cons c cs ih =>
    rw [List.utf8Encode_cons, ByteArray.append_assoc,
      ByteArray.isValidUTF8_utf8Encode_singleton_append_iff, ih]

theorem fromUTF8?_append (s : String) (bytes : List UInt8) :
    String.fromUTF8? (utf8 s ++ bytes).toByteArray =
      (String.fromUTF8? bytes.toByteArray).map (s ++ ·) := by
  have hbytes : (utf8 s ++ bytes).toByteArray = s.toList.utf8Encode ++ bytes.toByteArray := by
    rw [List.toByteArray_append]
    rfl
  unfold String.fromUTF8?
  by_cases h : bytes.toByteArray.IsValidUTF8
  · have hall : (utf8 s ++ bytes).toByteArray.IsValidUTF8 := by
      rw [hbytes, isValidUTF8_append_iff]
      exact h
    rw [dif_pos hall, dif_pos h, Option.map_some, Option.some_inj, ← String.toByteArray_inj,
      String.toByteArray_append, ← s.utf8Encode_toList]
    exact hbytes
  · have hall : ¬ (utf8 s ++ bytes).toByteArray.IsValidUTF8 := by
      rw [hbytes, isValidUTF8_append_iff]
      exact h
    rw [dif_neg hall, dif_neg h, Option.map_none]

theorem utf8_append (s t : String) : utf8 (s ++ t) = utf8 s ++ utf8 t := by
  simp [utf8, String.toList_append]

theorem decode_encode_append (s t : String) :
    decode (encode s ++ t) = (decode t).map (s ++ ·) := by
  have hutf8 : utf8 (encode s) = ((utf8 s).flatMap escapeByte).flatMap String.utf8EncodeChar := by
    unfold encode
    rw [utf8, String.toList_ofList]
  unfold decode
  rw [utf8_append, hutf8, unescape_flatMap_escapeByte, fromUTF8?_append]

theorem decode_encode_text (s : String) : decode (encode s) = some s := by
  have h := decode_encode_append s ""
  rwa [String.append_empty, show decode "" = some "" from fromUTF8?_utf8 "", Option.map_some,
    String.append_empty] at h

end Tilewalk.Text.Percent
