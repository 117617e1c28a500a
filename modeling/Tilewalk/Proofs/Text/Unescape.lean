import Mathlib.Tactic.SplitIfs
import Tilewalk.Proofs.Text.Percent

/-! # Escapes among other text

What a text is escaped to is read back in front of any other text, as escaping leaves no percent
sign that could take in the characters behind it. A text without escapes is read as it stands.
-/

namespace Tilewalk.Text.Percent

/-! ## Characters of links -/

/-- The characters that a link shows as they are. -/
def IsBare (c : Char) : Prop :=
  c.isAlphanum = true ∨
    c ∈ [';', ',', '/', '?', ':', '@', '&', '=', '+', '$', '-', '_', '.', '!', '~', '*', '\x27',
      '(', ')', '#']

def IsUpperDigit (c : Char) : Prop := ('0' ≤ c ∧ c ≤ '9') ∨ ('A' ≤ c ∧ c ≤ 'F')

def IsHexDigit (c : Char) : Prop := IsUpperDigit c ∨ ('a' ≤ c ∧ c ≤ 'f')

instance (c : Char) : Decidable (IsUpperDigit c) := inferInstanceAs (Decidable (_ ∨ _))

instance (c : Char) : Decidable (IsHexDigit c) := inferInstanceAs (Decidable (_ ∨ _))

/-- Bare characters, and percent signs with their two digits. -/
inductive Escaped : List Char → Prop where
  | nil : Escaped []
  | bare {c : Char} {rest : List Char} : IsBare c → Escaped rest → Escaped (c :: rest)
  | escape {high low : Char} {rest : List Char} :
    IsUpperDigit high → IsUpperDigit low → Escaped rest → Escaped ('%' :: high :: low :: rest)

/-- Nowhere in the text do two digits follow a percent sign. -/
def NoEscape (cs : List Char) : Prop :=
  ∀ before high low after, cs = before ++ '%' :: high :: low :: after →
    ¬ (IsHexDigit high ∧ IsHexDigit low)

/-! ## What escaping writes -/

theorem isUpperDigit_upperHexDigit {n : Nat} (h : n < 16) : IsUpperDigit (upperHexDigit n) := by
  revert n
  decide

theorem escaped_escapeByte (b : UInt8) {rest : List Char} (h : Escaped rest) :
    Escaped (escapeByte b ++ rest) := by
  unfold escapeByte
  split_ifs with hsafe
  · refine .bare ?_ h
    simpa [isSafe, safeMarks, IsBare] using hsafe
  · have hhigh : b.toNat / 16 < 16 := Nat.div_lt_of_lt_mul b.toNat_lt
    exact .escape (isUpperDigit_upperHexDigit hhigh)
      (isUpperDigit_upperHexDigit (Nat.mod_lt _ (by decide))) h

theorem escaped_encode (s : String) : Escaped (encode s).toList := by
  unfold encode
  rw [String.toList_ofList]
  induction utf8 s with
  | nil => exact .nil
  | cons b bytes ih =>
    rw [List.flatMap_cons]
    exact escaped_escapeByte b ih

/-! ## Text without escapes -/

theorem le_of_mem_utf8EncodeChar {c : Char} (hc : 128 ≤ c.toNat) {b : UInt8}
    (hb : b ∈ String.utf8EncodeChar c) : 128 ≤ b.toNat := by
  have hval : ¬ c.val.toNat ≤ 127 := Nat.not_le.mpr hc
  unfold String.utf8EncodeChar at hb
  simp only [hval, if_false] at hb
  split_ifs at hb <;> simp only [List.mem_cons, List.not_mem_nil, or_false] at hb
  · rcases hb with rfl | rfl <;> simp <;> omega
  · rcases hb with rfl | rfl | rfl <;> simp <;> omega
  · rcases hb with rfl | rfl | rfl | rfl <;> simp <;> omega

theorem cons_of_ascii {cs : List Char} {b : UInt8} {bytes : List UInt8}
    (h : cs.flatMap String.utf8EncodeChar = b :: bytes) (hb : b.toNat < 128) :
    ∃ rest, cs = Char.ofUInt8 b :: rest ∧ rest.flatMap String.utf8EncodeChar = bytes := by
  cases cs with
  | nil => simp at h
  | cons c rest =>
    rw [List.flatMap_cons] at h
    by_cases hc : c.toNat < 128
    · rw [utf8EncodeChar_of_ascii hc, List.singleton_append, List.cons.injEq] at h
      obtain ⟨rfl, hrest⟩ := h
      refine ⟨rest, ?_, hrest⟩
      have hchar : Char.ofUInt8 (UInt8.ofNat c.toNat) = c :=
        Char.toNat_inj.mp (UInt8.toNat_ofNat_of_lt' (Nat.lt_trans hc (by decide)))
      rw [hchar]
    · have hmem : b ∈ String.utf8EncodeChar c := by
        obtain ⟨first, others, hfirst⟩ :=
          List.exists_cons_of_ne_nil (String.utf8EncodeChar_ne_nil (c := c))
        rw [hfirst, List.cons_append, List.cons.injEq] at h
        rw [hfirst, ← h.1]
        exact List.mem_cons_self
      have hle := le_of_mem_utf8EncodeChar (Nat.not_lt.mp hc) hmem
      omega

theorem isHexDigit_of_hexValue? {c : Char} {n : Nat} (h : hexValue? c = some n) :
    IsHexDigit c ∧ c.toNat < 128 := by
  unfold hexValue? at h
  split_ifs at h with hdecimal hlower hupper
  · exact ⟨.inl (.inl hdecimal), Nat.lt_of_le_of_lt hdecimal.2 (by decide)⟩
  · exact ⟨.inr hlower, Nat.lt_of_le_of_lt hlower.2 (by decide)⟩
  · exact ⟨.inl (.inr hupper), Nat.lt_of_le_of_lt hupper.2 (by decide)⟩

theorem isHexDigit_of_hexByte? {high low byte : UInt8} (h : hexByte? high low = some byte) :
    (IsHexDigit (Char.ofUInt8 high) ∧ high.toNat < 128) ∧
      IsHexDigit (Char.ofUInt8 low) ∧ low.toNat < 128 := by
  obtain ⟨x, hx, h⟩ := Option.bind_eq_some_iff.mp h
  obtain ⟨y, hy, -⟩ := Option.bind_eq_some_iff.mp h
  exact ⟨isHexDigit_of_hexValue? hx, isHexDigit_of_hexValue? hy⟩

theorem unescape_append_of_ne {bytes : List UInt8} (h : ∀ b ∈ bytes, b ≠ mark)
    (rest : List UInt8) : unescape (bytes ++ rest) = bytes ++ unescape rest := by
  induction bytes with
  | nil => rfl
  | cons b bytes ih =>
    obtain ⟨hb, hbytes⟩ := List.forall_mem_cons.mp h
    rw [List.cons_append, unescape_cons_of_ne hb, ih hbytes, List.cons_append]

theorem ne_mark_of_mem_utf8EncodeChar {c : Char} (hc : c ≠ '%') {b : UInt8}
    (hb : b ∈ String.utf8EncodeChar c) : b ≠ mark := by
  rintro rfl
  by_cases hascii : c.toNat < 128
  · rw [utf8EncodeChar_of_ascii hascii, List.mem_singleton] at hb
    have hnat : mark.toNat = c.toNat := by
      rw [hb, UInt8.toNat_ofNat_of_lt' (Nat.lt_trans hascii (by decide))]
    exact hc (Char.toNat_inj.mp hnat.symm)
  · have hle := le_of_mem_utf8EncodeChar (Nat.not_lt.mp hascii) hb
    exact absurd hle (by decide)

theorem unescape_mark_cons {bytes : List UInt8}
    (h : ∀ high low rest, bytes = high :: low :: rest → hexByte? high low = none) :
    unescape (mark :: bytes) = mark :: unescape bytes := by
  rcases bytes with _ | ⟨high, _ | ⟨low, rest⟩⟩
  · rfl
  · rfl
  · rw [unescape, if_pos rfl, h high low rest rfl]

/-- Two bytes behind a percent sign that stand for digits would make an escape of the text. -/
theorem NoEscape.hexByte? {cs : List Char} (h : NoEscape ('%' :: cs)) {high low : UInt8}
    {rest : List UInt8} (hbytes : cs.flatMap String.utf8EncodeChar = high :: low :: rest) :
    hexByte? high low = none := by
  cases hbyte : Percent.hexByte? high low with
  | none => rfl
  | some byte =>
    obtain ⟨⟨hhigh, hhigh128⟩, hlow, hlow128⟩ := isHexDigit_of_hexByte? hbyte
    obtain ⟨others, rfl, hothers⟩ := cons_of_ascii hbytes hhigh128
    obtain ⟨after, rfl, -⟩ := cons_of_ascii hothers hlow128
    exact absurd ⟨hhigh, hlow⟩ (h [] _ _ after rfl)

theorem unescape_of_noEscape {cs : List Char} (h : NoEscape cs) :
    unescape (cs.flatMap String.utf8EncodeChar) = cs.flatMap String.utf8EncodeChar := by
  induction cs with
  | nil => rfl
  | cons c cs ih =>
    have hrest : NoEscape cs := fun before high low after heq =>
      h (c :: before) high low after (by rw [heq, List.cons_append])
    rw [List.flatMap_cons]
    by_cases hc : c = '%'
    · subst hc
      have hmark : String.utf8EncodeChar '%' = [mark] := rfl
      rw [hmark, List.singleton_append,
        unescape_mark_cons fun high low rest hbytes => h.hexByte? hbytes, ih hrest]
    · rw [unescape_append_of_ne fun b hb => ne_mark_of_mem_utf8EncodeChar hc hb, ih hrest]

theorem decode_of_noEscape {s : String} (h : NoEscape s.toList) : decode s = some s := by
  unfold decode
  rw [utf8, unescape_of_noEscape h]
  exact fromUTF8?_utf8 s

/-! ## The theorem -/

/-- What a text is escaped to is read back, and whatever text is joined to it is read, or is no
UTF-8, as it is by itself. Escaping writes bare characters and escapes only. A text in which
nothing has the form of an escape is read as it stands. -/
theorem escapes_are_undone_in_any_text :
    (∀ t u v, decode u = some v → decode (encode t ++ u) = some (t ++ v)) ∧
    (∀ t u, decode u = none → decode (encode t ++ u) = none) ∧
    (∀ t, decode (encode t) = some t) ∧
    (∀ t, Escaped (encode t).toList) ∧
    ∀ u, NoEscape u.toList → decode u = some u := by
  refine ⟨fun t u v hv => ?_, fun t u hu => ?_, decode_encode_text, escaped_encode,
    fun u => decode_of_noEscape⟩
  · rw [decode_encode_append, hv, Option.map_some]
  · rw [decode_encode_append, hu, Option.map_none]

theorem escapes_are_undone_in_any_text_of_percent_signs :
    decode (encode "100% é" ++ "%zz") = some "100% é%zz" ∧
      decode (encode "100%" ++ "%FF") = none := by
  obtain ⟨hsome, hnone, -, -, hplain⟩ := escapes_are_undone_in_any_text
  have hnoEscape : NoEscape "%zz".toList := by
    intro before high low after h
    rcases before with _ | ⟨c, before⟩
    · obtain ⟨rfl, rfl, -⟩ : 'z' = high ∧ 'z' = low ∧ after = [] := by simpa using h
      decide
    · have hlength := congrArg List.length h
      simp at hlength
      omega
  exact ⟨hsome _ _ _ (hplain _ hnoEscape), hnone _ _ (by decide +kernel)⟩

end Tilewalk.Text.Percent
