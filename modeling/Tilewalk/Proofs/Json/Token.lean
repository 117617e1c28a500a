import Mathlib.Tactic.SplitIfs
import Tilewalk.Json.Token
import Tilewalk.Json.Value
import Tilewalk.Proofs.Result

/-! # Texts and numbers are read as they are written -/

open Tilewalk.Number (digits natural)

namespace Tilewalk

/-! ## Digits -/

namespace Number

theorem natural_digits (n : Nat) : natural (digits n) = n :=
  Nat.ofDigitChars_ten_toDigits

theorem isDigit_of_mem_digits {n : Nat} {c : Char} (h : c ∈ digits n) : c.isDigit = true :=
  Nat.isDigit_of_mem_toDigits (by decide) (by decide) h

theorem digits_ne_nil (n : Nat) : digits n ≠ [] := Nat.toDigits_ne_nil

theorem digits_ne_zero_cons {n : Nat} (hn : 0 < n) (ds : List Char) : digits n ≠ '0' :: ds := by
  intro h
  induction n using Nat.strongRecOn generalizing ds with
  | _ n ih =>
    by_cases hlt : n < 10
    · rw [digits, Nat.toDigits_of_lt_base hlt] at h
      have hzero : n = 0 := Nat.digitChar_eq_zero.mp (List.cons.inj h).1
      omega
    · -- The first digit is that of the number without its last digit.
      have hsplit : digits n = digits (n / 10) ++ [Nat.digitChar (n % 10)] :=
        Nat.toDigits_of_base_le (by decide) (by omega)
      obtain ⟨c, cs, hq⟩ := List.exists_cons_of_ne_nil (digits_ne_nil (n / 10))
      rw [hsplit, hq, List.cons_append] at h
      rw [(List.cons.inj h).1] at hq
      exact ih (n / 10) (by omega) (by omega) cs hq

end Number

namespace Json

/-! ## What stands behind a value -/

/-- Nothing, or what goes on with or closes a list or an object. -/
def Ends (rest : List Char) : Prop :=
  rest = [] ∨ ∃ c cs, rest = c :: cs ∧ (c = ',' ∨ c = ']' ∨ c = '\x7d')

theorem Ends.comma (cs : List Char) : Ends (',' :: cs) := .inr ⟨',', cs, rfl, .inl rfl⟩

theorem Ends.bracket (cs : List Char) : Ends (']' :: cs) := .inr ⟨']', cs, rfl, .inr (.inl rfl)⟩

theorem Ends.brace (cs : List Char) : Ends ('\x7d' :: cs) :=
  .inr ⟨'\x7d', cs, rfl, .inr (.inr rfl)⟩

/-! ## Numbers -/

variable (missing : List Char → Fault)

theorem digitRun_append {ds rest : List Char} (hne : ds ≠ [])
    (hds : ∀ c ∈ ds, c.isDigit = true) (h : Ends rest) :
    digitRun missing (ds ++ rest) = .ok (ds, rest) := by
  have hrest : rest.takeWhile Char.isDigit = [] ∧ rest.dropWhile Char.isDigit = rest := by
    rcases h with rfl | ⟨c, cs, rfl, rfl | rfl | rfl⟩ <;> exact ⟨rfl, rfl⟩
  unfold digitRun
  rw [List.takeWhile_append_of_pos hds, List.dropWhile_append_of_pos hds, hrest.1, hrest.2,
    List.append_nil]
  cases ds with
  | nil => exact absurd rfl hne
  | cons d ds => rfl

theorem numeralWhole_digits (n : Nat) {rest : List Char} (h : Ends rest) :
    numeralWhole missing (digits n ++ rest) = .ok (digits n, rest) := by
  unfold numeralWhole
  rw [digitRun_append missing (Number.digits_ne_nil n) (fun _ => Number.isDigit_of_mem_digits) h, ok_bind]
  dsimp only
  split
  · next heq =>
    cases n with
    | zero => cases heq
    | succ n => exact absurd heq (Number.digits_ne_zero_cons n.succ_pos _)
  · rfl

theorem numeralFraction_of_ends {rest : List Char} (h : Ends rest) :
    numeralFraction missing rest = .ok ([], rest) := by
  rcases h with rfl | ⟨c, cs, rfl, rfl | rfl | rfl⟩ <;> rfl

theorem numeralExponent_of_ends {rest : List Char} (h : Ends rest) :
    numeralExponent missing rest = .ok (none, rest) := by
  rcases h with rfl | ⟨c, cs, rfl, rfl | rfl | rfl⟩ <;> rfl

theorem digits_append_ne_minus (n : Nat) (rest cs : List Char) :
    digits n ++ rest ≠ '-' :: cs := by
  intro h
  obtain ⟨d, ds, hd⟩ := List.exists_cons_of_ne_nil (Number.digits_ne_nil n)
  have hdigit : d.isDigit = true := Number.isDigit_of_mem_digits (n := n) (by simp [hd])
  rw [hd, List.cons_append] at h
  rw [(List.cons.inj h).1] at hdigit
  exact absurd hdigit (by decide)

theorem numeral_writeInteger (n : Int) {rest : List Char} (h : Ends rest) :
    numeral missing (writeInteger n ++ rest) =
      .ok (⟨decide (n < 0), digits n.natAbs, [], none⟩, rest) := by
  have hwhole := numeralWhole_digits missing n.natAbs h
  have hfraction := numeralFraction_of_ends missing h
  have hexponent := numeralExponent_of_ends missing h
  unfold numeral writeInteger
  split_ifs with hn
  · rw [List.cons_append]
    dsimp only
    simp only [hwhole, hfraction, hexponent, ok_bind, hn]
    rfl
  · split
    next heq =>
      split at heq
      · next hminus => exact absurd hminus (digits_append_ne_minus _ _ _)
      · cases heq
        simp only [hwhole, hfraction, hexponent, ok_bind, hn]
        rfl

theorem value_digits {n : Int} (hlow : -0x8000000000000000 ≤ n)
    (hhigh : n < 0x10000000000000000) :
    (Numeral.mk (decide (n < 0)) (digits n.natAbs) [] none).value = .ok (.integer n) := by
  have hsize : UInt64.size = 0x10000000000000000 := rfl
  unfold Numeral.value
  simp only [Number.natural_digits, hsize]
  by_cases hn : n < 0
  · rw [if_neg (by simp [hn]), if_pos]
    · congr 2
      omega
    · simp [hn]
      omega
  · rw [if_pos]
    · congr 2
      omega
    · simp [hn]
      omega

theorem quantity_writeInteger {n : Int} (hlow : -0x8000000000000000 ≤ n)
    (hhigh : n < 0x10000000000000000) {rest : List Char} (h : Ends rest) :
    quantity (writeInteger n ++ rest) = .ok (.integer n, rest) := by
  unfold quantity
  rw [numeral_writeInteger missingDigit n h, ok_bind]
  dsimp only
  rw [value_digits hlow hhigh, ok_bind]

/-! ## Texts -/

theorem hexValue?_digitChar {n : Nat} (h : n < 16) : Text.hexValue? (Nat.digitChar n) = some n := by
  revert n
  decide

theorem hexQuad_digitChar {n : Nat} (h : n < 0x100) (cs : List Char) :
    hexQuad ('0' :: '0' :: Nat.digitChar (n / 16) :: Nat.digitChar (n % 16) :: cs) =
      .ok (n, cs) := by
  have hzero : Text.hexValue? '0' = some 0 := rfl
  unfold hexQuad
  dsimp only
  rw [hzero, hexValue?_digitChar (by omega), hexValue?_digitChar (by omega)]
  simp only [Except.ok.injEq, Prod.mk.injEq, and_true]
  omega

theorem escape_control {c : Char} (h : c.toNat < 0x20) (cs : List Char) :
    escape unicodeEscape ('u' :: '0' :: '0' :: Nat.digitChar (c.toNat / 16) ::
      Nat.digitChar (c.toNat % 16) :: cs) = .ok (c, cs) := by
  have hlow : isLowSurrogate c.toNat = false := by
    simp [isLowSurrogate]
    omega
  have hhigh : isHighSurrogate c.toNat = false := by
    simp [isHighSurrogate]
    omega
  show unicodeEscape _ = _
  unfold unicodeEscape
  rw [hexQuad_digitChar (by omega), ok_bind]
  simp [hlow, hhigh]

theorem textBody_writeChar (c : Char) (n : Nat) (cs : List Char) :
    textBody unicodeEscape (n + 1) (writeChar c ++ cs) =
      (textBody unicodeEscape n cs).map fun r => (c :: r.1, r.2) := by
  have hmap : (textBody unicodeEscape n cs).map (fun r => (c :: r.1, r.2)) =
      textBody unicodeEscape n cs >>= fun r => .ok (c :: r.1, r.2) := by
    cases textBody unicodeEscape n cs <;> rfl
  -- All the escapes go the same way, once the character comes out of them.
  have hescape : ∀ ds, escape unicodeEscape (ds ++ cs) = .ok (c, cs) →
      textBody unicodeEscape (n + 1) ('\\' :: ds ++ cs) =
        (textBody unicodeEscape n cs).map fun r => (c :: r.1, r.2) := by
    intro ds h
    rw [hmap]
    simp [textBody, h]
  unfold writeChar
  split_ifs with hquote hslash hb hf hn hr ht hcontrol
  · exact hescape _ (by rw [hquote]; rfl)
  · exact hescape _ (by rw [hslash]; rfl)
  · exact hescape _ (by rw [hb]; rfl)
  · exact hescape _ (by rw [hf]; rfl)
  · exact hescape _ (by rw [hn]; rfl)
  · exact hescape _ (by rw [hr]; rfl)
  · exact hescape _ (by rw [ht]; rfl)
  · exact hescape _ (escape_control hcontrol cs)
  · rw [hmap]
    simp [textBody, hquote, hslash, hcontrol]

theorem length_le_flatMap_writeChar (cs : List Char) :
    cs.length ≤ (cs.flatMap writeChar).length := by
  induction cs with
  | nil => exact Nat.le_refl 0
  | cons c cs ih =>
    have hpos : 0 < (writeChar c).length := by
      unfold writeChar
      split_ifs <;> exact Nat.succ_pos _
    rw [List.flatMap_cons, List.length_append, List.length_cons]
    omega

theorem textBody_flatMap_writeChar (cs rest : List Char) {n : Nat} (hn : cs.length < n) :
    textBody unicodeEscape n (cs.flatMap writeChar ++ '"' :: rest) = .ok (cs, rest) := by
  induction cs generalizing n with
  | nil =>
    obtain ⟨n, rfl⟩ := Nat.exists_eq_succ_of_ne_zero (Nat.ne_of_gt hn)
    rfl
  | cons c cs ih =>
    obtain ⟨n, rfl⟩ := Nat.exists_eq_succ_of_ne_zero (Nat.ne_zero_of_lt hn)
    rw [List.flatMap_cons, List.append_assoc, textBody_writeChar, ih (Nat.lt_of_succ_lt_succ hn)]
    rfl

/-- Whatever characters a text has, it is read up to its closing quote. -/
theorem text_flatMap_writeChar (cs rest : List Char) :
    text (cs.flatMap writeChar ++ '"' :: rest) = .ok (cs, rest) := by
  have hlength := length_le_flatMap_writeChar cs
  apply textBody_flatMap_writeChar
  simp only [List.length_append, List.length_cons]
  omega

end Json

end Tilewalk
