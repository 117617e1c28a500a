/-! # Digits, blanks and cuts

What reading a text takes: hexadecimal digits, the Unicode `White_Space` characters at its ends, and
the first mark in it.
-/

namespace Tilewalk.Text

/-! ## Hexadecimal digits -/

/-- A number in lower-case digits, without leading zeros. -/
def hex (n : Nat) : List Char := Nat.toDigits 16 n

/-- The value of a digit of either case. -/
def hexValue? (c : Char) : Option Nat :=
  if '0' ≤ c ∧ c ≤ '9' then some (c.toNat - 48)
  else if 'a' ≤ c ∧ c ≤ 'f' then some (c.toNat - 87)
  else if 'A' ≤ c ∧ c ≤ 'F' then some (c.toNat - 55)
  else none

/-- The upper-case digit of a number below sixteen. -/
def upperHexDigit (n : Nat) : Char :=
  if n < 10 then Char.ofNat (48 + n) else Char.ofNat (55 + n)

/-! ## Blanks -/

/-- The `White_Space` property: 25 characters, the zero-width ones not among them. -/
def isBlank (c : Char) : Bool :=
  let n := c.toNat
  (0x9 ≤ n && n ≤ 0xd) || n == 0x20 || n == 0x85 || n == 0xa0 || n == 0x1680 ||
    (0x2000 ≤ n && n ≤ 0x200a) || n == 0x2028 || n == 0x2029 || n == 0x202f ||
    n == 0x205f || n == 0x3000

/-- The characters from the first that is not blank to the last that is not. -/
def trim (cs : List Char) : List Char :=
  ((cs.dropWhile isBlank).reverse.dropWhile isBlank).reverse

@[simp] theorem trim_nil : trim [] = [] := rfl

/-! ## Cutting in two -/

/-- The text before and after the first `mark`. -/
def cut? (mark : Char) : List Char → Option (List Char × List Char)
  | [] => none
  | c :: rest =>
    if c = mark then some ([], rest) else (cut? mark rest).map fun r => (c :: r.1, r.2)

theorem cut?_eq_none_iff {mark : Char} {cs : List Char} : cut? mark cs = none ↔ mark ∉ cs := by
  induction cs with
  | nil => simp [cut?]
  | cons c rest ih =>
    by_cases h : c = mark
    · simp [cut?, h]
    · simp [cut?, h, ih, Ne.symm h]

theorem eq_of_cut? {mark : Char} {cs before after : List Char}
    (h : cut? mark cs = some (before, after)) :
    cs = before ++ mark :: after ∧ mark ∉ before := by
  induction cs generalizing before with
  | nil => simp [cut?] at h
  | cons c rest ih =>
    by_cases hc : c = mark
    · simp only [cut?, hc, ↓reduceIte, Option.some.injEq, Prod.mk.injEq] at h
      simp [← h.1, ← h.2, hc]
    · simp only [cut?, hc, ↓reduceIte, Option.map_eq_some_iff] at h
      obtain ⟨⟨b, a⟩, hr, hp⟩ := h
      simp only [Prod.mk.injEq] at hp
      obtain ⟨rfl, rfl⟩ := hp
      obtain ⟨h₁, h₂⟩ := ih hr
      simp [h₁, h₂, Ne.symm hc]

end Tilewalk.Text
