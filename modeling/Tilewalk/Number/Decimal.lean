import Tilewalk.Number.Scaled

/-! # Decimal texts of floats

The fewest digits that read back as the same float, the ways in which they are laid out, and a
fixed number of places.
-/

namespace Tilewalk.Number

/-- The value `digits * 10 ^ exponent`. -/
structure Decimal where
  digits : Nat
  exponent : Int

/-! ## The fewest digits -/

/-- The real numbers `low`, `value` and `high` over a common denominator. All reals between the
outer ones round to the same float; the ends do so when `closed`. -/
structure Span where
  low : Nat
  value : Nat
  high : Nat
  den : Nat
  closed : Bool

namespace Span

/-- The reals that round to `m * 2 ^ q`. Below a power of two the floats lie twice as dense. -/
def ofScaled (m : Nat) (q : Int) : Span :=
  let narrow := m = twoTo 52 ∧ -1074 < q
  let up := twoTo (q - 2).toNat
  { low := (4 * m - if narrow then 1 else 2) * up
    value := 4 * m * up
    high := (4 * m + 2) * up
    den := twoTo (2 - q).toNat
    closed := m % 2 = 0 }

def admits (s : Span) (c : Nat) : Bool :=
  (s.low < c && c < s.high) || (s.closed && (c == s.low || c == s.high))

/-- The multiple of `10 ^ k` in the span that is nearest to the value, as a count of them. One of
the two neighbours of the value is in the span if any multiple is. A tie goes up when `tieUp`,
otherwise to the even count. -/
def onGrid? (s : Span) (tieUp : Bool) (k : Int) : Option Nat :=
  let finer := tenTo (-k).toNat
  let t : Span :=
    { s with low := s.low * finer, value := s.value * finer, high := s.high * finer }
  let unit := t.den * tenTo k.toNat
  let c := t.value / unit
  let below := t.value - c * unit
  let above := (c + 1) * unit - t.value
  match t.admits (c * unit), t.admits ((c + 1) * unit) with
  | true, true =>
    if below < above ∨ (below = above ∧ tieUp = false ∧ c % 2 = 0) then some c else some (c + 1)
  | true, false => some c
  | false, true => some (c + 1)
  | false, false => none

/-- Tries the grids of `k`, `k - 1`, … and takes the first that meets the span. -/
def firstGrid (s : Span) (tieUp : Bool) : Nat → Int → Decimal
  | 0, k => ⟨s.value * tenTo (-k).toNat / (s.den * tenTo k.toNat), k⟩
  | n + 1, k =>
    match s.onGrid? tieUp k with
    | some c => ⟨c, k⟩
    | none => firstGrid s tieUp n (k - 1)

end Span

/-- The fewest digits that read back as the finite float `x`, its sign left out. The first grid
is coarser than the value, and 17 digits always suffice. -/
def shortest (tieUp : Bool) (x : Float) : Decimal :=
  let m := (significand x).toNat
  if m = 0 then ⟨0, 0⟩
  else
    let q := exponent x
    (Span.ofScaled m q).firstGrid tieUp 20 ((q + m.log2) * 30103 / 100000 + 2)

/-! ## Layout -/

def zeros (n : Int) : List Char := List.replicate n.toNat '0'

/-- How a decimal is written: where the point may stand without an exponent being written, and
what follows a whole number. -/
structure Form where
  positional : Int → Bool
  afterWhole : List Char
  tieUp : Bool

namespace Form

/-- Every digit is written out, and whole numbers have no point. -/
def plain : Form := ⟨fun _ => true, [], true⟩

/-- Whole numbers end in `.0`; an exponent is written from `10 ^ 16` on and below `10 ^ -5`. -/
def marked : Form := ⟨fun point => -5 < point && point ≤ 16, ['.', '0'], false⟩

/-- A decimal without its sign. `point` counts the digits before the point. -/
def lay (form : Form) (d : Decimal) : List Char :=
  let ds := digits d.digits
  let point : Int := ds.length + d.exponent
  if form.positional point then
    if 0 ≤ d.exponent then ds ++ zeros d.exponent ++ form.afterWhole
    else if 0 < point then ds.take point.toNat ++ '.' :: ds.drop point.toNat
    else '0' :: '.' :: zeros (-point) ++ ds
  else
    let e := point - 1
    let fraction := if ds.length = 1 then [] else '.' :: ds.drop 1
    ds.take 1 ++ fraction ++ ['e', if e < 0 then '-' else '+'] ++ digits e.natAbs

/-- The text of a float: its sign, then its shortest digits. -/
def text (form : Form) (x : Float) : String :=
  if x.isNaN then "NaN"
  else
    let body := if x.isInf then ['i', 'n', 'f'] else form.lay (shortest form.tieUp x)
    String.ofList (if isNegative x then '-' :: body else body)

end Form

/-! ## A fixed number of places -/

/-- A finite float that is not negative, rounded to two places; a half goes to the even digit. -/
def twoPlaces (x : Float) : String :=
  let s := Scaled.ofFloat x
  let n := roundDiv (s.mantissa.toNat * 100 * twoTo s.exponent.toNat) (twoTo (-s.exponent).toNat)
  let cents := n % 100
  String.ofList (digits (n / 100) ++ '.' :: digits (cents / 10) ++ digits (cents % 10))

end Tilewalk.Number
