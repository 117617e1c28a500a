/-! # Digits, and exact arithmetic on floats

A finite float is a whole number times a power of two. Here it is taken apart, and exact results
are rounded back to the nearest float, once.
-/

namespace Tilewalk.Number

/-! ## Powers and decimal digits -/

def twoTo (n : Nat) : Nat := 1 <<< n

def tenTo (n : Nat) : Nat := Nat.pow 10 n

/-- The digits of a number, without leading zeros. -/
def digits (n : Nat) : List Char := Nat.toDigits 10 n

def digitValue (c : Char) : Nat := c.toNat - 48

def natural (ds : List Char) : Nat := ds.foldl (fun n d => 10 * n + digitValue d) 0

/-! ## Floats -/

/-- The quotient rounded to the nearest whole number, a half to the even one. -/
def roundDiv (num den : Nat) : Nat :=
  let q := num / den
  let r := num % den
  if den < 2 * r ∨ (2 * r = den ∧ q % 2 = 1) then q + 1 else q

/-- Whether the sign bit is set, also on a zero. -/
def isNegative (x : Float) : Bool := x.toBits >>> 63 = 1

/-- The significand of a finite float, less than `2 ^ 53`. -/
def significand (x : Float) : UInt64 :=
  let fraction := x.toBits &&& 0xfffffffffffff
  if (x.toBits >>> 52) &&& 0x7ff = 0 then fraction else fraction ||| 0x10000000000000

/-- The power of two by which the significand counts. -/
def exponent (x : Float) : Int :=
  max ((x.toBits >>> 52) &&& 0x7ff).toNat 1 - 1075

structure Scaled where
  mantissa : Int
  exponent : Int

namespace Scaled

/-- The exact value of a finite float, its mantissa odd unless it is zero. -/
def ofFloat (x : Float) : Scaled :=
  let m := significand x
  let power := m &&& (0 - m)
  let odd := (m / power).toNat
  { mantissa := if isNegative x then -odd else odd
    exponent := Number.exponent x + power.log2.toNat }

def mul (a b : Scaled) : Scaled := ⟨a.mantissa * b.mantissa, a.exponent + b.exponent⟩

def add (a b : Scaled) : Scaled :=
  let e := min a.exponent b.exponent
  ⟨a.mantissa * twoTo (a.exponent - e).toNat + b.mantissa * twoTo (b.exponent - e).toNat, e⟩

/-- The bits of the float nearest to `n * 2 ^ e`, of infinity when that is too large. -/
def magnitudeBits (n : Nat) (e : Int) : Nat :=
  let q := max (e + n.log2 - 52) (-1074)
  let m := if q ≤ e then n * twoTo (e - q).toNat else roundDiv n (twoTo (q - e).toNat)
  min ((q + 1074).toNat * twoTo 52 + m) 0x7ff0000000000000

/-- The nearest float, a half to the even one. -/
def toFloat (s : Scaled) : Float :=
  let bits := magnitudeBits s.mantissa.natAbs s.exponent
  Float.ofBits (UInt64.ofNat (if s.mantissa < 0 then twoTo 63 + bits else bits))

end Scaled

/-- `x * y + z` with one rounding. The plain operations are exact where the result is zero, and
where an operand of the product is not finite no rounding takes place. -/
def fusedMulAdd (x y z : Float) : Float :=
  if x.isFinite && y.isFinite then
    if z.isFinite then
      let sum := ((Scaled.ofFloat x).mul (Scaled.ofFloat y)).add (Scaled.ofFloat z)
      if sum.mantissa = 0 then x * y + z else sum.toFloat
    else z
  else x * y + z

end Tilewalk.Number
