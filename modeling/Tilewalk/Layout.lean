import Tilewalk.Grid
import Tilewalk.Number.Decimal

/-! # Where the token is drawn, and for how long -/

namespace Tilewalk

/-- A place on the screen. -/
structure Point where
  x : Float
  y : Float

namespace Point

def origin : Point := ⟨0, 0⟩

instance : Inhabited Point := ⟨origin⟩

/-- `t` cut to the unit interval. What is not a number stays so, and a negative zero keeps its
sign. -/
def unitInterval (t : Float) : Float := if t < 0 then 0 else if 1 < t then 1 else t

/-- The place at the fraction `t` of the way from `a` to `b`. -/
def between (a b : Point) (t : Float) : Point :=
  let t := unitInterval t
  ⟨Number.fusedMulAdd (b.x - a.x) t a.x, Number.fusedMulAdd (b.y - a.y) t a.y⟩

def display (a : Point) : String :=
  s!"translate({Number.Form.plain.text a.x},{Number.Form.plain.text a.y})"

end Point

/-- The colour in which the token is drawn, as a style sheet writes it. -/
abbrev Fill := String

/-- Where the grid lies on the screen and how large its cells are. -/
structure Layout where
  originX : Float
  originY : Float
  cellSize : Float

namespace Layout

def corner (layout : Layout) (p : Position) : Point :=
  ⟨Number.fusedMulAdd (Float.ofInt p.x) layout.cellSize layout.originX,
    Number.fusedMulAdd (Float.ofInt p.y) layout.cellSize layout.originY⟩

end Layout

/-- A length of time in nanoseconds. -/
abbrev Duration := Nat

namespace Duration

def ofMillis (n : Nat) : Duration := n * 1000000

/-- The time in seconds: the whole seconds and the rest of one are added as floats. -/
def toSeconds (d : Duration) : Float :=
  Float.ofNat (d / 1000000000) + Float.ofNat (d % 1000000000) / 1000000000

end Duration

end Tilewalk
