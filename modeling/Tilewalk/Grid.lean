import Std.Data.ExtTreeMap

/-! # Places and headings on the grid

Columns count to the right and rows count down, both from zero.
-/

namespace Tilewalk

/-! ## Positions -/

/-- A grid cell, or a place beside the grid. -/
structure Position where
  x : Int
  y : Int
deriving DecidableEq, Inhabited

namespace Position

/-- Columns first, then rows. -/
instance : Ord Position := ⟨compareLex (compareOn Position.x) (compareOn Position.y)⟩

instance : Std.TransOrd Position :=
  inferInstanceAs (Std.TransCmp (compareLex (compareOn Position.x) (compareOn Position.y)))

instance : Std.LawfulEqOrd Position where
  eq_of_compare {a b} h := by
    have h : (compare a.x b.x).then (compare a.y b.y) = .eq := h
    rw [Ordering.then_eq_eq] at h
    obtain ⟨hx, hy⟩ := h
    cases a
    cases b
    simp_all [Std.LawfulEqCmp.compare_eq_iff_eq]

def display (p : Position) : String := s!"({p.x}, {p.y})"

end Position

/-! ## Headings -/

/-- One of the four ways to leave a cell. -/
inductive Heading where
  | up
  | right
  | down
  | left
deriving DecidableEq

namespace Heading

def delta : Heading → Int × Int
  | up => (0, -1)
  | right => (1, 0)
  | down => (0, 1)
  | left => (-1, 0)

def clockwise : Heading → Heading
  | up => right
  | right => down
  | down => left
  | left => up

def counterclockwise : Heading → Heading
  | up => left
  | left => down
  | down => right
  | right => up

@[simp] theorem clockwise_counterclockwise (h : Heading) : h.counterclockwise.clockwise = h := by
  cases h <;> rfl

@[simp] theorem counterclockwise_clockwise (h : Heading) : h.clockwise.counterclockwise = h := by
  cases h <;> rfl

end Heading

def Position.neighbour (p : Position) (h : Heading) : Position :=
  ⟨p.x + h.delta.1, p.y + h.delta.2⟩

/-! ## Orientations -/

/-- How a tile lies: turned by quarters from pointing down, or with its sides swapped. -/
inductive Orientation where
  | identity
  | turned1
  | turned2
  | turned3
  | mirrored
deriving DecidableEq, Inhabited

namespace Orientation

def all : List Orientation := [identity, turned1, turned2, turned3, mirrored]

def name : Orientation → String
  | identity => "ID"
  | turned1 => "ROT1"
  | turned2 => "ROT2"
  | turned3 => "ROT3"
  | mirrored => "MIR"

/-- Where a token goes that passes straight through. -/
def forward : Orientation → Heading
  | identity | mirrored => .down
  | turned1 => .left
  | turned2 => .up
  | turned3 => .right

def isMirrored : Orientation → Bool
  | mirrored => true
  | _ => false

end Orientation

end Tilewalk
