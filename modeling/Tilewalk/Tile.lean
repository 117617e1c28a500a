import Tilewalk.Colour
import Tilewalk.Grid

/-! # Tiles -/

namespace Tilewalk

/-- What a tile does to the token and the tape. -/
inductive Kind where
  | conveyor
  | branchBlueRed
  | branchGreenYellow
  | writer (colour : Colour)
deriving DecidableEq

namespace Kind

def all : List Kind :=
  [conveyor, branchBlueRed, branchGreenYellow, writer .red, writer .blue, writer .green,
    writer .yellow]

def name : Kind → String
  | conveyor => "Conveyor"
  | branchBlueRed => "BranchBR"
  | branchGreenYellow => "BranchGY"
  | writer .red => "WriteR"
  | writer .blue => "WriteB"
  | writer .green => "WriteG"
  | writer .yellow => "WriteY"

/-- The colours on which a branch turns aside: clockwise on the first of them and
counter-clockwise on the second. -/
def branchColours : Kind → Option (Colour × Colour)
  | branchBlueRed => some (.blue, .red)
  | branchGreenYellow => some (.green, .yellow)
  | _ => none

/-- The colour that a writer appends. -/
def written : Kind → Option Colour
  | writer colour => some colour
  | _ => none

end Kind

structure Tile where
  kind : Kind
  orientation : Orientation
deriving DecidableEq

namespace Tile

def forward (t : Tile) : Heading := t.orientation.forward

def exitOnFirst (t : Tile) : Heading :=
  if t.orientation.isMirrored then t.forward.counterclockwise else t.forward.clockwise

def exitOnSecond (t : Tile) : Heading :=
  if t.orientation.isMirrored then t.forward.clockwise else t.forward.counterclockwise

end Tile

end Tilewalk
