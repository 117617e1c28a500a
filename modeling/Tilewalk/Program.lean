import Tilewalk.Tile

/-! # Programs

A program is a grid with tiles on some of its cells and two endpoints, where the token starts
and where it is accepted. Every edit checks its arguments first, so an edit that is refused has
changed nothing.
-/

namespace Tilewalk

/-- A start or goal cell. The start's orientation gives the first move. -/
structure Endpoint where
  position : Position
  orientation : Orientation
deriving DecidableEq, Inhabited

/-- Tiles by cell, in column order and within a column in row order. -/
abbrev Cells := Std.ExtTreeMap Position Tile

structure Program where
  cols : Nat
  rows : Nat
  cells : Cells
  start : Endpoint
  goal : Endpoint
deriving DecidableEq

/-- Why a grid could not be made or an edit is refused. -/
inductive EditFault where
  | outOfBounds (position : Position) (cols rows : Nat)
  | reserved (position : Position)
  | badDimensions (cols rows : Nat)
deriving DecidableEq

namespace EditFault

def message : EditFault → String
  | outOfBounds p cols rows => s!"cell {p.display} is outside the {cols}x{rows} grid"
  | reserved p => s!"cell {p.display} is reserved for an endpoint"
  | badDimensions cols rows => s!"grid dimensions {cols}x{rows} are not positive"

end EditFault

namespace Program

/-- The largest number of columns or rows; every coordinate is below it. -/
def maxDimension : Nat := 0x7fffffff

/-- Whether a grid can have `n` columns or rows. -/
def isDimension (n : Nat) : Bool := 0 < n && n ≤ maxDimension

/-- Where the start of an empty grid lies: in the middle of the top row. -/
def defaultStart (cols : Nat) : Endpoint := ⟨⟨(cols / 2 : Nat), 0⟩, .identity⟩

/-- Where the goal of an empty grid lies: in the middle of the bottom row. -/
def defaultGoal (cols rows : Nat) : Endpoint := ⟨⟨(cols / 2 : Nat), (rows : Int) - 1⟩, .identity⟩

def blank (cols rows : Nat) : Except EditFault Program :=
  if isDimension cols && isDimension rows then
    .ok ⟨cols, rows, ∅, defaultStart cols, defaultGoal cols rows⟩
  else
    .error (.badDimensions cols rows)

def contains (p : Program) (place : Position) : Bool :=
  0 ≤ place.x && 0 ≤ place.y && place.x < p.cols && place.y < p.rows

def tile? (p : Program) (place : Position) : Option Tile := p.cells[place]?

/-- All tiles with their cells, in column order and within a column in row order. -/
def tiles (p : Program) : List (Position × Tile) := p.cells.toList

def tileCount (p : Program) : Nat := p.cells.size

/-! ## Edits -/

def requireInside (p : Program) (place : Position) : Except EditFault Unit :=
  if p.contains place then .ok () else .error (.outOfBounds place p.cols p.rows)

/-- Puts a tile on a cell that holds no endpoint; a tile that lay there is replaced. -/
def placeTile (p : Program) (place : Position) (tile : Tile) : Except EditFault Program := do
  p.requireInside place
  if place = p.start.position ∨ place = p.goal.position then
    .error (.reserved place)
  else
    .ok { p with cells := p.cells.insert place tile }

def removeTile (p : Program) (place : Position) : Program :=
  { p with cells := p.cells.erase place }

/-- Moves the start; a tile on its new cell is removed. -/
def moveStart (p : Program) (start : Endpoint) : Except EditFault Program := do
  p.requireInside start.position
  if start.position = p.goal.position then
    .error (.reserved start.position)
  else
    .ok { p with cells := p.cells.erase start.position, start }

/-- Moves the goal; a tile on its new cell is removed. -/
def moveGoal (p : Program) (goal : Endpoint) : Except EditFault Program := do
  p.requireInside goal.position
  if goal.position = p.start.position then
    .error (.reserved goal.position)
  else
    .ok { p with cells := p.cells.erase goal.position, goal }

/-- Moves both endpoints at once, so that they can trade places. -/
def moveEndpoints (p : Program) (start goal : Endpoint) : Except EditFault Program := do
  p.requireInside start.position
  p.requireInside goal.position
  if start.position = goal.position then
    .error (.reserved goal.position)
  else
    .ok { p with cells := (p.cells.erase start.position).erase goal.position, start, goal }

end Program

/-! ## Edits as data -/

inductive Edit where
  | placeTile (place : Position) (tile : Tile)
  | removeTile (place : Position)
  | moveStart (start : Endpoint)
  | moveGoal (goal : Endpoint)
  | moveEndpoints (start goal : Endpoint)

namespace Edit

def apply : Edit → Program → Except EditFault Program
  | placeTile place tile, p => p.placeTile place tile
  | removeTile place, p => .ok (p.removeTile place)
  | moveStart start, p => p.moveStart start
  | moveGoal goal, p => p.moveGoal goal
  | moveEndpoints start goal, p => p.moveEndpoints start goal

/-- Applies edits in order up to the first that is refused, and keeps what came before it. -/
def applyAll : List Edit → Program → Program × Except EditFault Unit
  | [], p => (p, .ok ())
  | e :: rest, p =>
    match e.apply p with
    | .ok q => applyAll rest q
    | .error error => (p, .error error)

end Edit

end Tilewalk
