import Tilewalk.Level.Error
import Tilewalk.Number.Scaled
import Tilewalk.Text.Basic

/-! # Positional programs

`lvl`, the dimensions, a colon, and two letters for each cell, row by row: what the tile is and
how it lies, or two points for a cell without a tile. The endpoints are not written; they are
those of an empty grid.
-/

open Tilewalk.Number (digits natural)

namespace Tilewalk.Positional

/-! ## Letters -/

def opening : List Char := ['l', 'v', 'l']

def kindLetter : Kind → Char
  | .conveyor => 'c'
  | .branchBlueRed => 'b'
  | .branchGreenYellow => 'g'
  | .writer colour => colour.letter

def orientationLetter : Orientation → Char
  | .identity => '0'
  | .turned1 => '1'
  | .turned2 => '2'
  | .turned3 => '3'
  | .mirrored => 'm'

def kindOf? (c : Char) : Option Kind := Kind.all.find? fun k => kindLetter k == c

def orientationOf? (c : Char) : Option Orientation :=
  Orientation.all.find? fun o => orientationLetter o == c

def cellLetters : Option Tile → List Char
  | none => ['.', '.']
  | some tile => [kindLetter tile.kind, orientationLetter tile.orientation]

/-- What two letters stand for, at the cell `place`. -/
def readCell (place : Position) (kind orientation : Char) : Except PositionalFault (Option Tile) :=
  if kind = '.' then
    if orientation = '.' then .ok none else .error (.orientedEmpty place orientation)
  else
    match kindOf? kind with
    | none => .error (.unknownKind kind)
    | some k =>
      match orientationOf? orientation with
      | none => .error (.unknownOrientation orientation)
      | some o => .ok (some ⟨k, o⟩)

/-! ## Reading -/

/-- The digits of a numeral, behind the plus sign that it may have. -/
def unsigned : List Char → List Char
  | '+' :: rest => rest
  | cs => cs

/-- The value of a numeral of 32 bits, which may have a plus sign and leading zeros. -/
def count? (cs : List Char) : Option Nat :=
  let ds := unsigned cs
  let n := natural ds
  if ds ≠ [] ∧ ds.all Char.isDigit ∧ n < UInt32.size then some n else none

/-- The cell with this number, counted row by row. -/
def cellAt (cols index : Nat) : Position := ⟨(index % cols : Nat), (index / cols : Nat)⟩

/-- Puts tiles on the cells from `index` on. -/
def placeFrom : Nat → List Char → Program → Except PositionalFault Program
  | index, kind :: orientation :: rest, p => do
    let place := cellAt p.cols index
    match ← readCell place kind orientation with
    | none => placeFrom (index + 1) rest p
    | some tile =>
      let q ← (p.placeTile place tile).mapError .edit
      placeFrom (index + 1) rest q
  | _, _, p => .ok p

/-- The empty grid and the letters of its cells. -/
def header (text : List Char) : Except PositionalFault (Program × List Char) := do
  if ¬ opening.isPrefixOf text then throw .missingPrefix
  let some (dimensions, cells) := Text.cut? ':' (text.drop opening.length)
    | throw .missingColon
  let some (cols, rows) := Text.cut? 'x' dimensions
    | throw .badDimensions
  let some c := count? cols
    | throw (.badCols cols)
  let some r := count? rows
    | throw (.badRows rows)
  let blank ← (Program.blank c r).mapError .edit
  return (blank, cells)

def decode (text : List Char) : Except PositionalFault Program := do
  let (blank, cells) ← header text
  if cells.length = 2 * blank.cols * blank.rows then placeFrom 0 cells blank
  else .error (.wrongLength (2 * blank.cols * blank.rows) cells.length)

/-! ## Writing -/

/-- The cells of a grid, row by row. -/
def places (p : Program) : List Position :=
  (List.range p.rows).flatMap fun y => (List.range p.cols).map fun x => ⟨(x : Nat), (y : Nat)⟩

def encode (p : Program) : List Char :=
  opening ++ digits p.cols ++ 'x' :: digits p.rows ++
    ':' :: (places p).flatMap fun place => cellLetters (p.tile? place)

end Tilewalk.Positional
