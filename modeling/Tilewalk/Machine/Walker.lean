import Tilewalk.Machine.Basic

/-! # The walking token

In one step the token moves by one cell. Where to is up to the cell that it leaves: the start
sends it forward, as conveyors and writers do, and a branch reads the tape. It is accepted on the
goal, and rejected off the grid, on a cell without a tile, and at the limit of steps.
-/

namespace Tilewalk

/-- What stopped a token. -/
inductive Ending where
  | goal
  | edge
  /-- A cell without a tile. -/
  | gap
  | limit
deriving DecidableEq

/-- A machine whose state is where the token is. -/
structure Walker where
  program : Option Program := none
  tape : Tape := .empty
  limit : UInt32 := 0
  position : Position := ⟨0, 0⟩
  started : Bool := false
  isRunning : Bool := false
  ending : Option Ending := none
  steps : Nat := 0

namespace Walker

/-- The step count stays at this number once it is reached. -/
def maxSteps : Nat := 0xffffffff

/-- Where a branch sends the token, and the tape after it. A colour that the branch knows is
read, any other symbol is left. -/
def branchExit (tile : Tile) (first second : Colour) (tape : Tape) : Heading × Tape :=
  if tape.head = some first then (tile.exitOnFirst, tape.advance)
  else if tape.head = some second then (tile.exitOnSecond, tape.advance)
  else (tile.forward, tape)

/-- Where a tile sends the token, and the tape after it. -/
def tileExit (tile : Tile) (tape : Tape) : Heading × Tape :=
  match tile.kind.branchColours with
  | some (first, second) => branchExit tile first second tape
  | none => (tile.forward, tape.push tile.kind.written)

/-- How the token leaves the cell `place`; it cannot leave a cell without a tile. -/
@[inline] def exit? (p : Program) (place : Position) (tape : Tape) : Option (Heading × Tape) :=
  if place = p.start.position then some (p.start.orientation.forward, tape)
  else (p.tile? place).map (tileExit · tape)

/-- What stops the token when it moves to `place`, if anything does. -/
def endingAt (p : Program) (place : Position) : Option Ending :=
  if p.contains place then
    if place = p.goal.position then some .goal
    else if place ≠ p.start.position ∧ p.tile? place = none then some .gap
    else none
  else some .edge

def endBy (w : Walker) (ending : Ending) : Walker :=
  { w with isRunning := false, ending := some ending }

/-- The step limit, which counts only where nothing else stops the token. -/
def checkLimit (w : Walker) : Walker :=
  if 0 < w.limit ∧ w.limit.toNat ≤ w.steps then w.endBy .limit else w

/-- Takes the tape out of the walker, so that it can be written on in place. -/
@[noinline] def takeTape (w : Walker) : Tape × Walker := (w.tape, { w with tape := .empty })

/-- One move on the program `p`. The token does not go over the edge. -/
def move (w : Walker) (p : Program) : Walker :=
  let (tape, w) := w.takeTape
  let w := { w with steps := min (w.steps + 1) maxSteps }
  match exit? p w.position tape with
  | none => { w with tape }.endBy .gap
  | some (heading, tape) =>
    let next := w.position.neighbour heading
    match endingAt p next with
    | some .edge => { w with tape }.endBy .edge
    | some ending => { w with tape, position := next }.endBy ending
    | none => { w with tape, position := next }.checkLimit

def start (w : Walker) : Walker × Except MachineFault Unit :=
  match w.program with
  | none => (w, .error .noProgram)
  | some p =>
    ({ w with
        position := p.start.position
        started := true
        isRunning := true
        ending := none
        steps := 0 }, .ok ())

def step (w : Walker) : Walker × Except MachineFault Unit :=
  if !w.started then (w, .error .notStarted)
  else if !w.isRunning then (w, .error .halted)
  else
    match w.program with
    | none => (w, .error .noProgram)
    | some p => (w.move p, .ok ())

def accepts (w : Walker) : Bool := w.ending = some .goal

instance : Machine Walker where
  bindProgram w p := { w with program := some p }
  bindTape w tape := { w with tape }
  bindLimit w limit := { w with limit }
  start := start
  step := step
  isRunning := isRunning
  accepts := accepts
  position := position
  tape := tape
  steps := steps

end Walker

end Tilewalk
