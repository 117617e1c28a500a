import Tilewalk.Session

/-! # What the commands print

A command that is refused exits with status 2 and says why.
-/

namespace Tilewalk.CommandLine

/-- What a command leaves: its exit status, its output, and the reason if it was refused. -/
structure Report where
  exit : Nat
  output : String
  refusal : Option String

namespace Report

def refuse (reason : String) : Report := ⟨2, "", some reason⟩

def ofExcept : Except String Report → Report
  | .ok report => report
  | .error reason => refuse reason

def errorText (r : Report) : String := (r.refusal.map ("Error: " ++ ·)).getD ""

end Report

/-! ## Pieces of lines -/

def padRight (width : Nat) (s : String) : String :=
  s ++ String.ofList (List.replicate (width - s.length) ' ')

def emptyAsDash (s : String) : String := if s.isEmpty then "-" else s

def verdictWord (accept : Bool) : String := if accept then "accept" else "reject"

def outcomeLine (o : Outcome) : String :=
  let status := if o.passed then "PASS" else "FAIL"
  let verdict := padRight 6 (verdictWord o.accept)
  let fault := (o.fault.map ("  fault: " ++ ·)).getD ""
  s!"case {padRight 3 (toString o.index)} {status}  {verdict} " ++
    s!"steps={padRight 5 (toString o.steps)} tape={emptyAsDash o.tape}{fault}\n"

/-! ## Events -/

/-- What is printed of an event. With `json` only the outcomes are, at the end. -/
def eventText (json : Bool) : Event → String
  | .caseFinished outcome => if json then "" else outcomeLine outcome
  | .stopped => if json then "" else "run stopped before every case was judged\n"
  | _ => ""

def eventsText (json : Bool) (events : List Event) : String :=
  String.join (events.map (eventText json))

/-! ## Levels -/

/-- The character for a tile: an arrow for a conveyor, a letter for the others. -/
def tileMark (tile : Tile) : Char :=
  match tile.kind with
  | .conveyor =>
    match tile.forward with
    | .up => '^'
    | .right => '>'
    | .down => 'v'
    | .left => '<'
  | .branchBlueRed => 'b'
  | .branchGreenYellow => 'g'
  | .writer colour => colour.letter

def cellMark (p : Program) (place : Position) : Char :=
  if place = p.start.position then 'S'
  else if place = p.goal.position then 'E'
  else ((p.tile? place).map tileMark).getD '.'

/-- The grid, one line for each row. -/
def gridText (p : Program) : String :=
  String.join <| (List.range p.rows).map fun y =>
    String.ofList ((List.range p.cols).map fun x => cellMark p ⟨(x : Nat), (y : Nat)⟩) ++ "\n"

def caseLine (index : Nat) (c : Case) : String :=
  let limit := if c.limit = 0 then "unlimited" else toString c.limit.toNat
  s!"case {padRight 3 (toString index)} {padRight 6 (verdictWord c.accept)} " ++
    s!"input={padRight 12 (emptyAsDash c.input.display)} " ++
    s!"output={padRight 12 (emptyAsDash c.output.display)} limit={limit}\n"

def casesText (cases : List Case) : String :=
  if cases.isEmpty then "no test cases\n"
  else String.join (cases.mapIdx caseLine)

end Tilewalk.CommandLine
