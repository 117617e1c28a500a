import Tilewalk.Json.Reader
import Tilewalk.Json.Value
import Tilewalk.Level
import Tilewalk.Level.Error

/-! # Level documents

A document lists the cases twice: with all they expect, and for older readers as input tapes
alone. When both are there the full list counts.
-/

namespace Tilewalk

/-- What a document says about a program, before the grid has been checked. -/
structure Blueprint where
  cols : Nat
  rows : Nat
  cells : List (Position × Tile)
  start : Endpoint
  goal : Endpoint

structure CaseEntry where
  accept : Bool
  input : List Char
  output : List Char
  limit : Nat

structure LevelDocument where
  title : List Char
  tapes : List (List Char)
  cases : Option (List CaseEntry)
  program : Blueprint

/-! ## Reading -/

section Shapes

open Json Json.Field

def readOrientation : Read Orientation :=
  readVariant (Orientation.all.map fun o => (o.name, o))

def readKind : Read Kind := readVariant (Kind.all.map fun k => (k.name, k))

def endpointShape : Shape Endpoint where
  name := "EndpointDoc"
  blank := ⟨⟨0, 0⟩, .identity⟩
  fields := [
    ofRead "x" true readInt32 fun e x => { e with position := ⟨x, e.position.y⟩ },
    ofRead "y" true readInt32 fun e y => { e with position := ⟨e.position.x, y⟩ },
    ofRead "orientation" false readOrientation fun e o => { e with orientation := o }]

def cellShape : Shape (Position × Tile) where
  name := "CellDoc"
  blank := (⟨0, 0⟩, ⟨.conveyor, .identity⟩)
  fields := [
    ofRead "x" true readInt32 fun c x => (⟨x, c.1.y⟩, c.2),
    ofRead "y" true readInt32 fun c y => (⟨c.1.x, y⟩, c.2),
    ofRead "orientation" true readOrientation fun c o => (c.1, ⟨c.2.kind, o⟩),
    ofRead "type" true readKind fun c k => (c.1, ⟨k, c.2.orientation⟩)]

def programShape : Shape Blueprint where
  name := "ProgramDoc"
  blank := ⟨0, 0, [], endpointShape.blank, endpointShape.blank⟩
  fields := [
    ofRead "cols" true readNat32 fun p n => { p with cols := n },
    ofRead "rows" true readNat32 fun p n => { p with rows := n },
    ofRead "cells" false (readList cellShape.read) fun p cells => { p with cells },
    ofRead "start" true endpointShape.read fun p start => { p with start },
    ofRead "end" true endpointShape.read fun p goal => { p with goal }]

def caseShape : Shape CaseEntry where
  name := "TestCaseDoc"
  blank := ⟨false, [], [], 0⟩
  fields := [
    ofRead "accept" true readBoolean fun c accept => { c with accept },
    ofRead "input" true readText fun c input => { c with input },
    ofRead "output" false readText fun c output => { c with output },
    ofRead "limit" false readNat32 fun c limit => { c with limit }]

def levelShape : Shape LevelDocument where
  name := "LevelDoc"
  blank := ⟨[], [], none, programShape.blank⟩
  fields := [
    ofRead "title" true readText fun d title => { d with title },
    ofRead "tape" false (readList readText) fun d tapes => { d with tapes },
    ofRead "testCases" false (readOption (readList caseShape.read)) fun d cases => { d with cases },
    ofRead "program" true programShape.read fun d program => { d with program }]

end Shapes

namespace Blueprint

/-- Puts the listed tiles on the grid in turn. No cell may be listed twice. -/
def placeAll : List (Position × Tile) → Std.ExtTreeMap Position Unit → Program →
    Except SchemaFault Program
  | [], _, p => .ok p
  | (place, tile) :: rest, seen, p =>
    if seen.contains place then .error (.duplicateCell place)
    else
      match p.placeTile place tile with
      | .ok q => placeAll rest (seen.insert place ()) q
      | .error error => .error (.edit error)

/-- The program that a blueprint describes: the endpoints are set before the tiles. -/
def build (b : Blueprint) : Except SchemaFault Program := do
  let blank ← (Program.blank b.cols b.rows).mapError .edit
  let p ← (blank.moveEndpoints b.start b.goal).mapError .edit
  placeAll b.cells ∅ p

def ofProgram (p : Program) : Blueprint := ⟨p.cols, p.rows, p.tiles, p.start, p.goal⟩

end Blueprint

def readTape (letters : List Char) : Except LevelFault Tape :=
  match Tape.readLetters letters with
  | .ok colours => .ok (.ofColours colours)
  | .error c => .error (.symbol c)

namespace CaseEntry

def toCase (e : CaseEntry) : Except LevelFault Case := do
  let input ← readTape e.input
  let output ← readTape e.output
  .ok ⟨e.accept, input, output, UInt32.ofNat e.limit⟩

/-- The case for a tape of the short list: it is to be accepted, whatever it leaves. -/
def ofTape (input : List Char) : CaseEntry := ⟨true, input, [], 0⟩

def ofCase (c : Case) : CaseEntry :=
  ⟨c.accept, c.input.letters, c.output.letters, c.limit.toNat⟩

end CaseEntry

namespace LevelDocument

/-- The cases that count. -/
def entries (d : LevelDocument) : List CaseEntry :=
  d.cases.getD (d.tapes.map CaseEntry.ofTape)

/-- The level that a document describes. The program is checked before the tapes. -/
def toLevel (d : LevelDocument) : Except LevelFault Level := do
  let program ← d.program.build.mapError .schema
  let cases ← d.entries.mapM CaseEntry.toCase
  .ok ⟨String.ofList d.title, cases, program⟩

def ofLevel (l : Level) : LevelDocument where
  title := l.title.toList
  tapes := l.cases.map fun c => c.input.letters
  cases := some (l.cases.map CaseEntry.ofCase)
  program := .ofProgram l.program

end LevelDocument

/-! ## Writing -/

section Values

open Json

def Endpoint.toJson (e : Endpoint) : Value := .object [
  ("x", .integer e.position.x),
  ("y", .integer e.position.y),
  ("orientation", .text e.orientation.name.toList)]

def cellToJson (c : Position × Tile) : Value := .object [
  ("x", .integer c.1.x),
  ("y", .integer c.1.y),
  ("orientation", .text c.2.orientation.name.toList),
  ("type", .text c.2.kind.name.toList)]

def Blueprint.toJson (b : Blueprint) : Value := .object [
  ("cols", .integer b.cols),
  ("rows", .integer b.rows),
  ("cells", .list (b.cells.map cellToJson)),
  ("start", b.start.toJson),
  ("end", b.goal.toJson)]

def CaseEntry.toJson (e : CaseEntry) : Value := .object [
  ("accept", .boolean e.accept),
  ("input", .text e.input),
  ("output", .text e.output),
  ("limit", .integer e.limit)]

def LevelDocument.toJson (d : LevelDocument) : Value :=
  let cases := match d.cases with
    | some cases => [("testCases", .list (cases.map CaseEntry.toJson))]
    | none => []
  .object ([("title", .text d.title), ("tape", .list (d.tapes.map .text))] ++ cases ++
    [("program", d.program.toJson)])

end Values

namespace Level

def encode (l : Level) : String := String.ofList (LevelDocument.ofLevel l).toJson.compact

def decodeDocument (text : List Char) : Except LevelFault Level := do
  let d ← (Json.readDocument levelShape.read text).mapError .json
  d.toLevel

end Level

end Tilewalk
