import Tilewalk.Json.Fault
import Tilewalk.Program

/-! # Why a level text is refused -/

namespace Tilewalk

/-- Why a well-formed document describes no program. -/
inductive SchemaFault where
  | edit (error : EditFault)
  | duplicateCell (position : Position)

/-- Why a text is no positional program. -/
inductive PositionalFault where
  | missingPrefix
  | missingColon
  | badDimensions
  | badCols (numeral : List Char)
  | badRows (numeral : List Char)
  | wrongLength (expected found : Nat)
  | orientedEmpty (position : Position) (orientation : Char)
  | unknownKind (letter : Char)
  | unknownOrientation (letter : Char)
  | edit (error : EditFault)

inductive LevelFault where
  | empty
  | json (fault : Json.Fault)
  | schema (fault : SchemaFault)
  | positional (fault : PositionalFault)
  | symbol (letter : Char)
  | escape

namespace SchemaFault

def message : SchemaFault → String
  | edit error => error.message
  | duplicateCell p => s!"duplicate cell {p.display}"

end SchemaFault

namespace PositionalFault

def message : PositionalFault → String
  | missingPrefix => "missing `lvl` prefix"
  | missingColon => "missing `:` after the dimensions"
  | badDimensions => "dimensions must look like `9x9`"
  | badCols numeral => s!"bad column count {Text.quoted numeral}"
  | badRows numeral => s!"bad row count {Text.quoted numeral}"
  | wrongLength expected found => s!"expected {expected} cell characters, found {found}"
  | orientedEmpty p c => s!"empty cell {p.display} has orientation {Text.quotedChar c}"
  | unknownKind c => s!"unknown tile kind {Text.quotedChar c}"
  | unknownOrientation c => s!"unknown orientation {Text.quotedChar c}"
  | edit error => error.message

end PositionalFault

namespace LevelFault

def message : LevelFault → String
  | empty => "level string is empty"
  | json fault => s!"invalid level JSON: {fault.message}"
  | schema fault => s!"invalid level: {fault.message}"
  | positional fault => s!"invalid legacy level string: {fault.message}"
  | symbol c => s!"invalid tape symbol {Text.quotedChar c}"
  | escape => "escaped level string is not valid UTF-8"

end LevelFault

end Tilewalk
