/-! # The tape alphabet -/

namespace Tilewalk

/-- A colour that a tape cell can hold. -/
inductive Colour where
  | red
  | blue
  | green
  | yellow
deriving DecidableEq

/-- What a tape head reads: a colour, or nothing once it is past the last cell. -/
abbrev Symbol := Option Colour

namespace Colour

def all : List Colour := [red, blue, green, yellow]

def letter : Colour → Char
  | red => 'R'
  | blue => 'B'
  | green => 'G'
  | yellow => 'Y'

def ofLetter? (c : Char) : Option Colour :=
  all.find? fun colour => colour.letter == c

@[simp] theorem ofLetter?_letter (colour : Colour) : ofLetter? colour.letter = some colour := by
  cases colour <;> rfl

theorem letter_of_ofLetter? {c : Char} {colour : Colour} (h : ofLetter? c = some colour) :
    colour.letter = c := by
  simpa using List.find?_some h

end Colour

namespace Symbol

/-- The text of a symbol: its letter, or an underscore for nothing. -/
def display : Symbol → Char
  | some colour => colour.letter
  | none => '_'

end Symbol

end Tilewalk
