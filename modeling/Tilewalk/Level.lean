import Tilewalk.Program
import Tilewalk.Tape

/-! # Levels

A level is a program with a title and the cases that it is tried on.
-/

namespace Tilewalk

/-- One trial: the program is run on `input`, and it passes when it accepts or rejects as
`accept` says and leaves `output` on the tape. An empty `output` leaves the tape unchecked. -/
structure Case where
  accept : Bool
  input : Tape
  output : Tape
  /-- The number of steps after which a run is cut off; zero is no limit. -/
  limit : UInt32

namespace Case

/-- The trial for a level that has none: an empty tape is to be accepted. -/
def default : Case := ⟨true, .empty, .empty, 0⟩

instance : Inhabited Case := ⟨default⟩

instance : BEq Case where
  beq a b := a.accept == b.accept && a.input == b.input && a.output == b.output &&
    a.limit == b.limit

end Case

structure Level where
  title : String
  cases : List Case
  program : Program

namespace Level

instance : BEq Level where
  beq a b := a.title == b.title && a.cases == b.cases && a.program == b.program

end Level

end Tilewalk
