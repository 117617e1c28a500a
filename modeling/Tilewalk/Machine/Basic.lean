import Tilewalk.Program
import Tilewalk.Tape

/-! # Machines

A machine is bound to a program and a tape, started, and then moved one step at a time.
-/

namespace Tilewalk

/-- Why a machine could not start or move. -/
inductive MachineFault where
  | noProgram
  | notStarted
  | halted
  | broken (reason : String)
deriving DecidableEq

namespace MachineFault

def message : MachineFault → String
  | noProgram => "interpreter has no program"
  | notStarted => "interpreter has not been started"
  | halted => "interpreter has already halted"
  | broken reason => s!"interpreter fault: {reason}"

end MachineFault

/-- A machine that runs programs. A call that fails gives its fault with the machine after it. -/
class Machine (μ : Type) where
  bindProgram : μ → Program → μ
  /-- Binds the tape that the program reads and writes. -/
  bindTape : μ → Tape → μ
  /-- Sets the number of steps that the machine may take; zero is no limit. -/
  bindLimit : μ → UInt32 → μ
  start : μ → μ × Except MachineFault Unit
  step : μ → μ × Except MachineFault Unit
  /-- Whether another step is expected. -/
  isRunning : μ → Bool
  /-- The verdict once it no longer runs. -/
  accepts : μ → Bool
  position : μ → Position
  tape : μ → Tape
  /-- The steps taken since it was started. -/
  steps : μ → Nat

end Tilewalk
