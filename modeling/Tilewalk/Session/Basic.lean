import Tilewalk.Level.Error
import Tilewalk.Machine.Basic
import Tilewalk.Screen.Basic
import Tilewalk.Session.Phase
import Tilewalk.Session.Tally
import Tilewalk.Session.Verdict

/-! # The state of a session

A session owns a program and its cases. A run tries the cases in order, each on a fresh machine,
up to the first that fails.
-/

namespace Tilewalk

/-! ## The editor -/

/-- An editor, which a run forbids to change the program. -/
class Editor (ε : Type) where
  allow : ε → ε
  forbid : ε → ε
  isAllowed : ε → Bool

/-- An editor that is no more than its switch. -/
structure EditorSwitch where
  on : Bool
  /-- How often the switch has been turned. -/
  turns : Nat := 0

namespace EditorSwitch

/-- Turns the switch. It may be where it should be already. -/
def turn (e : EditorSwitch) (on : Bool) : EditorSwitch :=
  if e.on = on then e else ⟨on, e.turns + 1⟩

instance : Editor EditorSwitch where
  allow e := e.turn true
  forbid e := e.turn false
  isAllowed e := e.on

end EditorSwitch

/-! ## Sessions -/

/-- The case under way. Its index is zero when there is no run. -/
structure Cursor where
  test : Option Case := none
  index : Nat := 0

inductive Task where
  | step
  | nextCase
deriving DecidableEq

/-- What a session tells. -/
inductive Event where
  | runStarted (cases : Nat)
  | caseStarted (index : Nat)
  | caseFinished (outcome : Outcome)
  | runFinished (passed : Bool) (judged : Nat)
  | stopped
  | levelLoaded (title : Option String)
  | loadFailed (reason : String)
deriving DecidableEq

inductive Refusal where
  | unavailable (command : Command) (phase : Phase)
  | noProgram
  | nothingToShare
  | busy
  | level (fault : LevelFault)
  | edit (fault : EditFault)

namespace Refusal

def message : Refusal → String
  | unavailable command phase => s!"{command.display} is not available while {phase.display}"
  | noProgram => "no program is loaded"
  | nothingToShare => "nothing to share: no program is loaded"
  | busy => "the program cannot be changed while a run is in progress"
  | level fault => fault.message
  | edit fault => fault.message

end Refusal

/-- A session with machines `μ`, shown on a screen `σ`, which switches an editor `ε`. -/
structure Session (μ σ ε : Type) where
  /-- The machines to be used, by the number of cases started before. -/
  fresh : Nat → μ
  settings : Settings
  stage : Stage σ
  editor : ε
  program : Option Program := none
  title : Option String := none
  cases : List Case := []
  phase : Phase := .stopped
  cursor : Cursor := {}
  machine : Option μ := none
  fault : Option MachineFault := none
  /-- The tasks to do, the next one first. -/
  tasks : List Task := []
  /-- The move of the token that the run waits for. -/
  awaited : Option Ticket := none
  /-- The outcomes of the current or the last run, in order. -/
  outcomes : List Outcome := []
  /-- The events that nobody has taken yet, in order. -/
  events : List Event := []
  tally : Tally := {}

namespace Session

variable {μ σ ε : Type}

def tell (s : Session μ σ ε) (event : Event) : Session μ σ ε :=
  { s with events := s.events ++ [event] }

def enqueue (s : Session μ σ ε) (task : Task) : Session μ σ ε :=
  { s with tasks := s.tasks ++ [task] }

/-- Takes the events told since the last time. -/
def takeEvents (s : Session μ σ ε) : Session μ σ ε × List Event :=
  ({ s with events := [] }, s.events)

/-- Lets someone else act on the screen. -/
def onScreen (s : Session μ σ ε) (action : σ → σ × List Ticket) : Session μ σ ε :=
  { s with stage := s.stage.act action }

/-- Shows a program that has been replaced. -/
def refresh [Screen σ] (s : Session μ σ ε) : Session μ σ ε :=
  match s.program with
  | some p => { s with stage := s.stage.refresh p }
  | none => s

/-- Leaves the run, whatever is still to be done. -/
def close [Editor ε] (s : Session μ σ ε) : Session μ σ ε :=
  { s with
    phase := .stopped
    machine := none
    fault := none
    tasks := []
    awaited := none
    cursor := {}
    editor := Editor.allow s.editor }

end Session

end Tilewalk
