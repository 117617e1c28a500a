import Tilewalk.Session.Basic

/-! # How a run goes on

A run goes on by ticks. A tick does one task, or carries on after a move of the token that has
ended. A step queues no other step before its move has ended, so at any time there is one thing
to do at most.
-/

namespace Tilewalk

inductive Tick where
  /-- There was nothing to do. -/
  | idle
  | ran
  /-- The move of the token has not ended yet. -/
  | waiting
  /-- The run is paused, and the next step has to wait. -/
  | parked
deriving DecidableEq

namespace Session

variable {μ σ ε : Type} [Machine μ] [Screen σ] [Editor ε]

/-! ## The token -/

def tokenFill (s : Session μ σ ε) (m : μ) : Fill := s.settings.style.fill (Machine.tape m).head

def tokenCorner (s : Session μ σ ε) (m : μ) : Point := s.stage.corner (Machine.position m)

def showToken (s : Session μ σ ε) (m : μ) : Session μ σ ε :=
  { s with stage := s.stage.put (s.tokenCorner m) (s.tokenFill m) }

/-- Moves the token to where a machine has it, and waits for the end of the move. -/
def moveToken (s : Session μ σ ε) (m : μ) : Session μ σ ε :=
  { s with
    awaited := some s.stage.ledger.next
    tally := { s.tally with moves := s.tally.moves + 1 }
    stage := s.stage.glide (s.tokenCorner m) (s.tokenFill m) s.settings.run.stepLength }

/-! ## The end of a case -/

/-- The outcome of the case `test` as the machine stands. -/
def outcomeOf (s : Session μ σ ε) (m : μ) (test : Case) : Outcome :=
  let accept := s.fault.isNone && Machine.accepts m
  { index := s.cursor.index
    verdict := test.verdict accept (Machine.tape m)
    accept
    steps := Machine.steps m
    fault := s.fault.map MachineFault.message
    tape := (Machine.tape m).display }

def record (s : Session μ σ ε) (outcome : Outcome) : Session μ σ ε :=
  { s with
    tally := s.tally.addVerdict outcome.passed
    outcomes := s.outcomes ++ [outcome] }.tell (.caseFinished outcome)

/-- What follows a judged case: the next one if it has passed and there is one, otherwise the end
of the run. -/
def conclude (s : Session μ σ ε) (passed : Bool) : Session μ σ ε :=
  let next := s.cursor.index + 1
  if passed ∧ next < s.cases.length then
    { s with machine := none, cursor := { s.cursor with index := next } }.enqueue .nextCase
  else
    (s.tell (.runFinished passed s.outcomes.length)).close

/-- Queues the next step, or judges the case when it has come to its end. -/
def proceed (s : Session μ σ ε) : Session μ σ ε :=
  match s.machine, s.cursor.test with
  | some m, some test =>
    if s.fault.isNone ∧ Machine.isRunning m then s.enqueue .step
    else
      let outcome := s.outcomeOf m test
      (s.record outcome).conclude outcome.passed
  | _, _ => s

/-- Notes a fault of the machine and judges the case by it. -/
def breakOff (s : Session μ σ ε) (fault : MachineFault) : Session μ σ ε :=
  { s with
    tally := { s.tally with faults := s.tally.faults + 1 }
    fault := some fault }.proceed

/-! ## Tasks -/

/-- A machine bound to a case, and whether it could be started. -/
def launch (m : μ) (p : Program) (test : Case) : μ × Except MachineFault Unit :=
  let m := Machine.bindProgram m p
  let m := Machine.bindTape m test.input
  Machine.start (Machine.bindLimit m test.limit)

/-- Starts the case under the cursor on a fresh machine. -/
def beginCase (s : Session μ σ ε) : Session μ σ ε :=
  match s.program, s.cases[s.cursor.index]? with
  | some p, some test =>
    let (m, started) := launch (s.fresh s.tally.started) p test
    let s := { s with
      tally := { s.tally with started := s.tally.started + 1 }
      fault := none
      cursor := { s.cursor with test := some test }
      machine := some m }.tell (.caseStarted s.cursor.index)
    match started with
    | .ok () => (s.showToken m).enqueue .step
    | .error fault => s.breakOff fault
  | _, _ => s.close

/-- Takes the machine out of the session, so that it can be changed in place. -/
@[noinline] def takeMachine (s : Session μ σ ε) : Option μ × Session μ σ ε :=
  (s.machine, { s with machine := none })

/-- One step: the token is shown where it is, and then moves to where the machine has gone. -/
def takeStep (s : Session μ σ ε) : Session μ σ ε :=
  match s.takeMachine with
  | (none, s) => s
  | (some m, s) =>
    let s := s.showToken m
    let (m, result) := Machine.step m
    let s := { s with
      machine := some m
      tally := { s.tally with steps := s.tally.steps + 1 } }
    match result with
    | .ok () => s.moveToken m
    | .error fault => s.breakOff fault

/-! ## Ticks -/

/-- Does one thing. While the run is paused only its next step is held back. -/
def tick (s : Session μ σ ε) : Session μ σ ε × Tick :=
  match s.awaited with
  | some ticket =>
    if s.stage.ledger.isSettled ticket then ({ s with awaited := none }.proceed, .ran)
    else (s, .waiting)
  | none =>
    match s.tasks with
    | [] => (s, .idle)
    | task :: tasks =>
      match s.phase, task with
      | .stopped, _ => ({ s with tasks }, .ran)
      | .paused, .step => (s, .parked)
      | _, .nextCase => ({ s with tasks }.beginCase, .ran)
      | .running, .step => ({ s with tasks }.takeStep, .ran)

/-- Ticks until there is nothing to do at once, at most `budget` times. -/
def tickAtMost : Nat → Session μ σ ε → Session μ σ ε × Tick
  | 0, s => (s, .ran)
  | budget + 1, s =>
    match s.tick with
    | (s, .ran) => tickAtMost budget s
    | (s, tick) => (s, tick)

/-- More ticks than any budget of 64 bits, and more than anyone can wait for. -/
def unbounded : Nat := UInt64.size

/-- Ticks until there is nothing to do at once. -/
def tickOut (s : Session μ σ ε) : Session μ σ ε × Tick := tickAtMost unbounded s

end Session

end Tilewalk
