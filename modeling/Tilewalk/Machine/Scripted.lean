import Tilewalk.Machine.Basic

/-! # Machines that follow a script

They move a token down the grid for a fixed number of steps and fail where the script says so.
They serve to try out what depends on a machine.
-/

namespace Tilewalk

structure Script where
  steps : Nat := 0
  accept : Bool := true
  /-- The number of the step that fails. -/
  faultAt : Option Nat := none
  failStart : Bool := false
  fault : MachineFault := .broken ""
  /-- What every step writes on the tape. -/
  write : List Colour := []

structure ScriptedMachine where
  script : Script
  tape : Tape := .empty
  position : Position := ⟨0, 0⟩
  isRunning : Bool := false
  steps : Nat := 0

namespace ScriptedMachine

def start (m : ScriptedMachine) : ScriptedMachine × Except MachineFault Unit :=
  if m.script.failStart then (m, .error m.script.fault) else ({ m with isRunning := true }, .ok ())

def step (m : ScriptedMachine) : ScriptedMachine × Except MachineFault Unit :=
  let m := { m with steps := m.steps + 1 }
  if m.script.faultAt = some m.steps then (m, .error m.script.fault)
  else
    ({ m with
        tape := m.script.write.foldl (fun tape colour => tape.push (some colour)) m.tape
        position := ⟨m.position.x, m.position.y + 1⟩
        isRunning := m.steps < m.script.steps }, .ok ())

instance : Machine ScriptedMachine where
  bindProgram m p := { m with position := p.start.position }
  bindTape m tape := { m with tape }
  bindLimit m _ := m
  start := start
  step := step
  isRunning := isRunning
  accepts m := m.script.accept
  position := position
  tape := tape
  steps := steps

/-- The `n`-th machine of a row of scripts. Those after the last take one step and accept. -/
def nth (scripts : List Script) (n : Nat) : ScriptedMachine :=
  ⟨scripts.getD n { steps := 1 }, .empty, ⟨0, 0⟩, false, 0⟩

end ScriptedMachine

end Tilewalk
