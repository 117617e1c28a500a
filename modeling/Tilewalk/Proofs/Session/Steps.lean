import Mathlib.Tactic.SplitIfs
import Tilewalk.Session

/-! # What each part of a run does

One equation for every way that a part of a run can go. What holds of a run is proved from these.
-/

namespace Tilewalk.Session

variable {μ σ ε : Type}

/-! ## The cases -/

/-- The cases that a run tries: those of the session, or the default one when it has none. -/
def casesToRun (s : Session μ σ ε) : List Case :=
  if s.cases.isEmpty then [.default] else s.cases

theorem casesToRun_pos (s : Session μ σ ε) : 0 < s.casesToRun.length := by
  unfold casesToRun
  split_ifs with h
  · exact Nat.one_pos
  · exact List.length_pos_iff.mpr (by simpa using h)

/-- The session when the case has passed and another one follows. -/
def turnToNext (s : Session μ σ ε) : Session μ σ ε :=
  { s with
    machine := none
    cursor := { s.cursor with index := s.cursor.index + 1 }
    tasks := s.tasks ++ [.nextCase] }

/-! ## The screen -/

section Screens

variable [Screen σ]

theorem refresh_some {s : Session μ σ ε} {p : Program} (hp : s.program = some p) :
    s.refresh = { s with stage := s.stage.refresh p } := by
  simp only [refresh, hp]

theorem refresh_eq (s : Session μ σ ε) : s.refresh = { s with stage := s.refresh.stage } := by
  unfold refresh
  split <;> rfl

end Screens

/-! ## The end of a case -/

variable [Editor ε]

theorem conclude_next {s : Session μ σ ε} {passed : Bool} (hpassed : passed = true)
    (hnext : s.cursor.index + 1 < s.cases.length) : s.conclude passed = s.turnToNext := by
  unfold conclude
  exact if_pos ⟨hpassed, hnext⟩

theorem conclude_last {s : Session μ σ ε} {passed : Bool}
    (hlast : ¬ (passed = true ∧ s.cursor.index + 1 < s.cases.length)) :
    s.conclude passed = (s.tell (.runFinished passed s.outcomes.length)).close := by
  unfold conclude
  exact if_neg hlast

theorem stage_conclude (s : Session μ σ ε) (passed : Bool) :
    (s.conclude passed).stage = s.stage := by
  unfold conclude
  dsimp only
  split_ifs <;> rfl

variable [Machine μ]

/-- The case has come to its end, by a fault or because the machine has halted. -/
def HasEnded (s : Session μ σ ε) (m : μ) : Prop := s.fault ≠ none ∨ Machine.isRunning m = false

theorem proceed_nothing {s : Session μ σ ε} (h : s.machine = none ∨ s.cursor.test = none) :
    s.proceed = s := by
  unfold proceed
  rcases h with h | h
  · simp [h]
  · cases s.machine <;> simp [h]

theorem proceed_more {s : Session μ σ ε} {m : μ} {test : Case} (hm : s.machine = some m)
    (ht : s.cursor.test = some test) (h : ¬ s.HasEnded m) : s.proceed = s.enqueue .step := by
  simp only [HasEnded, ne_eq, not_or, Decidable.not_not, Bool.not_eq_false] at h
  simp [proceed, hm, ht, h.1, h.2]

theorem proceed_judged {s : Session μ σ ε} {m : μ} {test : Case} (hm : s.machine = some m)
    (ht : s.cursor.test = some test) (h : s.HasEnded m) :
    s.proceed = (s.record (s.outcomeOf m test)).conclude (s.outcomeOf m test).passed := by
  have hended : ¬ (s.fault.isNone ∧ Machine.isRunning m) := by
    rintro ⟨hfault, hrunning⟩
    rcases h with h | h
    · exact h (Option.isNone_iff_eq_none.mp hfault)
    · rw [h] at hrunning
      contradiction
  simp only [proceed, hm, ht, if_neg hended]

theorem stage_proceed (s : Session μ σ ε) : s.proceed.stage = s.stage := by
  unfold proceed
  split
  · split_ifs
    · rfl
    · exact stage_conclude ..
  · rfl

/-! ## Tasks -/

variable [Screen σ]

/-- The session when a machine has been bound to a case and told to start. -/
def onMachine (s : Session μ σ ε) (m : μ) (test : Case) : Session μ σ ε :=
  { s with
    tally := { s.tally with started := s.tally.started + 1 }
    fault := none
    cursor := { s.cursor with test := some test }
    machine := some m
    events := s.events ++ [.caseStarted s.cursor.index] }

theorem beginCase_started {s : Session μ σ ε} {p : Program} {test : Case} {m : μ}
    (hp : s.program = some p) (ht : s.cases[s.cursor.index]? = some test)
    (hl : launch (s.fresh s.tally.started) p test = (m, .ok ())) :
    s.beginCase = ((s.onMachine m test).showToken m).enqueue .step := by
  simp only [beginCase, onMachine, hp, ht, hl]
  rfl

theorem beginCase_nothing {s : Session μ σ ε}
    (h : s.program = none ∨ s.cases[s.cursor.index]? = none) : s.beginCase = s.close := by
  unfold beginCase
  rcases h with h | h
  · simp [h]
  · cases s.program <;> simp [h]

theorem beginCase_failed {s : Session μ σ ε} {p : Program} {test : Case} {m : μ}
    {fault : MachineFault} (hp : s.program = some p) (ht : s.cases[s.cursor.index]? = some test)
    (hl : launch (s.fresh s.tally.started) p test = (m, .error fault)) :
    s.beginCase = (s.onMachine m test).breakOff fault := by
  simp only [beginCase, onMachine, hp, ht, hl]
  rfl

/-- The session when its machine has been told to take a step and has become `m`. -/
def afterStep (s : Session μ σ ε) (m : μ) : Session μ σ ε :=
  { s with machine := some m, tally := { s.tally with steps := s.tally.steps + 1 } }

theorem takeStep_moved {s : Session μ σ ε} {m m' : μ} (hm : s.machine = some m)
    (hs : Machine.step m = (m', .ok ())) :
    s.takeStep = ((s.showToken m).afterStep m').moveToken m' := by
  simp only [takeStep, takeMachine, hm, hs]
  rfl

theorem takeStep_nothing {s : Session μ σ ε} (h : s.machine = none) : s.takeStep = s := by
  rw [takeStep, takeMachine, h]
  show { s with machine := none } = s
  rw [← h]

theorem takeStep_failed {s : Session μ σ ε} {m m' : μ} {fault : MachineFault}
    (hm : s.machine = some m) (hs : Machine.step m = (m', .error fault)) :
    s.takeStep = ((s.showToken m).afterStep m').breakOff fault := by
  simp only [takeStep, takeMachine, hm, hs]
  rfl

/-! ## Ticks -/

theorem tick_waiting {s : Session μ σ ε} {t : Ticket} (ht : s.awaited = some t)
    (h : s.stage.ledger.isSettled t = false) : s.tick = (s, .waiting) := by
  simp [tick, ht, h]

theorem tick_settled {s : Session μ σ ε} {t : Ticket} (ht : s.awaited = some t)
    (h : s.stage.ledger.isSettled t = true) :
    s.tick = ({ s with awaited := none }.proceed, .ran) := by
  simp [tick, ht, h]

theorem tick_idle {s : Session μ σ ε} (hawaited : s.awaited = none) (htasks : s.tasks = []) :
    s.tick = (s, .idle) := by
  simp [tick, hawaited, htasks]

theorem tick_of_ne_ran {s : Session μ σ ε} (h : s.tick.2 ≠ .ran) : s.tick.1 = s := by
  unfold tick at h ⊢
  grind

section Tasks

variable {s : Session μ σ ε} {tasks : List Task} (hawaited : s.awaited = none)

include hawaited

theorem tick_stale {task : Task} (htasks : s.tasks = task :: tasks) (hp : s.phase = .stopped) :
    s.tick = ({ s with tasks }, .ran) := by
  simp only [tick, hawaited, htasks, hp]

theorem tick_nextCase (htasks : s.tasks = .nextCase :: tasks) (hp : s.phase ≠ .stopped) :
    s.tick = ({ s with tasks }.beginCase, .ran) := by
  cases h : s.phase with
  | stopped => exact absurd h hp
  | running | paused => simp only [tick, hawaited, htasks, h]

theorem tick_step (htasks : s.tasks = .step :: tasks) (hp : s.phase = .running) :
    s.tick = ({ s with tasks }.takeStep, .ran) := by
  simp only [tick, hawaited, htasks, hp]

theorem tick_parked (htasks : s.tasks = .step :: tasks) (hp : s.phase = .paused) :
    s.tick = (s, .parked) := by
  simp only [tick, hawaited, htasks, hp]

end Tasks

/-! ## The start of a run -/

/-- The session when a run has been announced. -/
def openRun (s : Session μ σ ε) : Session μ σ ε :=
  { s with
    editor := Editor.forbid s.editor
    cases := s.casesToRun
    outcomes := []
    phase := .running
    events := s.events ++ [.runStarted s.casesToRun.length] }

theorem play_stopped {s : Session μ σ ε} (hphase : s.phase = .stopped) (hp : s.program ≠ none) :
    s.play = (s.openRun.beginCase, .ok ()) := by
  have hp : s.program.isNone = false := by simpa [Option.isSome_iff_ne_none] using hp
  simp only [play, hphase, hp]
  rfl

theorem play_without_program {s : Session μ σ ε} (hphase : s.phase = .stopped)
    (hp : s.program = none) : s.play = (s, .error .noProgram) := by
  simp [play, hphase, hp]

end Tilewalk.Session
