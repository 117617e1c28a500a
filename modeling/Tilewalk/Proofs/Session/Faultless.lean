import Tilewalk.Machine.Walker
import Tilewalk.Proofs.Session.Changes

/-! # Walkers do not fail

A walker fails only when it is used out of turn: without a program, before it was started, or when
it has halted. A session does none of that.
-/

namespace Tilewalk

/-! ## One walker -/

namespace Walker

structure IsStarted (w : Walker) : Prop where
  program : w.program.isSome
  started : w.started = true

theorem launch_ok (w : Walker) (p : Program) (test : Case) :
    ∃ w', Session.launch w p test = (w', .ok ()) ∧ w'.IsStarted ∧ w'.isRunning = true :=
  ⟨_, rfl, ⟨rfl, rfl⟩, rfl⟩

theorem isStarted_endBy {w : Walker} (h : w.IsStarted) (ending : Ending) :
    (w.endBy ending).IsStarted :=
  ⟨h.program, h.started⟩

theorem isStarted_checkLimit {w : Walker} (h : w.IsStarted) : w.checkLimit.IsStarted := by
  unfold checkLimit
  split_ifs
  · exact isStarted_endBy h .limit
  · exact h

theorem isStarted_move {w : Walker} (h : w.IsStarted) (p : Program) : (w.move p).IsStarted := by
  have hwith : ∀ steps tape position, { w with steps, tape, position }.IsStarted :=
    fun _ _ _ => ⟨h.program, h.started⟩
  unfold move
  dsimp only
  split
  · exact isStarted_endBy (hwith ..) .gap
  · split
    · exact isStarted_endBy (hwith ..) .edge
    · exact isStarted_endBy (hwith ..) _
    · exact isStarted_checkLimit (hwith ..)

theorem step_ok {w : Walker} (h : w.IsStarted) (hruns : w.isRunning = true) :
    ∃ w', Machine.step w = (w', .ok ()) ∧ w'.IsStarted := by
  obtain ⟨p, hp⟩ := Option.isSome_iff_exists.mp h.program
  refine ⟨w.move p, ?_, isStarted_move h p⟩
  show w.step = _
  simp [step, h.started, hruns, hp]

end Walker

/-! ## A session -/

namespace Session

variable {σ ε : Type}

/-- No walker has failed. The one at hand has been started, and runs when it is to take a step. -/
structure Faultless (s : Session Walker σ ε) : Prop where
  faults : s.tally.faults = 0
  fault : s.fault = none
  outcomes : ∀ o ∈ s.outcomes, o.fault = none
  steps : s.tally.steps = s.tally.moves
  started : ∀ w, s.machine = some w → w.IsStarted
  runs : ∀ w, s.machine = some w → s.tasks = [.step] → w.isRunning = true

theorem Faultless.record {s : Session Walker σ ε} (h : Faultless s) {w : Walker} {test : Case} :
    (s.record (s.outcomeOf w test)).tally.faults = 0 ∧
    (s.record (s.outcomeOf w test)).tally.steps = (s.record (s.outcomeOf w test)).tally.moves ∧
    ∀ o ∈ (s.record (s.outcomeOf w test)).outcomes, o.fault = none := by
  refine ⟨?_, ?_, fun o ho => ?_⟩
  · unfold Session.record Tally.addVerdict
    split_ifs <;> exact h.faults
  · unfold Session.record Tally.addVerdict
    split_ifs <;> exact h.steps
  · rcases List.mem_append.mp ho with ho | ho
    · exact h.outcomes o ho
    · rw [List.mem_singleton.mp ho]
      simp [outcomeOf, h.fault]

variable [Screen σ] [Editor ε]

theorem faultless_change {s t : Session Walker σ ε} {notes : List Note} (h : Faultless s)
    (hchange : Change s notes t) : Faultless t := by
  cases hchange with
  | paused | resumed | landed | screen | taken =>
    exact ⟨h.faults, h.fault, h.outcomes, h.steps, h.started, h.runs⟩
  | opened rest =>
    exact ⟨h.faults, h.fault, by simp [openRun], h.steps, h.started, h.runs⟩
  | turned _ _ machine =>
    exact ⟨h.faults, h.fault, h.outcomes, h.steps, h.started, by simp [machine]⟩
  | @started p test m due launched =>
    obtain ⟨w, hw, hstarted, hruns⟩ := Walker.launch_ok (s.fresh s.tally.started) p test
    rw [launched] at hw
    obtain ⟨rfl, -⟩ := Prod.mk.inj hw
    refine ⟨h.faults, rfl, h.outcomes, h.steps, ?_, ?_⟩
    · rintro _ ⟨⟩
      exact hstarted
    · rintro _ ⟨⟩ -
      exact hruns
  | @refused p test m _ due launched =>
    obtain ⟨w, hw, -⟩ := Walker.launch_ok (s.fresh s.tally.started) p test
    rw [launched] at hw
    cases hw
  | @moved m m' inStep step =>
    obtain ⟨w, hw, hstarted⟩ :=
      Walker.step_ok (h.started m inStep.machine) (h.runs m inStep.machine inStep.tasks)
    rw [step] at hw
    obtain ⟨rfl, -⟩ := Prod.mk.inj hw
    have htasks : ((s.stepped m m').moveToken m').tasks = [] := rfl
    refine ⟨h.faults, h.fault, h.outcomes, ?_, ?_, by simp [htasks]⟩
    · exact congrArg (· + 1) h.steps
    · rintro _ ⟨⟩
      exact hstarted
  | @broke m _ _ inStep step =>
    obtain ⟨w, hw, -⟩ :=
      Walker.step_ok (h.started m inStep.machine) (h.runs m inStep.machine inStep.tasks)
    rw [step] at hw
    cases hw
  | @continued m midway machine runs =>
    refine ⟨h.faults, h.fault, h.outcomes, h.steps, h.started, fun w hw _ => ?_⟩
    obtain rfl : m = w := Option.some.inj (machine.symm.trans hw)
    have hruns : Machine.isRunning m = true := by simpa [HasEnded, h.fault] using runs
    exact hruns
  | passed atEnd =>
    obtain ⟨hfaults, hsteps, houtcomes⟩ := h.record
    exact ⟨hfaults, h.fault, houtcomes, hsteps, by simp [turnToNext], by simp [turnToNext]⟩
  | finished atEnd =>
    obtain ⟨hfaults, hsteps, houtcomes⟩ := h.record
    exact ⟨hfaults, rfl, houtcomes, hsteps, by simp [close], by simp [close]⟩
  | stopped =>
    have hmachine : s.stop.machine = none := rfl
    exact ⟨h.faults, rfl, h.outcomes, h.steps, by simp [hmachine], by simp [hmachine]⟩
  | changed rest =>
    exact ⟨h.faults, h.fault, h.outcomes, h.steps, h.started, h.runs⟩

theorem Reachable.faultless {s : Session Walker σ ε} (h : Reachable s) : Faultless s := by
  obtain ⟨fresh, settings, screen, editor, deeds, rfl⟩ := reachable_iff_after.mp h
  obtain ⟨notes, hpath, -⟩ := path_after_initial fresh settings screen editor deeds
  have hstart : Faultless (unloaded fresh settings screen editor) :=
    ⟨rfl, rfl, by simp [unloaded], rfl, by simp [unloaded], by simp [unloaded]⟩
  have hkept : ∀ (notes : List Note) (s : Session Walker σ ε) new t, Faultless s →
      Change s new t → Faultless t := fun _ _ _ _ => faultless_change
  exact hpath.invariant (P := fun _ s => Faultless s) [] hkept hstart

end Session

end Tilewalk
