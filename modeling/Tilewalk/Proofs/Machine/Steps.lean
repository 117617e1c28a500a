import Mathlib.Logic.Function.Iterate
import Mathlib.Tactic.SplitIfs
import Mathlib.Tactic.Tauto
import Tilewalk.Machine.Walker

/-! # Taking steps

What a number of steps makes of a machine, and what one step makes of a walker. A walker that has
halted is left as it is.
-/

namespace Tilewalk

/-! ## Any machine -/

section Machines

variable {μ : Type} [Machine μ]

def afterSteps (m : μ) (k : Nat) : μ := (fun m => (Machine.step m).1)^[k] m

theorem afterSteps_succ (m : μ) (k : Nat) :
    afterSteps m (k + 1) = (Machine.step (afterSteps m k)).1 := by
  unfold afterSteps
  rw [Function.iterate_succ_apply']

end Machines

namespace Walker

/-! ## Setting off -/

/-- A walker that is bound to a program, a tape and a limit, and then started. -/
def setOff (w : Walker) (p : Program) (tape : Tape) (limit : UInt32) : Walker :=
  (Machine.start (Machine.bindLimit (Machine.bindTape (Machine.bindProgram w p) tape) limit)).1

/-- The walker is on its way over `p`, under the limit `limit`. -/
structure IsOn (p : Program) (limit : UInt32) (w : Walker) : Prop where
  program : w.program = some p
  started : w.started = true
  limit : w.limit = limit

theorem isOn_setOff (w : Walker) (p : Program) (tape : Tape) (limit : UInt32) :
    (w.setOff p tape limit).IsOn p limit :=
  ⟨rfl, rfl, rfl⟩

/-! ## What stops a token -/

section Endings

variable {p : Program} {place : Position}

theorem endingAt_eq_none : endingAt p place = none ↔
    (p.contains place = true ∧ place ≠ p.goal.position) ∧
      (place = p.start.position ∨ (p.tile? place).isSome) := by
  unfold endingAt
  split_ifs <;> simp_all [Option.isSome_iff_ne_none]
  tauto

theorem endingAt_eq_goal : endingAt p place = some .goal ↔
    p.contains place = true ∧ place = p.goal.position := by
  unfold endingAt
  split_ifs <;> simp_all

theorem endingAt_eq_gap : endingAt p place = some .gap ↔
    (p.contains place = true ∧ place ≠ p.goal.position) ∧
      place ≠ p.start.position ∧ p.tile? place = none := by
  unfold endingAt
  split_ifs <;> simp_all

theorem endingAt_eq_edge : endingAt p place = some .edge ↔ p.contains place = false := by
  unfold endingAt
  split_ifs <;> simp_all

theorem contains_of_endingAt (h : endingAt p place ≠ some .edge) : p.contains place = true := by
  rwa [Ne, endingAt_eq_edge, Bool.not_eq_false] at h

theorem endingAt_ne_limit : endingAt p place ≠ some .limit := by
  unfold endingAt
  split_ifs <;> simp

end Endings

/-! ## One step -/

section Step

variable {p : Program} {limit : UInt32} {w : Walker}

def counted (w : Walker) : Walker := { w with steps := min (w.steps + 1) maxSteps }

/-- What a move over `p` makes of a walker, by what becomes of the token. -/
inductive Moves (p : Program) (w : Walker) : Walker → Prop where
  | stuck : exit? p w.position w.tape = none → Moves p w (w.counted.endBy .gap)
  | blocked {heading : Heading} {tape : Tape} :
      exit? p w.position w.tape = some (heading, tape) →
      endingAt p (w.position.neighbour heading) = some .edge →
      Moves p w ({ w.counted with tape }.endBy .edge)
  | ended {heading : Heading} {tape : Tape} {ending : Ending} :
      exit? p w.position w.tape = some (heading, tape) →
      endingAt p (w.position.neighbour heading) = some ending → ending ≠ .edge →
      Moves p w ({ w.counted with tape, position := w.position.neighbour heading }.endBy ending)
  | went {heading : Heading} {tape : Tape} :
      exit? p w.position w.tape = some (heading, tape) →
      endingAt p (w.position.neighbour heading) = none →
      Moves p w { w.counted with tape, position := w.position.neighbour heading }.checkLimit

theorem moves_move (p : Program) (w : Walker) : Moves p w (w.move p) := by
  unfold move takeTape
  dsimp only
  split
  next hexit => exact .stuck hexit
  next heading tape hexit =>
    split
    next hending => exact .blocked hexit hending
    next ending hne hending => exact .ended hexit hending hne
    next hending => exact .went hexit hending

theorem Moves.move_eq {v : Walker} (h : Moves p w v) : w.move p = v := by
  unfold move takeTape
  cases h with
  | stuck hexit => simp only [hexit]; rfl
  | blocked hexit hending => simp only [hexit, hending]; rfl
  | ended hexit hending hne => simp only [hexit, hending]; rfl
  | went hexit hending => simp only [hexit, hending]; rfl

@[simp] theorem steps_checkLimit (w : Walker) : w.checkLimit.steps = w.steps := by
  unfold checkLimit
  split_ifs <;> rfl

@[simp] theorem tape_checkLimit (w : Walker) : w.checkLimit.tape = w.tape := by
  unfold checkLimit
  split_ifs <;> rfl

@[simp] theorem position_checkLimit (w : Walker) : w.checkLimit.position = w.position := by
  unfold checkLimit
  split_ifs <;> rfl

theorem isOn_checkLimit (h : w.IsOn p limit) : w.checkLimit.IsOn p limit := by
  unfold checkLimit
  split_ifs
  · exact ⟨h.program, h.started, h.limit⟩
  · exact h

theorem Moves.isOn {v : Walker} (h : Moves p w v) (hon : w.IsOn p limit) : v.IsOn p limit := by
  cases h with
  | stuck | blocked | ended => exact ⟨hon.program, hon.started, hon.limit⟩
  | went => exact isOn_checkLimit ⟨hon.program, hon.started, hon.limit⟩

theorem Moves.steps {v : Walker} (h : Moves p w v) : v.steps = min (w.steps + 1) maxSteps := by
  cases h with
  | stuck | blocked | ended => rfl
  | went => exact steps_checkLimit _

theorem step_running (h : w.IsOn p limit) (hruns : w.isRunning = true) :
    Machine.step w = (w.move p, .ok ()) := by
  show w.step = _
  simp [step, h.started, hruns, h.program]

theorem step_halted (h : w.IsOn p limit) (hhalted : w.isRunning = false) :
    Machine.step w = (w, .error .halted) := by
  show w.step = _
  simp [step, h.started, hhalted]

end Step

/-! ## Many steps -/

section Walk

variable {p : Program} {limit : UInt32} {w : Walker} {m n : Nat}

theorem afterSteps_induction {P : Walker → Prop} (hon : w.IsOn p limit) (hfirst : P w)
    (hmove : ∀ v : Walker, v.IsOn p limit → v.isRunning = true → P v → P (v.move p)) (n : Nat) :
    (afterSteps w n).IsOn p limit ∧ P (afterSteps w n) := by
  induction n with
  | zero => exact ⟨hon, hfirst⟩
  | succ n ih =>
    obtain ⟨hn, hP⟩ := ih
    rw [afterSteps_succ]
    cases hruns : (afterSteps w n).isRunning with
    | true =>
      rw [step_running hn hruns]
      exact ⟨(moves_move p _).isOn hn, hmove _ hn hruns hP⟩
    | false =>
      rw [step_halted hn hruns]
      exact ⟨hn, hP⟩

theorem isOn_afterSteps (hon : w.IsOn p limit) (n : Nat) : (afterSteps w n).IsOn p limit :=
  (afterSteps_induction (P := fun _ => True) hon trivial (fun _ _ _ _ => trivial) n).1

theorem afterSteps_succ_running (hon : w.IsOn p limit) (hruns : (afterSteps w n).isRunning = true) :
    afterSteps w (n + 1) = (afterSteps w n).move p := by
  rw [afterSteps_succ, step_running (isOn_afterSteps hon n) hruns]

theorem moves_afterSteps (hon : w.IsOn p limit) (hruns : (afterSteps w n).isRunning = true) :
    Moves p (afterSteps w n) (afterSteps w (n + 1)) := by
  rw [afterSteps_succ_running hon hruns]
  exact moves_move p _

theorem afterSteps_succ_halted (hon : w.IsOn p limit)
    (hhalted : (afterSteps w n).isRunning = false) : afterSteps w (n + 1) = afterSteps w n := by
  rw [afterSteps_succ, step_halted (isOn_afterSteps hon n) hhalted]

theorem running_of_step_ok (hon : w.IsOn p limit)
    (hok : (Machine.step (afterSteps w n)).2 = .ok ()) : (afterSteps w n).isRunning = true := by
  by_contra hhalted
  rw [step_halted (isOn_afterSteps hon n) (Bool.not_eq_true _ ▸ hhalted)] at hok
  cases hok

theorem afterSteps_of_halted (hon : w.IsOn p limit) (hhalted : (afterSteps w m).isRunning = false)
    (hle : m ≤ n) : afterSteps w n = afterSteps w m := by
  induction hle with
  | refl => rfl
  | step _ ih => rw [afterSteps_succ_halted hon (ih ▸ hhalted), ih]

theorem running_of_le (hon : w.IsOn p limit) (hruns : (afterSteps w n).isRunning = true)
    (hle : m ≤ n) : (afterSteps w m).isRunning = true := by
  by_contra hhalted
  rw [afterSteps_of_halted hon (Bool.not_eq_true _ ▸ hhalted) hle] at hruns
  exact hhalted hruns

theorem exists_last_move (hon : w.IsOn p limit) (hfirst : w.isRunning = true)
    (hhalted : (afterSteps w n).isRunning = false) :
    ∃ m < n, (afterSteps w m).isRunning = true ∧ afterSteps w (m + 1) = (afterSteps w m).move p ∧
      afterSteps w n = afterSteps w (m + 1) := by
  induction n with
  | zero =>
    rw [show afterSteps w 0 = w from rfl, hfirst] at hhalted
    cases hhalted
  | succ n ih =>
    cases hruns : (afterSteps w n).isRunning with
    | true => exact ⟨n, n.lt_succ_self, hruns, afterSteps_succ_running hon hruns, rfl⟩
    | false =>
      obtain ⟨m, hm, hlast⟩ := ih hruns
      rw [afterSteps_succ_halted hon hruns]
      exact ⟨m, Nat.lt_succ_of_lt hm, hlast⟩

end Walk

end Walker

end Tilewalk
