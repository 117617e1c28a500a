import Mathlib.Algebra.Order.BigOperators.Group.Finset
import Mathlib.Algebra.Order.Floor.Div
import Mathlib.Data.Nat.Count
import Tilewalk.Proofs.CommandLine.Rounds
import Tilewalk.Proofs.Program
import Tilewalk.Proofs.Screen.Clocked
import Tilewalk.Proofs.Session.Pausing

/-! # How fast a run goes

A host ticks, and after each tick that waits it moves the clock of the screen on. So a step takes as
many frames as are needed to make up its length, and a run takes no time beside that of its steps.
-/

namespace Tilewalk.Session

open Finset CommandLine

/-! ## A host -/

section Hosts

variable {μ ε : Type} [Machine μ] [Editor ε]

/-- One tick of a host. While the run waits for a move of the token, the clock moves on. -/
def hostTick (frame : Duration) (s : Session μ ClockedScreen ε) :
    Session μ ClockedScreen ε × Tick :=
  match s.tick with
  | (s, .waiting) => (s.onScreen (·.elapse frame), .waiting)
  | result => result

/-- The session after so many ticks of a host. If the tick `n` waits, it is followed by the frame
`frames n`. -/
def hosted (frames : Nat → Duration) (s : Session μ ClockedScreen ε) :
    Nat → Session μ ClockedScreen ε
  | 0 => s
  | n + 1 => (hostTick (frames n) (hosted frames s n)).1

def now (s : Session μ ClockedScreen ε) : Duration := s.stage.screen.now

/-- How many of the first `n` ticks wait. -/
def waitsIn (run : Nat → Session μ ClockedScreen ε) (n : Nat) : Nat :=
  Nat.count (fun i => (run i).tick.2 = .waiting) n

/-- Over all its ticks the run takes `total` steps. -/
def TakesInAll (run : Nat → Session μ ClockedScreen ε) (total : Nat) : Prop :=
  (∃ n, (run n).tally.steps = (run 0).tally.steps + total) ∧
    ∀ n, (run n).tally.steps ≤ (run 0).tally.steps + total

/-- The step of the tick `n` is shown for `k` frames, which is as few as its length allows: so many
ticks wait, and the next one goes on from the step. -/
structure ShownFor (frames : Nat → Duration) (run : Nat → Session μ ClockedScreen ε)
    (length : Duration) (n k : Nat) : Prop where
  enough : length ≤ ∑ i ∈ range k, frames (n + 1 + i)
  least : ∀ j < k, ∑ i ∈ range j, frames (n + 1 + i) < length
  waits : ∀ j < k, (run (n + 1 + j)).tick.2 = .waiting
  same : ∃ stage, run (n + 1 + k) = { run (n + 1) with stage }
  awaits : (run (n + 1 + k)).awaited ≠ none
  goesOn : (run (n + 1 + k)).tick = ({ run (n + 1 + k) with awaited := none }.proceed, .ran)
  elapsed : (run (n + 1 + k)).now = (run n).now + ∑ i ∈ range k, frames (n + 1 + i)

variable {s : Session μ ClockedScreen ε} {frame : Duration}

theorem hostTick_of_waiting (h : s.tick = (s, .waiting)) :
    hostTick frame s = (s.onScreen (·.elapse frame), .waiting) := by
  simp only [hostTick, h]

theorem hostTick_of_ne_waiting (h : s.tick.2 ≠ .waiting) : hostTick frame s = s.tick := by
  unfold hostTick
  split
  · simp_all
  · rfl

theorem hostTick_snd (frame : Duration) (s : Session μ ClockedScreen ε) :
    (hostTick frame s).2 = s.tick.2 := by
  unfold hostTick
  split
  next heq => rw [heq]
  · rfl

theorem hosted_add (frames : Nat → Duration) (s : Session μ ClockedScreen ε) (n k : Nat) :
    hosted frames s (n + k) = hosted (fun i => frames (n + i)) (hosted frames s n) k := by
  induction k with
  | zero => rfl
  | succ k ih => rw [← Nat.add_assoc, hosted, hosted, ih]

theorem hostTick_keeps {P : Session μ ClockedScreen ε → Prop} (frame : Duration)
    (hscreen : ∀ u (action : ClockedScreen → _), P u → P (u.onScreen action))
    (htick : P s.tick.1) : P (hostTick frame s).1 := by
  unfold hostTick
  split
  next heq =>
    rw [heq] at htick
    exact hscreen _ _ htick
  · exact htick

theorem reachable_hostTick (h : Reachable s) : Reachable (hostTick frame s).1 :=
  hostTick_keeps _ (fun _ action hu => hu.screen action) (h.call .tick)

theorem reachable_hosted (h : Reachable s) (frames : Nat → Duration) (n : Nat) :
    Reachable (hosted frames s n) := by
  induction n with
  | zero => exact h
  | succ n ih => exact reachable_hostTick ih

theorem tick_ne_paused (h : Reachable s) (hphase : s.phase ≠ .paused) :
    s.tick.1.phase ≠ .paused := by
  have hparked : s.tick.2 ≠ .parked := by
    have htick := h.orderly.tickOf
    generalize s.tick = r at htick ⊢
    cases htick with
    | parked paused => exact absurd paused hphase
    | idle | waiting | moved | stepped | begun => simp
  have hsame := tick_unpaused hparked
  rw [unpaused_of_ne hphase] at hsame
  rw [hsame]
  show s.tick.1.phase.unpaused ≠ .paused
  cases s.tick.1.phase <;> simp [Phase.unpaused]

end Hosts

/-! ## The time that is left -/

section Moves

variable {μ ε : Type} {s : Session μ ClockedScreen ε} {left : Duration}

/-- The move on the screen is the one that the run waits for, and ends when the time `left` is over.
When no time is left, there is none. -/
inductive Shows (s : Session μ ClockedScreen ε) : Duration → Prop where
  | resting : s.stage.screen.move = none →
      (∀ t, s.awaited = some t → s.stage.ledger.isSettled t = true) → Shows s 0
  | moving {t : Ticket} {left : Duration} : s.awaited = some t → Gliding s.stage t left → 0 < left →
      Shows s left

theorem Shows.isSettled_iff {t : Ticket} (h : Shows s left) (ht : s.awaited = some t) :
    s.stage.ledger.isSettled t = true ↔ left = 0 := by
  cases h with
  | resting _ hsettled => simp [hsettled t ht]
  | @moving u _ hu hgliding hleft =>
    obtain rfl : u = t := Option.some.inj (hu.symm.trans ht)
    simp [hgliding.isSettled, Nat.ne_of_gt hleft]

theorem Shows.eq_zero (h : Shows s left) (ht : s.awaited = none) : left = 0 := by
  cases h with
  | resting => rfl
  | moving hu => simp [ht] at hu

theorem Shows.elapse (h : Shows s left) (hleft : 0 < left) (frame : Duration) :
    Shows (s.onScreen (·.elapse frame)) (left - frame) := by
  cases h with
  | resting => exact absurd hleft (Nat.lt_irrefl 0)
  | @moving t _ ht hgliding =>
    by_cases hframe : frame < left
    · exact .moving ht (gliding_elapse hgliding hframe) (Nat.sub_pos_of_lt hframe)
    · have hframe := Nat.le_of_not_lt hframe
      rw [Nat.sub_eq_zero_of_le hframe]
      refine .resting ?_ fun u hu => ?_
      · obtain ⟨m, hm, -, hend⟩ := hgliding.move
        have hover : m.begun + m.length ≤ s.stage.screen.now + frame := by
          rw [hend]
          exact Nat.add_le_add_left hframe _
        simp [onScreen, Stage.act, ClockedScreen.elapse, hm, hover]
      · obtain rfl : t = u := Option.some.inj (ht.symm.trans hu)
        exact isSettled_elapse hgliding hframe

theorem now_elapse (s : Session μ ClockedScreen ε) (frame : Duration) :
    (s.onScreen (·.elapse frame)).now = s.now + frame :=
  ClockedScreen.now_run (.elapse frame)

section Glides

variable {stage : Stage ClockedScreen} {target : Point} {fill : Fill} {length : Duration}

theorem shows_glide (hmove : stage.screen.move = none)
    (hstage : s.stage = stage.glide target fill length)
    (hawaited : s.awaited = some stage.ledger.next) : Shows s length := by
  by_cases hlength : length = 0
  · subst hlength
    refine .resting ?_ fun t ht => ?_
    · simp [hstage, Stage.glide, Stage.act, Screen.glide, ClockedScreen.glide]
    · obtain rfl := Option.some.inj (hawaited.symm.trans ht)
      rw [hstage]
      exact isSettled_glide_of_zero ..
  · refine .moving hawaited ?_ (Nat.pos_of_ne_zero hlength)
    rw [hstage]
    exact gliding_glide hmove _ _ hlength

theorem now_glide (hstage : s.stage = stage.glide target fill length) :
    s.now = stage.screen.now := by
  rw [now, hstage]
  exact ClockedScreen.now_run (.glide target fill length)

end Glides

variable [Machine μ] [Editor ε]

theorem Shows.tick_of_pos (h : Shows s left) (hleft : 0 < left) : s.tick = (s, .waiting) := by
  cases h with
  | resting => exact absurd hleft (Nat.lt_irrefl 0)
  | moving ht hgliding => exact tick_waiting ht hgliding.isSettled

theorem Shows.pos_of_waiting (h : Shows s left) (hs : Orderly s) (hwaits : s.tick.2 = .waiting) :
    0 < left := by
  have htick := hs.tickOf
  generalize s.tick = r at htick hwaits
  cases htick with
  | waiting t _ awaited _ unsettled =>
    have hopen : s.stage.ledger.isSettled t = false := by simp [Ledger.isSettled, unsettled]
    exact Nat.pos_of_ne_zero fun hzero => by simp [(h.isSettled_iff awaited).mpr hzero] at hopen
  | idle | parked | moved | stepped | begun => exact Tick.noConfusion hwaits

end Moves

/-! ## One tick -/

section Rounds

variable {ε : Type} [Editor ε] {s : Session Walker ClockedScreen ε} {left frame : Duration}

/-- What one tick of a host can be, with the session and the time left after it. Only a tick that
waits takes time, and no other tick than a step leaves time to wait. -/
inductive Round (s : Session Walker ClockedScreen ε) (left frame : Duration) :
    Session Walker ClockedScreen ε × Tick → Duration → Prop where
  | idle (stopped : s.phase = .stopped) (spent : left = 0) : Round s left frame (s, .idle) 0
  | waited (more : 0 < left) :
      Round s left frame (s.onScreen (·.elapse frame), .waiting) (left - frame)
  | stepped {t : Session Walker ClockedScreen ε} (spent : left = 0) (awaits : t.awaited ≠ none)
      (steps : t.tally.steps = s.tally.steps + 1) (now : t.now = s.now) :
      Round s left frame (t, .ran) s.settings.run.stepLength
  | went {t : Session Walker ClockedScreen ε} (spent : left = 0)
      (steps : t.tally.steps = s.tally.steps) (now : t.now = s.now) : Round s left frame (t, .ran) 0

theorem steps_proceed (s : Session Walker ClockedScreen ε) :
    s.proceed.tally.steps = s.tally.steps := by
  unfold proceed
  split
  · split_ifs
    · rfl
    · simp only [tally_conclude, record, Tally.addVerdict]
      split_ifs <;> rfl
  · rfl

theorem awaited_proceed (h : s.awaited = none) : s.proceed.awaited = none := by
  unfold proceed
  split
  · split_ifs
    · exact h
    · simp only [conclude]
      split_ifs
      · exact h
      · rfl
  · exact h

/-- After any tick of a host, the screen still shows what the run waits for. -/
theorem exists_round (h : Reachable s) (hphase : s.phase ≠ .paused) (hs : Shows s left)
    (frame : Duration) : ∃ left', Round s left frame (hostTick frame s) left' ∧
      Shows (hostTick frame s).1 left' := by
  by_cases hleft : 0 < left
  · rw [hostTick_of_waiting (hs.tick_of_pos hleft)]
    exact ⟨left - frame, .waited hleft, hs.elapse hleft frame⟩
  -- Nothing moves, so the tick does not wait.
  obtain rfl := Nat.eq_zero_of_not_pos hleft
  have hmove : s.stage.screen.move = none := by
    cases hs with
    | resting hmove => exact hmove
    | moving _ _ hpos => exact absurd hpos hleft
  have hwaits : s.tick.2 ≠ .waiting := fun hwaits => hleft (hs.pos_of_waiting h.orderly hwaits)
  rw [hostTick_of_ne_waiting hwaits]
  have htick := h.orderly.tickOf
  generalize s.tick = r at htick hwaits ⊢
  cases htick with
  | idle rest => exact ⟨0, .idle rest.phase rfl, hs⟩
  | waiting => exact absurd rfl hwaits
  | parked paused => exact absurd paused hphase
  | moved t awaited settled midway =>
    have hnone := awaited_proceed midway.awaited
    have hstage := stage_proceed { s with awaited := none }
    refine ⟨0, .went rfl (steps_proceed _) (congrArg (·.screen.now) hstage), .resting ?_ ?_⟩
    · rw [hstage]
      exact hmove
    · simp [hnone]
  | stepped running tasks midway =>
    obtain ⟨w, hw⟩ := Option.isSome_iff_exists.mp midway.onCase.1
    have hw : s.machine = some w := hw
    have hruns := h.faultless.runs w hw tasks
    obtain ⟨w', hstep, -⟩ := Walker.step_ok (h.faultless.started w hw) hruns
    rw [takeStep_moved (s := { s with tasks := [] }) hw hstep]
    let u := ({ s with tasks := [] }.showToken w).afterStep w'
    have hnow : (u.moveToken w').now = u.stage.screen.now := now_glide rfl
    have hshows : Shows (u.moveToken w') u.settings.run.stepLength := shows_glide rfl rfl rfl
    exact ⟨_, .stepped rfl (by simp [moveToken]) rfl hnow, hshows⟩
  | begun active awaited tasks course =>
    obtain ⟨p, hp⟩ := Option.isSome_iff_exists.mp course.1
    obtain ⟨test, ht⟩ := course.test
    obtain ⟨w, hlaunch, -⟩ := Walker.launch_ok (s.fresh s.tally.started) p test
    rw [beginCase_started (s := { s with tasks := [] }) hp ht hlaunch]
    refine ⟨0, .went rfl rfl rfl, .resting rfl ?_⟩
    simp [enqueue, showToken, onMachine, awaited]

end Rounds

/-! ## Many ticks -/

section Runs

variable {ε : Type} [Editor ε] {s : Session Walker ClockedScreen ε} {left length frame : Duration}
  {frames : Nat → Duration}

/-- A run without pauses, whose steps have this length, and which waits for no more than a step. -/
structure OnPace (length : Duration) (s : Session Walker ClockedScreen ε) : Prop where
  reachable : Reachable s
  unpaused : s.phase ≠ .paused
  stepLength : s.settings.run.stepLength = length
  shows : ∃ left ≤ length, Shows s left

theorem onPace_hostTick (h : OnPace length s) (frame : Duration) :
    OnPace length (hostTick frame s).1 := by
  obtain ⟨notes, hpath, -⟩ := leads_tick h.reachable.orderly
  have hunpaused := hostTick_keeps frame (P := fun u => u.phase ≠ .paused)
    (fun _ _ hu => hu) (tick_ne_paused h.reachable h.unpaused)
  have hsettings := hostTick_keeps frame (P := fun u => u.settings = s.settings)
    (fun _ _ hu => hu) hpath.fresh_and_settings.2
  refine ⟨reachable_hostTick h.reachable, hunpaused, hsettings ▸ h.stepLength, ?_⟩
  obtain ⟨left, hle, hshows⟩ := h.shows
  obtain ⟨left', hround, hshows'⟩ := exists_round h.reachable h.unpaused hshows frame
  refine ⟨left', ?_, hshows'⟩
  generalize hostTick frame s = r at hround
  cases hround with
  | idle | went => exact Nat.zero_le _
  | waited => exact (Nat.sub_le ..).trans hle
  | stepped => exact Nat.le_of_eq h.stepLength

theorem onPace_hosted (h : OnPace length s) (frames : Nat → Duration) (n : Nat) :
    OnPace length (hosted frames s n) := by
  induction n with
  | zero => exact h
  | succ n ih => exact onPace_hostTick ih _

theorem hosted_of_shows (h : Shows s left) (frames : Nat → Duration) (k : Nat) :
    (∀ j < k, ∑ i ∈ range j, frames i < left) → ∃ stage, hosted frames s k = { s with stage } ∧
      Shows { s with stage } (left - ∑ i ∈ range k, frames i) ∧
      stage.screen.now = s.now + ∑ i ∈ range k, frames i := by
  induction k with
  | zero => exact fun _ => ⟨s.stage, rfl, h, rfl⟩
  | succ k ih =>
    intro hk
    obtain ⟨stage, hhosted, hshows, hnow⟩ := ih fun j hj => hk j (Nat.lt_succ_of_lt hj)
    have hmore := Nat.sub_pos_of_lt (hk k (Nat.lt_succ_self k))
    refine ⟨stage.act (·.elapse (frames k)), ?_, ?_, ?_⟩
    · rw [hosted, hhosted, hostTick_of_waiting (hshows.tick_of_pos hmore)]
      rfl
    · rw [sum_range_succ, ← Nat.sub_sub]
      exact hshows.elapse hmore (frames k)
    · rw [sum_range_succ, ← Nat.add_assoc, ← hnow]
      exact now_elapse { s with stage } (frames k)

theorem exists_enough (hframes : ∀ i, 0 < frames i) (length : Duration) :
    ∃ k, length ≤ ∑ i ∈ range k, frames i := by
  refine ⟨length, ?_⟩
  calc length = ∑ i ∈ range length, 1 := by simp
    _ ≤ ∑ i ∈ range length, frames i := sum_le_sum fun i _ => hframes i

theorem exists_wait (h : Shows s left) (hframes : ∀ i, 0 < frames i) :
    ∃ k, left ≤ ∑ i ∈ range k, frames i ∧ (∀ j < k, ∑ i ∈ range j, frames i < left) ∧
      (∀ j < k, (hosted frames s j).tick.2 = .waiting) ∧
      ∃ stage, hosted frames s k = { s with stage } ∧ Shows { s with stage } 0 ∧
        stage.screen.now = s.now + ∑ i ∈ range k, frames i := by
  have henough := exists_enough hframes left
  have hleast : ∀ j < Nat.find henough, ∑ i ∈ range j, frames i < left :=
    fun j hj => Nat.lt_of_not_le (Nat.find_min henough hj)
  obtain ⟨stage, hhosted, hshows, hnow⟩ := hosted_of_shows h frames _ hleast
  rw [Nat.sub_eq_zero_of_le (Nat.find_spec henough)] at hshows
  refine ⟨_, Nat.find_spec henough, hleast, fun j hj => ?_, stage, hhosted, hshows, hnow⟩
  obtain ⟨stage', hhosted', hshows', -⟩ := hosted_of_shows h frames j
    fun i hi => hleast i (hi.trans hj)
  rw [hhosted', hshows'.tick_of_pos (Nat.sub_pos_of_lt (hleast j hj))]

/-- What a step leaves behind: the run waits for a move of its full length, and no time has passed. -/
theorem shows_of_step (h : OnPace length s) {frame : Duration}
    (hstep : (hostTick frame s).1.tally.steps = s.tally.steps + 1) :
    (hostTick frame s).1.awaited ≠ none ∧ (hostTick frame s).1.now = s.now ∧
      Shows (hostTick frame s).1 length := by
  obtain ⟨left, -, hleft⟩ := h.shows
  obtain ⟨left', hround, hshows⟩ := exists_round h.reachable h.unpaused hleft frame
  generalize hostTick frame s = r at hround hshows hstep ⊢
  cases hround with
  | idle | waited => exact absurd hstep (Nat.ne_of_lt (Nat.lt_succ_self _))
  | went _ steps => exact absurd (steps.symm.trans hstep) (Nat.ne_of_lt (Nat.lt_succ_self _))
  | stepped _ awaits _ now => exact ⟨awaits, now, h.stepLength ▸ hshows⟩

/-- A step that has been taken is shown for as few frames as its length allows. -/
theorem exists_shownFor (h : OnPace length s) (hframes : ∀ i, 0 < frames i) {n : Nat}
    (hstep : (hosted frames s (n + 1)).tally.steps = (hosted frames s n).tally.steps + 1) :
    ∃ k, ShownFor frames (hosted frames s) length n k := by
  let later (i : Nat) : Duration := frames (n + 1 + i)
  have hpositive : ∀ i, 0 < later i := fun i => hframes _
  have hlater (k : Nat) : hosted frames s (n + 1 + k) = hosted later (hosted frames s (n + 1)) k :=
    hosted_add ..
  obtain ⟨hawaits, hnow, hshows⟩ := shows_of_step (onPace_hosted h frames n) hstep
  obtain ⟨t, ht⟩ := Option.ne_none_iff_exists'.mp hawaits
  obtain ⟨k, henough, hleast, hwaits, stage, hhosted, hspent, helapsed⟩ :=
    exists_wait hshows hpositive
  have hlast : hosted frames s (n + 1 + k) = { hosted frames s (n + 1) with stage } :=
    (hlater k).trans hhosted
  refine ⟨k, henough, hleast, fun j hj => ?_, ⟨stage, hlast⟩, ?_, ?_, ?_⟩
  · rw [hlater]
    exact hwaits j hj
  · rw [hlast]
    exact hawaits
  · rw [hlast]
    exact tick_settled ht ((hspent.isSettled_iff ht).mpr rfl)
  · rw [hlast, ← hnow]
    exact helapsed

/-! ## The end of a run -/

theorem steps_le_hostTick (h : Reachable s) (frame : Duration) :
    s.tally.steps ≤ (hostTick frame s).1.tally.steps := by
  obtain ⟨notes, hpath, -⟩ := leads_tick h.orderly
  exact hostTick_keeps (P := fun u => s.tally.steps ≤ u.tally.steps) frame (fun _ _ hu => hu)
    (hpath.steps ▸ Nat.le_add_right ..)

theorem steps_le_hosted (h : Reachable s) (frames : Nat → Duration) (n : Nat) :
    s.tally.steps ≤ (hosted frames s n).tally.steps := by
  induction n with
  | zero => exact Nat.le_refl _
  | succ n ih => exact ih.trans (steps_le_hostTick (reachable_hosted h frames n) _)

theorem hosted_of_stopped (h : Reachable s) (hstopped : s.phase = .stopped)
    (frames : Nat → Duration) (n : Nat) : hosted frames s n = s := by
  have hrest := h.orderly.atRest hstopped
  have htick := tick_idle hrest.awaited hrest.tasks
  induction n with
  | zero => rfl
  | succ n ih => rw [hosted, ih, hostTick_of_ne_waiting (by simp [htick]), htick]

/-- The run takes another step or ends, sooner or later. -/
def GoesOn (frames : Nat → Duration) (s : Session Walker ClockedScreen ε) : Prop :=
  ∃ n, (hosted frames s n).phase = .stopped ∨ s.tally.steps < (hosted frames s n).tally.steps

theorem GoesOn.of_hosted {n : Nat} (h : Reachable s)
    (hlater : GoesOn (fun i => frames (n + i)) (hosted frames s n)) : GoesOn frames s := by
  obtain ⟨k, hk⟩ := hlater
  rw [← hosted_add] at hk
  refine ⟨n + k, hk.imp_right fun hsteps => ?_⟩
  exact Nat.lt_of_le_of_lt (steps_le_hosted h frames n) hsteps

theorem goesOn_step (h : OnPace length s) (hphase : s.phase ≠ .stopped)
    (hawaited : s.awaited = none) (htasks : s.tasks = [.step]) (hcase : OnCase s)
    (frames : Nat → Duration) : GoesOn frames s := by
  obtain ⟨w, hw⟩ := Option.isSome_iff_exists.mp hcase.1
  have hfaultless := h.reachable.faultless
  obtain ⟨w', hstep, -⟩ := Walker.step_ok (hfaultless.started w hw) (hfaultless.runs w hw htasks)
  have hrunning : s.phase = .running := by
    cases hp : s.phase with
    | stopped => exact absurd hp hphase
    | paused => exact absurd hp h.unpaused
    | running => rfl
  have htick := tick_step hawaited htasks hrunning
  refine ⟨1, .inr ?_⟩
  rw [hosted, hosted, hostTick_of_ne_waiting (by simp [htick]), htick,
    takeStep_moved (s := { s with tasks := [] }) hw hstep]
  exact Nat.lt_succ_self _

theorem goesOn_nextCase (h : OnPace length s) (hphase : s.phase ≠ .stopped)
    (hawaited : s.awaited = none) (htasks : s.tasks = [.nextCase]) (frames : Nat → Duration) :
    GoesOn frames s := by
  have hcourse := h.reachable.orderly.onCourse hphase
  obtain ⟨p, hp⟩ := Option.isSome_iff_exists.mp hcourse.1
  obtain ⟨test, ht⟩ := hcourse.test
  obtain ⟨w, hlaunch, -⟩ := Walker.launch_ok (s.fresh s.tally.started) p test
  have htick := tick_nextCase hawaited htasks hphase
  have hfirst : hosted frames s 1 =
      (({ s with tasks := [] }.onMachine w test).showToken w).enqueue .step := by
    rw [hosted, hosted, hostTick_of_ne_waiting (by simp [htick]), htick,
      beginCase_started (s := { s with tasks := [] }) hp ht hlaunch]
  apply GoesOn.of_hosted (n := 1) h.reachable
  have hnext := onPace_hosted h frames 1
  rw [hfirst] at hnext ⊢
  exact goesOn_step hnext hphase hawaited rfl ⟨rfl, ht.symm⟩ _

theorem goesOn_of_onPace (h : OnPace length s) (hframes : ∀ i, 0 < frames i) : GoesOn frames s := by
  by_cases hphase : s.phase = .stopped
  · exact ⟨0, .inl hphase⟩
  cases h.reachable.orderly.oneThing hphase with
  | step hawaited htasks hcase => exact goesOn_step h hphase hawaited htasks hcase frames
  | nextCase hawaited htasks _ => exact goesOn_nextCase h hphase hawaited htasks frames
  | move t ht =>
    -- Once the move has ended, there is a step to take, a case to begin, or nothing at all.
    obtain ⟨left, -, hleft⟩ := h.shows
    obtain ⟨k, -, -, -, stage, hhosted, hspent, -⟩ := exists_wait hleft hframes
    let u := { s with stage, awaited := none }.proceed
    have htick : { s with stage }.tick = (u, .ran) :=
      tick_settled ht ((hspent.isSettled_iff ht).mpr rfl)
    have hlanded : hosted frames s (k + 1) = u := by
      rw [hosted, hhosted, hostTick_of_ne_waiting (by simp [htick]), htick]
    have hawaited : u.awaited = none := awaited_proceed rfl
    apply GoesOn.of_hosted (n := k + 1) h.reachable
    have hnext := onPace_hosted h frames (k + 1)
    rw [hlanded] at hnext ⊢
    by_cases hstopped : u.phase = .stopped
    · exact ⟨0, .inl hstopped⟩
    cases hnext.reachable.orderly.oneThing hstopped with
    | move _ ht' => simp [hawaited] at ht'
    | step _ htasks hcase => exact goesOn_step hnext hstopped hawaited htasks hcase _
    | nextCase _ htasks _ => exact goesOn_nextCase hnext hstopped hawaited htasks _

theorem hosted_add_of_stopped (h : Reachable s) {n : Nat}
    (hstopped : (hosted frames s n).phase = .stopped) (k : Nat) :
    hosted frames s (n + k) = hosted frames s n := by
  rw [hosted_add, hosted_of_stopped (reachable_hosted h frames n) hstopped]

theorem steps_le_hosted_add (h : Reachable s) (frames : Nat → Duration) (n k : Nat) :
    (hosted frames s n).tally.steps ≤ (hosted frames s (n + k)).tally.steps := by
  rw [hosted_add]
  exact steps_le_hosted (reachable_hosted h frames n) ..

theorem takesInAll_of_stopped (h : Reachable s) {N total : Nat}
    (hstopped : (hosted frames s N).phase = .stopped)
    (hsteps : (hosted frames s N).tally.steps = s.tally.steps + total) :
    TakesInAll (hosted frames s) total := by
  refine ⟨⟨N, hsteps⟩, fun n => ?_⟩
  calc (hosted frames s n).tally.steps ≤ (hosted frames s (n + N)).tally.steps :=
        steps_le_hosted_add h frames n N
    _ = (hosted frames s N).tally.steps := by rw [Nat.add_comm, hosted_add_of_stopped h hstopped]
    _ = s.tally.steps + total := hsteps

theorem exists_end (h : OnPace length s) (hframes : ∀ i, 0 < frames i) {total : Nat}
    (htotal : TakesInAll (hosted frames s) total) :
    ∃ N, (∀ n, (hosted frames s n).phase = .stopped ↔ N ≤ n) ∧
      (hosted frames s N).tally.steps = s.tally.steps + total := by
  obtain ⟨⟨n, hn⟩, hall⟩ := htotal
  have hends : ∃ N, (hosted frames s N).phase = .stopped := by
    have hgoes : GoesOn (fun i => frames (n + i)) (hosted frames s n) :=
      goesOn_of_onPace (onPace_hosted h frames n) fun i => hframes _
    obtain ⟨k, hk⟩ := hgoes
    rw [← hosted_add, hn] at hk
    exact ⟨n + k, hk.resolve_right (Nat.not_lt.mpr (hall (n + k)))⟩
  have hstopped := Nat.find_spec hends
  refine ⟨Nat.find hends, fun m => ⟨Nat.find_min' hends, fun hle => ?_⟩, ?_⟩
  · obtain ⟨k, rfl⟩ := Nat.exists_eq_add_of_le hle
    rw [hosted_add_of_stopped h.reachable hstopped, hstopped]
  · refine Nat.le_antisymm (hall _) ?_
    calc s.tally.steps + total = (hosted frames s n).tally.steps := hn.symm
      _ ≤ (hosted frames s (n + Nat.find hends)).tally.steps := steps_le_hosted_add h.reachable frames n _
      _ = (hosted frames s (Nat.find hends)).tally.steps := by
        rw [Nat.add_comm, hosted_add_of_stopped h.reachable hstopped]

/-! ## Frames of one length -/

theorem ceilDiv_of_pos {left frame : Nat} (hleft : 0 < left) (hframe : 0 < frame) :
    left ⌈/⌉ frame = (left - frame) ⌈/⌉ frame + 1 := by
  have hsum : left + frame - 1 = left - 1 + frame := by omega
  rw [Nat.ceilDiv_eq_add_pred_div, Nat.ceilDiv_eq_add_pred_div, hsum, Nat.add_div_right _ hframe]
  congr 1
  by_cases hle : frame ≤ left
  · rw [Nat.sub_add_cancel hle]
  · rw [Nat.div_eq_of_lt (by omega), Nat.div_eq_of_lt (by omega)]

/-- The ticks that have waited, and those that are to wait for the last step yet, are those of all
the steps taken. -/
theorem waits_of_steps (h : OnPace length s) (hs : Shows s 0) (hframe : 0 < frame) (n : Nat) :
    let run := hosted (fun _ => frame) s
    (run n).now = s.now + waitsIn run n * frame ∧
      ∃ left steps, Shows (run n) left ∧ (run n).tally.steps = s.tally.steps + steps ∧
        waitsIn run n + left ⌈/⌉ frame = steps * (length ⌈/⌉ frame) := by
  intro run
  induction n with
  | zero => exact ⟨by simp [run, waitsIn, hosted], 0, 0, hs, rfl, by simp [waitsIn]⟩
  | succ n ih =>
    obtain ⟨hnow, left, steps, hleft, hsteps, hwaits⟩ := ih
    have hn : OnPace length (run n) := onPace_hosted h _ n
    obtain ⟨left', hround, hshows⟩ := exists_round hn.reachable hn.unpaused hleft frame
    have hcount : waitsIn run (n + 1) =
        waitsIn run n + if (hostTick frame (run n)).2 = .waiting then 1 else 0 := by
      rw [hostTick_snd]
      exact Nat.count_succ ..
    have hnext : run (n + 1) = (hostTick frame (run n)).1 := rfl
    rw [hcount, hnext]
    generalize hostTick frame (run n) = r at hround hshows ⊢
    cases hround with
    | idle _ spent =>
      subst spent
      exact ⟨by simpa using hnow, 0, steps, hshows, hsteps, by simpa using hwaits⟩
    | waited more =>
      rw [ceilDiv_of_pos more hframe] at hwaits
      refine ⟨?_, left - frame, steps, hshows, hsteps, ?_⟩
      · rw [now_elapse, hnow, if_pos rfl, Nat.succ_mul, Nat.add_assoc]
      · rw [if_pos rfl, Nat.add_assoc, Nat.add_comm 1, hwaits]
    | stepped spent _ steps' now =>
      subst spent
      refine ⟨by simpa [now] using hnow, length, steps + 1, ?_, ?_, ?_⟩
      · exact hn.stepLength ▸ hshows
      · rw [steps', hsteps, Nat.add_assoc]
      · simpa [Nat.succ_mul] using hwaits
    | went spent steps' now =>
      subst spent
      refine ⟨by simpa [now] using hnow, 0, steps, hshows, steps'.trans hsteps, ?_⟩
      simpa using hwaits

/-! ## The theorem -/

theorem onPace_play (hs : Reachable s) (hstopped : s.phase = .stopped) (hp : s.program ≠ none) :
    s.play.2 = .ok () ∧ OnPace s.settings.run.stepLength s.play.1 ∧ Shows s.play.1 0 := by
  have hrest := hs.orderly.atRest hstopped
  obtain ⟨p, hprogram⟩ := Option.ne_none_iff_exists'.mp hp
  obtain ⟨test, htest⟩ : ∃ test, s.casesToRun[0]? = some test :=
    ⟨_, List.getElem?_eq_getElem s.casesToRun_pos⟩
  have hcase : s.openRun.cases[s.openRun.cursor.index]? = some test := by
    simpa [openRun, hrest.cursor] using htest
  obtain ⟨w, hlaunch, -⟩ := Walker.launch_ok (s.openRun.fresh s.openRun.tally.started) p test
  have hreachable : Reachable s.play.1 := hs.call .play
  have hplay := play_stopped hstopped hp
  rw [beginCase_started (s := s.openRun) hprogram hcase hlaunch] at hplay
  rw [hplay] at hreachable ⊢
  have hshows : Shows (((s.openRun.onMachine w test).showToken w).enqueue .step) 0 := by
    refine .resting rfl ?_
    simp [enqueue, showToken, onMachine, openRun, hrest.awaited]
  refine ⟨rfl, ⟨hreachable, ?_, rfl, 0, Nat.zero_le _, hshows⟩, hshows⟩
  simp [enqueue, showToken, onMachine, openRun]

/-- After each step, a run goes on as soon as the frames since then make up the length of a step,
and not sooner; so a step takes its length, and less than one frame more. With frames of one length,
a run that takes so many steps in all waits for just the frames of these steps. When steps take no
time, it does not wait at all. -/
theorem steps_take_their_length (hs : Reachable s) (hstopped : s.phase = .stopped)
    (hp : s.program ≠ none) :
    let length := s.settings.run.stepLength
    s.play.2 = .ok () ∧
    (∀ frames : Nat → Duration, (∀ i, 0 < frames i) →
      let run := hosted frames s.play.1
      ∀ n, (run (n + 1)).tally.steps = (run n).tally.steps + 1 →
        ∃ k, ShownFor frames run length n k ∧
          (run n).now + length ≤ (run (n + 1 + k)).now ∧
          (0 < k → (run (n + 1 + k)).now < (run n).now + length + frames (n + k))) ∧
    (∀ frame > 0, ∀ total,
      let run := hosted (fun _ => frame) s.play.1
      TakesInAll run total → ∃ N, (∀ n, (run n).phase = .stopped ↔ N ≤ n) ∧
        waitsIn run N = total * (length ⌈/⌉ frame) ∧
        (run N).now = (run 0).now + total * (length ⌈/⌉ frame) * frame) ∧
    (length = 0 → ∀ frames n, (hosted frames s.play.1 n).tick.2 ≠ .waiting) := by
  intro length
  obtain ⟨hok, hplay, hshows⟩ := onPace_play hs hstopped hp
  refine ⟨hok, ?_, ?_, ?_⟩
  · intro frames hframes run n hstep
    obtain ⟨k, hk⟩ := exists_shownFor hplay hframes hstep
    refine ⟨k, hk, ?_, fun hpos => ?_⟩
    · rw [hk.elapsed]
      exact Nat.add_le_add_left hk.enough _
    · obtain ⟨j, rfl⟩ := Nat.exists_eq_succ_of_ne_zero (Nat.ne_of_gt hpos)
      have hlast : n + 1 + j = n + (j + 1) := by omega
      rw [hk.elapsed, sum_range_succ, hlast, ← Nat.add_assoc]
      exact Nat.add_lt_add_right (Nat.add_lt_add_left (hk.least j (Nat.lt_succ_self j)) _) _
  · intro frame hframe total run htotal
    obtain ⟨N, hend, hsteps⟩ := exists_end hplay (fun _ => hframe) htotal
    obtain ⟨hnow, left, steps, hleft, hsteps', hwaits⟩ := waits_of_steps hplay hshows hframe N
    have hover := (hend N).mpr (Nat.le_refl N)
    have hrest := (reachable_hosted hplay.reachable _ N).orderly.atRest hover
    obtain rfl : left = 0 := hleft.eq_zero hrest.awaited
    obtain rfl : steps = total := Nat.add_left_cancel (hsteps'.symm.trans hsteps)
    rw [zero_ceilDiv, Nat.add_zero] at hwaits
    exact ⟨N, hend, hwaits, by rw [← hwaits]; exact hnow⟩
  · intro hzero frames n hwaiting
    have hn := onPace_hosted hplay frames n
    obtain ⟨left, hle, hleft⟩ := hn.shows
    have hpos := hleft.pos_of_waiting hn.reachable.orderly hwaiting
    exact absurd (hzero ▸ hle) (Nat.not_le.mpr hpos)

end Runs

/-- A session with two cases, on a grid where one step leads to the goal. -/
def stroll (stepMillis : Nat) : Session Walker ClockedScreen EditorSwitch :=
  let settings : Settings := { run := { stepMillis, defaultCols := 1, defaultRows := 2 } }
  ((initial (fun _ => {}) settings { layout := settings.view.layout } { on := true }).replaceCases
    [.default, .default]).1

theorem reachable_stroll (stepMillis : Nat) : Reachable (stroll stepMillis) := by
  unfold stroll
  exact .call (.replaceCases [.default, .default]) (.initial ..)

theorem program_stroll (stepMillis : Nat) :
    (stroll stepMillis).program = some (Program.emptyGrid 1 2) := rfl

theorem steps_take_their_length_on_a_stroll :
    let frame := Duration.ofMillis 100
    let run := hosted (fun _ => frame) (stroll 250).play.1
    (∃ k, ShownFor (fun _ => frame) run (.ofMillis 250) 0 k) ∧
      (∃ N, (∀ n, (run n).phase = .stopped ↔ N ≤ n) ∧ waitsIn run N = 6 ∧
        (run N).now = .ofMillis 600) ∧
      ∀ n, (hosted (fun _ => frame) (stroll 0).play.1 n).tick.2 ≠ .waiting := by
  intro frame run
  have hframe : 0 < frame := by decide
  have hs := reachable_stroll
  have hp (stepMillis : Nat) : (stroll stepMillis).program ≠ none := by simp [program_stroll]
  obtain ⟨-, hsteps, hends, -⟩ := steps_take_their_length (hs 250) rfl (hp 250)
  obtain ⟨-, -, -, hnone⟩ := steps_take_their_length (hs 0) rfl (hp 0)
  refine ⟨?_, ?_, hnone rfl _⟩
  · obtain ⟨k, hk, -⟩ := hsteps (fun _ => frame) (fun _ => hframe) 0 (by decide)
    exact ⟨k, hk⟩
  · have htotal : TakesInAll run 2 :=
      takesInAll_of_stopped (N := 11) (.call .play (hs 250)) (by decide) (by decide)
    have hframes : (stroll 250).settings.run.stepLength ⌈/⌉ frame = 3 := by decide
    have hsum : (run 0).now + 2 * 3 * frame = .ofMillis 600 := by decide
    obtain ⟨N, hend, hwaits, hnow⟩ := hends frame hframe 2 htotal
    rw [hframes] at hwaits hnow
    exact ⟨N, hend, hwaits, hnow.trans hsum⟩

end Tilewalk.Session
