import Mathlib.Algebra.Order.Floor.Div
import Mathlib.Logic.Function.Iterate
import Tilewalk.CommandLine.Run
import Tilewalk.Proofs.Machine.Halting
import Tilewalk.Proofs.Session.FailFast

/-! # The rounds of a run

A run goes on in rounds, whichever way it is played, and a step takes the same number of rounds
throughout. So whether all cases have passed after some rounds can be told from the steps that the
walkers take.
-/

namespace Tilewalk.CommandLine

open Session

variable {σ : Type} [Screen σ]

/-! ## Ways to play -/

/-- A machine has taken its step, and its move is over. -/
structure Landed {μ σ ε : Type} [Machine μ] (p : Program) (cases : List Case) (fresh : Nat → μ)
    (done : List Outcome) (test : Case) (m : μ) (s : Session μ σ ε) : Prop
    extends InLoop p cases fresh done (done.length + 1) s where
  tasks : s.tasks = []
  test : s.cursor.test = some test
  machine : s.machine = some m
  fault : s.fault = none

/-- The machines of a session that plays for the command line are all alike. -/
def newWalker (_ : Nat) : Walker := {}

/-- A way to play with these settings, one round after the other. Nothing is judged before the
`cost` rounds of a step are over. -/
structure Pace (settings : Settings) (round : Play σ → Play σ) (cost : Nat) : Prop where
  rest : ∀ s, AtRest s → round s = s
  next : ∀ s, s.phase = .running → s.awaited = none → s.tasks = [.nextCase] →
    round s = { s with tasks := [] }.beginCase
  step : ∀ {p cases done test w w'} {s : Play σ}, s.settings = settings →
    Stepping p cases newWalker done test w s → Machine.step w = (w', .ok ()) →
    (∀ j < cost, (round^[j] s).outcomes = done ∧ (round^[j] s).cases = cases) ∧
      ∃ u, Landed p cases newWalker done test w' u ∧ u.settings = settings ∧
        round^[cost] s = u.proceed

/-! ## One step -/

omit [Screen σ] in
theorem allPassed_of_missing {s : Play σ} (h : s.outcomes.length < s.cases.length) :
    allPassed s = false := by
  unfold allPassed
  rw [beq_false_of_ne (by omega), Bool.false_and]

section Steps

variable {μ ε : Type} [Machine μ] {p : Program} {cases : List Case} {fresh : Nat → μ}
  {done : List Outcome} {test : Case} {m : μ}

omit [Screen σ] in
theorem Landed.stepping [Editor ε] {s : Session μ σ ε} (h : Landed p cases fresh done test m s)
    (hruns : Machine.isRunning m = true) :
    Stepping p cases fresh done test m s.proceed ∧ s.proceed.settings = s.settings := by
  rw [proceed_more h.machine h.test (by simp [HasEnded, h.fault, hruns])]
  refine ⟨⟨?_, ?_, h.test, h.machine, h.fault⟩, rfl⟩
  · exact ⟨h.phase, h.program, h.cases, h.outcomes, h.index, h.awaited, h.machines⟩
  · simp [enqueue, h.tasks]

omit [Screen σ] in
theorem Landed.ended {s : Session μ σ ε} (h : Landed p cases fresh done test m s)
    (hhalted : Machine.isRunning m = false) : Ended p cases fresh done test m none s :=
  ⟨h.toInLoop, h.tasks, h.test, h.machine, h.fault, .inr hhalted⟩

end Steps

section Walkers

variable {p : Program} {cases : List Case} {done : List Outcome} {test : Case}

theorem stepping_beginCase {s : Play σ} (h : InLoop p cases newWalker done done.length s)
    (htasks : s.tasks = []) (htest : cases[done.length]? = some test) :
    ∃ w : Walker, launch {} p test = (w, .ok ()) ∧ w.IsStarted ∧ w.isRunning = true ∧
      Stepping p cases newWalker done test w s.beginCase ∧ s.beginCase.settings = s.settings := by
  have hfresh : s.fresh s.tally.started = {} := h.machines 0
  obtain ⟨w, hlaunch, hstarted, hruns⟩ := Walker.launch_ok {} p test
  refine ⟨w, hlaunch, hstarted, hruns, ?_⟩
  have hcase : s.cases[s.cursor.index]? = some test := by rw [h.cases, h.index, htest]
  rw [beginCase_started h.program hcase (hfresh ▸ hlaunch)]
  refine ⟨⟨⟨h.phase, h.program, h.cases, h.outcomes, h.index, h.awaited, fun n => ?_⟩, ?_, rfl, rfl,
    rfl⟩, rfl⟩
  · have hnext := h.machines (1 + n)
    rw [← Nat.add_assoc] at hnext
    exact hnext
  · simp [enqueue, showToken, onMachine, htasks]

omit [Screen σ] in
theorem passed_ofEnd (index : Nat) (test : Case) (w : Walker) :
    (Outcome.ofEnd index test w none).passed = test.passes w := rfl

omit [Screen σ] in
theorem proceed_keeps (s : Play σ) :
    s.proceed.cases = s.cases ∧ s.proceed.settings = s.settings := by
  unfold proceed
  split
  · split_ifs
    · exact ⟨rfl, rfl⟩
    · simp only [conclude]
      split_ifs <;> exact ⟨rfl, rfl⟩
  · exact ⟨rfl, rfl⟩

/-! ## The end of a case -/

omit [Screen σ] in
theorem failed_at_rest {w : Walker} {u : Play σ} (h : Ended p cases newWalker done test w none u)
    (hfails : test.passes w = false) : AtRest u.proceed ∧ allPassed u.proceed = false := by
  obtain ⟨hrest, houtcomes⟩ := atRest_last h (.inl hfails)
  exact ⟨hrest, by simp [allPassed, houtcomes, passed_ofEnd, hfails]⟩

omit [Screen σ] in
theorem passed_at_rest {w : Walker} {u : Play σ} (h : Ended p cases newWalker done test w none u)
    (hpasses : test.passes w = true) (hdone : ∀ o ∈ done, o.passed = true)
    (hlast : cases.length = done.length + 1) : AtRest u.proceed ∧ allPassed u.proceed = true := by
  obtain ⟨hrest, houtcomes⟩ := atRest_last h (.inr (Nat.le_of_eq hlast))
  have hcases : u.proceed.cases = cases := (proceed_keeps u).1.trans h.cases
  refine ⟨hrest, ?_⟩
  simpa [allPassed, houtcomes, hcases, hlast, passed_ofEnd, hpasses] using hdone

theorem next_round {settings : Settings} {round : Play σ → Play σ} {cost : Nat}
    (hpace : Pace settings round cost) {w : Walker} {u : Play σ} {next : Case} {rest : List Case}
    (h : Ended p cases newWalker done test w none u) (hpasses : test.passes w = true)
    (hdrop : cases.drop (done.length + 1) = next :: rest) :
    u.proceed.outcomes = done ++ [.ofEnd done.length test w none] ∧
      ∃ v : Walker, launch {} p next = (v, .ok ()) ∧ v.IsStarted ∧ v.isRunning = true ∧
        Stepping p cases newWalker (done ++ [.ofEnd done.length test w none]) next v
          (round u.proceed) ∧ (round u.proceed).settings = u.settings := by
  have hmore : done.length + 1 < cases.length := by
    apply Nat.lt_of_not_le
    intro hle
    simp [List.drop_eq_nil_of_le hle] at hdrop
  obtain ⟨hloop, htasks⟩ := inLoop_next h hpasses hmore
  let judged := done ++ [Outcome.ofEnd done.length test w none]
  have hlength : judged.length = done.length + 1 := by simp [judged]
  have hbegin : InLoop p cases newWalker judged judged.length { u.proceed with tasks := [] } :=
    ⟨hloop.phase, hloop.program, hloop.cases, hloop.outcomes, hloop.index, hloop.awaited,
      hlength ▸ hloop.machines⟩
  have htest : cases[judged.length]? = some next := by simp [hlength, ← List.head?_drop, hdrop]
  obtain ⟨v, hlaunch, hstarted, hruns, hstepping, hsettings⟩ := stepping_beginCase hbegin rfl htest
  rw [hpace.next _ hloop.phase hloop.awaited htasks]
  exact ⟨hloop.outcomes, v, hlaunch, hstarted, hruns, hstepping,
    hsettings.trans (proceed_keeps u).2⟩

/-! ## All steps -/

/-- Whether all cases have passed after `budget` rounds depends on how soon the walkers halt, and on
whether they pass. The rounds of one step are taken off the budget at a time. -/
theorem allPassed_iterate {settings : Settings} {round : Play σ → Play σ} {cost : Nat}
    (hpace : Pace settings round cost) (hcost : 0 < cost) (budget : Nat) :
    ∀ {done : List Outcome} {test : Case} {rest : List Case} {w : Walker} {s : Play σ},
      s.settings = settings → Stepping p cases newWalker done test w s →
      cases.drop done.length = test :: rest → (∀ o ∈ done, o.passed = true) →
      w.IsStarted → w.isRunning = true →
      (allPassed (round^[budget] s) = true ↔ PassesWithin p cost budget w test rest) := by
  induction budget using Nat.strongRecOn with
  | ind budget ih =>
    intro done test rest w s hsettings hstepping hdrop hdone hstarted hruns
    obtain ⟨w', hstep, hstarted'⟩ := Walker.step_ok hstarted hruns
    obtain ⟨hmid, u, hu, husettings, hround⟩ := hpace.step hsettings hstepping hstep
    have hlengths := congrArg List.length hdrop
    rw [List.length_drop, List.length_cons] at hlengths
    by_cases hbudget : budget < cost
    · -- The first step is not over, and its case has not been judged.
      obtain ⟨houtcomes, hcases⟩ := hmid budget hbudget
      have hmissing := allPassed_of_missing (s := round^[budget] s)
        (by rw [houtcomes, hcases]; omega)
      simp [hmissing, not_passesWithin_of_lt hbudget]
    obtain ⟨budget, rfl⟩ := Nat.exists_eq_add_of_le (Nat.le_of_not_lt hbudget)
    rw [Nat.add_comm, Function.iterate_add_apply, hround, Nat.add_comm]
    cases hhalted : Machine.isRunning w' with
    | true =>
      obtain ⟨hnext, hsame⟩ := hu.stepping hhalted
      rw [passesWithin_iff_of_running hstep hhalted]
      exact ih budget (by omega) (hsame.trans husettings) hnext hdrop hdone hstarted' hhalted
    | false =>
      have hended := hu.ended hhalted
      cases hpasses : test.passes w' with
      | false =>
        obtain ⟨hrest, hfailed⟩ := failed_at_rest hended hpasses
        rw [Function.iterate_fixed (hpace.rest _ hrest)]
        simp [hfailed, not_passesWithin_of_failed hstep hhalted hpasses]
      | true =>
        cases rest with
        | nil =>
          rw [List.length_nil] at hlengths
          obtain ⟨hrest, hall⟩ := passed_at_rest hended hpasses hdone (by omega)
          rw [Function.iterate_fixed (hpace.rest _ hrest)]
          simp [hall, passesWithin_last hstep hhalted hpasses]
        | cons next rest =>
          have hdrop' : cases.drop (done.length + 1) = next :: rest := by
            rw [← List.drop_drop, hdrop]
            rfl
          obtain ⟨houtcomes, v, hlaunch, hv, hvruns, hnext, hsame⟩ :=
            next_round hpace hended hpasses hdrop'
          rw [passesWithin_iff_of_passed hstep hhalted hpasses hlaunch]
          cases budget with
          | zero =>
            have hcases : u.proceed.cases = cases := (proceed_keeps u).1.trans hu.cases
            rw [List.length_cons] at hlengths
            have hmissing := allPassed_of_missing (s := u.proceed)
              (by rw [houtcomes, hcases, List.length_append, List.length_singleton]; omega)
            simp [hmissing]
          | succ left =>
            rw [Function.iterate_succ_apply]
            have hdone' : ∀ o ∈ done ++ [.ofEnd done.length test w' none], o.passed = true := by
              intro o ho
              rcases List.mem_append.mp ho with ho | ho
              · exact hdone o ho
              · rwa [List.mem_singleton.mp ho, passed_ofEnd]
            have hleft := ih left (by omega) (hsame.trans husettings) hnext
              (by simpa using hdrop') hdone' hv hvruns
            simpa using hleft

end Walkers

/-! ## Without delay -/

section Steps

variable {μ ε : Type} [Machine μ] [Editor ε] {p : Program} {cases : List Case} {fresh : Nat → μ}
  {done : List Outcome} {test : Case} {m m' : μ}

/-- The session when a step has been taken and its move has begun. -/
def onTheMove (s : Session μ σ ε) (m m' : μ) : Session μ σ ε :=
  (({ s with tasks := [] }.showToken m).afterStep m').moveToken m'

theorem tick_onTheMove {s : Session μ σ ε} (h : Stepping p cases fresh done test m s)
    (hm : Machine.step m = (m', .ok ())) : s.tick = (onTheMove s m m', .ran) := by
  rw [tick_step h.awaited h.tasks h.phase]
  exact congrArg (·, Tick.ran) (takeStep_moved h.machine hm)

omit [Editor ε] in
theorem landed_onTheMove {s : Session μ σ ε} (h : Stepping p cases fresh done test m s) (m' : μ)
    (stage : Stage σ) :
    Landed p cases fresh done test m' { onTheMove s m m' with stage, awaited := none } :=
  ⟨⟨h.phase, h.program, h.cases, h.outcomes, h.index, rfl, h.machines⟩, rfl, h.test, rfl, h.fault⟩

end Steps

def tickRound (s : Play InstantScreen) : Play InstantScreen := s.tick.1

theorem pace_tickRound (settings : Settings) : Pace settings tickRound 2 where
  rest s h := by rw [tickRound, tick_idle h.awaited h.tasks]
  next s hphase hawaited htasks := by
    rw [tickRound, tick_nextCase hawaited htasks (by simp [hphase])]
  step := by
    intro p cases done test w w' s hsettings h hstep
    let moved := onTheMove s w w'
    have hfirst : tickRound s = moved := congrArg Prod.fst (tick_onTheMove h hstep)
    have hsecond : moved.tick = ({ moved with awaited := none }.proceed, .ran) :=
      tick_settled rfl (Stage.isSettled_glide ..)
    refine ⟨fun j hj => ?_, { moved with awaited := none }, landed_onTheMove h w' _, hsettings, ?_⟩
    · obtain rfl | rfl : j = 0 ∨ j = 1 := by omega
      · exact ⟨h.outcomes, h.cases⟩
      · show (tickRound s).outcomes = done ∧ (tickRound s).cases = cases
        rw [hfirst]
        exact ⟨h.outcomes, h.cases⟩
    · show tickRound (tickRound s) = _
      rw [hfirst, tickRound, hsecond]

/-! ## By the clock -/

section Stages

variable {stage : Stage ClockedScreen} {t : Ticket} {left time : Duration}

/-- The move of the ticket `t` is under way, and ends when the time `left` is over. -/
structure Gliding (stage : Stage ClockedScreen) (t : Ticket) (left : Duration) : Prop where
  move : ∃ m, stage.screen.move = some m ∧ m.ticket = t ∧
    m.begun + m.length = stage.screen.now + left
  issued : t.serial < stage.ledger.issued
  pending : t ∈ stage.ledger.pending

theorem Gliding.isSettled (h : Gliding stage t left) : stage.ledger.isSettled t = false := by
  simp [Ledger.isSettled, h.pending]

theorem gliding_elapse (h : Gliding stage t left) (hleft : time < left) :
    Gliding (stage.act (·.elapse time)) t (left - time) := by
  obtain ⟨m, hm, hticket, hend⟩ := h.move
  have hlate : ¬ m.begun + m.length ≤ stage.screen.now + time := by
    rw [hend]
    exact fun hle => Nat.not_le.mpr hleft (Nat.le_of_add_le_add_left hle)
  have helapse : stage.act (·.elapse time) =
      ⟨{ stage.screen with now := stage.screen.now + time }, stage.ledger⟩ := by
    simp [Stage.act, ClockedScreen.elapse, hm, hlate, Ledger.settleAll]
  rw [helapse]
  refine ⟨⟨m, hm, hticket, ?_⟩, h.issued, h.pending⟩
  rw [hend, Nat.add_assoc, Nat.add_sub_of_le (Nat.le_of_lt hleft)]

theorem isSettled_elapse (h : Gliding stage t left) (hleft : left ≤ time) :
    (stage.act (·.elapse time)).ledger.isSettled t = true := by
  obtain ⟨m, hm, hticket, hend⟩ := h.move
  have hover : m.begun + m.length ≤ stage.screen.now + time := by
    rw [hend]
    exact Nat.add_le_add_left hleft _
  simp [Stage.act, ClockedScreen.elapse, hm, hover, hticket, Ledger.isSettled, h.issued,
    Ledger.mem_pending_settleAll]

theorem gliding_glide (hmove : stage.screen.move = none) (target : Point) (fill : Fill)
    {length : Duration} (hlength : length ≠ 0) :
    Gliding (stage.glide target fill length) stage.ledger.next length := by
  refine ⟨⟨⟨stage.screen.resting, target, stage.screen.now, length, stage.ledger.next⟩, ?_, rfl,
    ?_⟩, by simp [Ledger.next], ?_⟩
  all_goals simp [Stage.glide, Stage.act, Screen.glide, ClockedScreen.glide, hlength,
    ClockedScreen.openTickets, hmove, Ledger.settleAll, Ledger.issue]

theorem isSettled_glide_of_zero (target : Point) (fill : Fill) :
    (stage.glide target fill 0).ledger.isSettled stage.ledger.next = true := by
  simp [Stage.glide, Stage.act, Screen.glide, ClockedScreen.glide, Ledger.isSettled,
    Ledger.mem_pending_settleAll, Ledger.next, Ledger.issue]

end Stages

def paceRound (s : Play ClockedScreen) : Play ClockedScreen := (paceTick s).1

theorem paceRound_of_tick {s t : Play ClockedScreen} {tick : Tick} (h : s.tick = (t, tick))
    (hwaits : tick ≠ .waiting) : paceRound s = t := by
  unfold paceRound paceTick
  rw [h]
  cases tick with
  | waiting => exact absurd rfl hwaits
  | idle | ran | parked => rfl

theorem paceRound_of_waiting {s : Play ClockedScreen} (h : s.tick = (s, .waiting)) :
    paceRound s = s.onScreen (·.elapse pause) := by
  unfold paceRound paceTick
  rw [h]

/-- For `n` rounds nothing changes but the stage, and then the move is over. -/
def WaitsFor (n : Nat) (s : Play ClockedScreen) : Prop :=
  (∀ j ≤ n, ∃ stage, paceRound^[j] s = { s with stage }) ∧
    ∃ stage t, paceRound^[n] s = { s with stage } ∧ s.awaited = some t ∧
      stage.ledger.isSettled t = true

theorem waitsFor_zero {s : Play ClockedScreen} {t : Ticket} (hawaited : s.awaited = some t)
    (hsettled : s.stage.ledger.isSettled t = true) : WaitsFor 0 s := by
  refine ⟨fun j hj => ?_, s.stage, t, rfl, hawaited, hsettled⟩
  obtain rfl := Nat.le_zero.mp hj
  exact ⟨s.stage, rfl⟩

theorem waitsFor_succ {n : Nat} {s : Play ClockedScreen} {action : ClockedScreen → _}
    (hround : paceRound s = s.onScreen action) (h : WaitsFor n (s.onScreen action)) :
    WaitsFor (n + 1) s := by
  obtain ⟨hmid, stage, t, hlast, hawaited, hsettled⟩ := h
  refine ⟨fun j hj => ?_, stage, t, ?_, hawaited, hsettled⟩
  · cases j with
    | zero => exact ⟨s.stage, rfl⟩
    | succ j =>
      rw [Function.iterate_succ_apply, hround]
      exact hmid j (by omega)
  · rw [Function.iterate_succ_apply, hround]
    exact hlast

/-- Each round takes one pause off the time that is left, and the last one settles the move. -/
theorem waitsFor_of_gliding {t : Ticket} (n : Nat) :
    ∀ {s : Play ClockedScreen} {left : Duration}, s.awaited = some t → Gliding s.stage t left →
      n * pause < left → left ≤ (n + 1) * pause → WaitsFor (n + 1) s := by
  induction n with
  | zero =>
    intro s left hawaited hgliding _ hless
    have hround := paceRound_of_waiting (tick_waiting hawaited hgliding.isSettled)
    rw [Nat.zero_add, Nat.one_mul] at hless
    exact waitsFor_succ hround (waitsFor_zero hawaited (isSettled_elapse hgliding hless))
  | succ n ih =>
    intro s left hawaited hgliding hmore hless
    have hround := paceRound_of_waiting (tick_waiting hawaited hgliding.isSettled)
    have hpause : pause < left :=
      Nat.lt_of_le_of_lt (Nat.le_mul_of_pos_left _ (Nat.succ_pos n)) hmore
    rw [Nat.succ_mul] at hmore hless
    exact waitsFor_succ hround (ih hawaited (gliding_elapse hgliding hpause)
      (Nat.lt_sub_of_add_lt hmore) (Nat.sub_le_of_le_add hless))

/-- The rounds that a run waits for the move of one step. -/
def waits (settings : Settings) : Nat := settings.run.stepMillis ⌈/⌉ 16

theorem pauses_lt_stepLength {n : Nat} {c : RunSettings} (h : n * 16 < c.stepMillis) :
    n * pause < c.stepLength := by
  unfold RunSettings.stepLength pause Duration.ofMillis
  rw [← Nat.mul_assoc]
  exact Nat.mul_lt_mul_of_pos_right h (by decide)

theorem stepLength_le_pauses {n : Nat} {c : RunSettings} (h : c.stepMillis ≤ n * 16) :
    c.stepLength ≤ n * pause := by
  unfold RunSettings.stepLength pause Duration.ofMillis
  rw [← Nat.mul_assoc]
  exact Nat.mul_le_mul_right _ h

theorem waitsFor_onTheMove (s : Play ClockedScreen) (w w' : Walker) :
    WaitsFor (waits s.settings) (onTheMove s w w') := by
  let before := ({ s with tasks := [] }.showToken w).afterStep w'
  have hawaited : (onTheMove s w w').awaited = some before.stage.ledger.next := rfl
  have hglide : (onTheMove s w w').stage =
      before.stage.glide (before.tokenCorner w') (before.tokenFill w') s.settings.run.stepLength :=
    rfl
  have hwaits : waits s.settings = (s.settings.run.stepMillis + 15) / 16 :=
    Nat.ceilDiv_eq_add_pred_div ..
  by_cases hzero : s.settings.run.stepMillis = 0
  · -- The move has ended when it starts.
    have hlength : s.settings.run.stepLength = 0 := by
      simp [RunSettings.stepLength, Duration.ofMillis, hzero]
    have hsettled : (onTheMove s w w').stage.ledger.isSettled before.stage.ledger.next = true := by
      rw [hglide, hlength]
      exact isSettled_glide_of_zero ..
    rw [show waits s.settings = 0 by omega]
    exact waitsFor_zero hawaited hsettled
  · have hlength : s.settings.run.stepLength ≠ 0 := by
      simp [RunSettings.stepLength, Duration.ofMillis, hzero]
    have hgliding : Gliding (onTheMove s w w').stage before.stage.ledger.next
        s.settings.run.stepLength := by
      rw [hglide]
      exact gliding_glide rfl _ _ hlength
    obtain ⟨n, hn⟩ : ∃ n, waits s.settings = n + 1 := ⟨waits s.settings - 1, by omega⟩
    rw [hn]
    exact waitsFor_of_gliding n hawaited hgliding (pauses_lt_stepLength (by omega))
      (stepLength_le_pauses (by omega))

theorem pace_paceRound (settings : Settings) : Pace settings paceRound (2 + waits settings) where
  rest s h := paceRound_of_tick (tick_idle h.awaited h.tasks) (by simp)
  next s hphase hawaited htasks :=
    paceRound_of_tick (tick_nextCase hawaited htasks (by simp [hphase])) (by simp)
  step := by
    intro p cases done test w w' s hsettings h hstep
    have hfirst : paceRound s = onTheMove s w w' :=
      paceRound_of_tick (tick_onTheMove h hstep) (by simp)
    obtain ⟨hmid, stage, t, hlast, hawaited, hsettled⟩ := waitsFor_onTheMove s w w'
    rw [hsettings] at hmid hlast
    have hland : paceRound { onTheMove s w w' with stage } =
        { onTheMove s w w' with stage, awaited := none }.proceed :=
      paceRound_of_tick (tick_settled hawaited hsettled) (by simp)
    refine ⟨fun j hj => ?_, { onTheMove s w w' with stage, awaited := none },
      landed_onTheMove h w' _, hsettings, ?_⟩
    · cases j with
      | zero => exact ⟨h.outcomes, h.cases⟩
      | succ j =>
        obtain ⟨stage', hstage⟩ := hmid j (by omega)
        rw [Function.iterate_succ_apply, hfirst, hstage]
        exact ⟨h.outcomes, h.cases⟩
    · rw [Nat.add_comm, Function.iterate_succ_apply', Function.iterate_succ_apply, hfirst, hlast]
      exact hland

end Tilewalk.CommandLine
