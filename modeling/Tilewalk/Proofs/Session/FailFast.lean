import Tilewalk.Proofs.Session.Pending

/-! # A run is a loop over the cases

On a screen without delay a run does what a plain loop does: it tries the cases one after the
other, each on a machine of its own, until one does not pass.
-/

namespace Tilewalk

variable {μ : Type} [Machine μ]

/-! ## The loop -/

/-- A machine takes steps until one fails, or until it no longer runs. The last two are the machine
then and its fault. -/
inductive Finishes : μ → μ → Option MachineFault → Prop where
  | fails {m m' : μ} {fault : MachineFault} :
      Machine.step m = (m', .error fault) → Finishes m m' (some fault)
  | halts {m m' : μ} :
      Machine.step m = (m', .ok ()) → Machine.isRunning m' = false → Finishes m m' none
  | runs {m m' m'' : μ} {fault : Option MachineFault} :
      Machine.step m = (m', .ok ()) → Machine.isRunning m' = true → Finishes m' m'' fault →
      Finishes m m'' fault

def bound (m : μ) (p : Program) (test : Case) : μ :=
  Machine.bindLimit (Machine.bindTape (Machine.bindProgram m p) test.input) test.limit

/-- A machine is tried on a case. If it cannot be started it takes no step. -/
inductive Tried (p : Program) (test : Case) (m : μ) : μ → Option MachineFault → Prop where
  | refused {m' : μ} {fault : MachineFault} :
      Machine.start (bound m p test) = (m', .error fault) → Tried p test m m' (some fault)
  | started {m' m'' : μ} {fault : Option MachineFault} :
      Machine.start (bound m p test) = (m', .ok ()) → Finishes m' m'' fault →
      Tried p test m m'' fault

/-- The outcome of a case, as its machine has ended. -/
def Outcome.ofEnd (index : Nat) (test : Case) (m : μ) (fault : Option MachineFault) : Outcome where
  index
  verdict := test.verdict (fault.isNone && Machine.accepts m) (Machine.tape m)
  accept := fault.isNone && Machine.accepts m
  steps := Machine.steps m
  fault := fault.map MachineFault.message
  tape := (Machine.tape m).display

/-- A case passes when its machine has come to the verdict asked for and leaves the tape asked for.
After a fault the machine has rejected. -/
theorem Outcome.passed_ofEnd_iff {index : Nat} {test : Case} {m : μ} {fault : Option MachineFault} :
    (ofEnd index test m fault).passed = true ↔
      (fault.isNone && Machine.accepts m) = test.accept ∧
        (test.output.unread = [] ∨ (Machine.tape m).unread = test.output.unread) :=
  Case.passed_verdict_iff

/-- The cases from number `index` on are tried in order, up to the first that does not pass. The
last list holds the outcomes. -/
inductive FailFast (fresh : Nat → μ) (p : Program) : Nat → List Case → List Outcome → Prop where
  | finished (index : Nat) : FailFast fresh p index [] []
  | failed {index : Nat} {test : Case} {rest : List Case} {m : μ} {fault : Option MachineFault} :
      Tried p test (fresh index) m fault → (Outcome.ofEnd index test m fault).passed = false →
      FailFast fresh p index (test :: rest) [.ofEnd index test m fault]
  | passed {index : Nat} {test : Case} {rest : List Case} {m : μ} {fault : Option MachineFault}
      {outcomes : List Outcome} :
      Tried p test (fresh index) m fault → (Outcome.ofEnd index test m fault).passed = true →
      FailFast fresh p (index + 1) rest outcomes →
      FailFast fresh p index (test :: rest) (.ofEnd index test m fault :: outcomes)

namespace Session

variable {σ ε : Type} [Screen σ] [Editor ε]

/-! ## Ticks that do something -/

/-- So many ticks lead from one session to the other, and each of them does something. -/
inductive Ran : Nat → Session μ σ ε → Session μ σ ε → Prop where
  | refl (s : Session μ σ ε) : Ran 0 s s
  | tick {n : Nat} {s t u : Session μ σ ε} : s.tick = (t, .ran) → Ran n t u → Ran (n + 1) s u

theorem Ran.trans {m n : Nat} {s t u : Session μ σ ε} (hst : Ran m s t) (htu : Ran n t u) :
    Ran (m + n) s u := by
  induction hst with
  | refl => simpa using htu
  | @tick k _ _ _ h _ ih =>
    rw [Nat.add_right_comm]
    exact .tick h (ih htu)

theorem Ran.one {s t : Session μ σ ε} (h : s.tick = (t, .ran)) : Ran 1 s t := .tick h (.refl t)

theorem Ran.drains {n : Nat} {s t u : Session μ σ ε} {last : Tick} (h : Ran n s t)
    (hu : Drains t u last) : Drains s u last := by
  induction h with
  | refl => exact hu
  | tick htick _ ih => exact .of_ran (by rw [htick]) (by rw [htick]; exact ih hu)

/-! ## The state of the loop -/

/-- The session runs `cases` on `p` and has judged `done`. The machines to come are those of `fresh`
from number `next` on. -/
structure InLoop (p : Program) (cases : List Case) (fresh : Nat → μ) (done : List Outcome)
    (next : Nat) (s : Session μ σ ε) : Prop where
  phase : s.phase = .running
  program : s.program = some p
  cases : s.cases = cases
  outcomes : s.outcomes = done
  index : s.cursor.index = done.length
  awaited : s.awaited = none
  machines : ∀ n, s.fresh (s.tally.started + n) = fresh (next + n)

structure Stepping (p : Program) (cases : List Case) (fresh : Nat → μ) (done : List Outcome)
    (test : Case) (m : μ) (s : Session μ σ ε) : Prop
    extends InLoop p cases fresh done (done.length + 1) s where
  tasks : s.tasks = [.step]
  test : s.cursor.test = some test
  machine : s.machine = some m
  fault : s.fault = none

/-- The case has come to its end and has not been judged yet. -/
structure Ended (p : Program) (cases : List Case) (fresh : Nat → μ) (done : List Outcome)
    (test : Case) (m : μ) (fault : Option MachineFault) (s : Session μ σ ε) : Prop
    extends InLoop p cases fresh done (done.length + 1) s where
  tasks : s.tasks = []
  test : s.cursor.test = some test
  machine : s.machine = some m
  fault : s.fault = fault
  ended : s.HasEnded m

/-! ## One case -/

section Cases

variable {p : Program} {cases : List Case} {fresh : Nat → μ} {done : List Outcome} {test : Case}

omit [Screen σ] [Editor ε] in
theorem outcomeOf_ended {s : Session μ σ ε} {m : μ} {fault : Option MachineFault}
    (h : Ended p cases fresh done test m fault s) :
    s.outcomeOf m test = .ofEnd done.length test m fault := by
  simp only [outcomeOf, Outcome.ofEnd, h.fault, h.index]

/-- A step and the end of its move: two ticks, after which the run goes on from the new machine. -/
theorem ran_step {s : Session μ InstantScreen ε} {m m' : μ}
    (h : Stepping p cases fresh done test m s) (hm : Machine.step m = (m', .ok ())) :
    ∃ u : Session μ InstantScreen ε, InLoop p cases fresh done (done.length + 1) u ∧
      u.tasks = [] ∧ u.cursor.test = some test ∧ u.machine = some m' ∧ u.fault = none ∧
      Ran 2 s u.proceed := by
  let moved := (({ s with tasks := [] }.showToken m).afterStep m').moveToken m'
  have htake : { s with tasks := [] }.takeStep = moved := takeStep_moved h.machine hm
  have hstep : s.tick = (moved, .ran) := by
    rw [tick_step h.awaited h.tasks h.phase, htake]
  have hmove : moved.tick = ({ moved with awaited := none }.proceed, .ran) :=
    tick_settled rfl (Stage.isSettled_glide ..)
  refine ⟨{ moved with awaited := none }, ?_, rfl, h.test, rfl, h.fault, .tick hstep (.one hmove)⟩
  exact ⟨h.phase, h.program, h.cases, h.outcomes, h.index, rfl, h.machines⟩

theorem ran_of_finishes {m m' : μ} {fault : Option MachineFault} (hf : Finishes m m' fault)
    {s : Session μ InstantScreen ε} (h : Stepping p cases fresh done test m s) :
    ∃ n u, Ended p cases fresh done test m' fault u ∧ Ran n s u.proceed := by
  induction hf generalizing s with
  | @fails m m' fault hm =>
    let failed := ({ s with tasks := [] }.showToken m).afterStep m'
    have htake : { s with tasks := [] }.takeStep = failed.breakOff fault :=
      takeStep_failed h.machine hm
    have hstep : s.tick = (failed.breakOff fault, .ran) := by
      rw [tick_step h.awaited h.tasks h.phase, htake]
    refine ⟨1, _, ?_, .one hstep⟩
    exact ⟨⟨h.phase, h.program, h.cases, h.outcomes, h.index, h.awaited, h.machines⟩, rfl, h.test,
      rfl, rfl, .inl (by simp)⟩
  | halts hm hhalt =>
    obtain ⟨u, hu, htasks, htest, hmachine, hfault, hran⟩ := ran_step h hm
    exact ⟨2, u, ⟨hu, htasks, htest, hmachine, hfault, .inr hhalt⟩, hran⟩
  | @runs m m' _ _ hm hrun _ ih =>
    obtain ⟨u, hu, htasks, htest, hmachine, hfault, hran⟩ := ran_step h hm
    have hmore : u.proceed = u.enqueue .step :=
      proceed_more hmachine htest (by simp [HasEnded, hfault, hrun])
    have hnext : Stepping p cases fresh done test m' (u.enqueue .step) := by
      refine ⟨⟨hu.phase, hu.program, hu.cases, hu.outcomes, hu.index, hu.awaited, hu.machines⟩, ?_,
        htest, hmachine, hfault⟩
      simp [enqueue, htasks]
    obtain ⟨n, v, hv, hran'⟩ := ih hnext
    rw [hmore] at hran
    exact ⟨2 + n, v, hv, hran.trans hran'⟩

theorem ran_of_tried {m : μ} {fault : Option MachineFault} {s : Session μ InstantScreen ε}
    (h : InLoop p cases fresh done done.length s) (htasks : s.tasks = [])
    (htest : cases[done.length]? = some test) (ht : Tried p test (fresh done.length) m fault) :
    ∃ n u, Ended p cases fresh done test m fault u ∧ Ran n s.beginCase u.proceed := by
  have hfresh : s.fresh s.tally.started = fresh done.length := h.machines 0
  have hcase : s.cases[s.cursor.index]? = some test := by rw [h.cases, h.index, htest]
  have hmachines : ∀ m n, (s.onMachine m test).fresh ((s.onMachine m test).tally.started + n) =
      fresh (done.length + 1 + n) := by
    intro m n
    rw [Nat.add_assoc, ← h.machines (1 + n), ← Nat.add_assoc]
    rfl
  cases ht with
  | @refused _ fault hstart =>
    rw [beginCase_failed h.program hcase (hfresh ▸ hstart)]
    refine ⟨0, _, ?_, .refl _⟩
    exact ⟨⟨h.phase, h.program, h.cases, h.outcomes, h.index, h.awaited, hmachines m⟩, htasks, rfl,
      rfl, rfl, .inl (by simp)⟩
  | @started m₁ _ _ hstart hfinish =>
    rw [beginCase_started h.program hcase (hfresh ▸ hstart)]
    apply ran_of_finishes hfinish
    refine ⟨⟨h.phase, h.program, h.cases, h.outcomes, h.index, h.awaited, hmachines m₁⟩, ?_, rfl,
      rfl, rfl⟩
    simp [enqueue, showToken, onMachine, htasks]

/-! ## All cases -/

omit [Screen σ] in
theorem inLoop_next {s : Session μ σ ε} {m : μ} {fault : Option MachineFault}
    (h : Ended p cases fresh done test m fault s)
    (hpassed : (Outcome.ofEnd done.length test m fault).passed = true)
    (hnext : done.length + 1 < cases.length) :
    InLoop p cases fresh (done ++ [.ofEnd done.length test m fault]) (done.length + 1) s.proceed ∧
      s.proceed.tasks = [.nextCase] := by
  rw [proceed_judged h.machine h.test h.ended, outcomeOf_ended h,
    conclude_next hpassed (by simpa [record, tell, h.index, h.cases] using hnext)]
  refine ⟨⟨h.phase, h.program, h.cases, ?_, ?_, h.awaited, ?_⟩, ?_⟩
  · simp [turnToNext, record, tell, h.outcomes]
  · simp [turnToNext, record, tell, h.index]
  · simpa [turnToNext, record, tell, Tally.addVerdict, hpassed] using h.machines
  · simp [turnToNext, record, tell, h.tasks]

omit [Screen σ] in
theorem atRest_last {s : Session μ σ ε} {m : μ} {fault : Option MachineFault}
    (h : Ended p cases fresh done test m fault s)
    (hlast : (Outcome.ofEnd done.length test m fault).passed = false ∨
      cases.length ≤ done.length + 1) :
    AtRest s.proceed ∧ s.proceed.outcomes = done ++ [.ofEnd done.length test m fault] := by
  have hend : ¬ ((Outcome.ofEnd done.length test m fault).passed = true ∧
      (s.record (.ofEnd done.length test m fault)).cursor.index + 1 < s.cases.length) := by
    rintro ⟨hpassed, hlt⟩
    simp only [record, tell, h.index, h.cases] at hlt
    rcases hlast with hfailed | hle
    · simp [hfailed] at hpassed
    · omega
  rw [proceed_judged h.machine h.test h.ended, outcomeOf_ended h, conclude_last hend]
  refine ⟨atRest_close _, ?_⟩
  simp [close, tell, record, h.outcomes]

theorem AtRest.drains {s : Session μ σ ε} (h : AtRest s) : Drains s s .idle := by
  have hidle := tick_idle h.awaited h.tasks
  have hd := drains_of_tick (s := s) (by simp [hidle])
  rwa [hidle] at hd

/-- From a case on, ticking does what the loop does. -/
theorem drains_of_failFast {index : Nat} {rest : List Case} {outcomes : List Outcome}
    (hf : FailFast fresh p index rest outcomes) {done : List Outcome}
    (hindex : index = done.length) (hrest : cases.drop index = rest) (hne : rest ≠ [])
    {s : Session μ InstantScreen ε} (h : InLoop p cases fresh done done.length s)
    (htasks : s.tasks = []) :
    ∃ t, Drains s.beginCase t .idle ∧ AtRest t ∧ t.outcomes = done ++ outcomes := by
  induction hf generalizing done s with
  | finished => exact absurd rfl hne
  | @failed index test rest m fault ht hfailed =>
    subst hindex
    have htest : cases[done.length]? = some test := by simp [← List.head?_drop, hrest]
    obtain ⟨n, u, hu, hran⟩ := ran_of_tried h htasks htest ht
    obtain ⟨hatRest, houtcomes⟩ := atRest_last hu (.inl hfailed)
    exact ⟨_, hran.drains hatRest.drains, hatRest, houtcomes⟩
  | @passed index test rest m fault outcomes ht hpassed hloop ih =>
    subst hindex
    have htest : cases[done.length]? = some test := by simp [← List.head?_drop, hrest]
    have hdrop : cases.drop (done.length + 1) = rest := by
      rw [← List.drop_drop, hrest]
      rfl
    obtain ⟨n, u, hu, hran⟩ := ran_of_tried h htasks htest ht
    by_cases hnext : rest = []
    · -- The last case: the loop ends with it, and so does the run.
      have hlast : cases.length ≤ done.length + 1 := List.drop_eq_nil_iff.mp (hdrop.trans hnext)
      obtain ⟨hatRest, houtcomes⟩ := atRest_last hu (.inr hlast)
      subst hnext
      cases hloop
      exact ⟨_, hran.drains hatRest.drains, hatRest, houtcomes⟩
    · -- One more tick takes the next case up, and the loop goes on with the rest.
      have hlength : done.length + 1 < cases.length := by
        apply Nat.lt_of_not_le
        intro hle
        exact hnext (hdrop ▸ List.drop_eq_nil_of_le hle)
      obtain ⟨hu', htasks'⟩ := inLoop_next hu hpassed hlength
      have htick := tick_nextCase hu'.awaited htasks' (by simp [hu'.phase])
      let judged := done ++ [Outcome.ofEnd done.length test m fault]
      have hlen : done.length + 1 = judged.length := by simp [judged]
      have hbegin : InLoop p cases fresh judged judged.length { u.proceed with tasks := [] } :=
        ⟨hu'.phase, hu'.program, hu'.cases, hu'.outcomes, hu'.index, hu'.awaited,
          hlen ▸ hu'.machines⟩
      obtain ⟨t, hdrains, hatRest, houtcomes⟩ := ih hlen hdrop hnext hbegin rfl
      refine ⟨t, hran.drains (.of_ran (by rw [htick]) (by rwa [htick])), hatRest, ?_⟩
      simpa [judged] using houtcomes

end Cases

/-! ## The theorem -/

/-- A run does what the loop does, whatever has been done before: when every case that the loop comes
to has an end, ticking comes back to a session without a run, which has the outcomes of the loop. -/
theorem run_is_fail_fast {s : Session μ InstantScreen ε} (h : Reachable s)
    (hphase : s.phase = .stopped) {p : Program} (hp : s.program = some p) {outcomes : List Outcome}
    (hf : FailFast (fun i => s.fresh (s.tally.started + i)) p 0 s.casesToRun outcomes) :
    s.play.2 = .ok () ∧ (∃ t last, Drains s.play.1 t last) ∧
      ∀ t last, Drains s.play.1 t last →
        last = .idle ∧ t.phase = .stopped ∧ t.outcomes = outcomes := by
  have hrest := h.orderly.atRest hphase
  have hne : s.casesToRun ≠ [] := List.length_pos_iff.mp s.casesToRun_pos
  have hloop : InLoop p s.casesToRun (fun i => s.fresh (s.tally.started + i)) [] 0 s.openRun := by
    refine ⟨rfl, hp, rfl, rfl, ?_, hrest.awaited, fun n => by simp [openRun]⟩
    simp [openRun, hrest.cursor]
  obtain ⟨u, hu, hurest, houtcomes⟩ := drains_of_failFast hf rfl rfl hne hloop hrest.tasks
  rw [play_stopped hphase (by simp [hp])]
  refine ⟨rfl, ⟨u, .idle, hu⟩, fun t last ht => ?_⟩
  obtain ⟨rfl, rfl⟩ := hu.unique ht
  exact ⟨rfl, hurest.phase, houtcomes⟩

/-- Three cases on machines of which the second cannot be started. -/
def threeCases : Session ScriptedMachine InstantScreen EditorSwitch :=
  ((Call.replaceCases [.default, .default, .default]).run
    (initial (ScriptedMachine.nth [{ steps := 2 }, { failStart := true }]) {}
      { layout := ⟨0, 0, 1⟩ } { on := true })).1

theorem run_is_fail_fast_of_three_cases :
    ∃ t, Drains threeCases.play.1 t .idle ∧ t.outcomes.map Outcome.passed = [true, false] := by
  have hs : Reachable threeCases := .call _ (.initial ..)
  obtain ⟨-, ⟨t, last, ht⟩, hall⟩ := run_is_fail_fast hs rfl rfl
    (.passed (.started rfl (.runs rfl rfl (.halts rfl rfl))) rfl (.failed (.refused rfl) rfl))
  obtain ⟨rfl, -, houtcomes⟩ := hall t last ht
  exact ⟨t, ht, by rw [houtcomes]; rfl⟩

end Session

end Tilewalk
