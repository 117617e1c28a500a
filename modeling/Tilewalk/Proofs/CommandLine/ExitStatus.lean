import Tilewalk.CommandLine
import Tilewalk.Proofs.CommandLine.Rounds
import Tilewalk.Proofs.Level.Link

/-! # The exit status of a run

A run from the command line ends well when every case passes in time. How much time there is follows
from the budget of ticks, and how much is needed from the steps that the walkers take.
-/

namespace Tilewalk.CommandLine

open Session

/-! ## Both ways to play go on in rounds -/

theorem tickAtMost_eq_iterate (budget : Nat) (s : Play InstantScreen) :
    (s.tickAtMost budget).1 = tickRound^[budget] s := by
  induction budget generalizing s with
  | zero => rfl
  | succ budget ih =>
    rw [tickAtMost_succ, Function.iterate_succ_apply]
    split_ifs with hran
    · exact ih s.tick.1
    · have hsame : tickRound s = s := tick_of_ne_ran hran
      rw [hsame, Function.iterate_fixed hsame]
      exact hsame

theorem allPassed_playThrough (budget : Nat) (s : Play InstantScreen) :
    allPassed (playThrough budget s) = allPassed (tickRound^[budget] s) := by
  rw [← tickAtMost_eq_iterate]
  unfold playThrough
  rcases s.tickAtMost budget with ⟨t, tick⟩
  cases tick <;> rfl

@[simp] theorem pace_zero (s : Play ClockedScreen) : pace 0 s = s.stop := rfl

theorem pace_succ (budget : Nat) (s : Play ClockedScreen) :
    pace (budget + 1) s = if s.tick.2 = .idle then s.tick.1 else pace budget (paceRound s) := by
  rw [pace, paceWith, paceRound, paceTick]
  rcases s.tick with ⟨t, tick⟩
  cases tick <;> rfl

theorem paceRound_of_idle {s : Play ClockedScreen} (h : s.tick.2 = .idle) :
    s.tick.1 = s ∧ paceRound s = s := by
  have hsame : s.tick.1 = s := tick_of_ne_ran (by simp [h])
  have htick : s.tick = (s, .idle) := Prod.ext hsame h
  refine ⟨hsame, ?_⟩
  rw [paceRound, paceTick, htick]

theorem allPassed_pace (budget : Nat) (s : Play ClockedScreen) :
    allPassed (pace budget s) = allPassed (paceRound^[budget] s) := by
  induction budget generalizing s with
  | zero => rfl
  | succ budget ih =>
    rw [Function.iterate_succ_apply, pace_succ]
    split_ifs with hidle
    · obtain ⟨hsame, hround⟩ := paceRound_of_idle hidle
      rw [hsame, hround, Function.iterate_fixed hround]
    · exact ih (paceRound s)

/-! ## The start of a run -/

/-- The cases that a run tries: those of the level, or the default one when it has none. -/
def casesOf (content : LevelContent) : List Case :=
  if (titleAndCases content).2.isEmpty then [.default] else (titleAndCases content).2

section Starts

variable {σ : Type} [Screen σ]

/-- The session when the level has been loaded. -/
structure Opened (settings : Settings) (content : LevelContent) (s : Play σ) : Prop where
  atRest : AtRest s
  program : s.program = some content.toProgram
  casesToRun : s.casesToRun = casesOf content
  settings : s.settings = { settings with initialLevel := none }
  fresh : s.fresh = newWalker

theorem orBlank_eq (s : Play σ) :
    s.orBlank = { s with program := s.orBlank.program, stage := s.orBlank.stage } := by
  unfold orBlank
  split
  · rw [refresh_eq]
  · rfl

def unopened (settings : Settings) (screen : σ) : Play σ :=
  initial (fun _ => {}) { settings with initialLevel := none } screen ⟨true, 0⟩

theorem opened_install (settings : Settings) (screen : σ) (content : LevelContent) :
    Opened settings content ((unopened settings screen).install content) := by
  have hrest : AtRest (unopened settings screen) := atRest_initial ..
  refine ⟨atRest_install hrest content, ?_, ?_, ?_, ?_⟩
  all_goals
    unfold unopened initial
    rw [orBlank_eq]
    cases content <;> rw [install, refresh_eq] <;> rfl

theorem load_unopened (settings : Settings) (screen : σ) {text : String} {content : LevelContent}
    (h : Level.extract text >>= Level.decode = .ok content) :
    (unopened settings screen).load text =
      ((unopened settings screen).install content, .ok ()) := by
  have hrest : AtRest (unopened settings screen) := atRest_initial ..
  unfold load
  simp [hrest.phase, Phase.isActive, h]

theorem openLevel_ok (settings : Settings) (screen : σ) {text : String} {content : LevelContent}
    (h : Level.extract text >>= Level.decode = .ok content) :
    openLevel settings screen text = .ok ((unopened settings screen).install content) := by
  have hload := load_unopened settings screen h
  unfold unopened at hload ⊢
  simp only [openLevel, hload]

theorem beginRun_ok (settings : Settings) (screen : σ) {text : String} {content : LevelContent}
    (h : Level.extract text >>= Level.decode = .ok content) :
    ∃ s : Play σ, beginRun settings screen text = .ok s.openRun.beginCase ∧
      Opened settings content s := by
  have hopened := opened_install settings screen content
  have hplay := play_stopped hopened.atRest.phase (by simp [hopened.program])
  refine ⟨_, ?_, hopened⟩
  simp only [beginRun, openLevel_ok settings screen h, ok_bind, hplay]

omit [Screen σ] in
theorem inLoop_openRun {settings : Settings} {content : LevelContent} {s : Play σ}
    (h : Opened settings content s) :
    InLoop content.toProgram (casesOf content) newWalker [] 0 s.openRun := by
  refine ⟨rfl, h.program, h.casesToRun, rfl, ?_, h.atRest.awaited, fun n => ?_⟩
  · simp [openRun, h.atRest.cursor]
  · simp [openRun, h.fresh, newWalker]

end Starts

/-! ## What a run needs -/

/-- Every case passes, and the rounds of all steps, and one for each case behind the first, are in
the budget. -/
def AllPassIn (content : LevelContent) (cost budget : Nat) : Prop :=
  ∃ ks, List.Forall₂ (PassesIn content.toProgram) ks (casesOf content) ∧
    cost * ks.sum + ((casesOf content).length - 1) ≤ budget

section Budgets

variable {content : LevelContent} {cost budget : Nat}

theorem exists_casesOf (content : LevelContent) : ∃ test rest, casesOf content = test :: rest := by
  apply List.exists_cons_of_ne_nil
  unfold casesOf
  split_ifs with hempty
  · simp
  · simpa using hempty

theorem allPassIn_iff {test : Case} {rest : List Case} (hcases : casesOf content = test :: rest)
    {w : Walker} (hlaunch : launch ({} : Walker) content.toProgram test = (w, .ok ())) :
    AllPassIn content cost budget ↔ PassesWithin content.toProgram cost budget w test rest := by
  rw [passesWithin_iff_all hlaunch, AllPassIn, hcases]
  rfl

theorem not_allPassIn_of_lt (h : budget < cost) : ¬ AllPassIn content cost budget := by
  obtain ⟨test, rest, hcases⟩ := exists_casesOf content
  obtain ⟨w, hlaunch, -, -⟩ := Walker.launch_ok {} content.toProgram test
  rw [allPassIn_iff hcases hlaunch]
  exact not_passesWithin_of_lt h

/-- A paced run has one tick at least, but one tick is too few. -/
theorem allPassIn_pacedBudget (hcost : 2 ≤ cost) :
    AllPassIn content cost (pacedBudget budget) ↔ AllPassIn content cost budget := by
  unfold pacedBudget
  cases budget with
  | zero =>
    have hzero : ¬ AllPassIn content cost 0 := not_allPassIn_of_lt (by omega)
    have hone : ¬ AllPassIn content cost 1 := not_allPassIn_of_lt (by omega)
    simp [hzero, hone]
  | succ budget => rw [Nat.max_eq_left (by omega)]

theorem allPassed_of_opened {σ : Type} [Screen σ] {settings : Settings} {s : Play σ}
    (h : Opened settings content s) {round : Play σ → Play σ}
    (hpace : Pace s.settings round cost) (hcost : 0 < cost) (budget : Nat) :
    allPassed (round^[budget] s.openRun.beginCase) = true ↔ AllPassIn content cost budget := by
  obtain ⟨test, rest, hcases⟩ := exists_casesOf content
  have htest : (casesOf content)[0]? = some test := by simp [hcases]
  obtain ⟨w, hlaunch, hstarted, hruns, hstepping, hsettings⟩ :=
    stepping_beginCase (inLoop_openRun h) h.atRest.tasks htest
  rw [allPassIn_iff hcases hlaunch]
  exact allPassed_iterate hpace hcost budget hsettings hstepping hcases (by simp) hstarted hruns

end Budgets

/-! ## The exit status -/

/-- The ticks that one step takes. A paced run waits for the move of the token, one pause after the
other. -/
def ticksOfStep (settings : Settings) (paced : Bool) : Nat :=
  if paced then 2 + settings.run.stepMillis ⌈/⌉ 16 else 2

theorem exit_endReport {σ : Type} {content : LevelContent} {cost budget : Nat}
    (options : RunOptions) (seconds : String) {s : Play σ}
    (h : allPassed s = true ↔ AllPassIn content cost budget) :
    ((endReport options seconds s).exit = 0 ↔ AllPassIn content cost budget) ∧
      ((endReport options seconds s).exit = 1 ↔ ¬ AllPassIn content cost budget) := by
  have hexit : (endReport options seconds s).exit = if allPassed s then 0 else 1 := rfl
  rw [hexit, ← h]
  cases allPassed s <;> simp

theorem run_ok (settings : Settings) (options : RunOptions) (paced : Bool) (seconds : String)
    {text : String} {content : LevelContent}
    (h : Level.extract text >>= Level.decode = .ok content) :
    ∃ report, run settings options paced seconds text = .ok report ∧ report.refusal = none ∧
      (report.exit = 0 ↔ AllPassIn content (ticksOfStep settings paced) options.maxTicks) ∧
      (report.exit = 1 ↔ ¬ AllPassIn content (ticksOfStep settings paced) options.maxTicks) := by
  cases paced with
  | true =>
    obtain ⟨s, hbegin, hopened⟩ := beginRun_ok settings
      ({ layout := settings.view.layout } : ClockedScreen) h
    have hall := allPassed_of_opened hopened (pace_paceRound s.settings) (by omega)
      (pacedBudget options.maxTicks)
    rw [← allPassed_pace, allPassIn_pacedBudget (by omega)] at hall
    have hwaits : 2 + waits s.settings = ticksOfStep settings true := by
      rw [hopened.settings]
      rfl
    rw [hwaits] at hall
    exact ⟨_, by simp [run, hbegin], rfl, exit_endReport options seconds hall⟩
  | false =>
    obtain ⟨s, hbegin, hopened⟩ := beginRun_ok settings
      ({ layout := settings.view.layout } : InstantScreen) h
    have hall := allPassed_of_opened hopened (pace_tickRound s.settings) (by omega)
      options.maxTicks
    rw [← allPassed_playThrough] at hall
    exact ⟨_, by simp [run, hbegin], rfl, exit_endReport options seconds hall⟩

/-- A run with a level that can be read is not refused. It exits with 0 just when every case passes
and all their ticks are in the budget, and otherwise with 1, also when a case never comes to an end.
How many steps the cases take is settled by the level alone. -/
theorem exit_status (files : Files) (settingsName : Option String) (seconds : String)
    (options : RunOptions) (paced : Bool) (level : Option String) {settings : Settings}
    {text : String} {content : LevelContent}
    (hsettings : readSettings files settingsName = .ok settings)
    (htext : levelText files settings level = .ok text)
    (hcontent : Level.extract text >>= Level.decode = .ok content) :
    let report := execute files settingsName seconds (.run options paced level)
    let inTime := AllPassIn content (ticksOfStep settings paced) options.maxTicks
    report.refusal = none ∧ (report.exit = 0 ↔ inTime) ∧ (report.exit = 1 ↔ ¬ inTime) ∧
      ∀ ks js, List.Forall₂ (PassesIn content.toProgram) ks (casesOf content) →
        List.Forall₂ (PassesIn content.toProgram) js (casesOf content) → ks = js := by
  obtain ⟨report, hrun, hrefusal, hpassed, hfailed⟩ :=
    run_ok settings options paced seconds hcontent
  have hreport : execute files settingsName seconds (.run options paced level) = report := by
    simp [execute, perform, hsettings, htext, hrun, Report.ofExcept]
  rw [hreport]
  exact ⟨hrefusal, hpassed, hfailed, fun ks js => PassesIn.unique_all⟩

/-- The token comes to the goal in two steps, which the second case does not let it take. -/
def twoCases : Level where
  title := "Down"
  cases := [⟨true, .empty, .empty, 0⟩, ⟨false, .empty, .empty, 1⟩]
  program :=
    { cols := 3, rows := 3, cells := (∅ : Cells).insert ⟨1, 1⟩ ⟨.conveyor, .identity⟩,
      start := Program.defaultStart 3, goal := Program.defaultGoal 3 3 }

theorem decode_twoCases :
    Level.extract (Level.link "" twoCases) >>= Level.decode = .ok (.level twoCases) := by
  have hblank : Program.blank 3 3 = .ok
      ⟨3, 3, ∅, Program.defaultStart 3, Program.defaultGoal 3 3⟩ := rfl
  have hwell : twoCases.program.WellFormed :=
    Program.wellFormed_placeTile (Program.wellFormed_blank hblank)
      (show Program.placeTile _ ⟨1, 1⟩ ⟨.conveyor, .identity⟩ = .ok twoCases.program from rfl)
  exact Level.decode_extract_link (by decide) hwell (by decide)

theorem readLevel_link (files : Files) (l : Level) :
    readLevel files (Level.link "" l) = .ok (Level.link "" l) := by
  obtain ⟨cs, hchars⟩ : ∃ cs, (Level.link "" l).toList = '#' :: cs := by
    simp [Level.link, String.toList_append]
  unfold readLevel
  rw [hchars]
  split
  · simp_all
  · rfl

theorem allPassIn_twoCases (cost budget : Nat) :
    AllPassIn (.level twoCases) cost budget ↔ cost * 3 + 1 ≤ budget := by
  have hcases : List.Forall₂ (PassesIn twoCases.program) [2, 1] twoCases.cases :=
    .cons ⟨_, _, rfl, .more rfl rfl (.last rfl rfl), rfl⟩
      (.cons ⟨_, _, rfl, .last rfl rfl, rfl⟩ .nil)
  constructor
  · rintro ⟨ks, hks, hle⟩
    obtain rfl := PassesIn.unique_all hks hcases
    exact hle
  · intro hle
    exact ⟨[2, 1], hcases, hle⟩

theorem exit_status_of_two_cases :
    let exit paced maxTicks := (execute .empty none "0.0"
      (.run { maxTicks } paced (some (Level.link "" twoCases)))).exit
    exit false 7 = 0 ∧ exit false 6 = 1 ∧ exit true 103 = 0 ∧ exit true 102 = 1 := by
  have hstatus (paced : Bool) (maxTicks : Nat) := exit_status .empty none "0.0" { maxTicks } paced
    (some (Level.link "" twoCases)) rfl (readLevel_link .empty twoCases) decode_twoCases
  simp only [allPassIn_twoCases] at hstatus
  refine ⟨?_, ?_, ?_, ?_⟩
  · exact (hstatus false 7).2.1.mpr (by decide)
  · exact (hstatus false 6).2.2.1.mpr (by decide)
  · exact (hstatus true 103).2.1.mpr (by decide)
  · exact (hstatus true 102).2.2.1.mpr (by decide)

end Tilewalk.CommandLine
