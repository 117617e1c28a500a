import Tilewalk.Proofs.CommandLine.ExitStatus
import Tilewalk.Proofs.Session.AnyScreen
import Tilewalk.Proofs.Session.Budget
import Tilewalk.Proofs.Session.Counts
import Tilewalk.Proofs.Session.Pausing

/-! # Giving a run up

A run that has used its ticks up is given up and said to be stopped. Nobody looks whether the last
tick has ended it.
-/

namespace Tilewalk.CommandLine

open Session

/-! ## Without delay -/

section Instant

/-- A run goes on by itself: it is not paused, and no move of the token holds it back. -/
structure Unheld (s : Play InstantScreen) : Prop where
  orderly : Orderly s
  unpaused : s.phase ≠ .paused
  settled : ∀ t, s.awaited = some t → s.stage.ledger.isSettled t = true

variable {s : Play InstantScreen}

theorem Unheld.ran_or_idle (h : Unheld s) : s.tick.2 = .ran ∨ s.tick.2 = .idle := by
  have htick := h.orderly.tickOf
  generalize s.tick = r at htick ⊢
  cases htick with
  | idle => exact .inr rfl
  | waiting t _ awaited _ unsettled =>
    have hsettled := h.settled t awaited
    simp [Ledger.isSettled, unsettled] at hsettled
  | parked paused => exact absurd paused h.unpaused
  | moved | stepped | begun => exact .inl rfl

theorem unheld_tick (h : Unheld s) (hran : s.tick.2 = .ran) : Unheld s.tick.1 := by
  -- The session stands for itself on a screen without delay, where each move ends as it starts.
  have halike : Alike s s :=
    ⟨rfl, ⟨rfl, rfl, rfl, rfl⟩, rfl, rfl, rfl, rfl, rfl, rfl, rfl, rfl, rfl, rfl, rfl, rfl, rfl,
      h.settled⟩
  refine ⟨orderly_tick h.orderly, fun hpaused => ?_, ?_⟩
  · have hsame : s.tick.1 = s.tick.1.unpaused := by
      rw [← tick_unpaused (by simp [hran]), unpaused_of_ne h.unpaused]
    have hphase := congrArg Session.phase hsame
    simp [Session.unpaused, hpaused, Phase.unpaused] at hphase
  · exact (halike.tick h.orderly (by simp [hran])).2.settled

theorem Unheld.tickAtMost_ran_iff (budget : Nat) {s : Play InstantScreen} (h : Unheld s) :
    (s.tickAtMost budget).2 = .ran ↔ ∀ n < budget, (tickRound^[n] s).phase ≠ .stopped := by
  induction budget generalizing s with
  | zero => simp [tickAtMost]
  | succ budget ih =>
    rw [tickAtMost_succ, Nat.forall_lt_succ_left, Function.iterate_zero_apply, ne_eq,
      ← h.orderly.tick_idle_iff]
    rcases h.ran_or_idle with hran | hidle
    · rw [if_pos hran, ih (unheld_tick h hran)]
      simp [hran, Function.iterate_succ_apply, tickRound]
    · simp [hidle]

end Instant

/-! ## What is told -/

section Telling

variable {σ : Type} [Screen σ]

theorem stopped_mem_tick {s : Play σ} (h : Orderly s) :
    .stopped ∈ s.tick.1.events ↔ .stopped ∈ s.events := by
  have hstops := stops_tick h
  unfold stops at hstops
  rw [← List.count_pos_iff, hstops, List.count_pos_iff]

omit [Screen σ] in
theorem stopped_mem_stop (s : Play σ) : .stopped ∈ s.stop.events :=
  List.mem_append_right _ (List.mem_singleton_self _)

end Telling

theorem stopped_mem_playThrough {s : Play InstantScreen} (h : Unheld s)
    (hquiet : .stopped ∉ s.events) (maxTicks : Nat) :
    .stopped ∈ (playThrough maxTicks s).events ↔
      ∀ n < maxTicks, (tickRound^[n] s).phase ≠ .stopped := by
  have hkeeps : Orderly (s.tickAtMost maxTicks).1 ∧ .stopped ∉ (s.tickAtMost maxTicks).1.events :=
    tickAtMost_keeps (P := fun t => Orderly t ∧ .stopped ∉ t.events)
      (fun t ht => ⟨orderly_tick ht.1, mt (stopped_mem_tick ht.1).mp ht.2⟩) maxTicks s
      ⟨h.orderly, hquiet⟩
  rw [← h.tickAtMost_ran_iff]
  unfold playThrough
  rcases hticks : s.tickAtMost maxTicks with ⟨t, tick⟩
  rw [hticks] at hkeeps
  cases tick with
  | ran => simpa using stopped_mem_stop t
  | idle | waiting | parked => simpa using hkeeps.2

/-! ## By the clock -/

theorem paceRound_eq_or (s : Play ClockedScreen) :
    paceRound s = s.tick.1 ∨ paceRound s = s.tick.1.onScreen (·.elapse pause) := by
  unfold paceRound paceTick
  rcases s.tick with ⟨t, tick⟩
  cases tick with
  | waiting => exact .inr rfl
  | idle | ran | parked => exact .inl rfl

theorem orderly_paceRound {s : Play ClockedScreen} (h : Orderly s) : Orderly (paceRound s) := by
  obtain hround | hround := paceRound_eq_or s
  · exact hround ▸ orderly_tick h
  · exact hround ▸ orderly_onScreen (orderly_tick h) _

theorem stopped_mem_paceRound {s : Play ClockedScreen} (h : Orderly s) :
    .stopped ∈ (paceRound s).events ↔ .stopped ∈ s.events := by
  rw [← stopped_mem_tick h]
  obtain hround | hround := paceRound_eq_or s
  · rw [hround]
  · rw [hround]
    rfl

theorem stopped_mem_pace (budget : Nat) {s : Play ClockedScreen} (h : Orderly s)
    (hquiet : .stopped ∉ s.events) :
    .stopped ∈ (pace budget s).events ↔ ∀ n < budget, (paceRound^[n] s).phase ≠ .stopped := by
  induction budget generalizing s with
  | zero => simpa using stopped_mem_stop s
  | succ budget ih =>
    rw [pace_succ, Nat.forall_lt_succ_left, Function.iterate_zero_apply, ne_eq, ← h.tick_idle_iff]
    split_ifs with hidle
    · -- Only an idle tick ends the loop before the budget does, and it tells nothing.
      simpa [hidle, stopped_mem_tick h] using hquiet
    · rw [ih (orderly_paceRound h) (mt (stopped_mem_paceRound h).mp hquiet)]
      simp [hidle, Function.iterate_succ_apply]

/-! ## The start of a run -/

/-- A run has begun, and nothing else has been done. -/
structure Begun {σ : Type} (s : Play σ) : Prop where
  orderly : Orderly s
  running : s.phase = .running
  awaited : s.awaited = none
  quiet : .stopped ∉ s.events

theorem exists_begun {σ : Type} [Screen σ] (settings : Settings) (screen : σ) {text : String}
    {content : LevelContent} (h : Level.extract text >>= Level.decode = .ok content) :
    ∃ s : Play σ, beginRun settings screen text = .ok s ∧ Begun s := by
  let u : Play σ := (unopened settings screen).install content
  have hopened : Opened settings content u := opened_install settings screen content
  have hplay : u.play = (u.openRun.beginCase, .ok ()) :=
    play_stopped hopened.atRest.phase (by simp [hopened.program])
  have hbegin : beginRun settings screen text = .ok u.openRun.beginCase := by
    simp only [beginRun, openLevel_ok settings screen h, ok_bind, u, hplay]
  have horderly := orderly_play hopened.atRest.orderly
  have hstops : u.play.1.stops = 0 := by
    have hload := stops_load (unopened settings screen) text
    rw [load_unopened settings screen h, unopened, stops_initial] at hload
    rw [stops_play]
    exact hload
  -- A walker can always be started, so the first case does not end the run at once.
  obtain ⟨test, rest, hcases⟩ := exists_casesOf content
  obtain ⟨w, -, -, -, hstepping, -⟩ := stepping_beginCase (inLoop_openRun hopened)
    hopened.atRest.tasks (show (casesOf content)[0]? = some test by simp [hcases])
  rw [hplay] at horderly hstops
  exact ⟨_, hbegin, horderly, hstepping.phase, hstepping.awaited, List.count_eq_zero.mp hstops⟩

theorem Begun.unheld {s : Play InstantScreen} (h : Begun s) : Unheld s :=
  ⟨h.orderly, by simp [h.running], by simp [h.awaited]⟩

/-- That there is one tick at least makes no difference to what is told. -/
theorem Begun.stopped_mem_pace {s : Play ClockedScreen} (h : Begun s) (maxTicks : Nat) :
    .stopped ∈ (pace (pacedBudget maxTicks) s).events ↔
      ∀ n < maxTicks, (paceRound^[n] s).phase ≠ .stopped := by
  rw [CommandLine.stopped_mem_pace _ h.orderly h.quiet, pacedBudget]
  cases maxTicks with
  | zero => simp [h.running]
  | succ maxTicks => rw [Nat.max_eq_left (by omega)]

/-! ## What is printed -/

theorem eventText_eq_iff {json : Bool} {e : Event} :
    eventText json e = "run stopped before every case was judged\n" ↔
      json = false ∧ e = .stopped := by
  cases e with
  | stopped => cases json <;> simp [eventText]
  | caseFinished o =>
    have hline : outcomeLine o ≠ "run stopped before every case was judged\n" := by
      intro h
      have hfirst := congrArg (fun line => line.toList.head?) h
      simp [outcomeLine, String.toList_append, toString] at hfirst
    cases json <;> simp [eventText, hline]
  | runStarted | caseStarted | runFinished | levelLoaded | loadFailed => simp [eventText]

/-! ## How long a run lasts -/

/-- The phase of a run after so many of its ticks. -/
def phaseAfter (settings : Settings) (paced : Bool) (text : String) (ticks : Nat) :
    Except String Phase := do
  if paced then
    let s ← beginRun settings ({ layout := settings.view.layout } : ClockedScreen) text
    return (paceRound^[ticks] s).phase
  else
    let s ← beginRun settings ({ layout := settings.view.layout } : InstantScreen) text
    return (tickRound^[ticks] s).phase

/-- The run of a level text ends with its tick of this number, when nobody gives it up. -/
structure Lasts (settings : Settings) (paced : Bool) (text : String) (ticks : Nat) : Prop where
  ended : phaseAfter settings paced text ticks = .ok .stopped
  before : ∀ n < ticks, phaseAfter settings paced text n ≠ .ok .stopped

theorem forall_not_lasts_iff {settings : Settings} {paced : Bool} {text : String} {ticks : Nat} :
    (∀ n < ticks, ¬ Lasts settings paced text n) ↔
      ∀ n < ticks, phaseAfter settings paced text n ≠ .ok .stopped := by
  constructor
  · intro h n
    induction n using Nat.strongRecOn with
    | ind n ih => exact fun hn hended => h n hn ⟨hended, fun m hm => ih m hm (hm.trans hn)⟩
  · exact fun h n hn hlasts => h n hn hlasts.ended

/-- What a run has told at its end, and its summary. -/
def ending (settings : Settings) (options : RunOptions) (paced : Bool) (seconds : String)
    (text : String) : Except String (List Event × String) := do
  if paced then
    let s ← beginRun settings ({ layout := settings.view.layout } : ClockedScreen) text
    let s := pace (pacedBudget options.maxTicks) s
    return (s.events, summary options seconds s)
  else
    let s ← beginRun settings ({ layout := settings.view.layout } : InstantScreen) text
    let s := playThrough options.maxTicks s
    return (s.events, summary options seconds s)

theorem output_run (settings : Settings) (options : RunOptions) (paced : Bool) (seconds : String)
    (text : String) :
    (run settings options paced seconds text).map Report.output =
      (ending settings options paced seconds text).map fun (events, rest) =>
        eventsText options.json events ++ rest := by
  cases paced with
  | true =>
    simp only [run, ending, if_true]
    cases beginRun settings ({ layout := settings.view.layout } : ClockedScreen) text <;> rfl
  | false =>
    simp only [run, ending, Bool.false_eq_true, if_false]
    cases beginRun settings ({ layout := settings.view.layout } : InstantScreen) text <;> rfl

/-- A run is said to be stopped if no tick but the last that it is given can have ended it. -/
theorem ending_ok (settings : Settings) (options : RunOptions) (paced : Bool) (seconds : String)
    {text : String} {content : LevelContent}
    (h : Level.extract text >>= Level.decode = .ok content) :
    ∃ events rest, ending settings options paced seconds text = .ok (events, rest) ∧
      (.stopped ∈ events ↔ ∀ n < options.maxTicks, ¬ Lasts settings paced text n) := by
  rw [forall_not_lasts_iff]
  cases paced with
  | true =>
    obtain ⟨s, hbegin, hs⟩ := exists_begun settings
      ({ layout := settings.view.layout } : ClockedScreen) h
    refine ⟨_, _, by simp only [ending, if_true, hbegin]; rfl, ?_⟩
    rw [hs.stopped_mem_pace options.maxTicks]
    simp [phaseAfter, hbegin]
  | false =>
    obtain ⟨s, hbegin, hs⟩ := exists_begun settings
      ({ layout := settings.view.layout } : InstantScreen) h
    refine ⟨_, _, by simp only [ending, hbegin]; rfl, ?_⟩
    rw [stopped_mem_playThrough hs.unheld hs.quiet]
    simp [phaseAfter, hbegin]

/-! ## The theorem -/

/-- Ticking with a budget replies as ticking without a bound does, unless the budget is used up.
It is used up when there is no rest before its end, and then there is nothing left to do just if its
last tick has done the last thing. So a run from the command line is said to be stopped unless it
lasts fewer ticks than it is given. -/
theorem given_up_unless_over_before_the_last_tick {μ σ ε : Type} [Machine μ] [Screen σ] [Editor ε]
    (s : Session μ σ ε) (budget : Nat) :
    let (t, tick) := s.tickAtMost budget
    (tick ≠ .ran → ∃ n < budget, RestsAfter n s t tick) ∧
    (tick = .ran ↔ ∀ n < budget, ∀ u why, ¬ RestsAfter n s u why) ∧
    (tick = .ran → (t.tick.2 = .idle ↔ ∃ u, RestsAfter budget s u .idle)) ∧
    ∀ (files : Files) (settingsName : Option String) (seconds : String) (options : RunOptions)
      (paced : Bool) (level : Option String) {settings : Settings} {text : String}
      {content : LevelContent}, readSettings files settingsName = .ok settings →
      levelText files settings level = .ok text →
      Level.extract text >>= Level.decode = .ok content →
      ∃ events rest, ending settings options paced seconds text = .ok (events, rest) ∧
        (execute files settingsName seconds (.run options paced level)).output =
          eventsText options.json events ++ rest ∧
        (.stopped ∈ events ↔ ∀ n < options.maxTicks, ¬ Lasts settings paced text n) ∧
        ("run stopped before every case was judged\n" ∈ events.map (eventText options.json) ↔
          options.json = false ∧ .stopped ∈ events) := by
  refine ⟨restsAfter_of_tickAtMost budget, tickAtMost_ran_iff, idle_of_used_up, ?_⟩
  intro files settingsName seconds options paced level settings text content hsettings htext
    hcontent
  obtain ⟨events, rest, hending, hstopped⟩ := ending_ok settings options paced seconds hcontent
  refine ⟨events, rest, hending, ?_, hstopped, ?_⟩
  · have houtput := output_run settings options paced seconds text
    rw [hending] at houtput
    obtain ⟨report, hrun, hreport⟩ := map_eq_ok.mp houtput
    simpa [execute, perform, hsettings, htext, hrun, Report.ofExcept] using hreport
  · simp [List.mem_map, eventText_eq_iff, and_comm]

def oneStep : Play InstantScreen :=
  (Call.play.run ((Call.load "lvl1x2:....").run
    (unopened {} { layout := ({} : Settings).view.layout })).1).1

theorem lasts_one_step : Lasts {} false "lvl1x2:...." 2 := by
  refine ⟨rfl, fun n hn => ?_⟩
  obtain rfl | rfl : n = 0 ∨ n = 1 := by omega
  · exact fun h => by cases h
  · exact fun h => by cases h

theorem given_up_unless_over_before_the_last_tick_of_one_step :
    let told maxTicks := (ending {} { maxTicks } false "0.0" "lvl1x2:....").map Prod.fst
    (∃ n < 3, RestsAfter n oneStep (oneStep.tickAtMost 3).1 .idle) ∧
      (∃ events, told 2 = .ok events ∧ .stopped ∈ events) ∧
      ∃ events, told 3 = .ok events ∧ .stopped ∉ events := by
  intro told
  obtain ⟨hrests, -, -, hruns⟩ := given_up_unless_over_before_the_last_tick oneStep 3
  have hruns (maxTicks : Nat) := hruns .empty none "0.0" { maxTicks } false (some "lvl1x2:....")
    rfl rfl (show _ = Except.ok (.program (Program.emptyGrid 1 2)) from rfl)
  refine ⟨hrests (by decide), ?_, ?_⟩
  · obtain ⟨events, rest, hending, -, hstopped, -⟩ := hruns 2
    refine ⟨events, map_eq_ok.mpr ⟨_, hending, rfl⟩, hstopped.mpr fun n hn hlasts => ?_⟩
    exact lasts_one_step.before n hn hlasts.ended
  · obtain ⟨events, rest, hending, -, hstopped, -⟩ := hruns 3
    refine ⟨events, map_eq_ok.mpr ⟨_, hending, rfl⟩, fun h => ?_⟩
    exact hstopped.mp h 2 (by decide) lasts_one_step

/-- The second tick ends the run, and still the run is said to be stopped. -/
theorem given_up_with_nothing_left :
    beginRun {} { layout := ({} : Settings).view.layout } "lvl1x2:...." = .ok oneStep ∧
      Reachable oneStep ∧ (oneStep.tickAtMost 2).2 = .ran ∧
      (oneStep.tickAtMost 2).1.tick.2 = .idle ∧
      .runFinished true 1 ∈ (playThrough 2 oneStep).events ∧
      .stopped ∈ (playThrough 2 oneStep).events :=
  ⟨rfl, .call _ (.call _ (.initial ..)), by decide, by decide, by decide, by decide⟩

end Tilewalk.CommandLine
