import Mathlib.Tactic.SplitIfs
import Tilewalk.Machine.Scripted
import Tilewalk.Proofs.Session.Calls
import Tilewalk.Proofs.Session.Steps
import Tilewalk.Proofs.Stage
import Tilewalk.Screen.Held

/-! # One thing to do at a time

A session that is in a run has one thing to do, and one that is in none has nothing. So a tick is
idle just when there is no run.
-/

namespace Tilewalk.Session

variable {μ σ ε : Type}

/-! ## The invariant -/

/-- There is no run, and nothing is left of one. -/
structure AtRest (s : Session μ σ ε) : Prop where
  phase : s.phase = .stopped
  tasks : s.tasks = []
  awaited : s.awaited = none
  machine : s.machine = none
  fault : s.fault = none
  cursor : s.cursor = {}

/-- The run has a program, and the cursor is on one of its cases. -/
def OnCourse (s : Session μ σ ε) : Prop :=
  s.program.isSome ∧ s.cursor.index < s.cases.length

/-- There is a machine, and it was started for the case under the cursor. -/
def OnCase (s : Session μ σ ε) : Prop :=
  s.machine.isSome ∧ s.cursor.test = s.cases[s.cursor.index]?

/-- There is one thing to do: to wait for the end of a move, or to do a task. -/
inductive OneThing (s : Session μ σ ε) : Prop where
  | move (ticket : Ticket) : s.awaited = some ticket → ticket.serial < s.stage.ledger.issued →
      s.tasks = [] → OnCase s → OneThing s
  | step : s.awaited = none → s.tasks = [.step] → OnCase s → OneThing s
  | nextCase : s.awaited = none → s.tasks = [.nextCase] → s.machine = none → OneThing s

/-- What there is to do agrees with the phase. -/
structure Orderly (s : Session μ σ ε) : Prop where
  atRest : s.phase = .stopped → AtRest s
  onCourse : s.phase ≠ .stopped → OnCourse s
  oneThing : s.phase ≠ .stopped → OneThing s

theorem AtRest.update {s : Session μ σ ε} (h : AtRest s) (program : Option Program)
    (title : Option String) (cases : List Case) (stage : Stage σ) (events : List Event) :
    AtRest { s with program, title, cases, stage, events } :=
  ⟨h.phase, h.tasks, h.awaited, h.machine, h.fault, h.cursor⟩

theorem AtRest.orderly {s : Session μ σ ε} (h : AtRest s) : Orderly s :=
  ⟨fun _ => h, fun hn => absurd h.phase hn, fun hn => absurd h.phase hn⟩

theorem Orderly.of_active {s : Session μ σ ε} (hp : s.phase ≠ .stopped) (hc : OnCourse s)
    (ht : OneThing s) : Orderly s :=
  ⟨fun he => absurd he hp, fun _ => hc, fun _ => ht⟩

theorem Orderly.of_inactive {s : Session μ σ ε} (h : Orderly s) (hs : ¬ s.phase.isActive) :
    AtRest s := by
  apply h.atRest
  cases hp : s.phase with
  | stopped => rfl
  | running | paused => simp [hp, Phase.isActive] at hs

/-- Neither a pause nor its end, nor what happens to the screen and to the events, changes what there
is to do. -/
theorem Orderly.update {s : Session μ σ ε} (h : Orderly s) (phase : Phase) (stage : Stage σ)
    (events : List Event) (hphase : phase = .stopped ↔ s.phase = .stopped)
    (hissued : stage.ledger.issued = s.stage.ledger.issued) :
    Orderly { s with phase, stage, events } := by
  refine ⟨fun hp => ?_, fun hp => h.onCourse (mt hphase.mpr hp), fun hp => ?_⟩
  · exact { h.atRest (hphase.mp hp) with phase := hp }
  cases h.oneThing (mt hphase.mpr hp) with
  | move t hawaited ht htasks hcase => exact .move t hawaited (hissued ▸ ht) htasks hcase
  | step hawaited htasks hcase => exact .step hawaited htasks hcase
  | nextCase hawaited htasks hmachine => exact .nextCase hawaited htasks hmachine

/-- A case is under way, and what follows has not been queued yet. -/
structure Midway (s : Session μ σ ε) : Prop where
  active : s.phase ≠ .stopped
  tasks : s.tasks = []
  awaited : s.awaited = none
  onCourse : OnCourse s
  onCase : OnCase s

theorem OnCourse.test {s : Session μ σ ε} (h : OnCourse s) :
    ∃ test, s.cases[s.cursor.index]? = some test :=
  ⟨_, List.getElem?_eq_getElem h.2⟩

/-! ## Between two runs -/

theorem orderly_pause {s : Session μ σ ε} (h : Orderly s) : Orderly s.pause.1 := by
  unfold pause
  split_ifs with hp
  · exact h.update .paused s.stage s.events (by simp [hp]) rfl
  · exact h

theorem orderly_replaceCases {s : Session μ σ ε} (h : Orderly s) (cases : List Case) :
    Orderly (s.replaceCases cases).1 := by
  unfold replaceCases
  split_ifs with hactive
  · exact h
  · exact ((h.of_inactive hactive).update s.program s.title cases s.stage s.events).orderly

theorem orderly_onScreen {s : Session μ σ ε} (h : Orderly s) (action : σ → σ × List Ticket) :
    Orderly (s.onScreen action) :=
  h.update s.phase _ s.events Iff.rfl (by simp)

section Levels

variable [Screen σ]

theorem atRest_refresh {s : Session μ σ ε} (h : AtRest s) : AtRest s.refresh := by
  rw [refresh_eq]
  exact h.update ..

theorem atRest_install {s : Session μ σ ε} (h : AtRest s) (content : LevelContent) :
    AtRest (s.install content) := by
  cases content with
  | level | program =>
    rw [install, refresh_eq]
    exact h.update ..

theorem atRest_load {s : Session μ σ ε} (h : AtRest s) (text : String) :
    AtRest (s.load text).1 := by
  unfold load
  split_ifs
  · exact h
  cases Level.extract text >>= Level.decode with
  | ok content => exact atRest_install h content
  | error fault => exact h.update ..

theorem atRest_loadInitial {s : Session μ σ ε} (h : AtRest s) : AtRest s.loadInitial := by
  unfold loadInitial
  split
  · exact atRest_load h _
  · exact h

theorem atRest_orBlank {s : Session μ σ ε} (h : AtRest s) : AtRest s.orBlank := by
  unfold orBlank
  split
  · exact atRest_refresh (h.update ..)
  · exact h

theorem orderly_load {s : Session μ σ ε} (h : Orderly s) (text : String) :
    Orderly (s.load text).1 := by
  by_cases hactive : s.phase.isActive
  · simpa [load, hactive] using h
  · exact (atRest_load (h.of_inactive hactive) text).orderly

theorem orderly_newGrid {s : Session μ σ ε} (h : Orderly s) (cols rows : Nat) :
    Orderly (s.newGrid cols rows).1 := by
  unfold newGrid
  split_ifs with hactive
  · exact h
  cases Program.blank cols rows with
  | error fault => exact h
  | ok p =>
    have hrest := (h.of_inactive hactive).update (some p) s.title s.cases s.stage s.events
    exact (atRest_refresh hrest).orderly

theorem orderly_edit {s : Session μ σ ε} {α : Type} (h : Orderly s)
    (f : Program → Program × Except EditFault α) : Orderly (s.edit f).1 := by
  unfold edit
  split_ifs with hactive
  · exact h
  cases s.program with
  | none => exact h
  | some p =>
    rcases hf : f p with ⟨q, result⟩
    have hrest := (h.of_inactive hactive).update (some q) s.title s.cases s.stage s.events
    cases result with
    | ok a => simpa [hf] using (atRest_refresh hrest).orderly
    | error fault => simpa [hf] using hrest.orderly

end Levels

/-! ## The end of a case -/

variable [Editor ε]

theorem atRest_close (s : Session μ σ ε) : AtRest s.close := ⟨rfl, rfl, rfl, rfl, rfl, rfl⟩

theorem orderly_stop (s : Session μ σ ε) : Orderly s.stop :=
  AtRest.orderly ⟨rfl, rfl, rfl, rfl, rfl, rfl⟩

theorem orderly_conclude {s : Session μ σ ε} (h : Midway s) (passed : Bool) :
    Orderly (s.conclude passed) := by
  by_cases hnext : passed = true ∧ s.cursor.index + 1 < s.cases.length
  · rw [conclude_next hnext.1 hnext.2]
    refine .of_active h.active ⟨h.onCourse.1, hnext.2⟩ (.nextCase h.awaited ?_ rfl)
    simp [turnToNext, h.tasks]
  · rw [conclude_last hnext]
    exact (atRest_close _).orderly

variable [Machine μ]

theorem orderly_proceed {s : Session μ σ ε} (h : Midway s) : Orderly s.proceed := by
  obtain ⟨m, hm⟩ := Option.isSome_iff_exists.mp h.onCase.1
  obtain ⟨test, ht⟩ := h.onCourse.test
  have hcursor : s.cursor.test = some test := h.onCase.2.trans ht
  by_cases hended : s.HasEnded m
  · rw [proceed_judged hm hcursor hended]
    apply orderly_conclude
    exact ⟨h.active, h.tasks, h.awaited, h.onCourse, h.onCase⟩
  · rw [proceed_more hm hcursor hended]
    refine .of_active h.active h.onCourse (.step h.awaited ?_ h.onCase)
    simp [enqueue, h.tasks]

theorem orderly_breakOff {s : Session μ σ ε} (h : Midway s) (fault : MachineFault) :
    Orderly (s.breakOff fault) :=
  orderly_proceed ⟨h.active, h.tasks, h.awaited, h.onCourse, h.onCase⟩

/-! ## Tasks -/

variable [Screen σ]

theorem orderly_beginCase {s : Session μ σ ε} (hp : s.phase ≠ .stopped) (hc : OnCourse s)
    (htasks : s.tasks = []) (hawaited : s.awaited = none) : Orderly s.beginCase := by
  obtain ⟨p, hprogram⟩ := Option.isSome_iff_exists.mp hc.1
  obtain ⟨test, ht⟩ := hc.test
  rcases hl : launch (s.fresh s.tally.started) p test with ⟨m, ⟨fault⟩ | ⟨⟨⟩⟩⟩
  · rw [beginCase_failed hprogram ht hl]
    apply orderly_breakOff
    exact ⟨hp, htasks, hawaited, hc, rfl, ht.symm⟩
  · rw [beginCase_started hprogram ht hl]
    refine .of_active hp hc (.step hawaited ?_ ⟨rfl, ht.symm⟩)
    simp [enqueue, showToken, onMachine, htasks]

theorem orderly_takeStep {s : Session μ σ ε} (h : Midway s) : Orderly s.takeStep := by
  obtain ⟨m, hm⟩ := Option.isSome_iff_exists.mp h.onCase.1
  rcases hs : Machine.step m with ⟨m', ⟨fault⟩ | ⟨⟨⟩⟩⟩
  · rw [takeStep_failed hm hs]
    apply orderly_breakOff
    exact ⟨h.active, h.tasks, h.awaited, h.onCourse, rfl, h.onCase.2⟩
  · rw [takeStep_moved hm hs]
    refine .of_active h.active h.onCourse (.move _ rfl ?_ h.tasks ⟨rfl, h.onCase.2⟩)
    simp [moveToken, afterStep, showToken, Ledger.next]

/-! ## Ticks -/

/-- What a tick of an orderly session can be, with the session after it and the reply. -/
inductive TickOf (s : Session μ σ ε) : Session μ σ ε × Tick → Prop where
  | idle (rest : AtRest s) : TickOf s (s, .idle)
  | waiting (t : Ticket) (active : s.phase ≠ .stopped) (awaited : s.awaited = some t)
      (tasks : s.tasks = []) (unsettled : t ∈ s.stage.ledger.pending) : TickOf s (s, .waiting)
  | parked (paused : s.phase = .paused) (awaited : s.awaited = none) (tasks : s.tasks = [.step]) :
      TickOf s (s, .parked)
  | moved (t : Ticket) (awaited : s.awaited = some t) (settled : t ∉ s.stage.ledger.pending)
      (midway : Midway { s with awaited := none }) :
      TickOf s ({ s with awaited := none }.proceed, .ran)
  | stepped (running : s.phase = .running) (tasks : s.tasks = [.step])
      (midway : Midway { s with tasks := [] }) : TickOf s ({ s with tasks := [] }.takeStep, .ran)
  | begun (active : s.phase ≠ .stopped) (awaited : s.awaited = none)
      (tasks : s.tasks = [.nextCase]) (course : OnCourse s) :
      TickOf s ({ s with tasks := [] }.beginCase, .ran)

theorem Orderly.tickOf {s : Session μ σ ε} (h : Orderly s) : TickOf s s.tick := by
  by_cases hp : s.phase = .stopped
  · have hrest := h.atRest hp
    rw [tick_idle hrest.awaited hrest.tasks]
    exact .idle hrest
  have hc := h.onCourse hp
  cases h.oneThing hp with
  | move t hawaited hissued htasks hcase =>
    by_cases ht : t ∈ s.stage.ledger.pending
    · rw [tick_waiting hawaited (by simp [Ledger.isSettled, ht])]
      exact .waiting t hp hawaited htasks ht
    · rw [tick_settled hawaited (by simp [Ledger.isSettled, ht, hissued])]
      exact .moved t hawaited ht ⟨hp, htasks, rfl, hc, hcase⟩
  | step hawaited htasks hcase =>
    cases hphase : s.phase with
    | stopped => exact absurd hphase hp
    | paused =>
      rw [tick_parked hawaited htasks hphase]
      exact .parked hphase hawaited htasks
    | running =>
      rw [tick_step hawaited htasks hphase]
      exact .stepped hphase htasks ⟨hp, rfl, hawaited, hc, hcase⟩
  | nextCase hawaited htasks _ =>
    rw [tick_nextCase hawaited htasks hp]
    exact .begun hp hawaited htasks hc

theorem Orderly.tick_of_waiting {s : Session μ σ ε} (h : Orderly s) (hw : s.tick.2 = .waiting) :
    s.tick.1 = s := by
  have htick := h.tickOf
  generalize s.tick = r at htick hw ⊢
  cases htick with
  | waiting => rfl
  | idle | parked | moved | stepped | begun => exact Tick.noConfusion hw

theorem Orderly.tick_idle_iff {s : Session μ σ ε} (h : Orderly s) :
    s.tick.2 = .idle ↔ s.phase = .stopped := by
  have htick := h.tickOf
  generalize s.tick = r at htick ⊢
  cases htick with
  | idle rest => simp [rest.phase]
  | waiting t active => simp [active]
  | parked paused => simp [paused]
  | moved t _ _ midway => simp [show s.phase ≠ .stopped from midway.active]
  | stepped running => simp [running]
  | begun active => simp [active]

theorem orderly_tick {s : Session μ σ ε} (h : Orderly s) : Orderly s.tick.1 := by
  have htick := h.tickOf
  generalize s.tick = r at htick ⊢
  cases htick with
  | idle | waiting | parked => exact h
  | moved t _ _ midway => exact orderly_proceed midway
  | stepped _ _ midway => exact orderly_takeStep midway
  | begun active awaited _ course => exact orderly_beginCase active course rfl awaited

/-! ## Calls -/

theorem orderly_play {s : Session μ σ ε} (h : Orderly s) : Orderly s.play.1 := by
  cases hp : s.phase with
  | running => simpa [play, hp] using h
  | paused =>
    simp only [play, hp]
    exact h.update .running s.stage s.events (by simp [hp]) rfl
  | stopped =>
    by_cases hprogram : s.program = none
    · rwa [play_without_program hp hprogram]
    · have hrest := h.atRest hp
      rw [play_stopped hp hprogram]
      refine orderly_beginCase (by simp [openRun]) ⟨?_, ?_⟩ hrest.tasks hrest.awaited
      · simpa [openRun, Option.isSome_iff_ne_none] using hprogram
      · simpa [openRun, hrest.cursor] using s.casesToRun_pos

theorem orderly_call {s : Session μ σ ε} (h : Orderly s) (c : Call) : Orderly (c.run s).1 := by
  cases c with
  | play => exact orderly_play h
  | pause => exact orderly_pause h
  | stop => exact orderly_stop s
  | tick => exact orderly_tick h
  | load text => exact orderly_load h text
  | share => exact h
  | newGrid cols rows => exact orderly_newGrid h cols rows
  | edit f => exact orderly_edit h f
  | replaceCases cases => exact orderly_replaceCases h cases
  | takeEvents => exact h.update s.phase s.stage [] Iff.rfl rfl

/-! ## Reachable sessions -/

omit [Machine μ] in
theorem atRest_initial (fresh : Nat → μ) (settings : Settings) (screen : σ) (editor : ε) :
    AtRest (initial fresh settings screen editor) :=
  atRest_orBlank (atRest_loadInitial ⟨rfl, rfl, rfl, rfl, rfl, rfl⟩)

theorem Reachable.orderly {s : Session μ σ ε} (h : Reachable s) : Orderly s :=
  h.invariant (fun _ _ _ _ => (atRest_initial ..).orderly) (fun _ c hs => orderly_call hs c)
    fun _ action hs => orderly_onScreen hs action

/-! ## The theorem -/

/-- A session without a run has nothing left to do. In a run the program is there, the cursor is on
one of the cases, and there is one thing to do. So a tick does nothing just when there is no run,
when the move of the token goes on, or when the next step is held back. -/
theorem one_thing_to_do {s : Session μ σ ε} (h : Reachable s) :
    (s.phase = .stopped → AtRest s) ∧
    (s.phase ≠ .stopped → OnCourse s ∧ OneThing s) ∧
    (s.tick.2 = .idle ↔ s.phase = .stopped) ∧
    (s.tick.2 = .waiting ↔ ∃ t, s.awaited = some t ∧ t ∈ s.stage.ledger.pending) ∧
    (s.tick.2 = .parked ↔ s.phase = .paused ∧ s.tasks = [.step]) := by
  have ho := h.orderly
  refine ⟨ho.atRest, fun hp => ⟨ho.onCourse hp, ho.oneThing hp⟩, ?_⟩
  have htick := ho.tickOf
  generalize s.tick = r at htick ⊢
  cases htick with
  | idle rest => simp [rest.phase, rest.awaited]
  | waiting t active awaited tasks unsettled => simp [active, awaited, tasks, unsettled]
  | parked paused awaited tasks => simp [paused, awaited, tasks]
  | moved t awaited settled midway =>
    have htasks : s.tasks = [] := midway.tasks
    simp [show s.phase ≠ .stopped from midway.active, awaited, settled, htasks]
  | stepped running tasks midway =>
    simp [running, show s.awaited = none from midway.awaited]
  | begun active awaited tasks course => simp [active, awaited, tasks]

/-- A session on an empty grid, whose machines take one step and whose screen holds every move. -/
def sample : Session ScriptedMachine HeldScreen EditorSwitch :=
  initial (ScriptedMachine.nth []) {} { layout := ⟨0, 0, 1⟩ } { on := true }

theorem one_thing_to_do_in_a_move :
    let s := (Call.tick.run (Call.play.run sample).1).1
    s.phase ≠ .stopped ∧ OneThing s ∧ s.tick.2 = .waiting := by
  intro s
  have hs : Reachable s := .call .tick (.call .play (.initial ..))
  have hp : s.phase ≠ .stopped := by decide
  obtain ⟨-, hactive, -, hwaiting, -⟩ := one_thing_to_do hs
  exact ⟨hp, (hactive hp).2, hwaiting.mpr ⟨⟨0⟩, by decide, by decide⟩⟩

end Tilewalk.Session
