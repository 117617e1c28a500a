import Tilewalk.Proofs.Session.Deeds
import Tilewalk.Proofs.Session.Pending

/-! # The changes that calls are made of

A call changes a session in small parts: a machine is started or takes a step, a case is judged, an
event is told. Everything that a call does is a path of such changes, and each change says what it
notes: the events told, the machines made, and what they were asked to do. What every change keeps
holds of all sessions, also in the middle of a call.
-/

namespace Tilewalk

/-! ## Notes -/

/-- What a machine is asked to do, and its answer. After a step it also counts whether the machine
still runs. -/
inductive Order where
  | bindProgram (p : Program)
  | bindTape (tape : Tape)
  | bindLimit (limit : UInt32)
  | start (answer : Except MachineFault Unit)
  | step (answer : Except MachineFault Unit) (runs : Bool)

/-- What is noted of a change. The machines are numbered in the order in which they are made. -/
inductive Note where
  | event (event : Event)
  /-- A machine is made for the case `test`, the one at `index`, on the program `p`. -/
  | made (serial index : Nat) (p : Program) (test : Case)
  | order (serial : Nat) (order : Order)
  /-- The host takes the events that have been told. -/
  | taken (events : List Event)

namespace Note

def event? : Note → Option Event
  | event e => some e
  | _ => none

def taken? : Note → Option (List Event)
  | taken events => some events
  | _ => none

def isStep : Note → Bool
  | order _ (.step ..) => true
  | _ => false

end Note

def eventsOf (notes : List Note) : List Event := notes.filterMap Note.event?

def takenOf (notes : List Note) : List Event := (notes.filterMap Note.taken?).flatten

@[simp] theorem eventsOf_append (first rest : List Note) :
    eventsOf (first ++ rest) = eventsOf first ++ eventsOf rest :=
  List.filterMap_append

@[simp] theorem takenOf_append (first rest : List Note) :
    takenOf (first ++ rest) = takenOf first ++ takenOf rest := by
  simp [takenOf]

@[simp] theorem eventsOf_map_event (events : List Event) :
    eventsOf (events.map .event) = events := by
  simp [eventsOf, List.filterMap_map, Function.comp_def, Note.event?]

@[simp] theorem takenOf_map_event (events : List Event) : takenOf (events.map .event) = [] := by
  simp [takenOf, List.filterMap_map, Function.comp_def, Note.taken?]

def launchNotes (serial index : Nat) (p : Program) (test : Case)
    (answer : Except MachineFault Unit) : List Note :=
  [.made serial index p test,
    .order serial (.bindProgram p),
    .order serial (.bindTape test.input),
    .order serial (.bindLimit test.limit),
    .order serial (.start answer),
    .event (.caseStarted index)]

/-- An event about a level. -/
def Event.IsNews : Event → Prop
  | .levelLoaded _ | .loadFailed _ => True
  | _ => False

namespace Session

variable {μ σ ε : Type}

/-! ## Where a change can happen -/

/-- A case is to be begun, and nothing else is to be done. -/
structure Due (s : Session μ σ ε) (p : Program) (test : Case) : Prop where
  active : s.phase ≠ .stopped
  tasks : s.tasks = []
  awaited : s.awaited = none
  machine : s.machine = none
  program : s.program = some p
  test : s.cases[s.cursor.index]? = some test

structure InStep (s : Session μ σ ε) (m : μ) : Prop where
  running : s.phase = .running
  tasks : s.tasks = [.step]
  awaited : s.awaited = none
  machine : s.machine = some m

def failed (s : Session μ σ ε) (fault : MachineFault) : Session μ σ ε :=
  { s with tally := { s.tally with faults := s.tally.faults + 1 }, fault := some fault }

/-- The number of the machine that was made last. -/
def serial (s : Session μ σ ε) : Nat := s.tally.started - 1

variable [Machine μ]

structure Over (s : Session μ σ ε) (m : μ) (test : Case) : Prop where
  midway : Midway s
  machine : s.machine = some m
  test : s.cursor.test = some test
  ended : s.HasEnded m

variable [Screen σ]

/-- The session when its machine has taken a step and become `m'`, before the token moves. -/
def stepped (s : Session μ σ ε) (m m' : μ) : Session μ σ ε :=
  ({ s with tasks := [] }.showToken m).afterStep m'

variable [Editor ε]

/-! ## Changes -/

/-- A change of a session, and what is noted of it. -/
inductive Change : Session μ σ ε → List Note → Session μ σ ε → Prop where
  | paused {s : Session μ σ ε} (running : s.phase = .running) :
      Change s [] { s with phase := .paused }
  | resumed {s : Session μ σ ε} (paused : s.phase = .paused) :
      Change s [] { s with phase := .running }
  | opened {s : Session μ σ ε} (rest : AtRest s) :
      Change s [.event (.runStarted s.casesToRun.length)] s.openRun
  | turned {s : Session μ σ ε} (active : s.phase ≠ .stopped) (tasks : s.tasks = [.nextCase])
      (machine : s.machine = none) : Change s [] { s with tasks := [] }
  | started {s : Session μ σ ε} {p : Program} {test : Case} {m : μ} (due : Due s p test)
      (launched : launch (s.fresh s.tally.started) p test = (m, .ok ())) :
      Change s (launchNotes s.tally.started s.cursor.index p test (.ok ()))
        (((s.onMachine m test).showToken m).enqueue .step)
  | refused {s : Session μ σ ε} {p : Program} {test : Case} {m : μ} {fault : MachineFault}
      (due : Due s p test)
      (launched : launch (s.fresh s.tally.started) p test = (m, .error fault)) :
      Change s (launchNotes s.tally.started s.cursor.index p test (.error fault))
        ((s.onMachine m test).failed fault)
  | moved {s : Session μ σ ε} {m m' : μ} (inStep : InStep s m)
      (step : Machine.step m = (m', .ok ())) :
      Change s [.order s.serial (.step (.ok ()) (Machine.isRunning m'))]
        ((s.stepped m m').moveToken m')
  | broke {s : Session μ σ ε} {m m' : μ} {fault : MachineFault} (inStep : InStep s m)
      (step : Machine.step m = (m', .error fault)) :
      Change s [.order s.serial (.step (.error fault) (Machine.isRunning m'))]
        ((s.stepped m m').failed fault)
  | landed {s : Session μ σ ε} {t : Ticket} (awaited : s.awaited = some t)
      (settled : t ∉ s.stage.ledger.pending) : Change s [] { s with awaited := none }
  | continued {s : Session μ σ ε} {m : μ} (midway : Midway s) (machine : s.machine = some m)
      (runs : ¬ s.HasEnded m) : Change s [] (s.enqueue .step)
  | passed {s : Session μ σ ε} {m : μ} {test : Case} (atEnd : Over s m test)
      (passed : (s.outcomeOf m test).passed = true)
      (next : s.cursor.index + 1 < s.cases.length) :
      Change s [.event (.caseFinished (s.outcomeOf m test))]
        (s.record (s.outcomeOf m test)).turnToNext
  | finished {s : Session μ σ ε} {m : μ} {test : Case} (atEnd : Over s m test)
      (last : ¬ ((s.outcomeOf m test).passed = true ∧ s.cursor.index + 1 < s.cases.length)) :
      Change s
        [.event (.caseFinished (s.outcomeOf m test)),
          .event (.runFinished (s.outcomeOf m test).passed (s.outcomes.length + 1))]
        ((s.record (s.outcomeOf m test)).tell
          (.runFinished (s.outcomeOf m test).passed (s.outcomes.length + 1))).close
  | stopped (s : Session μ σ ε) : Change s [.event .stopped] s.stop
  | changed {s : Session μ σ ε} (rest : AtRest s) (program : Option Program)
      (title : Option String) (cases : List Case) (stage : Stage σ) (news : List Event)
      (isNews : ∀ e ∈ news, e.IsNews) :
      Change s (news.map .event)
        { s with program, title, cases, stage, events := s.events ++ news }
  | taken (s : Session μ σ ε) : Change s [.taken s.events] s.takeEvents.1
  | screen (s : Session μ σ ε) (action : σ → σ × List Ticket) :
      Change s [] (s.onScreen action)

/-- Changes one after the other, with all that is noted of them. -/
inductive Path (s : Session μ σ ε) : List Note → Session μ σ ε → Prop where
  | refl : Path s [] s
  | change {t u : Session μ σ ε} {notes new : List Note} :
      Path s notes t → Change t new u → Path s (notes ++ new) u

theorem Path.trans {s t u : Session μ σ ε} {first rest : List Note} (hst : Path s first t)
    (htu : Path t rest u) : Path s (first ++ rest) u := by
  induction htu with
  | refl => simpa using hst
  | change _ hchange ih =>
    rw [← List.append_assoc]
    exact ih.change hchange

/-- What holds at first, and is kept by each change with what is noted of it, holds after a path. -/
theorem Path.invariant {P : List Note → Session μ σ ε → Prop} {s t : Session μ σ ε}
    {notes : List Note} (h : Path s notes t) (before : List Note)
    (hchange : ∀ notes s new t, P notes s → Change s new t → P (notes ++ new) t)
    (hs : P before s) : P (before ++ notes) t := by
  induction h with
  | refl => simpa using hs
  | change _ hc ih =>
    rw [← List.append_assoc]
    exact hchange _ _ _ _ ih hc

theorem Change.fresh {s t : Session μ σ ε} {notes : List Note} (h : Change s notes t) :
    t.fresh = s.fresh := by
  cases h <;> rfl

theorem Change.settings {s t : Session μ σ ε} {notes : List Note} (h : Change s notes t) :
    t.settings = s.settings := by
  cases h <;> rfl

theorem Path.fresh_and_settings {s t : Session μ σ ε} {notes : List Note} (h : Path s notes t) :
    t.fresh = s.fresh ∧ t.settings = s.settings := by
  induction h with
  | refl => exact ⟨rfl, rfl⟩
  | change _ hchange ih => exact ⟨hchange.fresh.trans ih.1, hchange.settings.trans ih.2⟩

theorem Change.steps {s t : Session μ σ ε} {notes : List Note} (h : Change s notes t) :
    t.tally.steps = s.tally.steps + notes.countP Note.isStep := by
  cases h with
  | changed _ _ _ _ _ news =>
    have hnone : (news.map Note.event).countP Note.isStep = 0 := by
      rw [List.countP_eq_zero]
      simp [Note.isStep]
    rw [hnone]
    rfl
  | passed | finished =>
    unfold record Tally.addVerdict
    split_ifs <;> rfl
  | _ => rfl

theorem Path.steps {s t : Session μ σ ε} {notes : List Note} (h : Path s notes t) :
    t.tally.steps = s.tally.steps + notes.countP Note.isStep := by
  induction h with
  | refl => rfl
  | change _ hc ih => rw [hc.steps, ih, List.countP_append, Nat.add_assoc]

theorem Change.events {s t : Session μ σ ε} {notes : List Note} (h : Change s notes t) :
    takenOf notes ++ t.events = s.events ++ eventsOf notes := by
  cases h with
  | changed => simp
  | opened | started | refused | passed | stopped => rfl
  | paused | resumed | turned | moved | broke | landed | continued | screen =>
    exact (List.append_nil _).symm
  | finished => exact List.append_assoc ..
  | taken => simp [takenOf, eventsOf, Note.taken?, Note.event?, takeEvents]

theorem Path.events {s t : Session μ σ ε} {notes : List Note} (h : Path s notes t) :
    takenOf notes ++ t.events = s.events ++ eventsOf notes := by
  induction h with
  | refl => simp [takenOf, eventsOf]
  | change _ hc ih =>
    rw [takenOf_append, List.append_assoc, hc.events, ← List.append_assoc, ih, eventsOf_append,
      List.append_assoc]

/-! ## Calls are paths -/

/-- Changes lead from one session to the other, and the host takes no events. -/
def Leads (s t : Session μ σ ε) : Prop := ∃ notes, Path s notes t ∧ takenOf notes = []

theorem Leads.refl (s : Session μ σ ε) : Leads s s := ⟨[], .refl, rfl⟩

theorem Leads.change {s t u : Session μ σ ε} {new : List Note} (h : Leads s t)
    (hchange : Change t new u) (hnew : takenOf new = []) : Leads s u := by
  obtain ⟨notes, hpath, hnotes⟩ := h
  exact ⟨notes ++ new, hpath.change hchange, by rw [takenOf_append, hnotes, hnew]; rfl⟩

theorem Change.leads {s t : Session μ σ ε} {new : List Note} (h : Change s new t)
    (hnew : takenOf new = []) : Leads s t :=
  (Leads.refl s).change h hnew

theorem Leads.trans {s t u : Session μ σ ε} (hst : Leads s t) (htu : Leads t u) : Leads s u := by
  obtain ⟨first, hfirst, htaken⟩ := hst
  obtain ⟨rest, hrest, htaken'⟩ := htu
  exact ⟨first ++ rest, hfirst.trans hrest, by rw [takenOf_append, htaken, htaken']; rfl⟩

theorem leads_proceed {s : Session μ σ ε} (h : Midway s) : Leads s s.proceed := by
  obtain ⟨m, hm⟩ := Option.isSome_iff_exists.mp h.onCase.1
  obtain ⟨test, ht⟩ := h.onCourse.test
  have htest : s.cursor.test = some test := h.onCase.2.trans ht
  by_cases hended : s.HasEnded m
  · rw [proceed_judged hm htest hended]
    by_cases hnext : (s.outcomeOf m test).passed = true ∧ s.cursor.index + 1 < s.cases.length
    · rw [conclude_next (s := s.record _) hnext.1 hnext.2]
      exact Change.leads (.passed ⟨h, hm, htest, hended⟩ hnext.1 hnext.2) rfl
    · rw [conclude_last (s := s.record _) hnext]
      have hchange := Change.finished ⟨h, hm, htest, hended⟩ hnext
      simpa [record, tell] using hchange.leads rfl
  · rw [proceed_more hm htest hended]
    exact Change.leads (.continued h hm hended) rfl

omit [Machine μ] [Screen σ] [Editor ε] in
theorem Midway.failed {s : Session μ σ ε} (h : Midway s) (fault : MachineFault) :
    Midway (s.failed fault) :=
  ⟨h.active, h.tasks, h.awaited, h.onCourse, h.onCase⟩

theorem beginCase_of_due {s : Session μ σ ε} {p : Program} {test : Case} (h : Due s p test) :
    (∃ m, launch (s.fresh s.tally.started) p test = (m, .ok ()) ∧
      s.beginCase = ((s.onMachine m test).showToken m).enqueue .step) ∨
    ∃ m fault, launch (s.fresh s.tally.started) p test = (m, .error fault) ∧
      Midway ((s.onMachine m test).failed fault) ∧
      s.beginCase = ((s.onMachine m test).failed fault).proceed := by
  rcases hl : launch (s.fresh s.tally.started) p test with ⟨m, ⟨fault⟩ | ⟨⟨⟩⟩⟩
  · have hcourse : OnCourse s :=
      ⟨by simp [h.program], (List.getElem?_eq_some_iff.mp h.test).1⟩
    have hmidway : Midway (s.onMachine m test) :=
      ⟨h.active, h.tasks, h.awaited, hcourse, rfl, h.test.symm⟩
    exact .inr ⟨m, fault, rfl, hmidway.failed fault, beginCase_failed h.program h.test hl⟩
  · exact .inl ⟨m, rfl, beginCase_started h.program h.test hl⟩

theorem leads_beginCase {s : Session μ σ ε} {p : Program} {test : Case} (h : Due s p test) :
    Leads s s.beginCase := by
  rcases beginCase_of_due h with ⟨m, hl, heq⟩ | ⟨m, fault, hl, hmidway, heq⟩
  · rw [heq]
    exact Change.leads (.started h hl) rfl
  · rw [heq]
    exact (Change.leads (.refused h hl) rfl).trans (leads_proceed hmidway)

theorem takeStep_of_inStep {s : Session μ σ ε} {m : μ} (hin : InStep s m)
    (h : Midway { s with tasks := [] }) :
    (∃ m', Machine.step m = (m', .ok ()) ∧
      { s with tasks := [] }.takeStep = (s.stepped m m').moveToken m') ∨
    ∃ m' fault, Machine.step m = (m', .error fault) ∧ Midway ((s.stepped m m').failed fault) ∧
      { s with tasks := [] }.takeStep = ((s.stepped m m').failed fault).proceed := by
  rcases hs : Machine.step m with ⟨m', ⟨fault⟩ | ⟨⟨⟩⟩⟩
  · have hmidway : Midway (s.stepped m m') :=
      ⟨h.active, rfl, h.awaited, h.onCourse, rfl, h.onCase.2⟩
    exact .inr ⟨m', fault, rfl, hmidway.failed fault, takeStep_failed hin.machine hs⟩
  · exact .inl ⟨m', rfl, takeStep_moved hin.machine hs⟩

theorem leads_takeStep {s : Session μ σ ε} {m : μ} (hin : InStep s m)
    (h : Midway { s with tasks := [] }) : Leads s { s with tasks := [] }.takeStep := by
  rcases takeStep_of_inStep hin h with ⟨m', hs, heq⟩ | ⟨m', fault, hs, hmidway, heq⟩
  · rw [heq]
    exact Change.leads (.moved hin hs) rfl
  · rw [heq]
    exact (Change.leads (.broke hin hs) rfl).trans (leads_proceed hmidway)

theorem turned_of_orderly {s : Session μ σ ε} (h : Orderly s) (hactive : s.phase ≠ .stopped)
    (htasks : s.tasks = [.nextCase]) :
    Change s [] { s with tasks := [] } ∧ ∃ p test, Due { s with tasks := [] } p test := by
  obtain ⟨p, hp⟩ := Option.isSome_iff_exists.mp (h.onCourse hactive).1
  obtain ⟨test, ht⟩ := (h.onCourse hactive).test
  cases h.oneThing hactive with
  | move _ _ _ hnone => simp [htasks] at hnone
  | step _ hstep => simp [htasks] at hstep
  | nextCase hawaited _ hmachine =>
    exact ⟨.turned hactive htasks hmachine, p, test, hactive, rfl, hawaited, hmachine, hp, ht⟩

theorem leads_tick {s : Session μ σ ε} (h : Orderly s) : Leads s s.tick.1 := by
  have htick := h.tickOf
  generalize s.tick = r at htick ⊢
  cases htick with
  | idle | waiting | parked => exact .refl s
  | moved t awaited settled midway =>
    exact (Change.leads (.landed awaited settled) rfl).trans (leads_proceed midway)
  | stepped running tasks midway =>
    obtain ⟨m, hm⟩ := Option.isSome_iff_exists.mp midway.onCase.1
    exact leads_takeStep ⟨running, tasks, midway.awaited, hm⟩ midway
  | begun active awaited tasks course =>
    obtain ⟨hturned, p, test, hdue⟩ := turned_of_orderly h active tasks
    exact (Change.leads hturned rfl).trans (leads_beginCase hdue)

omit [Machine μ] [Screen σ] in
theorem due_openRun {s : Session μ σ ε} (h : AtRest s) {p : Program} (hp : s.program = some p) :
    ∃ test, Due s.openRun p test := by
  have hindex : s.openRun.cursor.index < s.openRun.cases.length := by
    simpa [openRun, h.cursor] using s.casesToRun_pos
  exact ⟨_, by simp [openRun], h.tasks, h.awaited, h.machine, hp, List.getElem?_eq_getElem hindex⟩

theorem leads_play {s : Session μ σ ε} (h : Orderly s) : Leads s s.play.1 := by
  cases hphase : s.phase with
  | running => simpa [play, hphase] using Leads.refl s
  | paused =>
    simp only [play, hphase]
    exact Change.leads (.resumed hphase) rfl
  | stopped =>
    cases hp : s.program with
    | none =>
      rw [play_without_program hphase hp]
      exact .refl s
    | some p =>
      have hrest := h.atRest hphase
      obtain ⟨test, hdue⟩ := due_openRun hrest hp
      rw [play_stopped hphase (by simp [hp])]
      exact (Change.leads (.opened hrest) rfl).trans (leads_beginCase hdue)

/-! ## Levels -/

section Levels

variable {s : Session μ σ ε}

theorem leads_changed (h : AtRest s) (program : Option Program) (title : Option String)
    (cases : List Case) (stage : Stage σ) : Leads s { s with program, title, cases, stage } := by
  have hchange := Change.changed h program title cases stage [] (by simp)
  simpa using hchange.leads rfl

theorem leads_news (h : AtRest s) (program : Option Program) (title : Option String)
    (cases : List Case) (stage : Stage σ) {e : Event} (he : e.IsNews) :
    Leads s { s with program, title, cases, stage, events := s.events ++ [e] } :=
  (Change.changed h program title cases stage [e] (by simpa using he)).leads rfl

theorem leads_load (h : Orderly s) (text : String) : Leads s (s.load text).1 := by
  unfold load
  split_ifs with hactive
  · exact .refl s
  have hrest := h.of_inactive hactive
  rcases Level.extract text >>= Level.decode with fault | ⟨l | p⟩
  · let e : Event := .loadFailed fault.message
    exact leads_news hrest s.program s.title s.cases s.stage (e := e) trivial
  · simp only [install]
    rw [refresh_eq]
    exact leads_news hrest _ _ _ _ trivial
  · simp only [install]
    rw [refresh_eq]
    exact leads_news hrest _ _ _ _ trivial

theorem leads_newGrid (h : Orderly s) (cols rows : Nat) : Leads s (s.newGrid cols rows).1 := by
  unfold newGrid
  split_ifs with hactive
  · exact .refl s
  cases Program.blank cols rows with
  | error fault => exact .refl s
  | ok p =>
    simp only
    rw [refresh_eq]
    exact leads_changed (h.of_inactive hactive) ..

theorem leads_edit (h : Orderly s) {α : Type} (f : Program → Program × Except EditFault α) :
    Leads s (s.edit f).1 := by
  unfold edit
  split_ifs with hactive
  · exact .refl s
  have hrest := h.of_inactive hactive
  cases s.program with
  | none => exact .refl s
  | some p =>
    rcases hf : f p with ⟨q, ⟨fault⟩ | ⟨a⟩⟩
    · simp only [hf]
      exact leads_changed hrest ..
    · simp only [hf]
      rw [refresh_eq]
      exact leads_changed hrest ..

theorem leads_replaceCases (h : Orderly s) (cases : List Case) :
    Leads s (s.replaceCases cases).1 := by
  unfold replaceCases
  split_ifs with hactive
  · exact .refl s
  · exact leads_changed (h.of_inactive hactive) s.program s.title cases s.stage

end Levels

/-! ## Deeds are paths -/

theorem leads_pause (s : Session μ σ ε) : Leads s s.pause.1 := by
  unfold pause
  split_ifs with hphase
  · exact Change.leads (.paused hphase) rfl
  · exact .refl s

theorem path_of_deed {s : Session μ σ ε} (h : Orderly s) (deed : Deed σ) :
    ∃ notes, Path s notes (deed.run s) ∧ takenOf notes = deed.handed s := by
  cases deed with
  | screen action => exact ⟨_, .change .refl (.screen s action), rfl⟩
  | call c =>
    cases c with
    | play => exact leads_play h
    | pause => exact leads_pause s
    | stop => exact Change.leads (.stopped s) rfl
    | tick => exact leads_tick h
    | load text => exact leads_load h text
    | share => exact Leads.refl s
    | newGrid cols rows => exact leads_newGrid h cols rows
    | edit f => exact leads_edit h f
    | replaceCases cases => exact leads_replaceCases h cases
    | takeEvents => exact ⟨_, .change .refl (.taken s), List.append_nil _⟩

theorem orderly_deed {s : Session μ σ ε} (h : Orderly s) (deed : Deed σ) :
    Orderly (deed.run s) := by
  cases deed with
  | call c => exact orderly_call h c
  | screen action => exact orderly_onScreen h action

theorem path_after {s : Session μ σ ε} (h : Orderly s) (deeds : List (Deed σ)) :
    ∃ notes, Path s notes (s.after deeds) ∧ takenOf notes = s.handed deeds := by
  induction deeds generalizing s with
  | nil => exact ⟨[], .refl, rfl⟩
  | cons deed deeds ih =>
    obtain ⟨first, hfirst, htaken⟩ := path_of_deed h deed
    obtain ⟨rest, hrest, htaken'⟩ := ih (orderly_deed h deed)
    exact ⟨first ++ rest, hfirst.trans hrest, by rw [takenOf_append, htaken, htaken']; rfl⟩

/-- A session that has not loaded its first level yet. -/
def unloaded (fresh : Nat → μ) (settings : Settings) (screen : σ) (editor : ε) :
    Session μ σ ε :=
  { fresh, settings, stage := { screen }, editor := Editor.allow editor }

theorem leads_initial (fresh : Nat → μ) (settings : Settings) (screen : σ) (editor : ε) :
    Leads (unloaded fresh settings screen editor) (initial fresh settings screen editor) := by
  let s := unloaded fresh settings screen editor
  have hrest : AtRest s := ⟨rfl, rfl, rfl, rfl, rfl, rfl⟩
  have hload : Leads s s.loadInitial := by
    unfold loadInitial
    split
    · exact leads_load hrest.orderly _
    · exact .refl s
  refine hload.trans ?_
  show Leads _ s.loadInitial.orBlank
  unfold orBlank
  split
  · rw [refresh_eq]
    exact leads_changed (atRest_loadInitial hrest) ..
  · exact .refl _

/-- Whatever is done to a session is a path of changes, on which all is noted that is told. -/
theorem path_after_initial (fresh : Nat → μ) (settings : Settings) (screen : σ) (editor : ε)
    (deeds : List (Deed σ)) :
    ∃ notes, Path (unloaded fresh settings screen editor) notes
        ((initial fresh settings screen editor).after deeds) ∧
      eventsOf notes = (initial fresh settings screen editor).told deeds := by
  obtain ⟨first, hfirst, hnone⟩ := leads_initial fresh settings screen editor
  have horderly := (atRest_initial fresh settings screen editor).orderly
  obtain ⟨rest, hrest, htaken⟩ := path_after horderly deeds
  have hpath := hfirst.trans hrest
  refine ⟨first ++ rest, hpath, ?_⟩
  have hevents := hpath.events
  rw [takenOf_append, hnone, htaken] at hevents
  exact hevents.symm

end Session

end Tilewalk
