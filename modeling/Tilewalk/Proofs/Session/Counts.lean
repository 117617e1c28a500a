import Mathlib.Data.List.Induction
import Tilewalk.Proofs.Session.Story

/-! # Counts and events

The tally and the outcomes of a session can be read off the events that it has told, and off what
its machines have answered.
-/

namespace Tilewalk

/-! ## Reading the events -/

namespace Event

def isCaseStarted : Event → Bool
  | caseStarted _ => true
  | _ => false

def outcome? : Event → Option Outcome
  | caseFinished outcome => some outcome
  | _ => none

/-- An event that is not about a case, and neither begins a run nor gives one up. -/
def IsAside : Event → Prop
  | runFinished .. | levelLoaded _ | loadFailed _ => True
  | _ => False

end Event

def outcomesOf (events : List Event) : List Outcome := events.filterMap Event.outcome?

/-- What the events tell of cases: whether one is under way, how many have been given up, and the
outcomes of the last run. -/
structure Course where
  underway : Bool := false
  givenUp : Nat := 0
  outcomes : List Outcome := []

def Course.tell (c : Course) : Event → Course
  | .runStarted _ => { c with outcomes := [] }
  | .caseStarted _ => { c with underway := true }
  | .caseFinished o => { c with underway := false, outcomes := c.outcomes ++ [o] }
  | .stopped => { c with underway := false, givenUp := c.givenUp + c.underway.toNat }
  | _ => c

def courseOf (events : List Event) : Course := events.foldl Course.tell {}

@[simp] theorem courseOf_append_singleton (events : List Event) (e : Event) :
    courseOf (events ++ [e]) = (courseOf events).tell e := by
  simp [courseOf]

@[simp] theorem outcomesOf_append (first rest : List Event) :
    outcomesOf (first ++ rest) = outcomesOf first ++ outcomesOf rest :=
  List.filterMap_append

theorem Event.IsNews.isAside {e : Event} (h : e.IsNews) : e.IsAside := by
  cases e with
  | levelLoaded | loadFailed => trivial
  | runStarted | caseStarted | caseFinished | runFinished | stopped => cases h

/-! ## Reading the notes -/

namespace Order

def fault? : Order → Option MachineFault
  | start (.error fault) | step (.error fault) _ => some fault
  | _ => none

def isStep : Order → Bool
  | step .. => true
  | _ => false

end Order

/-- The outcome of a case, and the last order that a machine had got when it was told. -/
structure Judged where
  order : Option Order
  outcome : Outcome

/-- Whether the case was judged by a fault of a step. -/
def Judged.byStep (j : Judged) : Bool := j.outcome.fault.isSome && j.order.any Order.isStep

/-- The last order that a machine has got, and the cases that have been judged. -/
structure Docket where
  last : Option Order := none
  judged : List Judged := []

def Docket.note (d : Docket) : Note → Docket
  | .order _ order => { d with last := some order }
  | .event (.caseFinished o) => { d with judged := d.judged ++ [⟨d.last, o⟩] }
  | _ => d

def docketOf (notes : List Note) : Docket := notes.foldl Docket.note {}

theorem docketOf_append (first rest : List Note) :
    docketOf (first ++ rest) = rest.foldl Docket.note (docketOf first) :=
  List.foldl_append

theorem outcomes_docketOf (notes : List Note) :
    (docketOf notes).judged.map Judged.outcome = outcomesOf (eventsOf notes) := by
  induction notes using List.reverseRecOn with
  | nil => rfl
  | append_singleton notes note ih =>
    rw [docketOf_append, eventsOf_append, outcomesOf_append, ← ih]
    cases note with
    | event e => cases e <;> simp [Docket.note, eventsOf, outcomesOf, Note.event?, Event.outcome?]
    | made | order | taken => simp [Docket.note, eventsOf, outcomesOf, Note.event?]

theorem Tally.addVerdict_keeps (t : Tally) (passed : Bool) :
    (t.addVerdict passed).faults = t.faults ∧ (t.addVerdict passed).steps = t.steps ∧
      (t.addVerdict passed).moves = t.moves := by
  unfold addVerdict
  split_ifs <;> exact ⟨rfl, rfl, rfl⟩

namespace Session

variable {μ σ ε : Type}

/-! ## Counting the events -/

/-- The tally and the outcomes are those of the events. -/
structure Counted (events : List Event) (s : Session μ σ ε) : Prop where
  started : s.tally.started = events.countP Event.isCaseStarted
  passed : s.tally.passed = (outcomesOf events).countP Outcome.passed
  failed : s.tally.failed = (outcomesOf events).countP fun o => !o.passed
  underway : (courseOf events).underway = s.machine.isSome
  balance : s.tally.started =
    s.tally.judged + (courseOf events).givenUp + s.machine.isSome.toNat
  outcomes : s.outcomes = (courseOf events).outcomes
  inOrder : s.outcomes.map Outcome.index = List.range s.outcomes.length
  butLast : ∀ o ∈ s.outcomes.dropLast, o.passed = true

theorem counts_aside {new : List Event} (hnew : ∀ e ∈ new, e.IsAside) (events : List Event) :
    new.countP Event.isCaseStarted = 0 ∧ outcomesOf new = [] ∧
      courseOf (events ++ new) = courseOf events := by
  induction new generalizing events with
  | nil => simp [outcomesOf]
  | cons e new ih =>
    obtain ⟨he, hnew⟩ := List.forall_mem_cons.mp hnew
    obtain ⟨hcount, houtcomes, hcourse⟩ := ih hnew (events ++ [e])
    rw [List.append_cons, hcourse, courseOf_append_singleton]
    cases e with
    | runFinished | levelLoaded | loadFailed => exact ⟨hcount, houtcomes, rfl⟩
    | runStarted | caseStarted | caseFinished | stopped => cases he

theorem Counted.aside {events new : List Event} {s t : Session μ σ ε} (h : Counted events s)
    (hnew : ∀ e ∈ new, e.IsAside) (hstarted : t.tally.started = s.tally.started)
    (hpassed : t.tally.passed = s.tally.passed) (hfailed : t.tally.failed = s.tally.failed)
    (houtcomes : t.outcomes = s.outcomes) (hmachine : t.machine.isSome = s.machine.isSome) :
    Counted (events ++ new) t := by
  obtain ⟨hcount, hnone, hcourse⟩ := counts_aside hnew events
  have hjudged : t.tally.judged = s.tally.judged := by simp only [Tally.judged, hpassed, hfailed]
  constructor
  · simp [hstarted, h.started, hcount]
  · simp [hpassed, h.passed, hnone]
  · simp [hfailed, h.failed, hnone]
  · rw [hcourse, hmachine, h.underway]
  · rw [hcourse, hstarted, hjudged, hmachine, h.balance]
  · rw [hcourse, houtcomes, h.outcomes]
  · rw [houtcomes, h.inOrder]
  · rw [houtcomes]
    exact h.butLast

theorem Counted.quiet {events : List Event} {s t : Session μ σ ε} (h : Counted events s)
    (hstarted : t.tally.started = s.tally.started) (hpassed : t.tally.passed = s.tally.passed)
    (hfailed : t.tally.failed = s.tally.failed) (houtcomes : t.outcomes = s.outcomes)
    (hmachine : t.machine.isSome = s.machine.isSome) : Counted (events ++ []) t :=
  h.aside (by simp) hstarted hpassed hfailed houtcomes hmachine

theorem Counted.begun {events : List Event} {s t : Session μ σ ε} {index : Nat}
    (h : Counted events s) (hmachine : s.machine = none) (hbegun : t.machine.isSome = true)
    (hstarted : t.tally.started = s.tally.started + 1) (hpassed : t.tally.passed = s.tally.passed)
    (hfailed : t.tally.failed = s.tally.failed) (houtcomes : t.outcomes = s.outcomes) :
    Counted (events ++ [.caseStarted index]) t := by
  have hbalance := h.balance
  have hjudged : t.tally.judged = s.tally.judged := by simp only [Tally.judged, hpassed, hfailed]
  constructor
  · simp [hstarted, h.started, Event.isCaseStarted]
  · simp [hpassed, h.passed, outcomesOf, Event.outcome?]
  · simp [hfailed, h.failed, outcomesOf, Event.outcome?]
  · simp [Course.tell, hbegun]
  · simp [Course.tell, hbegun, hmachine] at hbalance ⊢
    omega
  · simp [Course.tell, houtcomes, h.outcomes]
  · rw [houtcomes, h.inOrder]
  · rw [houtcomes]
    exact h.butLast

/-- The outcomes of a run that goes on have passed, and so have those before the last one when it is
over. -/
theorem Counted.judged {events : List Event} {s t : Session μ σ ε} (h : Counted events s)
    (hmachine : s.machine.isSome = true) {o : Outcome} (hindex : o.index = s.outcomes.length)
    (hall : ∀ o ∈ s.outcomes, o.passed = true) (hnone : t.machine = none)
    (htally : t.tally = s.tally.addVerdict o.passed) (houtcomes : t.outcomes = s.outcomes ++ [o]) :
    Counted (events ++ [.caseFinished o]) t := by
  have hbalance := h.balance
  have hstarted : t.tally.started = s.tally.started := by
    rw [htally, Tally.addVerdict]
    split_ifs <;> rfl
  have hverdict : t.tally.passed = s.tally.passed + o.passed.toNat ∧
      t.tally.failed = s.tally.failed + (!o.passed).toNat := by
    rw [htally, Tally.addVerdict]
    cases o.passed <;> exact ⟨rfl, rfl⟩
  obtain ⟨hpassed, hfailed⟩ := hverdict
  constructor
  · simp [hstarted, h.started, Event.isCaseStarted]
  · cases ho : o.passed <;> simp [hpassed, h.passed, outcomesOf, Event.outcome?, ho]
  · cases ho : o.passed <;> simp [hfailed, h.failed, outcomesOf, Event.outcome?, ho]
  · simp [Course.tell, hnone]
  · simp only [courseOf_append_singleton, Course.tell, hnone, hstarted, Tally.judged, hpassed,
      hfailed] at hbalance ⊢
    rw [hbalance, hmachine]
    cases o.passed <;> simp <;> omega
  · simp [Course.tell, houtcomes, h.outcomes]
  · simp [houtcomes, h.inOrder, hindex, List.range_succ]
  · rw [houtcomes, List.dropLast_concat]
    exact hall

theorem eventsOf_launchNotes (serial index : Nat) (p : Program) (test : Case)
    (answer : Except MachineFault Unit) :
    eventsOf (launchNotes serial index p test answer) = [.caseStarted index] := rfl

section Machines

variable [Machine μ] [Screen σ] [Editor ε]

theorem counted_change {events : List Event} {s t : Session μ σ ε} {notes : List Note}
    (h : Counted events s) (htelling : Telling events s) (hchange : Change s notes t) :
    Counted (events ++ eventsOf notes) t := by
  cases hchange with
  | paused | resumed | turned | landed | continued | screen | taken =>
    exact h.quiet rfl rfl rfl rfl rfl
  | moved inStep | broke inStep =>
    refine h.quiet rfl rfl rfl rfl ?_
    rw [inStep.machine]
    rfl
  | opened rest =>
    have hopened : Counted (events ++ [.runStarted s.casesToRun.length]) s.openRun := by
      constructor
      · simp [openRun, h.started, Event.isCaseStarted]
      · simp [openRun, h.passed, outcomesOf, Event.outcome?]
      · simp [openRun, h.failed, outcomesOf, Event.outcome?]
      · simpa [openRun, Course.tell] using h.underway
      · simpa [openRun, Course.tell] using h.balance
      · simp [openRun, Course.tell]
      · rfl
      · simp [openRun]
    exact hopened
  | started due | refused due =>
    rw [eventsOf_launchNotes]
    exact h.begun due.machine rfl rfl rfl rfl rfl
  | @passed m test atEnd passed next =>
    have hactive := atEnd.midway.active
    exact h.judged atEnd.midway.onCase.1 (htelling.index hactive) (htelling.passed hactive).passed
      rfl rfl rfl
  | @finished m test atEnd =>
    have hactive := atEnd.midway.active
    let o := s.outcomeOf m test
    let last : Event := .runFinished o.passed (s.outcomes.length + 1)
    have hjudged : Counted (events ++ [.caseFinished o]) (s.record o).close :=
      h.judged atEnd.midway.onCase.1 (htelling.index hactive) (htelling.passed hactive).passed
        rfl rfl rfl
    have hover : Counted (events ++ [.caseFinished o] ++ [last]) ((s.record o).tell last).close :=
      hjudged.aside (by simp [last, Event.IsAside]) rfl rfl rfl rfl rfl
    rw [List.append_assoc] at hover
    exact hover
  | stopped =>
    have hbalance := h.balance
    have hstopped : Counted (events ++ [.stopped]) s.stop := by
      constructor
      · simp [stop, close, tell, h.started, Event.isCaseStarted]
      · simp [stop, close, tell, h.passed, outcomesOf, Event.outcome?]
      · simp [stop, close, tell, h.failed, outcomesOf, Event.outcome?]
      · simp [stop, close, tell, Course.tell]
      · simp [stop, close, tell, Course.tell, h.underway, hbalance, Nat.add_assoc]
      · simp [stop, close, tell, Course.tell, h.outcomes]
      · exact h.inOrder
      · exact h.butLast
    exact hstopped
  | changed rest _ _ _ _ news isNews =>
    rw [eventsOf_map_event]
    exact h.aside (fun e he => (isNews e he).isAside) rfl rfl rfl rfl rfl

theorem counted_of_path {fresh : Nat → μ} {settings : Settings} {screen : σ} {editor : ε}
    {notes : List Note} {s : Session μ σ ε}
    (h : Path (unloaded fresh settings screen editor) notes s) : Counted (eventsOf notes) s := by
  have hstart : Counted (eventsOf []) (unloaded fresh settings screen editor) :=
    ⟨rfl, rfl, rfl, rfl, rfl, rfl, rfl, by simp [unloaded]⟩
  have htold : Telling (eventsOf []) (unloaded fresh settings screen editor) :=
    .of_inactive rfl .nil
  refine (h.invariant (P := fun notes s => Counted (eventsOf notes) s ∧ Telling (eventsOf notes) s)
    [] ?_ ⟨hstart, htold⟩).1
  rintro notes s new t ⟨hcounted, htelling⟩ hchange
  rw [eventsOf_append]
  exact ⟨counted_change hcounted htelling hchange, telling_change htelling hchange⟩

/-! ## Blaming the machines -/

/-- The machine at hand has failed, and its case has not been judged yet. -/
def openFault (s : Session μ σ ε) : Bool := s.machine.isSome && s.fault.isSome

/-- A fault is the one that the machine has answered with last. It is counted with the outcome that
carries it, and a step that has failed has moved no token. -/
structure Blamed (notes : List Note) (s : Session μ σ ε) : Prop where
  fault : s.machine.isSome = true → s.fault = (docketOf notes).last.bind Order.fault?
  sound : s.machine.isSome = true → s.tasks = [.step] ∨ s.awaited.isSome = true → s.fault = none
  judged : ∀ j ∈ (docketOf notes).judged,
    j.outcome.fault = (j.order.bind Order.fault?).map MachineFault.message
  faults : s.tally.faults =
    (docketOf notes).judged.countP (·.outcome.fault.isSome) + s.openFault.toNat
  steps : s.tally.steps = s.tally.moves + (docketOf notes).judged.countP Judged.byStep +
    (s.openFault && (docketOf notes).last.any Order.isStep).toNat

omit [Machine μ] [Screen σ] [Editor ε] in
theorem Blamed.quiet {notes new : List Note} {s t : Session μ σ ε} (h : Blamed notes s)
    (hnew : docketOf (notes ++ new) = docketOf notes) (htally : t.tally = s.tally)
    (hfault : t.fault = s.fault) (hmachine : t.machine.isSome = s.machine.isSome)
    (hsound : s.machine.isSome = true → t.tasks = [.step] ∨ t.awaited.isSome = true →
      s.fault = none) : Blamed (notes ++ new) t := by
  have hopen : t.openFault = s.openFault := by simp only [openFault, hfault, hmachine]
  constructor
  · rw [hnew, hfault, hmachine]
    exact h.fault
  · rw [hfault, hmachine]
    exact hsound
  · rw [hnew]
    exact h.judged
  · rw [hnew, hopen, htally, h.faults]
  · rw [hnew, hopen, htally, h.steps]

omit [Machine μ] [Screen σ] [Editor ε] in
theorem Blamed.closed {notes new : List Note} {s t : Session μ σ ε} {o : Outcome}
    (h : Blamed notes s) (hmachine : s.machine.isSome = true)
    (hnew : docketOf (notes ++ new) = (docketOf notes).note (.event (.caseFinished o)))
    (ho : o.fault = s.fault.map MachineFault.message) (hnone : t.machine = none)
    (hfaults : t.tally.faults = s.tally.faults) (hsteps : t.tally.steps = s.tally.steps)
    (hmoves : t.tally.moves = s.tally.moves) : Blamed (notes ++ new) t := by
  have hfault := h.fault hmachine
  have hopen : s.openFault = o.fault.isSome := by simp [openFault, hmachine, ho]
  constructor
  · simp [hnone]
  · simp [hnone]
  · intro j hj
    rw [hnew] at hj
    rcases List.mem_append.mp hj with hj | hj
    · exact h.judged j hj
    · rw [List.mem_singleton.mp hj, ho, hfault]
  · rw [hnew, hfaults, h.faults, hopen]
    cases ho' : o.fault <;> simp [Docket.note, openFault, hnone, ho']
  · rw [hnew, hsteps, hmoves, h.steps, hopen]
    cases hlast : (docketOf notes).last.any Order.isStep <;> cases ho' : o.fault <;>
      simp [Docket.note, openFault, hnone, Judged.byStep, hlast, ho', Nat.add_assoc]

omit [Machine μ] [Screen σ] [Editor ε] in
theorem Blamed.ordered {notes new : List Note} {s t : Session μ σ ε} {order : Order}
    (h : Blamed notes s) (hsettled : s.openFault = false)
    (hnew : docketOf (notes ++ new) = (docketOf notes).note (.order 0 order))
    (hmachine : t.machine.isSome = true) (hfault : t.fault = order.fault?)
    (hsound : t.tasks = [.step] ∨ t.awaited.isSome = true → t.fault = none)
    (hfaults : t.tally.faults = s.tally.faults + order.fault?.isSome.toNat)
    (hsteps : t.tally.steps + s.tally.moves =
      s.tally.steps + t.tally.moves + (order.fault?.isSome && order.isStep).toNat) :
    Blamed (notes ++ new) t := by
  have hopen : t.openFault = order.fault?.isSome := by simp [openFault, hmachine, hfault]
  have hold := h.steps
  constructor
  · rw [hnew, hfault]
    exact fun _ => rfl
  · exact fun _ => hsound
  · rw [hnew]
    exact h.judged
  · rw [hnew, hfaults, h.faults, hsettled, hopen]
    rfl
  · simp only [hnew, hopen, hsettled, Docket.note, Option.any_some, Bool.false_and,
      Bool.toNat_false] at hold ⊢
    omega

theorem docketOf_news {notes : List Note} {news : List Event} (hnews : ∀ e ∈ news, e.IsNews) :
    docketOf (notes ++ news.map .event) = docketOf notes := by
  induction news generalizing notes with
  | nil => simp
  | cons e news ih =>
    obtain ⟨he, hnews⟩ := List.forall_mem_cons.mp hnews
    rw [List.map_cons, List.append_cons, ih hnews, docketOf_append]
    cases e with
    | levelLoaded | loadFailed => rfl
    | runStarted | caseStarted | caseFinished | runFinished | stopped => cases he

theorem blamed_change {notes new : List Note} {s t : Session μ σ ε} (h : Blamed notes s)
    (hnew : .event .stopped ∉ new) (hchange : Change s new t) : Blamed (notes ++ new) t := by
  cases hchange with
  | paused | resumed | screen => exact h.quiet (by simp) rfl rfl rfl h.sound
  | taken => exact h.quiet (docketOf_append ..) rfl rfl rfl h.sound
  | opened rest => exact h.quiet (docketOf_append ..) rfl rfl rfl (by simp [rest.machine])
  | turned _ _ machine => exact h.quiet (by simp) rfl rfl rfl (by simp [machine])
  | changed rest _ _ _ _ news isNews =>
    exact h.quiet (docketOf_news isNews) rfl rfl rfl (by simp [rest.machine])
  | landed awaited =>
    exact h.quiet (by simp) rfl rfl rfl fun hm _ => h.sound hm (.inr (by simp [awaited]))
  | continued midway machine runs =>
    have hfault : s.fault = none := by
      simp only [HasEnded, not_or, Decidable.not_not, ne_eq] at runs
      exact runs.1
    exact h.quiet (by simp) rfl rfl rfl fun _ _ => hfault
  | started due =>
    have hsettled : s.openFault = false := by simp [openFault, due.machine]
    exact h.ordered hsettled (docketOf_append ..) rfl rfl (fun _ => rfl) rfl rfl
  | refused due =>
    have hsettled : s.openFault = false := by simp [openFault, due.machine]
    refine h.ordered hsettled (docketOf_append ..) rfl rfl ?_ rfl rfl
    simp [failed, onMachine, due.tasks, due.awaited]
  | moved inStep =>
    have hfault : s.fault = none := h.sound (by simp [inStep.machine]) (.inl inStep.tasks)
    have hsettled : s.openFault = false := by simp [openFault, hfault]
    exact h.ordered hsettled (docketOf_append ..) rfl hfault (fun _ => hfault) rfl
      (Nat.add_right_comm ..)
  | broke inStep =>
    have hfault : s.fault = none := h.sound (by simp [inStep.machine]) (.inl inStep.tasks)
    have hsettled : s.openFault = false := by simp [openFault, hfault]
    refine h.ordered hsettled (docketOf_append ..) rfl rfl ?_ rfl (Nat.add_right_comm ..)
    simp [failed, stepped, afterStep, showToken, inStep.awaited]
  | @passed m test atEnd =>
    obtain ⟨hfaults, hsteps, hmoves⟩ := s.tally.addVerdict_keeps (s.outcomeOf m test).passed
    exact h.closed atEnd.midway.onCase.1 (docketOf_append ..) rfl rfl hfaults hsteps hmoves
  | @finished m test atEnd =>
    obtain ⟨hfaults, hsteps, hmoves⟩ := s.tally.addVerdict_keeps (s.outcomeOf m test).passed
    exact h.closed atEnd.midway.onCase.1 (docketOf_append ..) rfl rfl hfaults hsteps hmoves
  | stopped => simp at hnew

theorem blamed_path {notes new : List Note} {s t : Session μ σ ε} (h : Blamed notes s)
    (hpath : Path s new t) (hnew : .event .stopped ∉ new) : Blamed (notes ++ new) t := by
  induction hpath with
  | refl => simpa using h
  | change _ hchange ih =>
    rw [List.mem_append, not_or] at hnew
    rw [← List.append_assoc]
    exact blamed_change (ih hnew.1) hnew.2 hchange

omit [Machine μ] [Screen σ] [Editor ε] in
theorem Blamed.settled {notes : List Note} {s : Session μ σ ε} (h : Blamed notes s)
    (ho : Orderly s) : s.openFault = false := by
  by_cases hp : s.phase = .stopped
  · simp [openFault, (ho.atRest hp).machine]
  cases ho.oneThing hp with
  | move ticket awaited _ _ onCase => simp [openFault, h.sound onCase.1 (.inr (by simp [awaited]))]
  | step _ tasks onCase => simp [openFault, h.sound onCase.1 (.inl tasks)]
  | nextCase _ _ machine => simp [openFault, machine]

/-! ## Only a call to stop tells that a run was given up -/

/-- How often it waits to be told that a run was given up. -/
def stops (s : Session μ σ ε) : Nat := s.events.count .stopped

omit [Machine μ] [Screen σ] [Editor ε] in
theorem stops_tell (s : Session μ σ ε) {e : Event} (he : e ≠ .stopped) :
    (s.tell e).stops = s.stops := by
  simp [stops, tell, List.count_append, he]

omit [Machine μ] [Screen σ] in
theorem stops_conclude (s : Session μ σ ε) (passed : Bool) :
    (s.conclude passed).stops = s.stops := by
  by_cases h : passed = true ∧ s.cursor.index + 1 < s.cases.length
  · rw [conclude_next h.1 h.2]
    rfl
  · rw [conclude_last h]
    exact stops_tell s (by simp)

omit [Screen σ] in
theorem stops_proceed (s : Session μ σ ε) : s.proceed.stops = s.stops := by
  unfold proceed
  split
  · split_ifs
    · rfl
    · dsimp only
      rw [stops_conclude]
      exact stops_tell s (by simp)
  · rfl

omit [Screen σ] in
theorem stops_breakOff (s : Session μ σ ε) (fault : MachineFault) :
    (s.breakOff fault).stops = s.stops :=
  stops_proceed (s.failed fault)

theorem stops_beginCase (s : Session μ σ ε) : s.beginCase.stops = s.stops := by
  cases hp : s.program with
  | none =>
    rw [beginCase_nothing (.inl hp)]
    rfl
  | some p =>
    cases ht : s.cases[s.cursor.index]? with
    | none =>
      rw [beginCase_nothing (.inr ht)]
      rfl
    | some test =>
      have hbound (m : μ) : (s.onMachine m test).stops = s.stops := stops_tell s (by simp)
      rcases hl : launch (s.fresh s.tally.started) p test with ⟨m, ⟨fault⟩ | ⟨⟨⟩⟩⟩
      · rw [beginCase_failed hp ht hl, stops_breakOff, hbound]
      · rw [beginCase_started hp ht hl]
        exact hbound m

theorem stops_takeStep (s : Session μ σ ε) : s.takeStep.stops = s.stops := by
  cases hm : s.machine with
  | none => rw [takeStep_nothing hm]
  | some m =>
    rcases hs : Machine.step m with ⟨m', ⟨fault⟩ | ⟨⟨⟩⟩⟩
    · rw [takeStep_failed hm hs, stops_breakOff]
      rfl
    · rw [takeStep_moved hm hs]
      rfl

theorem stops_tick {s : Session μ σ ε} (h : Orderly s) : s.tick.1.stops = s.stops := by
  have htick := h.tickOf
  generalize s.tick = r at htick ⊢
  cases htick with
  | idle | waiting | parked => rfl
  | moved => exact stops_proceed _
  | stepped => exact stops_takeStep _
  | begun => exact stops_beginCase _

theorem stops_play (s : Session μ σ ε) : s.play.1.stops = s.stops := by
  cases hp : s.phase with
  | running | paused => simp only [play, hp, stops]
  | stopped =>
    by_cases hprogram : s.program = none
    · rw [play_without_program hp hprogram]
    · rw [play_stopped hp hprogram, stops_beginCase]
      exact stops_tell s (by simp)

section Levels

omit [Machine μ] [Editor ε]

theorem stops_refresh (s : Session μ σ ε) : s.refresh.stops = s.stops := by
  rw [refresh_eq]
  rfl

theorem stops_load (s : Session μ σ ε) (text : String) : (s.load text).1.stops = s.stops := by
  unfold load
  split_ifs
  · rfl
  rcases Level.extract text >>= Level.decode with fault | ⟨l | p⟩
  · exact stops_tell s (by simp)
  · simp only [install]
    rw [stops_tell _ (by simp), stops_refresh]
    rfl
  · simp only [install]
    rw [stops_tell _ (by simp), stops_refresh]
    rfl

theorem stops_newGrid (s : Session μ σ ε) (cols rows : Nat) :
    (s.newGrid cols rows).1.stops = s.stops := by
  unfold newGrid
  split_ifs
  · rfl
  cases Program.blank cols rows with
  | error fault => rfl
  | ok p => exact stops_refresh { s with program := some p }

theorem stops_edit {α : Type} (s : Session μ σ ε) (f : Program → Program × Except EditFault α) :
    (s.edit f).1.stops = s.stops := by
  unfold edit
  split_ifs
  · rfl
  cases s.program with
  | none => rfl
  | some p =>
    rcases hf : f p with ⟨q, ⟨fault⟩ | ⟨a⟩⟩
    · simp only [hf]
      rfl
    · simp only [hf]
      exact stops_refresh { s with program := some q }

theorem stops_initial [Editor ε] (fresh : Nat → μ) (settings : Settings) (screen : σ) (editor : ε) :
    (initial fresh settings screen editor).stops = 0 := by
  let s := unloaded fresh settings screen editor
  have hload : s.loadInitial.stops = 0 := by
    unfold loadInitial
    split
    · exact stops_load s _
    · rfl
  show s.loadInitial.orBlank.stops = 0
  unfold orBlank
  split
  · rw [stops_refresh]
    exact hload
  · exact hload

end Levels

theorem stops_of_ne_stop {s : Session μ σ ε} (h : Orderly s) {c : Call} (hc : c ≠ .stop)
    (htaken : c ≠ .takeEvents) : (c.run s).1.stops = s.stops := by
  cases c with
  | play => exact stops_play s
  | pause =>
    simp only [Call.run, pause]
    split_ifs <;> rfl
  | stop => exact absurd rfl hc
  | tick => exact stops_tick h
  | load text => exact stops_load s text
  | share => rfl
  | newGrid cols rows => exact stops_newGrid s cols rows
  | edit f => exact stops_edit s f
  | replaceCases cases =>
    simp only [Call.run, replaceCases]
    split_ifs <;> rfl
  | takeEvents => exact absurd rfl htaken

/-! ## What deeds note -/

theorem not_stopped_of_path {s t : Session μ σ ε} {notes : List Note} (h : Path s notes t)
    (hstops : (takenOf notes ++ t.events).count .stopped = s.stops) : .event .stopped ∉ notes := by
  intro hmem
  have hevent : .stopped ∈ eventsOf notes := List.mem_filterMap.mpr ⟨_, hmem, rfl⟩
  rw [h.events, List.count_append, stops] at hstops
  have hpos := List.count_pos_iff.mpr hevent
  omega

omit [Machine μ] [Screen σ] in
theorem blamed_stop {notes : List Note} {s : Session μ σ ε} (h : Blamed notes s)
    (ho : Orderly s) : Blamed (notes ++ [.event .stopped]) s.stop := by
  have hnew : docketOf (notes ++ [.event .stopped]) = docketOf notes := docketOf_append ..
  have hfaults := h.faults
  have hsteps := h.steps
  rw [h.settled ho] at hfaults hsteps
  have hmachine : s.stop.machine = none := rfl
  have hopen : s.stop.openFault = false := by simp [openFault, hmachine]
  refine ⟨by simp [hmachine], by simp [hmachine], by rw [hnew]; exact h.judged, ?_, ?_⟩
  · rw [hnew, hopen]
    exact hfaults
  · rw [hnew, hopen]
    exact hsteps

theorem blamed_deed {notes : List Note} {s : Session μ σ ε} (h : Blamed notes s) (ho : Orderly s)
    (deed : Deed σ) : ∃ new, Path s new (deed.run s) ∧ takenOf new = deed.handed s ∧
      Blamed (notes ++ new) (deed.run s) := by
  have hquiet (hstops : (deed.handed s ++ (deed.run s).events).count .stopped = s.stops) :
      ∃ new, Path s new (deed.run s) ∧ takenOf new = deed.handed s ∧
        Blamed (notes ++ new) (deed.run s) := by
    obtain ⟨new, hpath, htaken⟩ := path_of_deed ho deed
    refine ⟨new, hpath, htaken, blamed_path h hpath (not_stopped_of_path hpath ?_)⟩
    rw [htaken, hstops]
  cases deed with
  | screen action => exact hquiet rfl
  | call c =>
    by_cases hstop : c = .stop
    · subst hstop
      exact ⟨_, .change .refl (.stopped s), rfl, blamed_stop h ho⟩
    by_cases htaken : c = .takeEvents
    · subst htaken
      exact hquiet (by simp [Deed.handed, Deed.run, Call.run, takeEvents, stops])
    · have hnone : (Deed.call c).handed s = [] := by
        cases c <;> first | rfl | exact absurd rfl htaken
      refine hquiet ?_
      rw [hnone]
      exact stops_of_ne_stop ho hstop htaken

theorem blamed_after {notes : List Note} {s : Session μ σ ε} (h : Blamed notes s) (ho : Orderly s)
    (deeds : List (Deed σ)) : ∃ new, Path s new (s.after deeds) ∧ takenOf new = s.handed deeds ∧
      Blamed (notes ++ new) (s.after deeds) := by
  induction deeds generalizing notes s with
  | nil => exact ⟨[], .refl, rfl, by simpa using h⟩
  | cons deed deeds ih =>
    obtain ⟨first, hfirst, htaken, hblamed⟩ := blamed_deed h ho deed
    obtain ⟨rest, hrest, htaken', hblamed'⟩ := ih hblamed (orderly_deed ho deed)
    refine ⟨first ++ rest, hfirst.trans hrest, ?_, ?_⟩
    · rw [takenOf_append, htaken, htaken']
      rfl
    · rwa [← List.append_assoc]

/-- Whatever is done to a session is a path of changes, on which the faults can be blamed on the
machines. -/
theorem blamed_after_initial (fresh : Nat → μ) (settings : Settings) (screen : σ) (editor : ε)
    (deeds : List (Deed σ)) :
    ∃ notes, Path (unloaded fresh settings screen editor) notes
        ((initial fresh settings screen editor).after deeds) ∧
      eventsOf notes = (initial fresh settings screen editor).told deeds ∧
      Blamed notes ((initial fresh settings screen editor).after deeds) := by
  have hstart : Blamed [] (unloaded fresh settings screen editor) :=
    ⟨by simp [unloaded], by simp [unloaded], by simp [docketOf], rfl, rfl⟩
  obtain ⟨first, hfirst, hnone⟩ := leads_initial fresh settings screen editor
  have hblamed := blamed_path hstart hfirst (not_stopped_of_path hfirst (by
    rw [hnone]
    exact stops_initial ..))
  have ho := (atRest_initial fresh settings screen editor).orderly
  obtain ⟨rest, hrest, htaken, hblamed'⟩ := blamed_after hblamed ho deeds
  have hpath := hfirst.trans hrest
  have hevents := hpath.events
  rw [takenOf_append, hnone, htaken] at hevents
  exact ⟨first ++ rest, hpath, hevents.symm, hblamed'⟩

/-! ## The theorem -/

/-- What a session has counted agrees with what it has told and with what its machines have
answered. The cases that are not judged have been given up, but for the one under way. -/
theorem counts_agree_with_events (fresh : Nat → μ) (settings : Settings) (screen : σ) (editor : ε)
    (deeds : List (Deed σ)) :
    let s := (initial fresh settings screen editor).after deeds
    let events := (initial fresh settings screen editor).told deeds
    let outcomes := outcomesOf events
    s.tally.started = events.countP Event.isCaseStarted ∧
    s.tally.passed = outcomes.countP Outcome.passed ∧
    s.tally.failed = outcomes.countP (fun o => !o.passed) ∧
    s.tally.faults = outcomes.countP (·.fault.isSome) ∧
    (∃ notes, Path (unloaded fresh settings screen editor) notes s ∧ eventsOf notes = events ∧
      (docketOf notes).judged.map Judged.outcome = outcomes ∧
      (∀ j ∈ (docketOf notes).judged,
        j.outcome.fault = (j.order.bind Order.fault?).map MachineFault.message) ∧
      s.tally.steps = s.tally.moves + (docketOf notes).judged.countP Judged.byStep) ∧
    s.tally.started = s.tally.judged + ((courseOf events).givenUp + s.machine.isSome.toNat) ∧
    s.outcomes = (courseOf events).outcomes ∧
    s.outcomes.map Outcome.index = List.range s.outcomes.length ∧
    (∀ o ∈ s.outcomes.dropLast, o.passed = true) ∧
    (s.phase ≠ .stopped → s.outcomes.length = s.cursor.index) := by
  intro s events outcomes
  obtain ⟨notes, hpath, hevents, hblamed⟩ := blamed_after_initial fresh settings screen editor deeds
  have hcounted : Counted events s := by
    show Counted (told deeds _) s
    rw [← hevents]
    exact counted_of_path hpath
  have htelling : Telling events s := telling_after fresh settings screen editor deeds
  have ho : Orderly s := (reachable_iff_after.mpr ⟨_, _, _, _, deeds, rfl⟩).orderly
  have hjudged : (docketOf notes).judged.map Judged.outcome = outcomes := by
    rw [outcomes_docketOf, hevents]
  have hfaults := hblamed.faults
  have hsteps := hblamed.steps
  rw [hblamed.settled ho] at hfaults hsteps
  refine ⟨hcounted.started, hcounted.passed, hcounted.failed, ?_,
    ⟨notes, hpath, hevents, hjudged, hblamed.judged, hsteps⟩, ?_, hcounted.outcomes,
    hcounted.inOrder, hcounted.butLast, fun hp => (htelling.index hp).symm⟩
  · rw [← hjudged, List.countP_map]
    exact hfaults
  · rw [← Nat.add_assoc]
    exact hcounted.balance

end Machines

/-- A session whose first machine cannot be started, and whose second fails in its first step. -/
def faulty : Session ScriptedMachine HeldScreen EditorSwitch :=
  initial (ScriptedMachine.nth [{ failStart := true }, { faultAt := some 1 }]) {}
    { layout := ⟨0, 0, 1⟩ } { on := true }

/-- Four runs. The third is given up in its first move, and the fourth goes on. -/
def fourRuns : List (Deed HeldScreen) :=
  [.call .play, .call .play, .call .tick, .call .play, .call .tick, .call .stop, .call .play]

theorem counts_agree_with_events_of_four_runs :
    let s := faulty.after fourRuns
    let events := faulty.told fourRuns
    s.phase ≠ .stopped ∧ s.outcomes.length = s.cursor.index ∧
      s.tally.faults = 2 ∧ s.tally.faults = (outcomesOf events).countP (·.fault.isSome) ∧
      s.tally.started = 4 ∧ s.tally.judged = 2 ∧ s.machine.isSome = true ∧
      s.tally.started = s.tally.judged + ((courseOf events).givenUp + s.machine.isSome.toNat) := by
  obtain ⟨-, -, -, hfaults, -, hbalance, -, -, -, hindex⟩ := counts_agree_with_events
    (ScriptedMachine.nth [{ failStart := true }, { faultAt := some 1 }]) {}
    ({ layout := ⟨0, 0, 1⟩ } : HeldScreen) ({ on := true } : EditorSwitch) fourRuns
  have hactive : (faulty.after fourRuns).phase ≠ .stopped := by decide
  exact ⟨hactive, hindex hactive, by decide, hfaults, by decide, by decide, by decide, hbalance⟩

end Session

end Tilewalk
