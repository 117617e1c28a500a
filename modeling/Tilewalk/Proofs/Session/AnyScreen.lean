import Tilewalk.Proofs.Session.Log
import Tilewalk.Proofs.Session.Pending

/-! # The screen does not matter

A run waits for its screen and does nothing else with it. So on any screen it goes as on one without
delay, the ticks left out that find a move under way.
-/

namespace Tilewalk

/-- The settings differ at most in how a run looks and in how long a step is shown. -/
structure Settings.SameButLooks (a b : Settings) : Prop where
  defaultCols : a.run.defaultCols = b.run.defaultCols
  defaultRows : a.run.defaultRows = b.run.defaultRows
  share : a.share = b.share
  initialLevel : a.initialLevel = b.initialLevel

namespace Session

variable {μ σ ε : Type}

/-- Two sessions in the same state, on two screens. The second one never has to wait. -/
structure Alike (s : Session μ σ ε) (t : Session μ InstantScreen ε) : Prop where
  fresh : s.fresh = t.fresh
  settings : s.settings.SameButLooks t.settings
  editor : s.editor = t.editor
  program : s.program = t.program
  title : s.title = t.title
  cases : s.cases = t.cases
  phase : s.phase = t.phase
  cursor : s.cursor = t.cursor
  machine : s.machine = t.machine
  fault : s.fault = t.fault
  tasks : s.tasks = t.tasks
  outcomes : s.outcomes = t.outcomes
  events : s.events = t.events
  tally : s.tally = t.tally
  awaited : s.awaited.isSome = t.awaited.isSome
  settled : ∀ ticket, t.awaited = some ticket → t.stage.ledger.isSettled ticket = true

variable {s : Session μ σ ε} {t : Session μ InstantScreen ε}

theorem Alike.view (h : Alike s t) : s.view = t.view := by
  simp only [Session.view, h.program, h.title, h.cases, h.phase, h.cursor, h.machine, h.outcomes,
    h.events, h.tally]

theorem Alike.isActive (h : Alike s t) : s.phase.isActive = t.phase.isActive := by
  rw [h.phase]

theorem Alike.awaited_none (h : Alike s t) (hs : s.awaited = none) : t.awaited = none := by
  have hsome : t.awaited.isSome = false := by rw [← h.awaited, hs]; rfl
  simpa using hsome

theorem Alike.casesToRun (h : Alike s t) : s.casesToRun = t.casesToRun := by
  simp only [Session.casesToRun, h.cases]

/-! ## What neither a machine nor a screen takes part in -/

theorem Alike.tell (h : Alike s t) (event : Event) : Alike (s.tell event) (t.tell event) :=
  { h with events := by simp only [Session.tell, h.events] }

theorem Alike.enqueue (h : Alike s t) (task : Task) : Alike (s.enqueue task) (t.enqueue task) :=
  { h with tasks := by simp only [Session.enqueue, h.tasks] }

theorem Alike.record (h : Alike s t) (outcome : Outcome) :
    Alike (s.record outcome) (t.record outcome) :=
  { h with
    tally := by simp only [Session.record, Session.tell, h.tally]
    outcomes := by simp only [Session.record, Session.tell, h.outcomes]
    events := by simp only [Session.record, Session.tell, h.events] }

theorem Alike.turnToNext (h : Alike s t) : Alike s.turnToNext t.turnToNext :=
  { h with
    machine := rfl
    cursor := by simp only [Session.turnToNext, h.cursor]
    tasks := by simp only [Session.turnToNext, h.tasks] }

theorem Alike.onMachine (h : Alike s t) (m : μ) (test : Case) :
    Alike (s.onMachine m test) (t.onMachine m test) :=
  { h with
    tally := by simp only [Session.onMachine, h.tally]
    fault := rfl
    cursor := by simp only [Session.onMachine, h.cursor]
    machine := rfl
    events := by simp only [Session.onMachine, h.events, h.cursor] }

theorem Alike.afterStep (h : Alike s t) (m : μ) : Alike (s.afterStep m) (t.afterStep m) :=
  { h with
    machine := rfl
    tally := by simp only [Session.afterStep, h.tally] }

/-- The stage of the first session does not matter, and that of the second may settle more. -/
theorem Alike.act (h : Alike s t) (stage : Stage σ)
    (action : InstantScreen → InstantScreen × List Ticket) :
    Alike { s with stage } { t with stage := t.stage.act action } :=
  { h with settled := fun ticket ht => Stage.isSettled_act (h.settled ticket ht) action }

theorem Alike.onScreen (h : Alike s t) (action : σ → σ × List Ticket) :
    Alike (s.onScreen action) t :=
  { h with }

/-- A call is answered in the same way, and leaves the sessions in the same state. -/
def SameResult {α : Type} (r : Session μ σ ε × α) (r' : Session μ InstantScreen ε × α) : Prop :=
  r.2 = r'.2 ∧ Alike r.1 r'.1

theorem Alike.pause (h : Alike s t) : SameResult s.pause t.pause := by
  unfold Session.pause
  by_cases hp : s.phase = .running
  · have hp' : t.phase = .running := h.phase ▸ hp
    rw [if_pos hp, if_pos hp']
    exact ⟨rfl, { h with phase := rfl }⟩
  · have hp' : ¬ t.phase = .running := h.phase ▸ hp
    rw [if_neg hp, if_neg hp', h.phase]
    exact ⟨rfl, h⟩

theorem Alike.share (h : Alike s t) : s.share = t.share := by
  simp only [Session.share, h.program, h.cases, h.settings.share]

theorem Alike.replaceCases (h : Alike s t) (cases : List Case) :
    SameResult (s.replaceCases cases) (t.replaceCases cases) := by
  unfold Session.replaceCases
  rw [h.isActive]
  split_ifs
  · exact ⟨rfl, h⟩
  · exact ⟨rfl, { h with cases := rfl }⟩

/-! ## Levels and edits -/

section Levels

variable [Screen σ]

theorem Alike.refresh (h : Alike s t) : Alike s.refresh t.refresh := by
  cases hp : s.program with
  | none =>
    have hp' : t.program = none := h.program ▸ hp
    simpa only [Session.refresh, hp, hp'] using h
  | some p =>
    have hp' : t.program = some p := h.program ▸ hp
    rw [refresh_some hp, refresh_some hp']
    exact h.act _ _

theorem Alike.replace (h : Alike s t) (p : Program) :
    Alike { s with program := some p }.refresh { t with program := some p }.refresh := by
  have h' : Alike { s with program := some p } { t with program := some p } :=
    { h with program := rfl }
  exact h'.refresh

theorem Alike.install (h : Alike s t) (content : LevelContent) :
    Alike (s.install content) (t.install content) := by
  cases content with
  | program p => exact (h.replace p).tell _
  | level l =>
    have h' : Alike { s with title := some l.title, cases := l.cases }
        { t with title := some l.title, cases := l.cases } :=
      { h with title := rfl, cases := rfl }
    exact (h'.replace l.program).tell _

theorem Alike.load (h : Alike s t) (text : String) : SameResult (s.load text) (t.load text) := by
  unfold Session.load
  rw [h.isActive, h.phase]
  split_ifs
  · exact ⟨rfl, h⟩
  cases Level.extract text >>= Level.decode with
  | ok content => exact ⟨rfl, h.install content⟩
  | error fault => exact ⟨rfl, h.tell _⟩

theorem Alike.newGrid (h : Alike s t) (cols rows : Nat) :
    SameResult (s.newGrid cols rows) (t.newGrid cols rows) := by
  unfold Session.newGrid
  rw [h.isActive]
  split_ifs
  · exact ⟨rfl, h⟩
  cases Program.blank cols rows with
  | ok p => exact ⟨rfl, h.replace p⟩
  | error fault => exact ⟨rfl, h⟩

theorem Alike.edit {α : Type} (h : Alike s t) (f : Program → Program × Except EditFault α) :
    SameResult (s.edit f) (t.edit f) := by
  unfold Session.edit
  rw [h.isActive]
  split_ifs
  · exact ⟨rfl, h⟩
  cases hp : s.program with
  | none =>
    rw [← h.program, hp]
    exact ⟨rfl, h⟩
  | some p =>
    rw [← h.program, hp]
    dsimp only
    cases f p with
    | mk q result =>
      cases result with
      | ok a => exact ⟨rfl, h.replace q⟩
      | error fault => exact ⟨rfl, { h with program := rfl }⟩

theorem Alike.loadInitial (h : Alike s t) : Alike s.loadInitial t.loadInitial := by
  unfold Session.loadInitial
  rw [h.settings.initialLevel]
  cases t.settings.initialLevel with
  | none => exact h
  | some text => exact (h.load text).2

theorem Alike.orBlank (h : Alike s t) : Alike s.orBlank t.orBlank := by
  unfold Session.orBlank
  rw [h.settings.defaultCols, h.settings.defaultRows, h.program]
  split
  · exact h.replace _
  · exact h

end Levels

/-! ## The token -/

section Token

variable [Machine μ] [Screen σ]

theorem Alike.showToken (h : Alike s t) (m : μ) : Alike (s.showToken m) (t.showToken m) :=
  h.act _ _

theorem Alike.moveToken (h : Alike s t) (m : μ) : Alike (s.moveToken m) (t.moveToken m) :=
  { h with
    tally := by simp only [Session.moveToken, h.tally]
    awaited := rfl
    settled := by
      rintro ticket ⟨⟩
      exact Stage.isSettled_glide .. }

end Token

/-! ## The end of a case -/

variable [Editor ε]

theorem Alike.close (h : Alike s t) : Alike s.close t.close :=
  { h with
    phase := rfl
    machine := rfl
    fault := rfl
    tasks := rfl
    awaited := rfl
    cursor := rfl
    editor := by simp only [Session.close, h.editor]
    settled := by simp [Session.close] }

theorem Alike.openRun (h : Alike s t) : Alike s.openRun t.openRun :=
  { h with
    editor := by simp only [Session.openRun, h.editor]
    cases := h.casesToRun
    outcomes := rfl
    phase := rfl
    events := by simp only [Session.openRun, h.events, h.casesToRun] }

theorem Alike.conclude (h : Alike s t) (passed : Bool) :
    Alike (s.conclude passed) (t.conclude passed) := by
  by_cases hnext : passed = true ∧ s.cursor.index + 1 < s.cases.length
  · rw [conclude_next hnext.1 hnext.2]
    rw [h.cursor, h.cases] at hnext
    rw [conclude_next hnext.1 hnext.2]
    exact h.turnToNext
  · rw [conclude_last hnext]
    rw [h.cursor, h.cases] at hnext
    rw [conclude_last hnext, h.outcomes]
    exact (h.tell _).close

variable [Machine μ]

omit [Editor ε] in
theorem Alike.outcomeOf (h : Alike s t) (m : μ) (test : Case) :
    s.outcomeOf m test = t.outcomeOf m test := by
  simp only [Session.outcomeOf, h.fault, h.cursor]

theorem Alike.proceed (h : Alike s t) : Alike s.proceed t.proceed := by
  cases hm : s.machine with
  | none =>
    rw [proceed_nothing (.inl hm), proceed_nothing (.inl (h.machine ▸ hm))]
    exact h
  | some m =>
    cases ht : s.cursor.test with
    | none =>
      rw [proceed_nothing (.inr ht), proceed_nothing (.inr (h.cursor ▸ ht))]
      exact h
    | some test =>
      have hm' : t.machine = some m := h.machine ▸ hm
      have ht' : t.cursor.test = some test := h.cursor ▸ ht
      by_cases hended : s.HasEnded m
      · have hended' : t.HasEnded m := by simpa only [HasEnded, h.fault] using hended
        rw [proceed_judged hm ht hended, proceed_judged hm' ht' hended', h.outcomeOf]
        exact (h.record _).conclude _
      · have hended' : ¬ t.HasEnded m := by simpa only [HasEnded, h.fault] using hended
        rw [proceed_more hm ht hended, proceed_more hm' ht' hended']
        exact h.enqueue .step

theorem Alike.breakOff (h : Alike s t) (fault : MachineFault) :
    Alike (s.breakOff fault) (t.breakOff fault) :=
  Alike.proceed { h with fault := rfl, tally := by simp only [h.tally] }

/-! ## Ticks -/

variable [Screen σ]

theorem Alike.beginCase (h : Alike s t) : Alike s.beginCase t.beginCase := by
  cases hp : s.program with
  | none =>
    rw [beginCase_nothing (.inl hp), beginCase_nothing (.inl (h.program ▸ hp))]
    exact h.close
  | some p =>
    cases ht : s.cases[s.cursor.index]? with
    | none =>
      rw [beginCase_nothing (.inr ht), beginCase_nothing (.inr (by rw [← h.cases, ← h.cursor, ht]))]
      exact h.close
    | some test =>
      have hp' : t.program = some p := h.program ▸ hp
      have ht' : t.cases[t.cursor.index]? = some test := by rw [← h.cases, ← h.cursor, ht]
      rcases hl : launch (s.fresh s.tally.started) p test with ⟨m, ⟨fault⟩ | ⟨⟨⟩⟩⟩
      · have hl' : launch (t.fresh t.tally.started) p test = (m, .error fault) := by
          rw [← h.fresh, ← h.tally, hl]
        rw [beginCase_failed hp ht hl, beginCase_failed hp' ht' hl']
        exact (h.onMachine m test).breakOff fault
      · have hl' : launch (t.fresh t.tally.started) p test = (m, .ok ()) := by
          rw [← h.fresh, ← h.tally, hl]
        rw [beginCase_started hp ht hl, beginCase_started hp' ht' hl']
        exact ((h.onMachine m test).showToken m).enqueue .step

theorem Alike.takeStep (h : Alike s t) : Alike s.takeStep t.takeStep := by
  cases hm : s.machine with
  | none =>
    rw [takeStep_nothing hm, takeStep_nothing (h.machine ▸ hm)]
    exact h
  | some m =>
    have hm' : t.machine = some m := h.machine ▸ hm
    rcases hs : Machine.step m with ⟨m', ⟨fault⟩ | ⟨⟨⟩⟩⟩
    · rw [takeStep_failed hm hs, takeStep_failed hm' hs]
      exact ((h.showToken m).afterStep m').breakOff fault
    · rw [takeStep_moved hm hs, takeStep_moved hm' hs]
      exact ((h.showToken m).afterStep m').moveToken m'

/-- Whatever the first session waits for, the second one does not, so it goes on when the first
does. -/
theorem Alike.tick (h : Alike s t) (ho : Orderly s) (hw : s.tick.2 ≠ .waiting) :
    SameResult s.tick t.tick := by
  have htick := ho.tickOf
  generalize s.tick = r at htick hw ⊢
  cases htick with
  | waiting => exact absurd rfl hw
  | idle rest =>
    rw [tick_idle (h.awaited_none rest.awaited) (h.tasks ▸ rest.tasks)]
    exact ⟨rfl, h⟩
  | parked paused awaited tasks =>
    rw [tick_parked (h.awaited_none awaited) (h.tasks ▸ tasks) (h.phase ▸ paused)]
    exact ⟨rfl, h⟩
  | moved ticket awaited =>
    -- The second session waits for a ticket of its own, which was settled when it was issued.
    obtain ⟨ticket', awaited'⟩ : ∃ ticket', t.awaited = some ticket' := by
      rw [← Option.isSome_iff_exists, ← h.awaited, awaited]
      rfl
    rw [tick_settled awaited' (h.settled ticket' awaited')]
    exact ⟨rfl, Alike.proceed { h with awaited := rfl, settled := by simp }⟩
  | stepped running tasks midway =>
    rw [tick_step (h.awaited_none midway.awaited) (h.tasks ▸ tasks) (h.phase ▸ running)]
    exact ⟨rfl, Alike.takeStep { h with tasks := rfl }⟩
  | begun active awaited tasks =>
    rw [tick_nextCase (h.awaited_none awaited) (h.tasks ▸ tasks) (h.phase ▸ active)]
    exact ⟨rfl, Alike.beginCase { h with tasks := rfl }⟩

/-! ## Calls -/

theorem Alike.play (h : Alike s t) : SameResult s.play t.play := by
  cases hp : s.phase with
  | running =>
    have hp' : t.phase = .running := h.phase ▸ hp
    simp only [Session.play, hp, hp']
    exact ⟨rfl, h⟩
  | paused =>
    have hp' : t.phase = .paused := h.phase ▸ hp
    simp only [Session.play, hp, hp']
    exact ⟨rfl, { h with phase := rfl }⟩
  | stopped =>
    have hp' : t.phase = .stopped := h.phase ▸ hp
    by_cases hprogram : s.program = none
    · rw [play_without_program hp hprogram, play_without_program hp' (h.program ▸ hprogram)]
      exact ⟨rfl, h⟩
    · rw [play_stopped hp hprogram, play_stopped hp' (h.program ▸ hprogram)]
      exact ⟨rfl, h.openRun.beginCase⟩

theorem Alike.run (h : Alike s t) (ho : Orderly s) (c : Call) {before after : View μ}
    (hw : Entry.isWait ⟨c, (c.run s).2, before, after⟩ = false) :
    SameResult (c.run s) (c.run t) := by
  cases c with
  | play => exact h.play
  | pause => exact h.pause
  | stop => exact ⟨rfl, h.close.tell _⟩
  | tick =>
    refine h.tick ho fun hwaiting => ?_
    exact Bool.false_ne_true (hw.symm.trans (Tick.isWaiting_iff.mpr hwaiting))
  | load text => exact h.load text
  | share => exact ⟨h.share, h⟩
  | newGrid cols rows => exact h.newGrid cols rows
  | edit f => exact h.edit f
  | replaceCases cases => exact h.replaceCases cases
  | takeEvents => exact ⟨h.events, { h with events := rfl }⟩

theorem run_of_isWait (ho : Orderly s) {c : Call} {before after : View μ}
    (hw : Entry.isWait ⟨c, (c.run s).2, before, after⟩ = true) : (c.run s).1 = s := by
  cases c with
  | tick => exact ho.tick_of_waiting (Tick.isWaiting_iff.mp hw)
  | play | pause | stop | load | share | newGrid | edit | replaceCases | takeEvents =>
    exact Bool.noConfusion hw

/-! ## The log -/

/-- The log without the ticks that wait is the log of the same calls on the second session. -/
theorem Alike.log (deeds : List (Deed σ)) {s : Session μ σ ε} {t : Session μ InstantScreen ε}
    (h : Alike s t) (ho : Orderly s) :
    let kept := (s.log deeds).filter (!·.isWait)
    t.log (kept.map fun e => .call e.call) = kept := by
  induction deeds generalizing s t with
  | nil => rfl
  | cons deed deeds ih =>
    cases deed with
    | screen action => exact ih (h.onScreen action) (orderly_onScreen ho action)
    | call c =>
      by_cases hw : Entry.isWait ⟨c, (c.run s).2, s.view, (c.run s).1.view⟩ = true
      · simp only [Session.log, List.filter_cons, hw, Bool.not_true, Bool.false_eq_true, if_false]
        rw [run_of_isWait ho hw]
        exact ih h ho
      · have hw : Entry.isWait ⟨c, (c.run s).2, s.view, (c.run s).1.view⟩ = false := by
          simpa using hw
        obtain ⟨hreply, h'⟩ := h.run ho c hw
        have htail := ih h' (orderly_call ho c)
        simp only [Session.log, List.filter_cons, hw, Bool.not_false, if_true, List.map_cons,
          List.cons.injEq]
        refine ⟨?_, htail⟩
        rw [hreply, h.view, h'.view]

theorem unchanged_of_isWait (deeds : List (Deed σ)) {s : Session μ σ ε} (ho : Orderly s) :
    ∀ e ∈ s.log deeds, e.isWait = true → e.after = e.before := by
  induction deeds generalizing s with
  | nil => simp [Session.log]
  | cons deed deeds ih =>
    cases deed with
    | screen action => exact ih (orderly_onScreen ho action)
    | call c =>
      intro e he hwait
      rcases List.mem_cons.mp he with rfl | he
      · exact congrArg view (run_of_isWait ho hwait)
      · exact ih (orderly_call ho c) e he hwait

/-! ## The theorem -/

omit [Machine μ] in
theorem alike_initial (fresh : Nat → μ) {settings plain : Settings}
    (h : settings.SameButLooks plain) (screen : σ) (instant : InstantScreen) (editor : ε) :
    Alike (initial fresh settings screen editor) (initial fresh plain instant editor) := by
  apply Alike.orBlank
  apply Alike.loadInitial
  exact ⟨rfl, h, rfl, rfl, rfl, rfl, rfl, rfl, rfl, rfl, rfl, rfl, rfl, rfl, rfl, by simp⟩

/-- Without its ticks that wait, what a session is called to do goes on a screen without delay, and
with other looks, as it went: every call is answered in the same way, and the session shows the
same before and after it. The ticks that wait change nothing of what it shows. -/
theorem screen_never_matters (fresh : Nat → μ) {settings plain : Settings}
    (h : settings.SameButLooks plain) (screen : σ) (instant : InstantScreen) (editor : ε)
    (deeds : List (Deed σ)) :
    let s := initial fresh settings screen editor
    let t := initial fresh plain instant editor
    let kept := (s.log deeds).filter (!·.isWait)
    s.view = t.view ∧ t.log (kept.map fun e => .call e.call) = kept ∧
      ∀ e ∈ s.log deeds, e.isWait = true → e.after = e.before := by
  have halike := alike_initial fresh h screen instant editor
  have ho := (Reachable.initial fresh settings screen editor).orderly
  exact ⟨halike.view, halike.log deeds ho, unchanged_of_isWait deeds ho⟩

/-- A run of one step. Its second tick finds the move under way, and its third finds it over. -/
def heldRun : List (Deed HeldScreen) :=
  [.call .play, .call .tick, .call .tick, .screen HeldScreen.releaseAll, .call .tick]

theorem screen_never_matters_while_held :
    let slow : Settings := { run := { stepMillis := 900 } }
    let s : Session ScriptedMachine HeldScreen EditorSwitch :=
      initial (ScriptedMachine.nth []) slow { layout := ⟨0, 0, 1⟩ } { on := true }
    let t : Session ScriptedMachine InstantScreen EditorSwitch :=
      initial (ScriptedMachine.nth []) {} { layout := ⟨0, 0, 1⟩ } { on := true }
    let kept := (s.log heldRun).filter (!·.isWait)
    (s.log heldRun).map Entry.isWait = [false, false, true, false] ∧
      t.log (kept.map fun e => .call e.call) = kept := by
  intro slow s t kept
  have hlooks : slow.SameButLooks {} := ⟨rfl, rfl, rfl, rfl⟩
  obtain ⟨-, hlog, -⟩ := screen_never_matters (ScriptedMachine.nth []) hlooks
    { layout := ⟨0, 0, 1⟩ } { layout := ⟨0, 0, 1⟩ } { on := true : EditorSwitch } heldRun
  exact ⟨by decide, hlog⟩

end Session

end Tilewalk
