import Tilewalk.Proofs.Session.Changes

/-! # Pausing changes nothing

A pause holds back the next step and nothing else. So whatever is done to a session, it comes to the
same when the pauses are left out.
-/

namespace Tilewalk

def Phase.unpaused : Phase → Phase
  | .paused => .running
  | phase => phase

theorem Phase.unpaused_of_ne {phase : Phase} (h : phase ≠ .paused) : phase.unpaused = phase := by
  cases phase with
  | paused => exact absurd rfl h
  | stopped | running => rfl

namespace Session

variable {μ σ ε : Type}

def unpaused (s : Session μ σ ε) : Session μ σ ε := { s with phase := s.phase.unpaused }

theorem unpaused_of_ne {s : Session μ σ ε} (h : s.phase ≠ .paused) : s.unpaused = s := by
  unfold unpaused
  rw [Phase.unpaused_of_ne h]

/-! ## A run goes on alike -/

section Runs

variable [Editor ε]

theorem conclude_unpaused (s : Session μ σ ε) (passed : Bool) :
    s.unpaused.conclude passed = (s.conclude passed).unpaused := by
  by_cases h : passed = true ∧ s.cursor.index + 1 < s.cases.length
  · rw [conclude_next h.1 h.2, conclude_next (s := s.unpaused) h.1 h.2]
    rfl
  · rw [conclude_last h, conclude_last (s := s.unpaused) h]
    rfl

theorem tally_conclude (s : Session μ σ ε) (passed : Bool) :
    (s.conclude passed).tally = s.tally := by
  unfold conclude
  dsimp only
  split_ifs <;> rfl

variable [Machine μ]

theorem proceed_unpaused (s : Session μ σ ε) : s.unpaused.proceed = s.proceed.unpaused := by
  cases hm : s.machine with
  | none => rw [proceed_nothing (.inl hm), proceed_nothing (s := s.unpaused) (.inl hm)]
  | some m =>
    cases ht : s.cursor.test with
    | none => rw [proceed_nothing (.inr ht), proceed_nothing (s := s.unpaused) (.inr ht)]
    | some test =>
      by_cases h : s.HasEnded m
      · rw [proceed_judged hm ht h, proceed_judged (s := s.unpaused) hm ht h, ← conclude_unpaused]
        rfl
      · rw [proceed_more hm ht h, proceed_more (s := s.unpaused) hm ht h]
        rfl

theorem breakOff_unpaused (s : Session μ σ ε) (fault : MachineFault) :
    s.unpaused.breakOff fault = (s.breakOff fault).unpaused :=
  proceed_unpaused (s.failed fault)

variable [Screen σ]

theorem beginCase_unpaused (s : Session μ σ ε) : s.unpaused.beginCase = s.beginCase.unpaused := by
  cases hp : s.program with
  | none =>
    rw [beginCase_nothing (.inl hp), beginCase_nothing (s := s.unpaused) (.inl hp)]
    rfl
  | some p =>
    cases ht : s.cases[s.cursor.index]? with
    | none =>
      rw [beginCase_nothing (.inr ht), beginCase_nothing (s := s.unpaused) (.inr ht)]
      rfl
    | some test =>
      rcases hl : launch (s.fresh s.tally.started) p test with ⟨m, ⟨fault⟩ | ⟨⟨⟩⟩⟩
      · rw [beginCase_failed hp ht hl, beginCase_failed (s := s.unpaused) hp ht hl,
          ← breakOff_unpaused]
        rfl
      · rw [beginCase_started hp ht hl, beginCase_started (s := s.unpaused) hp ht hl]
        rfl

theorem takeStep_unpaused (s : Session μ σ ε) : s.unpaused.takeStep = s.takeStep.unpaused := by
  cases hm : s.machine with
  | none => rw [takeStep_nothing hm, takeStep_nothing (s := s.unpaused) hm]
  | some m =>
    rcases hs : Machine.step m with ⟨m', ⟨fault⟩ | ⟨⟨⟩⟩⟩
    · rw [takeStep_failed hm hs, takeStep_failed (s := s.unpaused) hm hs, ← breakOff_unpaused]
      rfl
    · rw [takeStep_moved hm hs, takeStep_moved (s := s.unpaused) hm hs]
      rfl

/-- A tick does the same without the pause, unless the pause holds it back. -/
theorem tick_unpaused {s : Session μ σ ε} (h : s.tick.2 ≠ .parked) :
    s.unpaused.tick.1 = s.tick.1.unpaused := by
  have hphase : s.unpaused.phase = s.phase.unpaused := rfl
  cases hawaited : s.awaited with
  | some t =>
    cases hsettled : s.stage.ledger.isSettled t with
    | false => rw [tick_waiting hawaited hsettled, tick_waiting (s := s.unpaused) hawaited hsettled]
    | true =>
      rw [tick_settled hawaited hsettled, tick_settled (s := s.unpaused) hawaited hsettled]
      exact proceed_unpaused { s with awaited := none }
  | none =>
    rcases htasks : s.tasks with _ | ⟨task, tasks⟩
    · rw [tick_idle hawaited htasks, tick_idle (s := s.unpaused) hawaited htasks]
    -- Only a step minds the phase, and only when the run is paused.
    by_cases hp : s.phase = .stopped
    · rw [tick_stale hawaited htasks hp, unpaused_of_ne (by simp [hp]),
        tick_stale hawaited htasks hp, unpaused_of_ne (by simp [hp])]
    cases task with
    | nextCase =>
      have hactive : s.unpaused.phase ≠ .stopped := by
        rw [hphase]
        cases h : s.phase with
        | stopped => exact absurd h hp
        | running | paused => simp [Phase.unpaused]
      rw [tick_nextCase hawaited htasks hp, tick_nextCase (s := s.unpaused) hawaited htasks hactive]
      exact beginCase_unpaused { s with tasks }
    | step =>
      cases hp' : s.phase with
      | stopped => exact absurd hp' hp
      | paused =>
        rw [tick_parked hawaited htasks hp'] at h
        exact absurd rfl h
      | running =>
        rw [tick_step hawaited htasks hp',
          tick_step (s := s.unpaused) hawaited htasks (by rw [hphase, hp']; rfl)]
        exact takeStep_unpaused { s with tasks }

end Runs

/-! ## What is done between two runs -/

theorem unpaused_between {f : Session μ σ ε → Session μ σ ε}
    (hactive : ∀ s, s.phase.isActive = true → f s = s) (hphase : ∀ s, (f s).phase = s.phase)
    (s : Session μ σ ε) : f s.unpaused = (f s).unpaused := by
  cases hp : s.phase with
  | stopped =>
    rw [unpaused_of_ne (by simp [hp]), unpaused_of_ne (by simp [hphase, hp])]
  | running =>
    rw [unpaused_of_ne (by simp [hp]), unpaused_of_ne (by simp [hphase, hp])]
  | paused =>
    rw [hactive s (by rw [hp]; rfl), hactive s.unpaused (by rw [unpaused, hp]; rfl)]

theorem phase_replaceCases (s : Session μ σ ε) (cases : List Case) :
    (s.replaceCases cases).1.phase = s.phase := by
  unfold replaceCases
  split_ifs <;> rfl

section Levels

variable [Screen σ]

theorem phase_load (s : Session μ σ ε) (text : String) : (s.load text).1.phase = s.phase := by
  unfold load
  split_ifs
  · rfl
  rcases Level.extract text >>= Level.decode with fault | ⟨l | p⟩
  · rfl
  · simp only [install]
    rw [refresh_eq]
    rfl
  · simp only [install]
    rw [refresh_eq]
    rfl

theorem phase_newGrid (s : Session μ σ ε) (cols rows : Nat) :
    (s.newGrid cols rows).1.phase = s.phase := by
  unfold newGrid
  split_ifs
  · rfl
  cases Program.blank cols rows with
  | error fault => rfl
  | ok p =>
    simp only
    rw [refresh_eq]

theorem phase_edit {α : Type} (s : Session μ σ ε) (f : Program → Program × Except EditFault α) :
    (s.edit f).1.phase = s.phase := by
  unfold edit
  split_ifs
  · rfl
  cases s.program with
  | none => rfl
  | some p =>
    rcases hf : f p with ⟨q, ⟨fault⟩ | ⟨a⟩⟩
    · simp only [hf]
    · simp only [hf]
      rw [refresh_eq]

end Levels

end Session

/-! ## Leaving the pauses out -/

/-- A deed that only pauses the run, goes on with it, or is held back by the pause. -/
def Deed.isPausing {μ σ ε : Type} [Machine μ] [Screen σ] [Editor ε] :
    Deed σ → Session μ σ ε → Bool
  | .call .pause, _ => true
  | .call .play, s => s.phase.isActive
  | .call .tick, s => s.tick.2 = .parked
  | _, _ => false

namespace Session

variable [Machine μ] [Screen σ] [Editor ε]

def withoutPauses : List (Deed σ) → Session μ σ ε → List (Deed σ)
  | [], _ => []
  | deed :: deeds, s =>
    if deed.isPausing s then withoutPauses deeds (deed.run s)
    else deed :: withoutPauses deeds (deed.run s)

theorem tick_of_parked {s : Session μ σ ε} (h : s.tick.2 = .parked) : s.tick.1 = s := by
  unfold tick at h ⊢
  grind

theorem run_of_isPausing {s : Session μ σ ε} {deed : Deed σ} (h : deed.isPausing s = true) :
    (deed.run s).unpaused = s.unpaused ∧ deed.handed s = [] := by
  match deed, h with
  | .call .pause, _ =>
    refine ⟨?_, rfl⟩
    simp only [Deed.run, Call.run, pause]
    split_ifs with hp
    · rw [unpaused, unpaused, hp]
      rfl
    · rfl
  | .call .play, h =>
    refine ⟨?_, rfl⟩
    simp only [Deed.run, Call.run, play]
    cases hp : s.phase with
    | stopped => simp [Deed.isPausing, hp, Phase.isActive] at h
    | running => rfl
    | paused => simp [unpaused, hp, Phase.unpaused]
  | .call .tick, h =>
    refine ⟨?_, rfl⟩
    simp only [Deed.run, Call.run]
    rw [tick_of_parked (by simpa [Deed.isPausing] using h)]

theorem run_unpaused {s : Session μ σ ε} {deed : Deed σ} (h : deed.isPausing s = false) :
    deed.run s.unpaused = (deed.run s).unpaused := by
  match deed, h with
  | .screen action, _ => rfl
  | .call .play, h =>
    have hp : s.phase = .stopped := by
      cases hp : s.phase with
      | stopped => rfl
      | running | paused => simp [Deed.isPausing, hp, Phase.isActive] at h
    have hplay : s.play.1.unpaused = s.play.1 := by
      by_cases hprogram : s.program = none
      · rw [play_without_program hp hprogram]
        exact unpaused_of_ne (by simp [hp])
      · rw [play_stopped hp hprogram]
        exact (beginCase_unpaused s.openRun).symm
    rw [unpaused_of_ne (by simp [hp])]
    exact hplay.symm
  | .call .stop, _ => rfl
  | .call .tick, h => exact tick_unpaused (by simpa [Deed.isPausing] using h)
  | .call (.load text), _ =>
    exact unpaused_between (fun s hs => by simp [load, hs]) (phase_load · text) s
  | .call .share, _ => rfl
  | .call (.newGrid cols rows), _ =>
    exact unpaused_between (fun s hs => by simp [newGrid, hs]) (phase_newGrid · cols rows) s
  | .call (.edit f), _ =>
    exact unpaused_between (fun s hs => by simp [edit, hs]) (phase_edit · f) s
  | .call (.replaceCases cases), _ =>
    exact unpaused_between (fun s hs => by simp [replaceCases, hs]) (phase_replaceCases · cases) s
  | .call .takeEvents, _ => rfl

omit [Machine μ] [Screen σ] [Editor ε] in
theorem handed_unpaused (s : Session μ σ ε) (deed : Deed σ) :
    deed.handed s.unpaused = deed.handed s := by
  match deed with
  | .call .takeEvents => rfl
  | .screen _ | .call .play | .call .pause | .call .stop | .call .tick | .call (.load _) |
    .call .share | .call (.newGrid ..) | .call (.edit _) | .call (.replaceCases _) => rfl

/-- Without the pauses, the deeds lead to the same session but for the pause, and hand over the same
events. -/
theorem after_withoutPauses (deeds : List (Deed σ)) (s : Session μ σ ε) :
    s.unpaused.after (s.withoutPauses deeds) = (s.after deeds).unpaused ∧
      s.unpaused.handed (s.withoutPauses deeds) = s.handed deeds := by
  induction deeds generalizing s with
  | nil => exact ⟨rfl, rfl⟩
  | cons deed deeds ih =>
    obtain ⟨hafter, hhanded⟩ := ih (deed.run s)
    rw [after_cons, handed, withoutPauses]
    split_ifs with hpausing
    · obtain ⟨hsame, hnone⟩ := run_of_isPausing hpausing
      rw [← hsame, hafter, hhanded, hnone]
      exact ⟨rfl, rfl⟩
    · have hrun := run_unpaused (eq_false_of_ne_true hpausing)
      rw [after_cons, handed, hrun, hafter, hhanded]
      exact ⟨rfl, congrArg (· ++ _) (handed_unpaused s deed)⟩

/-! ## Ticks in a pause -/

omit [Screen σ] in
theorem counts_proceed (s : Session μ σ ε) :
    s.proceed.tally.steps = s.tally.steps ∧ s.proceed.tally.moves = s.tally.moves := by
  unfold proceed
  split
  · split_ifs
    · exact ⟨rfl, rfl⟩
    · dsimp only
      rw [tally_conclude]
      unfold record Tally.addVerdict
      split_ifs <;> exact ⟨rfl, rfl⟩
  · exact ⟨rfl, rfl⟩

theorem counts_beginCase (s : Session μ σ ε) :
    s.beginCase.tally.steps = s.tally.steps ∧ s.beginCase.tally.moves = s.tally.moves := by
  unfold beginCase
  split
  · dsimp only
    split
    · exact ⟨rfl, rfl⟩
    · unfold breakOff
      exact counts_proceed _
  · exact ⟨rfl, rfl⟩

theorem counts_of_paused {s : Session μ σ ε} (hp : s.phase = .paused) :
    s.tick.1.tally.steps = s.tally.steps ∧ s.tick.1.tally.moves = s.tally.moves := by
  cases hawaited : s.awaited with
  | some t =>
    cases hsettled : s.stage.ledger.isSettled t with
    | false =>
      rw [tick_waiting hawaited hsettled]
      exact ⟨rfl, rfl⟩
    | true =>
      rw [tick_settled hawaited hsettled]
      exact counts_proceed { s with awaited := none }
  | none =>
    rcases htasks : s.tasks with _ | ⟨task, tasks⟩
    · rw [tick_idle hawaited htasks]
      exact ⟨rfl, rfl⟩
    cases task with
    | step =>
      rw [tick_parked hawaited htasks hp]
      exact ⟨rfl, rfl⟩
    | nextCase =>
      rw [tick_nextCase hawaited htasks (by simp [hp])]
      exact counts_beginCase { s with tasks }

/-- The run is over, or it has come to the next step or to the next case. -/
structure GoneOn (s t : Session μ σ ε) : Prop where
  phase : t.phase = s.phase
  cases : t.cases = s.cases
  on : t.tasks = [.step] ∨ t.cursor.index = s.cursor.index + 1

omit [Screen σ] in
theorem proceed_goneOn {s : Session μ σ ε} (h : Midway s) :
    s.proceed.phase = .stopped ∨ GoneOn s s.proceed := by
  obtain ⟨m, hm⟩ := Option.isSome_iff_exists.mp h.onCase.1
  obtain ⟨test, ht⟩ := h.onCourse.test
  have htest : s.cursor.test = some test := h.onCase.2.trans ht
  by_cases hended : s.HasEnded m
  · rw [proceed_judged hm htest hended]
    by_cases hnext : (s.outcomeOf m test).passed = true ∧ s.cursor.index + 1 < s.cases.length
    · rw [conclude_next (s := s.record _) hnext.1 hnext.2]
      exact .inr ⟨rfl, rfl, .inr rfl⟩
    · rw [conclude_last (s := s.record _) hnext]
      exact .inl rfl
  · rw [proceed_more hm htest hended]
    exact .inr ⟨rfl, rfl, .inl (by simp [enqueue, h.tasks])⟩

theorem beginCase_goneOn {s : Session μ σ ε} (hc : OnCourse s) (hp : s.phase ≠ .stopped)
    (htasks : s.tasks = []) (hawaited : s.awaited = none) :
    s.beginCase.phase = .stopped ∨ GoneOn s s.beginCase := by
  obtain ⟨p, hprogram⟩ := Option.isSome_iff_exists.mp hc.1
  obtain ⟨test, ht⟩ := hc.test
  rcases hl : launch (s.fresh s.tally.started) p test with ⟨m, ⟨fault⟩ | ⟨⟨⟩⟩⟩
  · rw [beginCase_failed hprogram ht hl]
    have hmidway : Midway ((s.onMachine m test).failed fault) :=
      ⟨hp, htasks, hawaited, hc, rfl, ht.symm⟩
    obtain hstopped | hgone := proceed_goneOn hmidway
    · exact .inl hstopped
    · exact .inr ⟨hgone.phase, hgone.cases, hgone.on⟩
  · rw [beginCase_started hprogram ht hl]
    exact .inr ⟨rfl, rfl, .inl (by simp [enqueue, showToken, onMachine, htasks])⟩

theorem tick_goneOn {s : Session μ σ ε} (h : Orderly s) (hp : s.phase = .paused)
    (hran : s.tick.2 = .ran) : s.tick.1.phase = .stopped ∨ GoneOn s s.tick.1 := by
  have htick := h.tickOf
  generalize s.tick = r at htick hran ⊢
  cases htick with
  | idle | waiting | parked => cases hran
  | moved t awaited settled midway =>
    obtain hstopped | hgone := proceed_goneOn midway
    · exact .inl hstopped
    · exact .inr ⟨hgone.phase, hgone.cases, hgone.on⟩
  | stepped running => rw [hp] at running; cases running
  | begun active awaited tasks course =>
    have hbegin := beginCase_goneOn (s := { s with tasks := [] }) course active rfl awaited
    obtain hstopped | hgone := hbegin
    · exact .inl hstopped
    · exact .inr ⟨hgone.phase, hgone.cases, hgone.on⟩

theorem Orderly.tick_in_pause {s : Session μ σ ε} (h : Orderly s) (hp : s.phase = .paused)
    (htasks : s.tasks = [.step]) : s.tick = (s, .parked) := by
  cases h.oneThing (by simp [hp]) with
  | move _ _ _ hnone => simp [htasks] at hnone
  | step hawaited => exact tick_parked hawaited htasks hp
  | nextCase _ hnext => simp [htasks] at hnext

/-- In a pause the run comes to rest after a tick for each case that is left. -/
theorem rests_in_pause (n : Nat) {s : Session μ σ ε} (h : Orderly s) (hp : s.phase = .paused)
    (hn : s.cases.length ≤ s.cursor.index + n) : (s.tickAtMost (n + 1)).2 ≠ .ran := by
  induction n generalizing s with
  | zero =>
    have hcourse := (h.onCourse (by simp [hp])).2
    omega
  | succ n ih =>
    rw [tickAtMost_succ]
    by_cases hran : s.tick.2 ≠ .ran
    · rwa [if_neg hran]
    -- What is left is at rest, or before a step that is held back, or one case further.
    rw [ne_eq, Decidable.not_not] at hran
    rw [if_pos hran]
    have hnext := orderly_tick h
    obtain hstopped | hgone := tick_goneOn h hp hran
    · have hrest := hnext.atRest hstopped
      rw [tickAtMost_succ, tick_idle hrest.awaited hrest.tasks]
      simp
    · rcases hgone.on with htasks | hindex
      · have hparked := hnext.tick_in_pause (hgone.phase.trans hp) htasks
        rw [tickAtMost_succ, hparked]
        simp
      · refine ih hnext (hgone.phase.trans hp) ?_
        rw [hgone.cases, hindex]
        omega

/-! ## The theorem -/

/-- In a pause no machine takes a step. Whatever is done to a session without a run, what comes of
it and what is told is the same without the pauses. And in a pause the run comes to rest soon, even
when its machine never halts. -/
theorem pausing_is_transparent :
    (∀ s : Session μ σ ε, s.phase = .paused →
      s.tick.1.tally.steps = s.tally.steps ∧ s.tick.1.tally.moves = s.tally.moves ∧
      (Reachable s → ∃ notes, Path s notes s.tick.1 ∧ notes.countP Note.isStep = 0)) ∧
    (∀ (s : Session μ σ ε) (deeds : List (Deed σ)), s.phase = .stopped →
      s.after (s.withoutPauses deeds) = (s.after deeds).unpaused ∧
      s.told (s.withoutPauses deeds) = s.told deeds) ∧
    ∀ s : Session μ σ ε, Reachable s → s.phase = .paused →
      (s.tickAtMost (s.cases.length + 1)).2 ≠ .ran := by
  refine ⟨fun s hp => ?_, fun s deeds hp => ?_, fun s hs hp => ?_⟩
  · obtain ⟨hsteps, hmoves⟩ := counts_of_paused hp
    refine ⟨hsteps, hmoves, fun hs => ?_⟩
    obtain ⟨notes, hpath, -⟩ := leads_tick hs.orderly
    have hcount := hpath.steps
    exact ⟨notes, hpath, by omega⟩
  · obtain ⟨hafter, hhanded⟩ := after_withoutPauses deeds s
    rw [unpaused_of_ne (by simp [hp])] at hafter hhanded
    refine ⟨hafter, ?_⟩
    rw [told, told, hafter, hhanded]
    rfl
  · exact rests_in_pause s.cases.length hs.orderly hp (Nat.le_add_left ..)

theorem pausing_is_transparent_before_a_step :
    let paused := sample.after [.call .play, .call .pause]
    paused.tick.1.tally.steps = 0 ∧ (paused.tickAtMost (paused.cases.length + 1)).2 ≠ .ran ∧
      sample.after [.call .play, .call .tick] =
        (sample.after
          [.call .play, .call .pause, .call .tick, .call .play, .call .tick]).unpaused := by
  intro paused
  have hs : Reachable paused := .call .pause (.call .play (.initial ..))
  have hp : paused.phase = .paused := by decide
  obtain ⟨hheld, hsame, hrests⟩ :=
    @pausing_is_transparent ScriptedMachine HeldScreen EditorSwitch _ _ _
  have hnone : paused.tally.steps = 0 := by decide
  have hdeeds := hsame sample
    [.call .play, .call .pause, .call .tick, .call .play, .call .tick] (by decide)
  exact ⟨(hheld paused hp).1.trans hnone, hrests paused hs hp, hdeeds.1⟩

end Session

end Tilewalk
