import Tilewalk.CommandLine.Run
import Tilewalk.Proofs.Session.Steps

/-! # Runs that are shown as they go on

The events of a paced run are printed as they come, or all at its end. Events are only ever added
behind those told before, and nothing depends on them, so both ways print the same and come to the same
end.
-/

namespace Tilewalk

/-! ## Events told before -/

namespace Session

variable {μ σ ε : Type}

/-- The session with `earlier` events in front of those that it has told. -/
def behind (earlier : List Event) (s : Session μ σ ε) : Session μ σ ε :=
  { s with events := earlier ++ s.events }

theorem behind_takeEvents (s : Session μ σ ε) : behind s.events s.takeEvents.1 = s := by
  simp [behind, takeEvents]

theorem behind_behind (first second : List Event) (s : Session μ σ ε) :
    behind first (behind second s) = behind (first ++ second) s := by
  simp [behind]

variable (earlier : List Event)

theorem tell_behind (s : Session μ σ ε) (event : Event) :
    (behind earlier s).tell event = behind earlier (s.tell event) := by
  simp [behind, tell]

theorem record_behind (s : Session μ σ ε) (outcome : Outcome) :
    (behind earlier s).record outcome = behind earlier (s.record outcome) := by
  simp [behind, record, tell]

theorem onMachine_behind (s : Session μ σ ε) (m : μ) (test : Case) :
    (behind earlier s).onMachine m test = behind earlier (s.onMachine m test) := by
  simp [behind, onMachine]

variable [Editor ε]

theorem conclude_behind (s : Session μ σ ε) (passed : Bool) :
    (behind earlier s).conclude passed = behind earlier (s.conclude passed) := by
  by_cases h : passed = true ∧ s.cursor.index + 1 < s.cases.length
  · rw [conclude_next h.1 h.2, conclude_next (s := behind earlier s) h.1 h.2]
    rfl
  · rw [conclude_last h, conclude_last (s := behind earlier s) h, tell_behind]
    rfl

variable [Machine μ]

theorem proceed_behind (s : Session μ σ ε) :
    (behind earlier s).proceed = behind earlier s.proceed := by
  cases hm : s.machine with
  | none => rw [proceed_nothing (.inl hm), proceed_nothing (s := behind earlier s) (.inl hm)]
  | some m =>
    cases ht : s.cursor.test with
    | none => rw [proceed_nothing (.inr ht), proceed_nothing (s := behind earlier s) (.inr ht)]
    | some test =>
      by_cases h : s.HasEnded m
      · rw [proceed_judged hm ht h, proceed_judged (s := behind earlier s) hm ht h,
          ← conclude_behind, ← record_behind]
        rfl
      · rw [proceed_more hm ht h, proceed_more (s := behind earlier s) hm ht h]
        rfl

theorem breakOff_behind (s : Session μ σ ε) (fault : MachineFault) :
    (behind earlier s).breakOff fault = behind earlier (s.breakOff fault) :=
  proceed_behind earlier
    { s with tally := { s.tally with faults := s.tally.faults + 1 }, fault := some fault }

variable [Screen σ]

theorem beginCase_behind (s : Session μ σ ε) :
    (behind earlier s).beginCase = behind earlier s.beginCase := by
  cases hp : s.program with
  | none =>
    rw [beginCase_nothing (.inl hp), beginCase_nothing (s := behind earlier s) (.inl hp)]
    rfl
  | some p =>
    cases ht : s.cases[s.cursor.index]? with
    | none =>
      rw [beginCase_nothing (.inr ht), beginCase_nothing (s := behind earlier s) (.inr ht)]
      rfl
    | some test =>
      rcases hl : launch (s.fresh s.tally.started) p test with ⟨m, ⟨fault⟩ | ⟨⟨⟩⟩⟩
      · rw [beginCase_failed hp ht hl, beginCase_failed (s := behind earlier s) hp ht hl,
          onMachine_behind, breakOff_behind]
      · rw [beginCase_started hp ht hl, beginCase_started (s := behind earlier s) hp ht hl,
          onMachine_behind]
        rfl

theorem takeStep_behind (s : Session μ σ ε) :
    (behind earlier s).takeStep = behind earlier s.takeStep := by
  cases hm : s.machine with
  | none => rw [takeStep_nothing hm, takeStep_nothing (s := behind earlier s) hm]
  | some m =>
    rcases hs : Machine.step m with ⟨m', ⟨fault⟩ | ⟨⟨⟩⟩⟩
    · rw [takeStep_failed hm hs, takeStep_failed (s := behind earlier s) hm hs, ← breakOff_behind]
      rfl
    · rw [takeStep_moved hm hs, takeStep_moved (s := behind earlier s) hm hs]
      rfl

theorem tick_behind (s : Session μ σ ε) :
    (behind earlier s).tick = (behind earlier s.tick.1, s.tick.2) := by
  cases hawaited : s.awaited with
  | some t =>
    cases hsettled : s.stage.ledger.isSettled t with
    | false =>
      rw [tick_waiting hawaited hsettled, tick_waiting (s := behind earlier s) hawaited hsettled]
    | true =>
      rw [tick_settled hawaited hsettled, tick_settled (s := behind earlier s) hawaited hsettled]
      exact congrArg (·, _) (proceed_behind earlier { s with awaited := none })
  | none =>
    rcases htasks : s.tasks with _ | ⟨task, tasks⟩
    · rw [tick_idle hawaited htasks, tick_idle (s := behind earlier s) hawaited htasks]
    by_cases hphase : s.phase = .stopped
    · rw [tick_stale hawaited htasks hphase,
        tick_stale (s := behind earlier s) hawaited htasks hphase]
      rfl
    cases task with
    | nextCase =>
      rw [tick_nextCase hawaited htasks hphase,
        tick_nextCase (s := behind earlier s) hawaited htasks hphase]
      exact congrArg (·, _) (beginCase_behind earlier { s with tasks })
    | step =>
      cases hphase' : s.phase with
      | stopped => exact absurd hphase' hphase
      | paused =>
        rw [tick_parked hawaited htasks hphase',
          tick_parked (s := behind earlier s) hawaited htasks hphase']
      | running =>
        rw [tick_step hawaited htasks hphase',
          tick_step (s := behind earlier s) hawaited htasks hphase']
        exact congrArg (·, _) (takeStep_behind earlier { s with tasks })

end Session

/-! ## Paced runs -/

namespace CommandLine

open Session

theorem paceTick_behind (earlier : List Event) (s : Play ClockedScreen) :
    paceTick (behind earlier s) = (behind earlier (paceTick s).1, (paceTick s).2) := by
  unfold paceTick
  rw [tick_behind]
  rcases s.tick with ⟨t, tick⟩
  cases tick <;> rfl

theorem pace_behind (earlier : List Event) (budget : Nat) (s : Play ClockedScreen) :
    pace budget (behind earlier s) = behind earlier (pace budget s) := by
  induction budget generalizing s with
  | zero => exact tell_behind earlier s.close .stopped
  | succ budget ih =>
    unfold pace paceWith
    rw [paceTick_behind]
    rcases paceTick s with ⟨t, tick⟩
    cases tick with
    | idle => rfl
    | ran | waiting | parked => exact ih t

theorem eventsText_append (json : Bool) (first rest : List Event) :
    eventsText json (first ++ rest) = eventsText json first ++ eventsText json rest := by
  simp [eventsText]

/-- A run that is shown to a text, which takes what is printed. -/
def paceOnto (options : RunOptions) (budget : Nat) (s : Play ClockedScreen) :
    StateM String (Play ClockedScreen) :=
  paceAloud (pure ()) (fun text => modify (· ++ text)) options budget s

theorem paceOnto_succ (options : RunOptions) (budget : Nat) (s : Play ClockedScreen)
    (printed : String) : (paceOnto options (budget + 1) s).run printed =
      if (paceTick s).2 = .idle then ((paceTick s).1, printed)
      else (paceOnto options budget (paceTick s).1.takeEvents.1).run
        (printed ++ eventsText options.json (paceTick s).1.events) := by
  unfold paceOnto paceAloud
  rw [paceWith]
  rcases paceTick s with ⟨t, tick⟩
  cases tick <;> rfl

theorem run_paceOnto (options : RunOptions) (budget : Nat) (s : Play ClockedScreen)
    (printed : String) :
    ∃ earlier t, (paceOnto options budget s).run printed =
        (t, printed ++ eventsText options.json earlier) ∧ behind earlier t = pace budget s := by
  induction budget generalizing s printed with
  | zero =>
    refine ⟨[], s.stop, ?_, rfl⟩
    show (s.stop, printed) = _
    simp [eventsText]
  | succ budget ih =>
    rw [paceOnto_succ]
    unfold pace paceWith
    rcases paceTick s with ⟨t, tick⟩
    dsimp only
    split_ifs with hidle
    · subst hidle
      exact ⟨[], t, by simp [eventsText], rfl⟩
    · obtain ⟨later, u, hrun, hu⟩ :=
        ih t.takeEvents.1 (printed ++ eventsText options.json t.events)
      refine ⟨t.events ++ later, u, ?_, ?_⟩
      · rw [hrun, eventsText_append, String.append_assoc]
      · rw [← behind_behind, hu, ← pace_behind, behind_takeEvents]
        cases tick with
        | idle => exact absurd rfl hidle
        | ran | waiting | parked => rfl

/-- A run that is shown as it goes on prints what it prints otherwise, and exits with the same
status. -/
theorem shown_as_it_goes_on (options : RunOptions) (seconds : String) (budget : Nat)
    (s : Play ClockedScreen) :
    let (t, printed) := (paceOnto options budget s).run ""
    let shown := endReport options seconds t
    let atOnce := endReport options seconds (pace budget s)
    printed ++ shown.output = atOnce.output ∧ shown.exit = atOnce.exit := by
  obtain ⟨earlier, t, hrun, hbehind⟩ := run_paceOnto options budget s ""
  rw [hrun, ← hbehind]
  refine ⟨?_, rfl⟩
  show "" ++ eventsText options.json earlier ++ (eventsText options.json t.events ++ _) =
    eventsText options.json (earlier ++ t.events) ++ _
  rw [eventsText_append, String.empty_append, String.append_assoc]
  rfl

end CommandLine

end Tilewalk
