import Tilewalk.Proofs.Session.Orders
import Tilewalk.Proofs.Session.Sharing

/-! # What a run locks

A run takes the program, the title and the cases as it finds them, and nobody can replace them
before it has ended. The editor is shut for as long, so each run turns its switch twice.
-/

namespace Tilewalk

namespace Event

def isRunStarted : Event → Bool
  | runStarted _ => true
  | _ => false

theorem IsNews.not_runStarted {e : Event} (h : e.IsNews) : e.isRunStarted = false := by
  cases e with
  | levelLoaded | loadFailed => rfl
  | runStarted | caseStarted | caseFinished | runFinished | stopped => cases h

end Event

namespace EditorSwitch

theorem on_turn (e : EditorSwitch) (on : Bool) : (e.turn on).on = on := by
  unfold turn
  split_ifs with h
  · exact h
  · rfl

theorem turns_turn (e : EditorSwitch) (on : Bool) :
    (e.turn on).turns = e.turns + (e.on != on).toNat := by
  unfold turn
  split_ifs with h
  · simp [h]
  · have hne : (e.on != on) = true := by simpa using h
    rw [hne]
    rfl

end EditorSwitch

namespace Session

variable {μ σ ε : Type}

/-! ## The switch of the editor -/

/-- The switch is off just in a run. It has been turned once if it was off at first, and twice for
each run, but only once so far for the run that goes on. -/
structure Switched (on : Bool) (events : List Event) (s : Session μ σ EditorSwitch) : Prop where
  isOn : s.editor.on = !s.phase.isActive
  turns : s.editor.turns + s.phase.isActive.toNat =
    (!on).toNat + 2 * events.countP Event.isRunStarted

section Switches

variable {on : Bool} {events : List Event} {s t : Session μ σ EditorSwitch} (h : Switched on events s)

include h

theorem Switched.untouched {new : List Event} (hnone : new.countP Event.isRunStarted = 0)
    (heditor : t.editor = s.editor) (hphase : t.phase.isActive = s.phase.isActive) :
    Switched on (events ++ new) t := by
  refine ⟨?_, ?_⟩
  · rw [heditor, hphase]
    exact h.isOn
  · rw [heditor, hphase, List.countP_append, hnone]
    exact h.turns

/-- The end of a run turns the switch, and a stop without a run does not. -/
theorem Switched.closed {new : List Event} (hnone : new.countP Event.isRunStarted = 0)
    (heditor : t.editor = s.editor.turn true) (hphase : t.phase = .stopped) :
    Switched on (events ++ new) t := by
  have hturned : (s.editor.on != true) = s.phase.isActive := by
    rw [h.isOn]
    cases s.phase.isActive <;> rfl
  refine ⟨?_, ?_⟩
  · rw [heditor, hphase, EditorSwitch.on_turn]
    rfl
  · rw [heditor, hphase, EditorSwitch.turns_turn, hturned, List.countP_append, hnone]
    exact h.turns

theorem Switched.opened (hstopped : s.phase = .stopped) (n : Nat)
    (heditor : t.editor = s.editor.turn false) (hphase : t.phase = .running) :
    Switched on (events ++ [.runStarted n]) t := by
  have hon : s.editor.on = true := by
    rw [h.isOn, hstopped]
    rfl
  have hturns := h.turns
  rw [hstopped] at hturns
  refine ⟨?_, ?_⟩
  · rw [heditor, hphase, EditorSwitch.on_turn]
    rfl
  · rw [heditor, hphase, EditorSwitch.turns_turn, hon, List.countP_append]
    simp only [Phase.isActive, Bool.toNat_false, Bool.toNat_true, Bool.bne_false,
      List.countP_singleton, Event.isRunStarted, if_true] at hturns ⊢
    omega

end Switches

section Machines

variable [Machine μ] [Screen σ]

theorem switched_change {on : Bool} {notes new : List Note} {s t : Session μ σ EditorSwitch}
    (h : Switched on (eventsOf notes) s) (hchange : Change s new t) :
    Switched on (eventsOf (notes ++ new)) t := by
  rw [eventsOf_append]
  cases hchange with
  | paused hphase | resumed hphase => exact h.untouched rfl rfl (by rw [hphase]; rfl)
  | turned | moved | broke | landed | continued | screen | taken => exact h.untouched rfl rfl rfl
  | started | refused | passed => exact h.untouched rfl rfl rfl
  | finished | stopped => exact h.closed rfl rfl rfl
  | opened rest => exact h.opened rest.phase _ rfl rfl
  | changed _ _ _ _ _ news isNews =>
    rw [eventsOf_map_event]
    have hnone : news.countP Event.isRunStarted = 0 := by
      rw [List.countP_eq_zero]
      exact fun e he => by simp [(isNews e he).not_runStarted]
    exact h.untouched hnone rfl rfl

theorem switched_of_path {fresh : Nat → μ} {settings : Settings} {screen : σ} {on : Bool}
    {notes : List Note} {s : Session μ σ EditorSwitch}
    (h : Path (unloaded fresh settings screen { on }) notes s) :
    Switched on (eventsOf notes) s := by
  have hstart : Switched on (eventsOf [])
      (unloaded fresh settings screen ({ on } : EditorSwitch)) := by
    cases on <;> exact ⟨rfl, rfl⟩
  refine h.invariant (P := fun notes s => Switched on (eventsOf notes) s) [] ?_ hstart
  exact fun _ _ _ _ => switched_change

/-! ## What a call leaves alone in a run -/

variable [Editor ε]

theorem sameLevel_deed {s : Session μ σ ε} (h : s.phase ≠ .stopped) (deed : Deed σ) :
    SameLevel s (deed.run s) := by
  have hactive : s.phase.isActive = true := by
    cases hphase : s.phase with
    | stopped => exact absurd hphase h
    | running | paused => rfl
  cases deed with
  | screen action => exact ⟨rfl, rfl, rfl⟩
  | call c =>
    cases c with
    | play =>
      cases hphase : s.phase with
      | stopped => exact absurd hphase h
      | running | paused =>
        simp only [Deed.run, Call.run, play, hphase]
        exact ⟨rfl, rfl, rfl⟩
    | pause =>
      simp only [Deed.run, Call.run, pause]
      split_ifs <;> exact ⟨rfl, rfl, rfl⟩
    | tick => exact sameLevel_tick s
    | load | newGrid | edit | replaceCases =>
      simp only [Deed.run, Call.run, load, newGrid, edit, replaceCases, hactive, if_true]
      exact .refl s
    | stop | share | takeEvents => exact ⟨rfl, rfl, rfl⟩

theorem sameLevel_after {s : Session μ σ ε} {deeds : List (Deed σ)}
    (h : ∀ k < deeds.length, (s.after (deeds.take k)).phase ≠ .stopped) :
    SameLevel s (s.after deeds) := by
  induction deeds generalizing s with
  | nil => exact .refl s
  | cons deed deeds ih =>
    have hfirst : SameLevel s (deed.run s) := sameLevel_deed (h 0 (by simp)) deed
    have hrest : ∀ k < deeds.length, ((deed.run s).after (deeds.take k)).phase ≠ .stopped := by
      intro k hk
      exact h (k + 1) (by simpa using hk)
    exact hfirst.trans (ih hrest)

/-! ## What a run is made of -/

theorem Change.of_runStarted {s t : Session μ σ ε} {new before rest : List Note} {n : Nat}
    (h : Change s new t) (hnew : new = before ++ .event (.runStarted n) :: rest) :
    AtRest s ∧ n = s.casesToRun.length ∧ t = s.openRun ∧ before = [] ∧ rest = [] := by
  have hmem : .event (.runStarted n) ∈ new := by simp [hnew]
  cases h with
  | opened atRest =>
    cases before with
    | nil =>
      obtain ⟨hnote, rfl⟩ := List.cons.inj hnew
      obtain rfl := Event.runStarted.inj (Note.event.inj hnote)
      exact ⟨atRest, rfl, rfl, rfl, rfl⟩
    | cons => simp at hnew
  | changed _ _ _ _ _ news isNews =>
    obtain ⟨e, he, heq⟩ := List.mem_map.mp hmem
    obtain rfl := Note.event.inj heq
    cases isNews _ he
  | _ => simp [launchNotes] at hmem

/-- A run begins with a change of its own, so what is noted before it and what is noted from then on
are the notes of two paths. -/
theorem Path.split {s t : Session μ σ ε} {notes before run : List Note} {n : Nat}
    (h : Path s notes t) (hnotes : notes = before ++ .event (.runStarted n) :: run) :
    ∃ u, Path s before u ∧ AtRest u ∧ n = u.casesToRun.length ∧ Path u.openRun run t := by
  induction h generalizing run with
  | refl => simp at hnotes
  | @change t u notes new hpath hchange ih =>
    rcases List.append_eq_append_iff.mp hnotes with ⟨first, rfl, hnew⟩ | ⟨rest, rfl, hrun⟩
    · obtain ⟨hrest, hn, rfl, rfl, rfl⟩ := hchange.of_runStarted hnew
      rw [List.append_nil]
      exact ⟨t, hpath, hrest, hn, .refl⟩
    · cases rest with
      | nil =>
        have hnew : new = [] ++ .event (.runStarted n) :: run := hrun.symm
        obtain ⟨hrest, hn, rfl, -, rfl⟩ := hchange.of_runStarted hnew
        rw [List.append_nil] at hpath
        exact ⟨t, hpath, hrest, hn, .refl⟩
      | cons note rest =>
        obtain ⟨rfl, rfl⟩ := List.cons.inj hrun
        obtain ⟨v, hv, hrest, hn, hrun⟩ := ih rfl
        exact ⟨v, hv, hrest, hn, hrun.change hchange⟩

theorem Change.sameLevel {s t : Session μ σ ε} {new : List Note} (h : Change s new t)
    (hactive : s.phase ≠ .stopped) : SameLevel s t := by
  cases h with
  | opened rest | changed rest => exact absurd rest.phase hactive
  | _ => exact ⟨rfl, rfl, rfl⟩

theorem Change.active {s t : Session μ σ ε} {new : List Note} (h : Change s new t)
    (hnew : ∀ n, .event (.runStarted n) ∉ new) (ht : t.phase ≠ .stopped) :
    s.phase ≠ .stopped := by
  cases h with
  | paused hphase | resumed hphase => simp [hphase]
  | opened => simp at hnew
  | turned active => exact active
  | started due | refused due => exact due.active
  | moved inStep | broke inStep => simp [inStep.running]
  | continued midway => exact midway.active
  | passed atEnd => exact atEnd.midway.active
  | landed | taken | screen => exact ht
  | finished | stopped => exact absurd rfl ht
  | changed rest => exact absurd rest.phase ht

theorem Change.active_of_made {s t : Session μ σ ε} {new : List Note} (h : Change s new t)
    {i index : Nat} {p : Program} {test : Case} (hmade : .made i index p test ∈ new) :
    s.phase ≠ .stopped := by
  cases h with
  | started due | refused due => exact due.active
  | _ => simp at hmade

/-- What holds of a run since it has begun: nothing has been replaced while it goes on, and all its
machines have been made for the cases and the program that it began with. -/
structure Locked (s : Session μ σ ε) (notes : List Note) (t : Session μ σ ε) : Prop where
  level : (∀ n, .event (.runStarted n) ∉ notes) → t.phase ≠ .stopped → SameLevel s t
  made : ∀ run rest, notes = run ++ rest → (∀ n, .event (.runStarted n) ∉ run) →
    ∀ i index p test, .made i index p test ∈ run →
      s.program = some p ∧ s.cases[index]? = some test

theorem locked_change {s t u : Session μ σ ε} {notes new : List Note} (h : Locked s notes t)
    (hchange : Change t new u) : Locked s (notes ++ new) u := by
  refine ⟨fun hno hu => ?_, fun run rest hnotes hno i index p test hmade => ?_⟩
  · have ht := hchange.active (fun n hmem => hno n (List.mem_append_right _ hmem)) hu
    have hlevel := h.level (fun n hmem => hno n (List.mem_append_left _ hmem)) ht
    exact hlevel.trans (hchange.sameLevel ht)
  -- The notes on the run end among the old ones, or take in some of the new ones.
  rcases List.append_eq_append_iff.mp hnotes with ⟨first, rfl, hnew⟩ | ⟨last, hold, -⟩
  · rcases List.mem_append.mp hmade with hmade | hmade
    · refine h.made notes [] (by simp) (fun n hmem => ?_) i index p test hmade
      exact hno n (List.mem_append_left _ hmem)
    · have hmem : .made i index p test ∈ new := by
        rw [hnew]
        exact List.mem_append_left _ hmade
      obtain ⟨hprogram, rfl, htest⟩ := hchange.made hmem
      have hlevel := h.level (fun n hmem => hno n (List.mem_append_left _ hmem))
        (hchange.active_of_made hmem)
      rw [hlevel.program] at hprogram
      rw [hlevel.cases] at htest
      exact ⟨hprogram, htest⟩
  · exact h.made run last hold hno i index p test hmade

theorem locked_of_path {s t : Session μ σ ε} {notes : List Note} (h : Path s notes t) :
    Locked s notes t := by
  have hstart : Locked s [] s := by
    refine ⟨fun _ _ => .refl s, fun run rest hnotes _ i index p test hmade => ?_⟩
    obtain ⟨rfl, -⟩ := List.append_eq_nil_iff.mp hnotes.symm
    cases hmade
  exact h.invariant (P := Locked s) [] (fun _ _ _ _ => locked_change) hstart

end Machines

/-! ## The theorem -/

variable [Machine μ] [Screen σ]

/-- The editor may be used just when there is no run, and its switch is turned when a run begins and
when it ends. A run that begins goes on with the program, the title and the cases that it has begun
with, whatever is done, and makes its machines for these. -/
theorem a_run_locks_its_level (fresh : Nat → μ) (settings : Settings) (screen : σ) (on : Bool)
    (deeds : List (Deed σ)) :
    let start : Session μ σ EditorSwitch := initial fresh settings screen { on }
    let s := start.after deeds
    (Editor.isAllowed s.editor = true ↔ s.phase = .stopped) ∧
    s.editor.turns + s.phase.isActive.toNat =
      (!on).toNat + 2 * (start.told deeds).countP Event.isRunStarted ∧
    (s.phase = .stopped → s.program ≠ none →
      s.play.2 = .ok () ∧ SameLevel s.openRun s.play.1 ∧
      ∀ more, (∀ k < more.length, (s.play.1.after (more.take k)).phase ≠ .stopped) →
        SameLevel s.play.1 (s.play.1.after more)) ∧
    ∃ notes, Path (unloaded fresh settings screen { on }) notes s ∧
      eventsOf notes = start.told deeds ∧
      ∀ before n run rest, notes = before ++ .event (.runStarted n) :: (run ++ rest) →
        (∀ n, .event (.runStarted n) ∉ run) →
        ∃ u : Session μ σ EditorSwitch, Path (unloaded fresh settings screen { on }) before u ∧
          AtRest u ∧ n = u.casesToRun.length ∧
          ∀ i index p test, .made i index p test ∈ run →
            u.program = some p ∧ u.casesToRun[index]? = some test := by
  intro start s
  obtain ⟨notes, hpath, hevents⟩ :=
    path_after_initial fresh settings screen ({ on } : EditorSwitch) deeds
  have hswitched : Switched on (eventsOf notes) s := switched_of_path hpath
  refine ⟨?_, ?_, fun hstopped hprogram => ?_, notes, hpath, hevents, ?_⟩
  · show s.editor.on = true ↔ _
    rw [hswitched.isOn]
    cases s.phase <;> simp [Phase.isActive]
  · rw [← hevents]
    exact hswitched.turns
  · rw [play_stopped hstopped hprogram]
    exact ⟨rfl, sameLevel_beginCase s.openRun, fun more => sameLevel_after⟩
  · intro before n run rest hnotes hno
    obtain ⟨u, hbefore, hrest, hn, hrun⟩ := hpath.split hnotes
    exact ⟨u, hbefore, hrest, hn, (locked_of_path hrun).made run rest rfl hno⟩

/-- What is tried on a run: to hold it, to replace its level, and to go on. -/
def triesOnRun : List (Deed HeldScreen) :=
  [.call .pause, .call (.load ""), .call (.newGrid 2 2),
    .call (.edit (Edit.applyAll [.placeTile ⟨0, 0⟩ ⟨.conveyor, .identity⟩])),
    .call (.replaceCases []), .call .play, .call .tick]

/-- A run on which all that is tried. It is given up, and then there is none to give up. -/
def triedRun : List (Deed HeldScreen) :=
  .call .play :: (triesOnRun ++ [.call .stop, .call .stop])

theorem a_run_locks_its_level_while_paused :
    let start : Session ScriptedMachine HeldScreen EditorSwitch :=
      initial (ScriptedMachine.nth []) {} { layout := ⟨0, 0, 1⟩ } { on := false }
    (start.play.1.after triesOnRun).phase = .running ∧
      SameLevel start.play.1 (start.play.1.after triesOnRun) ∧
      Editor.isAllowed (start.after triedRun).editor = true ∧
      (start.after triedRun).editor.turns = 1 + 2 := by
  intro start
  have hphase : start.phase = .stopped := by decide
  have hprogram : start.program ≠ none := by
    have hsome : start.program.isSome := by decide
    exact Option.isSome_iff_ne_none.mp hsome
  have hactive : ∀ k < triesOnRun.length,
      (start.play.1.after (triesOnRun.take k)).phase ≠ .stopped := by decide
  obtain ⟨-, -, hrun, -⟩ := a_run_locks_its_level (ScriptedMachine.nth []) {}
    ({ layout := ⟨0, 0, 1⟩ } : HeldScreen) false []
  obtain ⟨hallowed, hturns, -⟩ := a_run_locks_its_level (ScriptedMachine.nth []) {}
    ({ layout := ⟨0, 0, 1⟩ } : HeldScreen) false triedRun
  have hlevel := (hrun hphase hprogram).2.2 triesOnRun hactive
  have hstopped : (start.after triedRun).phase = .stopped := by decide
  have hruns : (start.told triedRun).countP Event.isRunStarted = 1 := by decide
  rw [hstopped, hruns] at hturns
  simp only [Phase.isActive, Bool.toNat_false, Nat.add_zero, Bool.not_false, Bool.toNat_true,
    Nat.mul_one] at hturns
  exact ⟨by decide, hlevel, hallowed.mpr hstopped, hturns⟩

end Session

end Tilewalk
