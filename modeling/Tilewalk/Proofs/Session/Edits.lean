import Tilewalk.Proofs.Session.Sharing
import Tilewalk.Proofs.Session.Refusals
import Tilewalk.Screen.Instant

/-! # Edits that fail halfway

An edit works on the program of the session itself. When it fails, what it has done before stays
done, and the screen is not told of it. Apart from that the screen always shows the program that
there is.
-/

namespace Tilewalk

theorem Edit.applyAll_error {edits : List Edit} {p q : Program} {fault : EditFault}
    (h : Edit.applyAll edits p = (q, .error fault)) :
    ∃ before e after, edits = before ++ e :: after ∧ Edit.applyAll before p = (q, .ok ()) ∧
      e.apply q = .error fault := by
  induction edits generalizing p with
  | nil => simp [Edit.applyAll] at h
  | cons e edits ih =>
    unfold Edit.applyAll at h
    cases he : e.apply p with
    | ok r =>
      rw [he] at h
      obtain ⟨before, e', after, rfl, hbefore, hrefused⟩ := ih h
      refine ⟨e :: before, e', after, rfl, ?_, hrefused⟩
      rw [Edit.applyAll, he]
      exact hbefore
    | error fault' =>
      rw [he] at h
      obtain ⟨rfl, hfault⟩ := Prod.mk.inj h
      obtain rfl := Except.error.inj hfault
      exact ⟨[], e, edits, rfl, rfl, he⟩

/-! ## Watched screens -/

/-- A screen, and the program that it was shown last. -/
structure Watched (σ : Type) where
  screen : σ
  shown : Option Program := none

namespace Watched

variable {σ : Type}

/-- Something that the screen does without being shown a program. -/
def act (w : Watched σ) (action : σ → σ × List Ticket) : Watched σ × List Ticket :=
  ({ w with screen := (action w.screen).1 }, (action w.screen).2)

instance [Screen σ] : Screen (Watched σ) where
  corner w := Screen.corner w.screen
  put w target fill := w.act fun screen => Screen.put screen target fill
  glide w target fill length ticket := w.act fun screen =>
    Screen.glide screen target fill length ticket
  refresh w p := { w with shown := some p }.act fun screen => Screen.refresh screen p

end Watched

/-- A deed that shows the screen no program, and leaves the program as it was when it is an edit that
fails. -/
def Deed.IsWhole {σ : Type} : Deed (Watched σ) → Prop
  | .call (.edit f) => ∀ (p : Program) (fault : EditFault), (f p).2 = .error fault → (f p).1 = p
  | .call _ => True
  | .screen action => ∀ w, (action w).1.shown = w.shown

namespace Session

variable {μ σ ε : Type}

/-! ## What a run leaves alone on the screen -/

section Looks

variable {α : Type} [Machine μ] [Editor ε] [Screen σ] (look : σ → α)
  (hput : ∀ (screen : σ) target fill, look (Screen.put screen target fill).1 = look screen)
  (hglide : ∀ (screen : σ) target fill length ticket,
    look (Screen.glide screen target fill length ticket).1 = look screen)

include hput

theorem look_beginCase (s : Session μ σ ε) :
    look s.beginCase.stage.screen = look s.stage.screen := by
  cases hp : s.program with
  | none =>
    rw [beginCase_nothing (.inl hp)]
    rfl
  | some p =>
    cases ht : s.cases[s.cursor.index]? with
    | none =>
      rw [beginCase_nothing (.inr ht)]
      rfl
    | some test =>
      rcases hl : launch (s.fresh s.tally.started) p test with ⟨m, ⟨fault⟩ | ⟨⟨⟩⟩⟩
      · rw [beginCase_failed hp ht hl, breakOff, stage_proceed]
        rfl
      · rw [beginCase_started hp ht hl]
        exact hput ..

include hglide

theorem look_takeStep (s : Session μ σ ε) :
    look s.takeStep.stage.screen = look s.stage.screen := by
  cases hm : s.machine with
  | none => rw [takeStep_nothing hm]
  | some m =>
    rcases hs : Machine.step m with ⟨m', ⟨fault⟩ | ⟨⟨⟩⟩⟩
    · rw [takeStep_failed hm hs, breakOff, stage_proceed]
      exact hput ..
    · rw [takeStep_moved hm hs]
      exact (hglide ..).trans (hput ..)

theorem look_tick (s : Session μ σ ε) : look s.tick.1.stage.screen = look s.stage.screen := by
  unfold tick
  split
  · split_ifs
    · rw [stage_proceed]
    · rfl
  · split
    · rfl
    · split
      · rfl
      · rfl
      · exact look_beginCase look hput _
      · exact look_takeStep look hput hglide _

omit hglide in
theorem look_play (s : Session μ σ ε) : look s.play.1.stage.screen = look s.stage.screen := by
  cases hphase : s.phase with
  | running | paused => simp [play, hphase]
  | stopped =>
    by_cases hp : s.program = none
    · rw [play_without_program hphase hp]
    · rw [play_stopped hphase hp]
      exact look_beginCase look hput s.openRun

end Looks

/-! ## The program that is shown -/

/-- The program that was shown last is the one that there is. -/
def IsShown (s : Session μ (Watched σ) ε) : Prop := s.stage.screen.shown = s.program

section Levels

variable [Screen σ] {s : Session μ (Watched σ) ε}

theorem isShown_refresh {p : Program} (hp : s.program = some p) : IsShown s.refresh := by
  rw [refresh_some hp]
  exact hp.symm

theorem isShown_install (content : LevelContent) : IsShown (s.install content) := by
  cases content with
  | level l =>
    let t := { s with program := some l.program, title := some l.title, cases := l.cases }
    exact isShown_refresh (s := t) rfl
  | program p => exact isShown_refresh (s := { s with program := some p }) rfl

theorem isShown_load (h : IsShown s) (text : String) : IsShown (s.load text).1 := by
  unfold load
  split_ifs
  · exact h
  cases Level.extract text >>= Level.decode with
  | error fault => exact h
  | ok content => exact isShown_install content

theorem isShown_newGrid (h : IsShown s) (cols rows : Nat) : IsShown (s.newGrid cols rows).1 := by
  unfold newGrid
  split_ifs
  · exact h
  cases Program.blank cols rows with
  | error fault => exact h
  | ok p => exact isShown_refresh rfl

theorem isShown_edit (h : IsShown s) {α : Type} {f : Program → Program × Except EditFault α}
    (hf : ∀ p fault, (f p).2 = .error fault → (f p).1 = p) : IsShown (s.edit f).1 := by
  unfold edit
  split_ifs
  · exact h
  cases hp : s.program with
  | none => exact h
  | some p =>
    rcases hfp : f p with ⟨q, ⟨fault⟩ | ⟨a⟩⟩
    · have hq : q = p := by simpa [hfp] using hf p fault
      simp only [hfp]
      rw [hq, ← hp]
      exact h
    · simp only [hfp]
      exact isShown_refresh rfl

end Levels

variable [Machine μ] [Screen σ] [Editor ε]

omit [Machine μ] in
theorem isShown_initial (fresh : Nat → μ) (settings : Settings) (screen : σ) (editor : ε) :
    IsShown (initial fresh settings ({ screen } : Watched σ) editor) := by
  let s : Session μ (Watched σ) ε := unloaded fresh settings { screen } editor
  have hstart : IsShown s := rfl
  have hload : IsShown s.loadInitial := by
    unfold loadInitial
    split
    · exact isShown_load hstart _
    · exact hstart
  show IsShown s.loadInitial.orBlank
  unfold orBlank
  split
  · exact isShown_refresh rfl
  · exact hload

theorem isShown_deed {s : Session μ (Watched σ) ε} (h : IsShown s) {deed : Deed (Watched σ)}
    (hdeed : deed.IsWhole) : IsShown (deed.run s) := by
  have hput : ∀ (w : Watched σ) target fill, (Screen.put w target fill).1.shown = w.shown :=
    fun _ _ _ => rfl
  have hglide : ∀ (w : Watched σ) target fill length ticket,
      (Screen.glide w target fill length ticket).1.shown = w.shown := fun _ _ _ _ _ => rfl
  match deed, hdeed with
  | .call .play, _ =>
    exact (look_play Watched.shown hput s).trans (h.trans (program_play s).symm)
  | .call .tick, _ =>
    exact (look_tick Watched.shown hput hglide s).trans
      (h.trans (sameLevel_tick s).program.symm)
  | .call .pause, _ =>
    simp only [Deed.run, Call.run, pause]
    split_ifs <;> exact h
  | .call (.load text), _ => exact isShown_load h text
  | .call (.newGrid cols rows), _ => exact isShown_newGrid h cols rows
  | .call (.edit f), hf => exact isShown_edit h hf
  | .call (.replaceCases cases), _ =>
    simp only [Deed.run, Call.run, replaceCases]
    split_ifs <;> exact h
  | .call .stop, _ | .call .share, _ | .call .takeEvents, _ => exact h
  | .screen action, haction => exact (haction s.stage.screen).trans h

/-! ## The theorem -/

omit [Machine μ] [Editor ε] in
theorem edit_failed {s : Session μ σ ε} (hphase : s.phase = .stopped) {p : Program}
    (hp : s.program = some p) {α : Type} {f : Program → Program × Except EditFault α}
    {edits : List Edit} (hf : ((f p).1, (f p).2.map fun _ => ()) = Edit.applyAll edits p)
    {r : Refusal} (hr : (s.edit f).2 = .error r) :
    ∃ before e after q fault, edits = before ++ e :: after ∧
      Edit.applyAll before p = (q, .ok ()) ∧ e.apply q = .error fault ∧ r = .edit fault ∧
      (s.edit f).1 = { s with program := some q } := by
  have hinactive : ¬ s.phase.isActive := by simp [hphase, Phase.isActive]
  unfold edit at hr ⊢
  simp only [if_neg hinactive, hp] at hr ⊢
  rcases hfp : f p with ⟨q, ⟨fault⟩ | ⟨a⟩⟩
  · simp only [hfp] at hf hr ⊢
    obtain rfl := Except.error.inj hr
    obtain ⟨before, e, after, hedits, hbefore, hrefused⟩ := Edit.applyAll_error hf.symm
    exact ⟨before, e, after, q, fault, hedits, hbefore, hrefused, rfl, rfl⟩
  · simp [hfp] at hr

/-- An edit that fails leaves what it has done up to the operation that was refused, and nothing but
the program has changed; it is what it was just when all that has come to nothing. When no edit that
fails leaves anything, the program that was shown last is the one that there is. -/
theorem failed_edits_stay (fresh : Nat → μ) (settings : Settings) (screen : σ) (editor : ε)
    (deeds : List (Deed (Watched σ))) :
    let s := (initial fresh settings ({ screen } : Watched σ) editor).after deeds
    (∀ (p : Program) (α : Type) (f : Program → Program × Except EditFault α) (edits : List Edit)
        (r : Refusal), s.phase = .stopped → s.program = some p →
      ((f p).1, (f p).2.map fun _ => ()) = Edit.applyAll edits p → (s.edit f).2 = .error r →
      ∃ before e after q fault, edits = before ++ e :: after ∧
        Edit.applyAll before p = (q, .ok ()) ∧ e.apply q = .error fault ∧ r = .edit fault ∧
        (s.edit f).1 = { s with program := some q } ∧
        ((s.edit f).1.program = s.program ↔ q = p)) ∧
    ((∀ deed ∈ deeds, deed.IsWhole) → s.stage.screen.shown = s.program) := by
  intro s
  refine ⟨fun p α f edits r hphase hp hf hr => ?_, fun hdeeds => ?_⟩
  · obtain ⟨before, e, after, q, fault, hedits, hbefore, he, hr, hleft⟩ :=
      edit_failed hphase hp hf hr
    refine ⟨before, e, after, q, fault, hedits, hbefore, he, hr, hleft, ?_⟩
    rw [hleft, hp]
    exact Option.some_inj
  · refine after_keeps (P := IsShown) ?_ (isShown_initial fresh settings screen editor)
    exact fun deed hdeed s hs => isShown_deed hs (hdeeds deed hdeed)

/-- A session on an empty grid of nine rows and nine columns, on a screen that is watched. -/
def watchedSample : Session ScriptedMachine (Watched InstantScreen) EditorSwitch :=
  initial (ScriptedMachine.nth []) {} { screen := { layout := ⟨0, 0, 1⟩ } } { on := true }

/-- A tile on the grid and one beside it. -/
def twoTiles : List Edit :=
  [.placeTile ⟨0, 0⟩ ⟨.conveyor, .identity⟩, .placeTile ⟨9, 9⟩ ⟨.conveyor, .identity⟩]

theorem failed_edits_stay_of_two_tiles :
    watchedSample.stage.screen.shown = watchedSample.program ∧
    ∃ before e after q, twoTiles = before ++ e :: after ∧
      e.apply q = .error (.outOfBounds ⟨9, 9⟩ 9 9) ∧
      (watchedSample.edit (Edit.applyAll twoTiles)).1 =
        { watchedSample with program := some q } := by
  obtain ⟨hfailed, hshown⟩ := failed_edits_stay (ScriptedMachine.nth []) {}
    ({ layout := ⟨0, 0, 1⟩ } : InstantScreen) ({ on := true } : EditorSwitch) []
  obtain ⟨p, hp⟩ : ∃ p, watchedSample.program = some p := ⟨_, rfl⟩
  have hmap (p : Program) : ((Edit.applyAll twoTiles p).1,
      (Edit.applyAll twoTiles p).2.map fun _ => ()) = Edit.applyAll twoTiles p := by
    refine Prod.ext rfl ?_
    cases (Edit.applyAll twoTiles p).2 <;> rfl
  have hrefused : (watchedSample.edit (Edit.applyAll twoTiles)).2 =
      .error (.edit (.outOfBounds ⟨9, 9⟩ 9 9)) := rfl
  obtain ⟨before, e, after, q, fault, htiles, -, he, hfault, hleft, -⟩ :=
    hfailed p Unit _ twoTiles _ rfl hp (hmap p) hrefused
  obtain rfl := Refusal.edit.inj hfault
  exact ⟨hshown (by simp), before, e, after, q, htiles, he, hleft⟩

/-- The first of two tiles stays on the grid when the second is refused, and is not shown. -/
theorem first_tile_stays :
    let t := (watchedSample.edit (Edit.applyAll twoTiles)).1
    watchedSample.phase = .stopped ∧
      (watchedSample.edit (Edit.applyAll twoTiles)).2 =
        .error (.edit (.outOfBounds ⟨9, 9⟩ 9 9)) ∧
      t.program ≠ watchedSample.program ∧ Reachable t ∧
      t.stage.screen.shown ≠ t.program := by
  intro t
  have hcount : t.program.map Program.tileCount = some 1 := by decide
  have hblank : watchedSample.program.map Program.tileCount = some 0 := by decide
  have hshown : t.stage.screen.shown = watchedSample.program := rfl
  have hne : t.program ≠ watchedSample.program := by
    intro h
    rw [h, hblank] at hcount
    contradiction
  have hreachable : Reachable t := .call (.edit (Edit.applyAll twoTiles)) (.initial ..)
  exact ⟨rfl, rfl, hne, hreachable, hshown ▸ hne.symm⟩

end Session

end Tilewalk
