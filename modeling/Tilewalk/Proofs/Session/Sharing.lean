import Tilewalk.Proofs.Level.Link
import Tilewalk.Proofs.Session.Changes

/-! # What is shared can be loaded -/

namespace Tilewalk

namespace Session

variable {μ σ ε : Type}

/-! ## What a run leaves alone -/

structure SameLevel (s t : Session μ σ ε) : Prop where
  program : t.program = s.program
  title : t.title = s.title
  cases : t.cases = s.cases

theorem SameLevel.refl (s : Session μ σ ε) : SameLevel s s := ⟨rfl, rfl, rfl⟩

theorem SameLevel.trans {s t u : Session μ σ ε} (hst : SameLevel s t) (htu : SameLevel t u) :
    SameLevel s u :=
  ⟨htu.program.trans hst.program, htu.title.trans hst.title, htu.cases.trans hst.cases⟩

variable [Editor ε]

theorem sameLevel_conclude (s : Session μ σ ε) (passed : Bool) :
    SameLevel s (s.conclude passed) := by
  unfold conclude
  dsimp only
  split_ifs <;> exact ⟨rfl, rfl, rfl⟩

variable [Machine μ]

theorem sameLevel_proceed (s : Session μ σ ε) : SameLevel s s.proceed := by
  unfold proceed
  split
  next m test _ _ =>
    have h := sameLevel_conclude (s.record (s.outcomeOf m test)) (s.outcomeOf m test).passed
    split_ifs
    · exact ⟨rfl, rfl, rfl⟩
    · exact ⟨h.program, h.title, h.cases⟩
  next => exact .refl s

theorem sameLevel_breakOff (s : Session μ σ ε) (fault : MachineFault) :
    SameLevel s (s.breakOff fault) := by
  have h := sameLevel_proceed (s.failed fault)
  exact ⟨h.program, h.title, h.cases⟩

variable [Screen σ]

theorem sameLevel_beginCase (s : Session μ σ ε) : SameLevel s s.beginCase := by
  cases hp : s.program with
  | none =>
    rw [beginCase_nothing (.inl hp)]
    exact ⟨rfl, rfl, rfl⟩
  | some p =>
    cases ht : s.cases[s.cursor.index]? with
    | none =>
      rw [beginCase_nothing (.inr ht)]
      exact ⟨rfl, rfl, rfl⟩
    | some test =>
      rcases hl : launch (s.fresh s.tally.started) p test with ⟨m, ⟨fault⟩ | ⟨⟨⟩⟩⟩
      · have h := sameLevel_breakOff (s.onMachine m test) fault
        rw [beginCase_failed hp ht hl]
        exact ⟨h.program, h.title, h.cases⟩
      · rw [beginCase_started hp ht hl]
        exact ⟨rfl, rfl, rfl⟩

theorem sameLevel_takeStep (s : Session μ σ ε) : SameLevel s s.takeStep := by
  cases hm : s.machine with
  | none =>
    rw [takeStep_nothing hm]
    exact .refl s
  | some m =>
    rcases hs : Machine.step m with ⟨m', ⟨fault⟩ | ⟨⟨⟩⟩⟩
    · have h := sameLevel_breakOff ((s.showToken m).afterStep m') fault
      rw [takeStep_failed hm hs]
      exact ⟨h.program, h.title, h.cases⟩
    · rw [takeStep_moved hm hs]
      exact ⟨rfl, rfl, rfl⟩

theorem sameLevel_tick (s : Session μ σ ε) : SameLevel s s.tick.1 := by
  have hproceed := sameLevel_proceed { s with awaited := none }
  have hbegin (tasks : List Task) := sameLevel_beginCase { s with tasks }
  have hstep (tasks : List Task) := sameLevel_takeStep { s with tasks }
  unfold tick
  split
  · split_ifs
    · exact ⟨hproceed.program, hproceed.title, hproceed.cases⟩
    · exact .refl s
  · split
    · exact .refl s
    · split
      · exact ⟨rfl, rfl, rfl⟩
      · exact .refl s
      · exact ⟨(hbegin _).program, (hbegin _).title, (hbegin _).cases⟩
      · exact ⟨(hstep _).program, (hstep _).title, (hstep _).cases⟩

theorem program_play (s : Session μ σ ε) : s.play.1.program = s.program := by
  cases hphase : s.phase with
  | running | paused => simp [play, hphase]
  | stopped =>
    by_cases hp : s.program = none
    · rw [play_without_program hphase hp]
    · rw [play_stopped hphase hp]
      exact (sameLevel_beginCase s.openRun).program

end Session

/-! ## Where programs come from -/

/-- A deed that changes the program by edits, if it does. -/
def Deed.IsHonest {σ : Type} : Deed σ → Prop
  | .call (.edit f) => ∀ p : Program, p.Reachable → (f p).1.Reachable
  | _ => True

namespace Session

variable {μ σ ε : Type}

def HasProper (s : Session μ σ ε) : Prop := ∀ p, s.program = some p → p.Reachable

section Levels

variable [Screen σ] {s : Session μ σ ε}

theorem hasProper_install {content : LevelContent} {text : String}
    (hcontent : Level.decode text = .ok content) : HasProper (s.install content) := by
  intro p hp
  have hprogram : (s.install content).program = some content.toProgram := by
    cases content with
    | level | program =>
      rw [install, refresh_eq]
      rfl
  obtain rfl : content.toProgram = p := Option.some.inj (hprogram.symm.trans hp)
  exact .decode hcontent

theorem hasProper_load (h : HasProper s) (text : String) : HasProper (s.load text).1 := by
  unfold load
  split_ifs
  · exact h
  cases hcontent : Level.extract text >>= Level.decode with
  | error fault => exact h
  | ok content =>
    obtain ⟨extracted, -, hdecode⟩ := bind_eq_ok.mp hcontent
    exact hasProper_install hdecode

theorem hasProper_blank {cols rows : Nat} {p : Program} (hp : Program.blank cols rows = .ok p) :
    HasProper { s with program := some p }.refresh := by
  rw [refresh_eq]
  rintro _ ⟨⟩
  exact .blank hp

theorem hasProper_newGrid (h : HasProper s) (cols rows : Nat) :
    HasProper (s.newGrid cols rows).1 := by
  unfold newGrid
  split_ifs
  · exact h
  cases hp : Program.blank cols rows with
  | error fault => exact h
  | ok p => exact hasProper_blank hp

theorem hasProper_edit (h : HasProper s) {α : Type} {f : Program → Program × Except EditFault α}
    (hf : ∀ p : Program, p.Reachable → (f p).1.Reachable) : HasProper (s.edit f).1 := by
  unfold edit
  split_ifs
  · exact h
  cases hp : s.program with
  | none => exact h
  | some p =>
    have hq := hf p (h p hp)
    rcases hfp : f p with ⟨q, ⟨fault⟩ | ⟨a⟩⟩
    · rw [hfp] at hq
      simp only [hfp]
      rintro _ ⟨⟩
      exact hq
    · rw [hfp] at hq
      simp only [hfp]
      rw [refresh_eq]
      rintro _ ⟨⟩
      exact hq

end Levels

variable {μ' σ' ε' : Type} [Machine μ] [Screen σ] [Editor ε]

omit [Machine μ] in
theorem hasProper_initial (fresh : Nat → μ) (settings : Settings) (screen : σ) (editor : ε) :
    HasProper (initial fresh settings screen editor) := by
  have hload : HasProper (unloaded fresh settings screen editor).loadInitial := by
    unfold loadInitial
    split
    · exact hasProper_load (by simp [HasProper, unloaded]) _
    · simp [HasProper, unloaded]
  show HasProper (unloaded fresh settings screen editor).loadInitial.orBlank
  unfold orBlank
  split
  next hp => exact hasProper_blank hp
  next => exact hload

theorem hasProper_deed {s : Session μ σ ε} (h : HasProper s) {deed : Deed σ}
    (hdeed : deed.IsHonest) : HasProper (deed.run s) := by
  match deed, hdeed with
  | .call .play, _ => exact fun p hp => h p ((program_play s).symm.trans hp)
  | .call .tick, _ => exact fun p hp => h p ((sameLevel_tick s).program.symm.trans hp)
  | .call .pause, _ =>
    simp only [Deed.run, Call.run, pause]
    split_ifs <;> exact h
  | .call (.load text), _ => exact hasProper_load h text
  | .call (.newGrid cols rows), _ => exact hasProper_newGrid h cols rows
  | .call (.edit f), hf => exact hasProper_edit h hf
  | .call (.replaceCases cases), _ =>
    simp only [Deed.run, Call.run, replaceCases]
    split_ifs <;> exact h
  | .call .stop, _ | .call .share, _ | .call .takeEvents, _ | .screen _, _ => exact h

/-! ## The theorem -/

theorem settings_after (fresh : Nat → μ) (settings : Settings) (screen : σ) (editor : ε)
    (deeds : List (Deed σ)) :
    ((initial fresh settings screen editor).after deeds).settings = settings := by
  obtain ⟨notes, hpath, -⟩ := path_after_initial fresh settings screen editor deeds
  refine hpath.invariant (P := fun _ s => s.settings = settings) [] ?_ rfl
  exact fun _ _ _ _ hs hchange => hchange.settings.trans hs

section Loading

variable [Screen σ'] {t : Session μ' σ' ε'} (ht : t.phase = .stopped) {text : String}

include ht

theorem load_level {l : Level} (hl : Level.extract text >>= Level.decode = .ok (.level l)) :
    (t.load text).2 = .ok () ∧ (t.load text).1.program = some l.program ∧
      (t.load text).1.cases = l.cases ∧ (t.load text).1.title = some l.title := by
  have hload : t.load text = (t.install (.level l), .ok ()) := by
    unfold load
    rw [if_neg (by simp [ht, Phase.isActive]), hl]
  rw [hload, install, refresh_eq]
  exact ⟨rfl, rfl, rfl, rfl⟩

theorem load_refused {fault : LevelFault}
    (hl : Level.extract text >>= Level.decode = .error fault) :
    (t.load text).2 = .error (.level fault) := by
  unfold load
  rw [if_neg (by simp [ht, Phase.isActive]), hl]

end Loading

/-- What a session shares, another one can load, unless the base of the link is taken for the
document or the endpoints of the program are the same cell. -/
theorem shared_link_loads {fresh : Nat → μ} {settings : Settings} {screen : σ} {editor : ε}
    {deeds : List (Deed σ)} (hdeeds : ∀ deed ∈ deeds, deed.IsHonest) {s : Session μ σ ε}
    (hs : s = (initial fresh settings screen editor).after deeds) {link : String}
    (hlink : s.share = .ok link) (hbase : Level.IsLinkBase settings.share.baseUrl)
    (hends : ∀ p, s.program = some p → p.start.position ≠ p.goal.position)
    [Screen σ'] {t : Session μ' σ' ε'} (ht : t.phase = .stopped) :
    (t.load link).2 = .ok () ∧ (t.load link).1.program = s.program ∧
      ((t.load link).1.cases == s.cases) = true ∧
      (t.load link).1.title = some settings.share.title := by
  have hproper : HasProper s := by
    rw [hs]
    exact after_keeps (P := HasProper)
      (fun deed hdeed s hs => hasProper_deed hs (hdeeds deed hdeed))
      (hasProper_initial fresh settings screen editor)
  have hsettings : s.settings = settings := by
    rw [hs]
    exact settings_after fresh settings screen editor deeds
  cases hp : s.program with
  | none => simp [share, hp] at hlink
  | some p =>
    let l : Level := ⟨settings.share.title, s.cases, p⟩
    obtain rfl : Level.link settings.share.baseUrl l = link := by
      simpa [share, hp, hsettings] using hlink
    have hread := Level.decode_extract_link (l := l) hbase (hproper p hp).wellFormed (hends p hp)
    obtain ⟨hok, hprogram, hcases, htitle⟩ := load_level ht hread
    refine ⟨hok, hprogram, ?_, htitle⟩
    rw [hcases]
    exact Case.map_restarted_beq s.cases

/-- A session on the empty grid, whose links begin with `base`. -/
def linkedFrom (base : String) : Session ScriptedMachine HeldScreen EditorSwitch :=
  initial (ScriptedMachine.nth []) { share := { baseUrl := base } } { layout := ⟨0, 0, 1⟩ }
    { on := true }

theorem phase_linkedFrom (base : String) : (linkedFrom base).phase = .stopped :=
  (atRest_initial ..).phase

theorem share_linkedFrom (base : String) :
    ∃ p, Program.blank 9 9 = .ok p ∧ (linkedFrom base).program = some p ∧
      (linkedFrom base).share = .ok (Level.link base ⟨"Sample", [], p⟩) :=
  ⟨_, rfl, rfl, rfl⟩

theorem shared_link_loads_from_a_page :
    let s := linkedFrom "https://example.org/play#old"
    ∃ link, s.share = .ok link ∧ (sample.load link).2 = .ok () ∧
      (sample.load link).1.program = s.program ∧ (sample.load link).1.title = some "Sample" := by
  intro s
  obtain ⟨p, hblank, hp, hlink⟩ := share_linkedFrom "https://example.org/play#old"
  have hends : ∀ q, s.program = some q → q.start.position ≠ q.goal.position := by
    rintro q hq
    obtain rfl := Option.some.inj (hp.symm.trans hq)
    obtain rfl := Except.ok.inj hblank
    decide
  have hs : s = (linkedFrom "https://example.org/play#old").after [] := rfl
  have hstopped : sample.phase = .stopped := by decide
  obtain ⟨hok, hprogram, -, htitle⟩ :=
    shared_link_loads (by simp) hs hlink (by decide) hends hstopped
  exact ⟨_, hlink, hok, hprogram, htitle⟩

/-- Behind a brace, a session does not load its own link. -/
theorem link_behind_a_brace_is_refused :
    (linkedFrom "\x7b").phase = .stopped ∧ ∃ link fault,
      (linkedFrom "\x7b").share = .ok link ∧ ((linkedFrom "\x7b").load link).2 = .error fault := by
  obtain ⟨p, -, -, hlink⟩ := share_linkedFrom "\x7b"
  have hphase := phase_linkedFrom "\x7b"
  exact ⟨hphase, _, _, hlink, load_refused hphase (Level.decode_extract_link_of_brace _)⟩

end Session

end Tilewalk
