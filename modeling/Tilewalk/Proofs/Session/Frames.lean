import Tilewalk.Proofs.Session.Film
import Tilewalk.Proofs.Session.Pausing

/-! # The path of the token

A screen without delay keeps the frames that it was asked to show. These are the films of the machines,
one after the other, whatever is done to the session.
-/

namespace Tilewalk

namespace Session

/-! ## When nothing is shown -/

section Unseen

variable {μ ε : Type} {s t u : Session μ InstantScreen ε}

/-- No machine has been asked for anything, and nothing has been shown. -/
structure Unseen (s t : Session μ InstantScreen ε) : Prop where
  started : t.tally.started = s.tally.started
  steps : t.tally.steps = s.tally.steps
  layout : t.stage.screen.layout = s.stage.screen.layout
  frames : t.stage.screen.frames = s.stage.screen.frames

theorem Unseen.refl (s : Session μ InstantScreen ε) : Unseen s s := ⟨rfl, rfl, rfl, rfl⟩

theorem Unseen.trans (hst : Unseen s t) (htu : Unseen t u) : Unseen s u :=
  ⟨htu.started.trans hst.started, htu.steps.trans hst.steps, htu.layout.trans hst.layout,
    htu.frames.trans hst.frames⟩

theorem unseen_load (s : Session μ InstantScreen ε) (text : String) :
    Unseen s (s.load text).1 := by
  unfold load
  split_ifs
  · exact .refl s
  cases Level.extract text >>= Level.decode with
  | error fault => exact ⟨rfl, rfl, rfl, rfl⟩
  | ok content => cases content <;> exact ⟨rfl, rfl, rfl, rfl⟩

theorem unseen_newGrid (s : Session μ InstantScreen ε) (cols rows : Nat) :
    Unseen s (s.newGrid cols rows).1 := by
  unfold newGrid
  split_ifs
  · exact .refl s
  cases Program.blank cols rows with
  | error fault => exact .refl s
  | ok p => exact ⟨rfl, rfl, rfl, rfl⟩

theorem unseen_edit (s : Session μ InstantScreen ε) {α : Type}
    (f : Program → Program × Except EditFault α) : Unseen s (s.edit f).1 := by
  unfold edit
  split_ifs
  · exact .refl s
  cases s.program with
  | none => exact .refl s
  | some p =>
    rcases hf : f p with ⟨q, ⟨fault⟩ | ⟨a⟩⟩ <;>
      · simp only [hf]
        exact ⟨rfl, rfl, rfl, rfl⟩

theorem unseen_initial [Editor ε] (fresh : Nat → μ) (settings : Settings) (screen : InstantScreen)
    (editor : ε) : Unseen (unloaded fresh settings screen editor)
      (initial fresh settings screen editor) := by
  let s : Session μ InstantScreen ε := unloaded fresh settings screen editor
  have hload : Unseen s s.loadInitial := by
    unfold loadInitial
    split
    · exact unseen_load s _
    · exact .refl s
  refine hload.trans ?_
  show Unseen _ s.loadInitial.orBlank
  unfold orBlank
  split
  · exact ⟨rfl, rfl, rfl, rfl⟩
  · exact .refl _

theorem unseen_proceed [Machine μ] [Editor ε] (s : Session μ InstantScreen ε) :
    Unseen s s.proceed := by
  have hstage := stage_proceed s
  refine ⟨?_, (counts_proceed s).1, by rw [hstage], by rw [hstage]⟩
  unfold proceed
  split
  · split_ifs
    · rfl
    · dsimp only
      rw [tally_conclude]
      exact started_addVerdict ..
  · rfl

end Unseen

end Session

/-! ## What calls record -/

variable {μ ε : Type} [Machine μ] [Editor ε]

/-- The frames that a deed adds to those on the screen. What others do to the screen adds none. -/
def Deed.recorded : Deed InstantScreen → Session μ InstantScreen ε → List Frame
  | .call c, s => (c.run s).1.stage.screen.frames.drop s.stage.screen.frames.length
  | .screen _, _ => []

/-- A deed after which the cells are drawn where they were. -/
def Deed.KeepsLayout : Deed InstantScreen → Prop
  | .call _ => True
  | .screen action => ∀ screen, (action screen).1.layout = screen.layout

namespace Session

/-- All the frames that calls have added. -/
def recorded : List (Deed InstantScreen) → Session μ InstantScreen ε → List Frame
  | [], _ => []
  | deed :: deeds, s => deed.recorded s ++ recorded deeds (deed.run s)

/-! ## The film of a session -/

/-- The frames in `film` are those that go with what the machines have been asked for. -/
structure Filmed (layout : Layout) (notes : List Note) (film : List Frame)
    (s : Session μ InstantScreen ε) : Prop where
  sameLayout : s.stage.screen.layout = layout
  kept : Kept notes s
  film : film = (List.range s.tally.started).flatMap fun i =>
    framesOf layout s.settings (s.fresh i) (ordersTo i notes)

section Films

variable {layout : Layout} {notes new : List Note} {film : List Frame}
  {s t : Session μ InstantScreen ε}

theorem Filmed.launched (h : Filmed layout notes film s) {p : Program} {test : Case}
    {answer : Except MachineFault Unit}
    (hchange : Change s (launchNotes s.tally.started s.cursor.index p test answer) t)
    (hstarted : t.tally.started = s.tally.started + 1)
    (hlayout : t.stage.screen.layout = s.stage.screen.layout) :
    Filmed layout (notes ++ launchNotes s.tally.started s.cursor.index p test answer)
      (film ++ framesOf layout s.settings (s.fresh s.tally.started) (launchOrders p test answer))
      t := by
  refine ⟨hlayout.trans h.sameLayout, kept_change h.kept hchange, ?_⟩
  have hold : ∀ i ∈ List.range s.tally.started,
      ordersTo i (notes ++ launchNotes s.tally.started s.cursor.index p test answer) =
        ordersTo i notes := by
    intro i hi
    have hlt := List.mem_range.mp hi
    rw [ordersTo_append, ordersTo_launchNotes, if_neg (by omega), List.append_nil]
  have hnew : ordersTo s.tally.started
      (notes ++ launchNotes s.tally.started s.cursor.index p test answer) =
        launchOrders p test answer := by
    rw [ordersTo_append, ordersTo_launchNotes, if_pos rfl,
      h.kept.records.strangers _ (Nat.le_refl _), List.nil_append]
  rw [hstarted, List.range_succ, List.flatMap_append, List.flatMap_singleton, hchange.fresh,
    hchange.settings, hnew, h.film]
  congr 1
  exact List.flatMap_congr fun i hi => by rw [hold i hi]

theorem Filmed.stepped (h : Filmed layout notes film s) {m m' : μ} (hm : s.machine = some m)
    {answer : Except MachineFault Unit}
    (hchange : Change s [.order s.serial (.step answer (Machine.isRunning m'))] t)
    (hstarted : t.tally.started = s.tally.started)
    (hlayout : t.stage.screen.layout = s.stage.screen.layout) :
    Filmed layout (notes ++ [.order s.serial (.step answer (Machine.isRunning m'))])
      (film ++ (Order.step answer (Machine.isRunning m')).frames layout s.settings m) t := by
  have hhand := h.kept.inHand m hm
  have hlast : s.tally.started = s.serial + 1 := by
    have hmade := hhand.made
    unfold serial at hmade ⊢
    omega
  refine ⟨hlayout.trans h.sameLayout, kept_change h.kept hchange, ?_⟩
  let order := Order.step answer (Machine.isRunning m')
  have hothers : ∀ i ∈ List.range s.serial,
      ordersTo i (notes ++ [.order s.serial order]) = ordersTo i notes := by
    intro i hi
    have hlt := List.mem_range.mp hi
    have hne : s.serial ≠ i := by omega
    simp [ordersTo, Note.orderTo?, hne]
  have hself : ordersTo s.serial (notes ++ [.order s.serial order]) =
      ordersTo s.serial notes ++ [order] := by
    simp [ordersTo, Note.orderTo?]
  rw [hstarted, hlast, List.range_succ, List.flatMap_append, List.flatMap_singleton,
    hchange.fresh, hchange.settings, hself, framesOf_append, framesOf_singleton,
    ← hhand.makes.eq_obey, ← List.append_assoc, h.film, hlast, List.range_succ,
    List.flatMap_append, List.flatMap_singleton]
  congr 2
  exact List.flatMap_congr fun i hi => by rw [hothers i hi]

theorem Filmed.unasked {layout : Layout} {notes new : List Note} {film : List Frame}
    (h : Filmed layout notes film s) (hpath : Path s new t)
    (hstarted : t.tally.started = s.tally.started) (hsteps : t.tally.steps = s.tally.steps)
    (hlayout : t.stage.screen.layout = s.stage.screen.layout) :
    Filmed layout (notes ++ new) film t := by
  obtain ⟨hfresh, hsettings⟩ := hpath.fresh_and_settings
  refine ⟨hlayout.trans h.sameLayout, hpath.invariant notes ?_ h.kept, ?_⟩
  · exact fun _ _ _ _ => kept_change
  · rw [hstarted, hfresh, hsettings, h.film]
    apply List.flatMap_congr
    intro i _
    rw [ordersTo_append, hpath.ordersTo_of_unasked hstarted hsteps, List.append_nil]

end Films

/-! ## Calls record what goes with their orders -/

/-- Changes lead from one session to the other, and the frames that are added on the way are those
that go with the orders on the way. -/
def Shoots (s t : Session μ InstantScreen ε) : Prop :=
  ∃ new added, Path s new t ∧ takenOf new = [] ∧
    t.stage.screen.frames = s.stage.screen.frames ++ added ∧
    ∀ layout notes film, Filmed layout notes film s → Filmed layout (notes ++ new) (film ++ added) t

section Calls

variable {s t u : Session μ InstantScreen ε}

theorem Shoots.trans (hst : Shoots s t) (htu : Shoots t u) : Shoots s u := by
  obtain ⟨first, shot, hpath, htaken, hframes, hfilmed⟩ := hst
  obtain ⟨rest, shot', hpath', htaken', hframes', hfilmed'⟩ := htu
  refine ⟨first ++ rest, shot ++ shot', hpath.trans hpath', ?_, ?_, fun layout notes film h => ?_⟩
  · rw [takenOf_append, htaken, htaken']
    rfl
  · rw [hframes', hframes, List.append_assoc]
  · rw [← List.append_assoc, ← List.append_assoc]
    exact hfilmed' _ _ _ (hfilmed _ _ _ h)

theorem Unseen.shoots (h : Unseen s t) (hleads : Leads s t) : Shoots s t := by
  obtain ⟨new, hpath, htaken⟩ := hleads
  refine ⟨new, [], hpath, htaken, by rw [h.frames, List.append_nil], fun layout notes film hs => ?_⟩
  rw [List.append_nil]
  exact hs.unasked hpath h.started h.steps h.layout

theorem shoots_proceed (h : Midway s) : Shoots s s.proceed :=
  (unseen_proceed s).shoots (leads_proceed h)

theorem shoots_launched {p : Program} {test : Case} {answer : Except MachineFault Unit}
    (hchange : Change s (launchNotes s.tally.started s.cursor.index p test answer) t)
    (hstarted : t.tally.started = s.tally.started + 1)
    (hlayout : t.stage.screen.layout = s.stage.screen.layout)
    (hframes : t.stage.screen.frames = s.stage.screen.frames ++
      framesOf s.stage.screen.layout s.settings (s.fresh s.tally.started)
        (launchOrders p test answer)) : Shoots s t := by
  refine ⟨_, _, .change .refl hchange, rfl, hframes, fun layout notes film h => ?_⟩
  obtain rfl := h.sameLayout
  exact h.launched hchange hstarted hlayout

theorem shoots_beginCase {p : Program} {test : Case} (h : Due s p test) : Shoots s s.beginCase := by
  rcases beginCase_of_due h with ⟨m, hl, heq⟩ | ⟨m, fault, hl, hmidway, heq⟩
  · rw [heq]
    refine shoots_launched (.started h hl) rfl rfl ?_
    rw [framesOf_launch _ _ hl]
    exact InstantScreen.frames_draw ..
  · rw [heq]
    have hrefused : Shoots s ((s.onMachine m test).failed fault) :=
      shoots_launched (.refused h hl) rfl rfl (List.append_nil _).symm
    exact hrefused.trans (shoots_proceed hmidway)

theorem shoots_stepped {m m' : μ} (hm : s.machine = some m) {answer : Except MachineFault Unit}
    (hchange : Change s [.order s.serial (.step answer (Machine.isRunning m'))] t)
    (hstarted : t.tally.started = s.tally.started)
    (hlayout : t.stage.screen.layout = s.stage.screen.layout)
    (hframes : t.stage.screen.frames = s.stage.screen.frames ++
      (Order.step answer (Machine.isRunning m')).frames s.stage.screen.layout s.settings m) :
    Shoots s t := by
  refine ⟨_, _, .change .refl hchange, rfl, hframes, fun layout notes film h => ?_⟩
  obtain rfl := h.sameLayout
  exact h.stepped hm hchange hstarted hlayout

theorem shoots_takeStep {m : μ} (hin : InStep s m) (h : Midway { s with tasks := [] }) :
    Shoots s { s with tasks := [] }.takeStep := by
  rcases takeStep_of_inStep hin h with ⟨m', hs, heq⟩ | ⟨m', fault, hs, hmidway, heq⟩
  · rw [heq]
    refine shoots_stepped hin.machine (.moved hin hs) rfl rfl ?_
    have hm' : (Machine.step m).1 = m' := congrArg Prod.fst hs
    show ((s.stage.screen.draw _).draw _).frames = _
    rw [InstantScreen.frames_draw, InstantScreen.frames_draw, List.append_assoc, ← hm']
    rfl
  · rw [heq]
    have hbroke : Shoots s ((s.stepped m m').failed fault) :=
      shoots_stepped hin.machine (.broke hin hs) rfl rfl (InstantScreen.frames_draw ..)
    exact hbroke.trans (shoots_proceed hmidway)

theorem shoots_tick (h : Orderly s) : Shoots s s.tick.1 := by
  have htick := h.tickOf
  generalize s.tick = r at htick ⊢
  cases htick with
  | idle | waiting | parked => exact (Unseen.refl s).shoots (.refl s)
  | moved t awaited settled midway =>
    have hunseen : Unseen s { s with awaited := none } := ⟨rfl, rfl, rfl, rfl⟩
    exact (hunseen.shoots (Change.leads (.landed awaited settled) rfl)).trans
      (shoots_proceed midway)
  | stepped running tasks midway =>
    obtain ⟨m, hm⟩ := Option.isSome_iff_exists.mp midway.onCase.1
    exact shoots_takeStep ⟨running, tasks, midway.awaited, hm⟩ midway
  | begun active awaited tasks course =>
    obtain ⟨hturned, p, test, hdue⟩ := turned_of_orderly h active tasks
    have hunseen : Unseen s { s with tasks := [] } := ⟨rfl, rfl, rfl, rfl⟩
    exact (hunseen.shoots (Change.leads hturned rfl)).trans (shoots_beginCase hdue)

theorem shoots_play (h : Orderly s) : Shoots s s.play.1 := by
  cases hphase : s.phase with
  | running =>
    simp only [play, hphase]
    exact (Unseen.refl s).shoots (.refl s)
  | paused =>
    simp only [play, hphase]
    have hunseen : Unseen s { s with phase := .running } := ⟨rfl, rfl, rfl, rfl⟩
    exact hunseen.shoots (Change.leads (.resumed hphase) rfl)
  | stopped =>
    cases hp : s.program with
    | none =>
      rw [play_without_program hphase hp]
      exact (Unseen.refl s).shoots (.refl s)
    | some p =>
      have hrest := h.atRest hphase
      obtain ⟨test, hdue⟩ := due_openRun hrest hp
      have hunseen : Unseen s s.openRun := ⟨rfl, rfl, rfl, rfl⟩
      rw [play_stopped hphase (by simp [hp])]
      exact (hunseen.shoots (Change.leads (.opened hrest) rfl)).trans (shoots_beginCase hdue)

theorem shoots_call (h : Orderly s) {c : Call} (hc : c ≠ .takeEvents) :
    Shoots s (c.run s).1 := by
  cases c with
  | play => exact shoots_play h
  | tick => exact shoots_tick h
  | pause =>
    have hunseen : Unseen s s.pause.1 := by
      unfold pause
      split_ifs <;> exact ⟨rfl, rfl, rfl, rfl⟩
    exact hunseen.shoots (leads_pause s)
  | stop =>
    have hunseen : Unseen s s.stop := ⟨rfl, rfl, rfl, rfl⟩
    exact hunseen.shoots (Change.leads (.stopped s) rfl)
  | load text => exact (unseen_load s text).shoots (leads_load h text)
  | share => exact (Unseen.refl s).shoots (.refl s)
  | newGrid cols rows => exact (unseen_newGrid s cols rows).shoots (leads_newGrid h cols rows)
  | edit f => exact (unseen_edit s f).shoots (leads_edit h f)
  | replaceCases cases =>
    have hunseen : Unseen s (s.replaceCases cases).1 := by
      unfold replaceCases
      split_ifs <;> exact ⟨rfl, rfl, rfl, rfl⟩
    exact hunseen.shoots (leads_replaceCases h cases)
  | takeEvents => exact absurd rfl hc

theorem recorded_call {c : Call} {added : List Frame}
    (h : (c.run s).1.stage.screen.frames = s.stage.screen.frames ++ added) :
    (Deed.call c).recorded s = added := by
  show (c.run s).1.stage.screen.frames.drop s.stage.screen.frames.length = added
  rw [h, List.drop_left]

theorem frames_call (h : Orderly s) (c : Call) : (c.run s).1.stage.screen.frames =
    s.stage.screen.frames ++ (Deed.call c).recorded s := by
  have hadds : ∃ added, (c.run s).1.stage.screen.frames = s.stage.screen.frames ++ added := by
    by_cases hc : c = .takeEvents
    · subst hc
      exact ⟨[], (List.append_nil _).symm⟩
    · obtain ⟨_, added, _, _, hframes, _⟩ := shoots_call h hc
      exact ⟨added, hframes⟩
  obtain ⟨added, hframes⟩ := hadds
  rw [recorded_call hframes, hframes]

theorem frames_after (h : Orderly s) {deeds : List (Deed InstantScreen)}
    (hdeeds : ∀ deed ∈ deeds, ∃ c, deed = .call c) :
    (s.after deeds).stage.screen.frames = s.stage.screen.frames ++ s.recorded deeds := by
  induction deeds generalizing s with
  | nil => exact (List.append_nil _).symm
  | cons deed deeds ih =>
    obtain ⟨c, rfl⟩ := hdeeds deed List.mem_cons_self
    have hrest := ih (orderly_call h c) fun d hd => hdeeds d (List.mem_cons_of_mem _ hd)
    rw [after_cons, recorded, ← List.append_assoc, ← frames_call h c]
    exact hrest

end Calls

/-! ## Deeds record what goes with their orders -/

section Deeds

variable {layout : Layout} {notes : List Note} {film : List Frame}
  {s : Session μ InstantScreen ε}

theorem filmed_deed (h : Filmed layout notes film s) (ho : Orderly s)
    {deed : Deed InstantScreen} (hdeed : deed.KeepsLayout) :
    ∃ new, Path s new (deed.run s) ∧ takenOf new = deed.handed s ∧
      Filmed layout (notes ++ new) (film ++ deed.recorded s) (deed.run s) := by
  cases deed with
  | screen action =>
    have hpath : Path s [] (s.onScreen action) := .change .refl (.screen s action)
    refine ⟨[], hpath, rfl, ?_⟩
    rw [Deed.recorded, List.append_nil film]
    exact h.unasked hpath rfl rfl (hdeed _)
  | call c =>
    by_cases hc : c = .takeEvents
    · subst hc
      have hpath : Path s [.taken s.events] s.takeEvents.1 := .change .refl (.taken s)
      refine ⟨_, hpath, List.append_nil _, ?_⟩
      have hnone : (Deed.call .takeEvents).recorded s = [] := List.drop_length
      rw [hnone, List.append_nil]
      exact h.unasked hpath rfl rfl rfl
    · obtain ⟨new, added, hpath, htaken, hframes, hfilmed⟩ := shoots_call ho hc
      have hhanded : (Deed.call c).handed s = [] := by
        cases c <;> first | rfl | exact absurd rfl hc
      refine ⟨new, hpath, htaken.trans hhanded.symm, ?_⟩
      rw [recorded_call hframes]
      exact hfilmed layout notes film h

theorem filmed_after (h : Filmed layout notes film s) (ho : Orderly s)
    {deeds : List (Deed InstantScreen)} (hdeeds : ∀ deed ∈ deeds, deed.KeepsLayout) :
    ∃ new, Path s new (s.after deeds) ∧ takenOf new = s.handed deeds ∧
      Filmed layout (notes ++ new) (film ++ s.recorded deeds) (s.after deeds) := by
  induction deeds generalizing s notes film with
  | nil =>
    refine ⟨[], .refl, rfl, ?_⟩
    rw [List.append_nil, recorded, List.append_nil]
    exact h
  | cons deed deeds ih =>
    obtain ⟨first, hfirst, htaken, hfilmed⟩ := filmed_deed h ho (hdeeds deed List.mem_cons_self)
    obtain ⟨rest, hrest, htaken', hfilmed'⟩ :=
      ih hfilmed (orderly_deed ho deed) fun d hd => hdeeds d (List.mem_cons_of_mem _ hd)
    refine ⟨first ++ rest, hfirst.trans hrest, by rw [takenOf_append, htaken, htaken']; rfl, ?_⟩
    rw [recorded, ← List.append_assoc, ← List.append_assoc]
    exact hfilmed'

end Deeds

theorem filmed_after_initial (fresh : Nat → μ) (settings : Settings) (screen : InstantScreen)
    (editor : ε) {deeds : List (Deed InstantScreen)}
    (hdeeds : ∀ deed ∈ deeds, deed.KeepsLayout) :
    ∃ notes, Path (unloaded fresh settings screen editor) notes
        ((initial fresh settings screen editor).after deeds) ∧
      eventsOf notes = (initial fresh settings screen editor).told deeds ∧
      Filmed screen.layout notes ((initial fresh settings screen editor).recorded deeds)
        ((initial fresh settings screen editor).after deeds) := by
  obtain ⟨first, hfirst, hnone⟩ := leads_initial fresh settings screen editor
  have hunseen := unseen_initial fresh settings screen editor
  have hrecords : Records fresh 0 [] := ⟨rfl, rfl, by simp, fun _ _ => rfl, by simp [Timely]⟩
  have hstart : Filmed screen.layout [] [] (unloaded fresh settings screen editor) :=
    ⟨rfl, ⟨hrecords, by simp [unloaded]⟩, rfl⟩
  have hinitial : Filmed screen.layout first [] (initial fresh settings screen editor) :=
    hstart.unasked hfirst hunseen.started hunseen.steps hunseen.layout
  have ho := (atRest_initial fresh settings screen editor).orderly
  obtain ⟨rest, hrest, htaken, hfilmed⟩ := filmed_after hinitial ho hdeeds
  have hpath := hfirst.trans hrest
  have hevents := hpath.events
  rw [takenOf_append, hnone, htaken] at hevents
  exact ⟨first ++ rest, hpath, hevents.symm, hfilmed⟩

/-! ## The theorem -/

/-- The frames that calls add are, one case after the other, those of the path that the machine of
the case has taken: the token is put where the machine has been started, and for each step it is put
there again and moved to where the machine has gone. When a step fails, it is only put there again.
Nothing is shown of a machine that could not be started, and no pause shows anything. -/
theorem frames_follow_the_token (fresh : Nat → μ) (settings : Settings) (screen : InstantScreen)
    (editor : ε) {deeds : List (Deed InstantScreen)}
    (hdeeds : ∀ deed ∈ deeds, deed.KeepsLayout) :
    let start : Session μ InstantScreen ε := initial fresh settings screen editor
    let s := start.after deeds
    ((∀ deed ∈ deeds, ∃ c, deed = .call c) →
      s.stage.screen.frames = screen.frames ++ start.recorded deeds) ∧
    ∃ notes, Path (unloaded fresh settings screen editor) notes s ∧
      eventsOf notes = start.told deeds ∧
      ∃ films : Nat → List Frame,
        start.recorded deeds = (List.range s.tally.started).flatMap films ∧
        ∀ i < s.tally.started, ∃ index p test, .made i index p test ∈ notes ∧
          CaseFilm screen.layout settings (fresh i) p test (ordersTo i notes) (films i) ∧
          (films i).IsChain Frame.Follows ∧
          ∀ runs : List Bool,
            ordersTo i notes = walkOrders p test runs → (films i).length = 1 + 2 * runs.length := by
  intro start s
  obtain ⟨notes, hpath, hevents, hfilmed⟩ :=
    filmed_after_initial fresh settings screen editor hdeeds
  obtain ⟨hfresh, hsettings⟩ := hpath.fresh_and_settings
  refine ⟨fun hcalls => ?_, notes, hpath, hevents, _, hfilmed.film, fun i hi => ?_⟩
  · rw [frames_after (atRest_initial fresh settings screen editor).orderly hcalls,
      (unseen_initial fresh settings screen editor).frames]
    rfl
  · obtain ⟨index, p, test, hmade⟩ := hfilmed.kept.records.exists_made hi
    obtain ⟨hproper, m, hmakes⟩ := hfilmed.kept.records.orders i index p test hmade
    rw [hfresh] at hmakes
    rw [hfresh, hsettings]
    have hfilm : CaseFilm screen.layout settings (fresh i) p test (ordersTo i notes) _ :=
      caseFilm_of_orders hproper hmakes
    refine ⟨index, p, test, hmade, hfilm, hfilm.follows, fun runs hruns => ?_⟩
    rw [hruns]
    exact length_framesOf_walk ..

/-- A run of one case in two steps, held before the first one. -/
def heldSteps : List (Deed InstantScreen) :=
  [.call .play, .call .pause, .call .tick, .call .play, .call .tick, .call .tick, .call .tick,
    .call .tick]

theorem frames_follow_the_token_through_a_pause :
    let start : Session ScriptedMachine InstantScreen EditorSwitch :=
      initial (ScriptedMachine.nth [{ steps := 2 }]) {} { layout := ⟨0, 0, 1⟩ } { on := true }
    let frames := (start.after heldSteps).stage.screen.frames
    frames.length = 1 + 2 * 2 ∧ frames.IsChain Frame.Follows ∧
      (start.after heldSteps).phase = .stopped := by
  intro start frames
  have hcalls : ∀ deed ∈ heldSteps, ∃ c, deed = .call c := by simp [heldSteps]
  have hkeeps : ∀ deed ∈ heldSteps, deed.KeepsLayout := by
    intro deed hdeed
    obtain ⟨c, rfl⟩ := hcalls deed hdeed
    trivial
  obtain ⟨hframes, notes, -, -, films, hfilms, hcases⟩ := frames_follow_the_token
    (ScriptedMachine.nth [{ steps := 2 }]) {} { layout := ⟨0, 0, 1⟩ }
    ({ on := true } : EditorSwitch) hkeeps
  have hone : (start.after heldSteps).tally.started = 1 := by decide
  have hfilm : frames = films 0 := by
    show (start.after heldSteps).stage.screen.frames = films 0
    rw [hframes hcalls, hfilms, hone]
    exact List.append_nil _
  obtain ⟨_, _, _, _, _, hfollows, _⟩ := hcases 0 (by rw [hone]; exact Nat.one_pos)
  refine ⟨by decide, ?_, by decide⟩
  rw [hfilm]
  exact hfollows

end Session

end Tilewalk
