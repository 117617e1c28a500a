import Tilewalk.Proofs.Session.Changes

/-! # What a session tells

The events of a session, put one after the other, are those of whole runs with news between them,
up to the point that has been reached.
-/

namespace Tilewalk

/-! ## Runs as lists of events -/

def judgedEvents (outcomes : List Outcome) : List Event :=
  outcomes.flatMap fun o => [.caseStarted o.index, .caseFinished o]

/-- These are outcomes of the first cases of `n`, in order, and each of them has passed. -/
structure PassedUpTo (n : Nat) (outcomes : List Outcome) : Prop where
  inOrder : outcomes.map Outcome.index = List.range outcomes.length
  passed : ∀ o ∈ outcomes, o.passed = true
  more : outcomes.length < n

/-- A run of `n` cases that is not over. The cases before the one under way, if there is one, have
passed. -/
inductive OpenRun : List Event → Prop where
  | between {n : Nat} {outcomes : List Outcome} : PassedUpTo n outcomes →
      OpenRun (.runStarted n :: judgedEvents outcomes)
  | underway {n : Nat} {outcomes : List Outcome} : PassedUpTo n outcomes →
      OpenRun (.runStarted n :: (judgedEvents outcomes ++ [.caseStarted outcomes.length]))

/-- A run that is over. It has been given up, or its last case has been judged. The run has passed
when that case has, and then there was no other case. -/
inductive ClosedRun : List Event → Prop where
  | stopped {events : List Event} : OpenRun events → ClosedRun (events ++ [.stopped])
  | finished {n : Nat} {outcomes : List Outcome} {last : Outcome} : PassedUpTo n outcomes →
      last.index = outcomes.length → (last.passed = true → outcomes.length + 1 = n) →
      ClosedRun (.runStarted n :: (judgedEvents (outcomes ++ [last]) ++
        [.runFinished last.passed (outcomes ++ [last]).length]))

/-- An event that can come when there is no run. -/
def Event.IsBetween : Event → Prop
  | .levelLoaded _ | .loadFailed _ | .stopped => True
  | _ => False

/-- Whole runs, and what is told between them. -/
inductive Story : List Event → Prop where
  | nil : Story []
  | between {events : List Event} {e : Event} : Story events → e.IsBetween → Story (events ++ [e])
  | run {events run : List Event} : Story events → ClosedRun run → Story (events ++ run)

/-- Whether the last of the events is inside a run. -/
def insideRun (events : List Event) : Bool :=
  events.foldl (fun inside e =>
    match e with
    | .runStarted _ => true
    | .runFinished .. | .stopped => false
    | _ => inside) false

theorem PassedUpTo.first {n : Nat} (h : 0 < n) : PassedUpTo n [] :=
  ⟨rfl, by simp, h⟩

theorem PassedUpTo.snoc {n : Nat} {outcomes : List Outcome} {o : Outcome}
    (h : PassedUpTo n outcomes) (hindex : o.index = outcomes.length) (ho : o.passed = true)
    (hmore : outcomes.length + 1 < n) : PassedUpTo n (outcomes ++ [o]) where
  inOrder := by simp [h.inOrder, hindex, List.range_succ]
  passed := by
    intro o' ho'
    rcases List.mem_append.mp ho' with ho' | ho'
    · exact h.passed o' ho'
    · rw [List.mem_singleton.mp ho', ho]
  more := by simpa using hmore

@[simp] theorem judgedEvents_append (first rest : List Outcome) :
    judgedEvents (first ++ rest) = judgedEvents first ++ judgedEvents rest := by
  simp [judgedEvents]

/-! ## Inside a run -/

@[simp] theorem insideRun_append_runFinished (events : List Event) (passed : Bool) (judged : Nat) :
    insideRun (events ++ [.runFinished passed judged]) = false := by
  simp [insideRun]

@[simp] theorem insideRun_append_stopped (events : List Event) :
    insideRun (events ++ [.stopped]) = false := by
  simp [insideRun]

theorem insideRun_append_judged (events : List Event) (outcomes : List Outcome) :
    insideRun (events ++ judgedEvents outcomes) = insideRun events := by
  induction outcomes generalizing events with
  | nil => simp [judgedEvents]
  | cons o outcomes ih =>
    have hsplit : events ++ judgedEvents (o :: outcomes) =
        (events ++ [.caseStarted o.index, .caseFinished o]) ++ judgedEvents outcomes := by
      simp [judgedEvents]
    rw [hsplit, ih]
    simp [insideRun]

theorem OpenRun.insideRun {run : List Event} (h : OpenRun run) (events : List Event) :
    insideRun (events ++ run) = true := by
  have hstart (n : Nat) (outcomes : List Outcome) :
      Tilewalk.insideRun (events ++ .runStarted n :: judgedEvents outcomes) = true := by
    rw [List.append_cons, insideRun_append_judged]
    simp [Tilewalk.insideRun]
  cases h with
  | between => exact hstart ..
  | @underway n outcomes =>
    have hlast := hstart n outcomes
    rw [← List.cons_append, ← List.append_assoc]
    simpa [Tilewalk.insideRun] using hlast

theorem Story.insideRun {events : List Event} (h : Story events) : insideRun events = false := by
  induction h with
  | nil => rfl
  | @between events e _ he ih =>
    unfold Tilewalk.insideRun at ih ⊢
    rw [List.foldl_append, ih]
    cases e with
    | levelLoaded | loadFailed | stopped => rfl
    | runStarted | caseStarted | caseFinished | runFinished => cases he
  | run _ hrun =>
    cases hrun with
    | stopped => rw [← List.append_assoc, insideRun_append_stopped]
    | finished => rw [← List.cons_append, ← List.append_assoc, insideRun_append_runFinished]

theorem Story.of_openRun {events run : List Event} (h : Story events) (hrun : OpenRun run) :
    ∃ story, Story story ∧ events ++ run <+: story :=
  ⟨events ++ (run ++ [.stopped]), h.run (.stopped hrun), by simp⟩

namespace Session

variable {μ σ ε : Type}

/-! ## The invariant -/

def caseUnderway (s : Session μ σ ε) : List Event :=
  if s.machine.isSome then [.caseStarted s.cursor.index] else []

def runEvents (s : Session μ σ ε) : List Event :=
  .runStarted s.cases.length :: (judgedEvents s.outcomes ++ s.caseUnderway)

/-- The events are a story, with those of the run at its end when there is one. -/
structure Telling (events : List Event) (s : Session μ σ ε) : Prop where
  atRest : s.phase = .stopped → Story events
  inRun : s.phase ≠ .stopped → ∃ before, Story before ∧ events = before ++ s.runEvents
  passed : s.phase ≠ .stopped → PassedUpTo s.cases.length s.outcomes
  index : s.phase ≠ .stopped → s.cursor.index = s.outcomes.length

theorem openRun_runEvents {s : Session μ σ ε} (hpassed : PassedUpTo s.cases.length s.outcomes)
    (hindex : s.cursor.index = s.outcomes.length) : OpenRun s.runEvents := by
  unfold runEvents caseUnderway
  split_ifs
  · rw [hindex]
    exact .underway hpassed
  · rw [List.append_nil]
    exact .between hpassed

theorem Telling.of_inactive {events : List Event} {s : Session μ σ ε} (hphase : s.phase = .stopped)
    (h : Story events) : Telling events s :=
  ⟨fun _ => h, fun hn => absurd hphase hn, fun hn => absurd hphase hn, fun hn => absurd hphase hn⟩

/-- What a run has told is seen from its cases, its outcomes, its cursor and whether it has a
machine. -/
theorem Telling.quiet {events new : List Event} {s t : Session μ σ ε} (h : Telling events s)
    (hnew : new = []) (hphase : t.phase = .stopped ↔ s.phase = .stopped)
    (hcases : t.cases = s.cases) (houtcomes : t.outcomes = s.outcomes)
    (hindex : t.cursor.index = s.cursor.index)
    (hmachine : t.machine.isSome = s.machine.isSome) : Telling (events ++ new) t := by
  rw [hnew, List.append_nil]
  have hrun : t.runEvents = s.runEvents := by
    simp only [runEvents, caseUnderway, hcases, houtcomes, hindex, hmachine]
  refine ⟨fun ht => h.atRest (hphase.mp ht), fun ht => ?_, fun ht => ?_, fun ht => ?_⟩
  · rw [hrun]
    exact h.inRun (mt hphase.mpr ht)
  · rw [hcases, houtcomes]
    exact h.passed (mt hphase.mpr ht)
  · rw [hindex, houtcomes]
    exact h.index (mt hphase.mpr ht)

/-! ## One change -/

theorem telling_begun {events : List Event} {s t : Session μ σ ε} (h : Telling events s)
    {p : Program} {test : Case} (hdue : Due s p test) {m : μ} (hphase : t.phase = s.phase)
    (hcases : t.cases = s.cases) (houtcomes : t.outcomes = s.outcomes)
    (hindex : t.cursor.index = s.cursor.index) (hmachine : t.machine = some m) :
    Telling (events ++ [.caseStarted s.cursor.index]) t := by
  refine ⟨fun ht => ?_, fun ht => ?_, fun ht => ?_, fun ht => ?_⟩
  · exact absurd (hphase ▸ ht) hdue.active
  · obtain ⟨before, hbefore, rfl⟩ := h.inRun hdue.active
    refine ⟨before, hbefore, ?_⟩
    simp [runEvents, caseUnderway, hdue.machine, hcases, houtcomes, hindex, hmachine]
  · rw [hcases, houtcomes]
    exact h.passed hdue.active
  · rw [hindex, houtcomes]
    exact h.index hdue.active

theorem telling_news {events news : List Event} {t : Session μ σ ε} (h : Story events)
    (ht : t.phase = .stopped) (hnews : ∀ e ∈ news, e.IsNews) : Telling (events ++ news) t := by
  refine .of_inactive ht ?_
  induction news generalizing events with
  | nil => simpa using h
  | cons e news ih =>
    obtain ⟨he, hnews⟩ := List.forall_mem_cons.mp hnews
    rw [List.append_cons]
    refine ih (h.between ?_) hnews
    cases e with
    | levelLoaded | loadFailed => trivial
    | runStarted | caseStarted | caseFinished | runFinished | stopped => cases he

section Runs

variable [Editor ε]

theorem telling_opened {events : List Event} {s : Session μ σ ε} (h : Telling events s)
    (hrest : AtRest s) :
    Telling (events ++ [.runStarted s.casesToRun.length]) s.openRun := by
  refine ⟨fun ht => ?_, fun _ => ?_, fun _ => .first s.casesToRun_pos, fun _ => ?_⟩
  · simp [openRun] at ht
  · refine ⟨events, h.atRest hrest.phase, ?_⟩
    simp [runEvents, caseUnderway, openRun, hrest.machine, judgedEvents]
  · simp [openRun, hrest.cursor]

theorem telling_stopped {events : List Event} {s : Session μ σ ε} (h : Telling events s) :
    Telling (events ++ [.stopped]) s.stop := by
  refine .of_inactive rfl ?_
  by_cases hphase : s.phase = .stopped
  · exact (h.atRest hphase).between trivial
  · obtain ⟨before, hbefore, rfl⟩ := h.inRun hphase
    rw [List.append_assoc]
    exact hbefore.run (.stopped (openRun_runEvents (h.passed hphase) (h.index hphase)))

end Runs

variable [Machine μ]

theorem Telling.at_end {events : List Event} {s : Session μ σ ε} (h : Telling events s) {m : μ}
    {test : Case} (hover : Over s m test) (rest : List Event) :
    ∃ before, Story before ∧ events ++ .caseFinished (s.outcomeOf m test) :: rest =
      before ++ .runStarted s.cases.length ::
        (judgedEvents (s.outcomes ++ [s.outcomeOf m test]) ++ rest) := by
  obtain ⟨before, hbefore, rfl⟩ := h.inRun hover.midway.active
  refine ⟨before, hbefore, ?_⟩
  simp [runEvents, caseUnderway, hover.machine, judgedEvents, outcomeOf]

theorem telling_passed {events : List Event} {s : Session μ σ ε} (h : Telling events s) {m : μ}
    {test : Case} (hover : Over s m test) (hpassed : (s.outcomeOf m test).passed = true)
    (hnext : s.cursor.index + 1 < s.cases.length) :
    Telling (events ++ [.caseFinished (s.outcomeOf m test)])
      (s.record (s.outcomeOf m test)).turnToNext := by
  have hactive := hover.midway.active
  have hindex := h.index hactive
  have hmore := (h.passed hactive).snoc (o := s.outcomeOf m test) hindex hpassed (hindex ▸ hnext)
  refine ⟨fun hp => absurd hp hactive, fun _ => ?_, fun _ => hmore, fun _ => ?_⟩
  · exact h.at_end hover []
  · simp [turnToNext, record, tell, hindex]

theorem telling_finished {events : List Event} {s : Session μ σ ε} (h : Telling events s) {m : μ}
    {test : Case} (hover : Over s m test) {t : Session μ σ ε} (ht : t.phase = .stopped)
    (hlast : ¬ ((s.outcomeOf m test).passed = true ∧ s.cursor.index + 1 < s.cases.length)) :
    Telling (events ++ [.caseFinished (s.outcomeOf m test),
      .runFinished (s.outcomeOf m test).passed (s.outcomes.length + 1)]) t := by
  have hactive := hover.midway.active
  have hindex := h.index hactive
  have hpassed := h.passed hactive
  -- A run that has passed ends because there is no next case.
  have hall : (s.outcomeOf m test).passed = true → s.outcomes.length + 1 = s.cases.length := by
    intro ho
    have hmore := hpassed.more
    have hno : ¬ s.cursor.index + 1 < s.cases.length := fun hnext => hlast ⟨ho, hnext⟩
    omega
  obtain ⟨before, hbefore, hevents⟩ := h.at_end hover
    [.runFinished (s.outcomeOf m test).passed (s.outcomes.length + 1)]
  have hrun := hbefore.run (.finished hpassed hindex hall)
  rw [List.length_append, List.length_singleton, ← hevents] at hrun
  exact .of_inactive ht hrun

variable [Screen σ] [Editor ε]

theorem telling_change {events : List Event} {s t : Session μ σ ε} {notes : List Note}
    (h : Telling events s) (hchange : Change s notes t) :
    Telling (events ++ eventsOf notes) t := by
  cases hchange with
  | paused running => exact h.quiet rfl (by simp [running]) rfl rfl rfl rfl
  | resumed paused => exact h.quiet rfl (by simp [paused]) rfl rfl rfl rfl
  | opened rest => exact telling_opened h rest
  | started due | refused due => exact telling_begun h due rfl rfl rfl rfl rfl
  | moved inStep | broke inStep =>
    refine h.quiet rfl Iff.rfl rfl rfl rfl ?_
    rw [inStep.machine]
    rfl
  | turned | landed | continued | screen => exact h.quiet rfl Iff.rfl rfl rfl rfl rfl
  | passed atEnd passed next => exact telling_passed h atEnd passed next
  | finished atEnd last => exact telling_finished h atEnd rfl last
  | stopped => exact telling_stopped h
  | changed rest _ _ _ _ news isNews =>
    rw [eventsOf_map_event]
    exact telling_news (h.atRest rest.phase) rest.phase isNews
  | taken => exact h.quiet rfl Iff.rfl rfl rfl rfl rfl

/-! ## The theorem -/

theorem telling_after (fresh : Nat → μ) (settings : Settings) (screen : σ) (editor : ε)
    (deeds : List (Deed σ)) :
    Telling ((initial fresh settings screen editor).told deeds)
      ((initial fresh settings screen editor).after deeds) := by
  obtain ⟨notes, hpath, hnotes⟩ := path_after_initial fresh settings screen editor deeds
  have hstart : Telling (eventsOf []) (unloaded fresh settings screen editor) :=
    .of_inactive rfl .nil
  have h := hpath.invariant (P := fun notes s => Telling (eventsOf notes) s) []
    (fun _ _ _ _ h hchange => by simpa using telling_change h hchange) hstart
  rw [List.nil_append, hnotes] at h
  exact h

/-- Whatever is done to a session, what it tells is the beginning of a story. The story is inside a
run just while the session is. -/
theorem told_is_a_story (fresh : Nat → μ) (settings : Settings) (screen : σ) (editor : ε)
    (deeds : List (Deed σ)) :
    (∃ story, Story story ∧ (initial fresh settings screen editor).told deeds <+: story) ∧
      insideRun ((initial fresh settings screen editor).told deeds) =
        ((initial fresh settings screen editor).after deeds).phase.isActive := by
  have h := telling_after fresh settings screen editor deeds
  generalize (initial fresh settings screen editor).told deeds = events at h ⊢
  generalize (initial fresh settings screen editor).after deeds = s at h ⊢
  cases hphase : s.phase with
  | stopped =>
    have hstory := h.atRest hphase
    exact ⟨⟨events, hstory, List.prefix_rfl⟩, hstory.insideRun⟩
  | running | paused =>
    have hactive : s.phase ≠ .stopped := by simp [hphase]
    obtain ⟨before, hbefore, rfl⟩ := h.inRun hactive
    have hrun := openRun_runEvents (h.passed hactive) (h.index hactive)
    exact ⟨hbefore.of_openRun hrun, hrun.insideRun before⟩

/-- A run of one case, on a machine that cannot be started, is over without having passed. -/
theorem all_judged_is_not_passed :
    ∃ outcome cases passed judged,
      (initial (ScriptedMachine.nth [{ failStart := true }]) {}
        ({ layout := ⟨0, 0, 1⟩ } : HeldScreen) ({ on := true } : EditorSwitch)).told [.call .play] =
        [.runStarted cases, .caseStarted 0, .caseFinished outcome, .runFinished passed judged] ∧
      ¬ (passed = true ↔ judged = cases) :=
  ⟨_, 1, false, 1, rfl, by decide⟩

end Session

end Tilewalk
