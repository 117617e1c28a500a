import Tilewalk.Proofs.Session.Pending

/-! # What is refused

A call that is refused leaves the session as it was. Only a level text that cannot be read is told
of. Which calls are refused, and why, follows from the buttons and from whether there is a program.
-/

namespace Tilewalk

def refusalOf {α : Type} : Except Refusal α → Option Refusal
  | .ok _ => none
  | .error r => some r

@[simp] theorem refusalOf_ok {α : Type} (a : α) : refusalOf (.ok a) = none := rfl

@[simp] theorem refusalOf_error {α : Type} (r : Refusal) :
    refusalOf (.error r : Except Refusal α) = some r := rfl

theorem refusalOf_eq_some {α : Type} {x : Except Refusal α} {r : Refusal} :
    refusalOf x = some r ↔ x = .error r := by
  cases x <;> simp

/-- What a session tells of a refusal. -/
def Refusal.news : Refusal → List Event
  | level fault => [.loadFailed fault.message]
  | _ => []

theorem Edit.applyAll_one_of_error {e : Edit} {p q : Program} {fault : EditFault}
    (h : Edit.applyAll [e] p = (q, .error fault)) : q = p := by
  unfold Edit.applyAll at h
  cases hq : e.apply p with
  | ok r => simp [hq, Edit.applyAll] at h
  | error =>
    rw [hq] at h
    exact (congrArg Prod.fst h).symm

namespace Call

/-- The refusal that a reply is, if it is one. -/
def refusal? : (c : Call) → c.Reply → Option Refusal
  | play, reply | pause, reply | load _, reply | newGrid .., reply | replaceCases _, reply =>
    refusalOf (α := Unit) reply
  | share, reply => refusalOf (α := String) reply
  | @edit α _, reply => refusalOf (α := α) reply
  | stop, _ | tick, _ | takeEvents, _ => none

/-- The command that a call gives, of those that can be refused. -/
def command? : Call → Option Command
  | play => some .play
  | pause => some .pause
  | load _ => some .load
  | share => some .share
  | _ => none

/-- A call that replaces or edits the program, or replaces the cases. -/
def IsChange : Call → Prop
  | newGrid .. | edit _ | replaceCases _ => True
  | _ => False

/-- If the call edits the program it does so once, and hands over what it likes. -/
def EditsOnce : Call → Prop
  | edit f => ∃ e : Edit, ∀ p, ((f p).1, (f p).2.map fun _ => ()) = Edit.applyAll [e] p
  | _ => True

end Call

namespace Session

variable {μ σ ε : Type}

/-! ## The refusals there are -/

/-- The calls that are refused, with the reason. -/
inductive Refuses (s : Session μ σ ε) : Call → Refusal → Prop where
  | command {c : Call} {command : Command} : c.command? = some command →
      s.phase.buttons.offers command = false → Refuses s c (.unavailable command s.phase)
  | busy {c : Call} : c.IsChange → s.phase.isActive = true → Refuses s c .busy
  | nothingToPlay : s.phase = .stopped → s.program = none → Refuses s .play .noProgram
  | nothingToShare : s.program = none → Refuses s .share .nothingToShare
  | nothingToEdit {α : Type} (f : Program → Program × Except EditFault α) :
      s.phase = .stopped → s.program = none → Refuses s (.edit f) .noProgram
  | unreadable {text : String} {fault : LevelFault} : s.phase = .stopped →
      Level.extract text >>= Level.decode = .error fault →
      Refuses s (.load text) (.level fault)
  | badGrid {cols rows : Nat} {fault : EditFault} : s.phase = .stopped →
      Program.blank cols rows = .error fault → Refuses s (.newGrid cols rows) (.edit fault)
  | badEdit {α : Type} {f : Program → Program × Except EditFault α} {p : Program}
      {fault : EditFault} : s.phase = .stopped → s.program = some p → (f p).2 = .error fault →
      Refuses s (.edit f) (.edit fault)

variable {s : Session μ σ ε} {r : Refusal}

/-! ## Only these are refused, and they change nothing -/

theorem pause_refused (h : s.pause.2 = .error r) : Refuses s .pause r ∧ s.pause.1 = s := by
  unfold pause at h ⊢
  split_ifs at h ⊢ with hp
  obtain rfl := Except.error.inj h
  refine ⟨.command rfl ?_, rfl⟩
  cases hphase : s.phase with
  | running => exact absurd hphase hp
  | stopped | paused => rfl

theorem replaceCases_refused {cases : List Case} (h : (s.replaceCases cases).2 = .error r) :
    Refuses s (.replaceCases cases) r ∧ (s.replaceCases cases).1 = s := by
  unfold replaceCases at h ⊢
  split_ifs at h ⊢ with hactive
  obtain rfl := Except.error.inj h
  exact ⟨.busy trivial hactive, rfl⟩

theorem share_refused [Screen σ] (h : s.share = .error r) : Refuses s .share r := by
  unfold share at h
  cases hp : s.program with
  | none =>
    rw [hp] at h
    obtain rfl := Except.error.inj h
    exact .nothingToShare hp
  | some p => simp [hp] at h

theorem stopped_of_inactive (h : ¬ s.phase.isActive = true) : s.phase = .stopped := by
  cases hp : s.phase with
  | stopped => rfl
  | running | paused => simp [hp, Phase.isActive] at h

section Levels

variable [Screen σ]

theorem load_refused_tells {text : String} (h : (s.load text).2 = .error r) :
    Refuses s (.load text) r ∧
      (s.load text).1 = { s with events := s.events ++ r.news } := by
  unfold load at h ⊢
  split_ifs at h ⊢ with hactive
  · obtain rfl := Except.error.inj h
    refine ⟨.command rfl ?_, by simp [Refusal.news]⟩
    cases hp : s.phase with
    | stopped => simp [hp, Phase.isActive] at hactive
    | running | paused => rfl
  · cases hread : Level.extract text >>= Level.decode with
    | ok content => simp [hread] at h
    | error fault =>
      rw [hread] at h
      obtain rfl := Except.error.inj h
      exact ⟨.unreadable (stopped_of_inactive hactive) hread, rfl⟩

theorem newGrid_refused {cols rows : Nat} (h : (s.newGrid cols rows).2 = .error r) :
    Refuses s (.newGrid cols rows) r ∧ (s.newGrid cols rows).1 = s := by
  unfold newGrid at h ⊢
  split_ifs at h ⊢ with hactive
  · obtain rfl := Except.error.inj h
    exact ⟨.busy trivial hactive, rfl⟩
  · cases hblank : Program.blank cols rows with
    | ok p => simp [hblank] at h
    | error fault =>
      rw [hblank] at h
      obtain rfl := Except.error.inj h
      exact ⟨.badGrid (stopped_of_inactive hactive) hblank, rfl⟩

theorem edit_refused {α : Type} {f : Program → Program × Except EditFault α}
    (h : (s.edit f).2 = .error r) : Refuses s (.edit f) r ∧ ((s.edit f).1 = s ∨
      ∃ p fault, s.program = some p ∧ (f p).2 = .error fault ∧
        (s.edit f).1 = { s with program := some (f p).1 }) := by
  unfold edit at h ⊢
  split_ifs at h ⊢ with hactive
  · obtain rfl := Except.error.inj h
    exact ⟨.busy trivial hactive, .inl rfl⟩
  · have hstopped := stopped_of_inactive hactive
    cases hp : s.program with
    | none =>
      rw [hp] at h
      obtain rfl := Except.error.inj h
      exact ⟨.nothingToEdit f hstopped hp, .inl rfl⟩
    | some p =>
      rcases hf : f p with ⟨q, ⟨fault⟩ | ⟨a⟩⟩
      · simp only [hp, hf] at h ⊢
        obtain rfl := Except.error.inj h
        exact ⟨.badEdit hstopped hp (by rw [hf]), .inr ⟨p, fault, rfl, by rw [hf], by rw [hf]⟩⟩
      · simp [hp, hf] at h

end Levels

variable [Machine μ] [Screen σ] [Editor ε]

theorem play_refused (h : s.play.2 = .error r) : Refuses s .play r ∧ s.play.1 = s := by
  cases hphase : s.phase with
  | running =>
    simp only [play, hphase] at h ⊢
    obtain rfl := Except.error.inj h
    refine ⟨?_, trivial⟩
    rw [← hphase]
    exact .command rfl (by rw [hphase]; rfl)
  | paused => simp [play, hphase] at h
  | stopped =>
    by_cases hp : s.program = none
    · rw [play_without_program hphase hp] at h ⊢
      obtain rfl := Except.error.inj h
      exact ⟨.nothingToPlay hphase hp, rfl⟩
    · rw [play_stopped hphase hp] at h
      cases h

/-! ## Which calls are refused -/

omit [Machine μ] [Screen σ] [Editor ε] in
theorem Refuses.news_of_ne_load {c : Call} (h : Refuses s c r) (hc : ∀ text, c ≠ .load text) :
    r.news = [] := by
  cases h with
  | unreadable => exact absurd rfl (hc _)
  | command | busy | nothingToPlay | nothingToShare | nothingToEdit | badGrid | badEdit => rfl

theorem refuses_of_refusal {c : Call} (h : c.refusal? (c.run s).2 = some r) : Refuses s c r := by
  cases c with
  | play => exact (play_refused (refusalOf_eq_some.mp h)).1
  | pause => exact (pause_refused (refusalOf_eq_some.mp h)).1
  | load text => exact (load_refused_tells (refusalOf_eq_some.mp h)).1
  | share => exact share_refused (refusalOf_eq_some.mp h)
  | newGrid cols rows => exact (newGrid_refused (refusalOf_eq_some.mp h)).1
  | edit f => exact (edit_refused (refusalOf_eq_some.mp h)).1
  | replaceCases cases => exact (replaceCases_refused (refusalOf_eq_some.mp h)).1
  | stop | tick | takeEvents => cases h

theorem run_of_refusal {c : Call} (hc : c.EditsOnce) (h : c.refusal? (c.run s).2 = some r) :
    (c.run s).1 = { s with events := s.events ++ r.news } := by
  have hnews := (refuses_of_refusal h).news_of_ne_load
  have hsame (hs : (c.run s).1 = s) (hc : ∀ text, c ≠ .load text) :
      (c.run s).1 = { s with events := s.events ++ r.news } := by
    rw [hs, hnews hc, List.append_nil]
  cases c with
  | play => exact hsame (play_refused (refusalOf_eq_some.mp h)).2 (by simp)
  | pause => exact hsame (pause_refused (refusalOf_eq_some.mp h)).2 (by simp)
  | load text => exact (load_refused_tells (refusalOf_eq_some.mp h)).2
  | share => exact hsame rfl (by simp)
  | newGrid cols rows => exact hsame (newGrid_refused (refusalOf_eq_some.mp h)).2 (by simp)
  | edit f =>
    obtain ⟨e, he⟩ := hc
    refine hsame ?_ (by simp)
    obtain hs | ⟨p, fault, hp, hfault, hs⟩ := (edit_refused (refusalOf_eq_some.mp h)).2
    · exact hs
    · have hone := (he p).symm
      rw [hfault] at hone
      refine hs.trans ?_
      rw [Edit.applyAll_one_of_error hone, ← hp]
  | replaceCases cases =>
    exact hsame (replaceCases_refused (refusalOf_eq_some.mp h)).2 (by simp)
  | stop | tick | takeEvents => cases h

theorem Refuses.refusal {c : Call} (h : Refuses s c r) : c.refusal? (c.run s).2 = some r := by
  have hinactive (hp : s.phase = .stopped) : s.phase.isActive = false := by rw [hp]; rfl
  cases h with
  | @command c command hcommand hoffers =>
    cases c with
    | play =>
      obtain rfl := Option.some.inj hcommand
      cases hp : s.phase with
      | running => simp [Call.refusal?, Call.run, play, hp]
      | stopped | paused => simp [hp, Phase.buttons, Buttons.offers] at hoffers
    | pause =>
      obtain rfl := Option.some.inj hcommand
      have hp : s.phase ≠ .running := by
        intro hp
        simp [hp, Phase.buttons, Buttons.offers] at hoffers
      simp [Call.refusal?, Call.run, pause, hp]
    | load text =>
      obtain rfl := Option.some.inj hcommand
      have hactive : s.phase.isActive = true := by
        cases hp : s.phase with
        | stopped => simp [hp, Phase.buttons, Buttons.offers] at hoffers
        | running | paused => rfl
      simp [Call.refusal?, Call.run, load, hactive]
    | share =>
      obtain rfl := Option.some.inj hcommand
      simp [Buttons.offers] at hoffers
    | stop | tick | newGrid | edit | replaceCases | takeEvents => cases hcommand
  | @busy c hchange hactive =>
    cases c with
    | newGrid => simp [Call.refusal?, Call.run, newGrid, hactive]
    | edit => simp [Call.refusal?, Call.run, edit, hactive]
    | replaceCases => simp [Call.refusal?, Call.run, replaceCases, hactive]
    | play | pause | load | share | stop | tick | takeEvents => cases hchange
  | nothingToPlay hp hprogram =>
    simp [Call.refusal?, Call.run, play_without_program hp hprogram]
  | nothingToShare hprogram => simp [Call.refusal?, Call.run, share, hprogram]
  | nothingToEdit f hp hprogram =>
    simp [Call.refusal?, Call.run, edit, hinactive hp, hprogram]
  | unreadable hp hread => simp [Call.refusal?, Call.run, load, hinactive hp, hread]
  | badGrid hp hblank => simp [Call.refusal?, Call.run, newGrid, hinactive hp, hblank]
  | @badEdit α f p fault hp hprogram hf =>
    simp [Call.refusal?, Call.run, edit, hinactive hp, hprogram, hf]

theorem refusal_iff {c : Call} : c.refusal? (c.run s).2 = some r ↔ Refuses s c r :=
  ⟨refuses_of_refusal, Refuses.refusal⟩

/-! ## The theorem -/

/-- A call that is refused changes nothing, and tells nothing but of a level text that cannot be
read. A command is unavailable just when its button cannot be pressed, the program and the cases
cannot be changed just while there is a run, and a run cannot be started just without a program. -/
theorem refusals_change_nothing (s : Session μ σ ε) :
    (∀ (c : Call) (r : Refusal), c.EditsOnce → c.refusal? (c.run s).2 = some r →
      (c.run s).1 = { s with events := s.events ++ r.news } ∧
      ∀ fault, r = .level fault →
        ∃ text, c = .load text ∧ Level.extract text >>= Level.decode = .error fault) ∧
    (∀ (c : Call) (command : Command), c.command? = some command →
      (c.refusal? (c.run s).2 = some (.unavailable command s.phase) ↔
        s.phase.buttons.offers command = false)) ∧
    (∀ (c : Call) (command : Command) (phase : Phase),
      c.refusal? (c.run s).2 = some (.unavailable command phase) →
        c.command? = some command ∧ phase = s.phase ∧ command ≠ .share) ∧
    (∀ c : Call, c.IsChange →
      (c.refusal? (c.run s).2 = some .busy ↔ s.phase.isActive = true)) ∧
    (s.phase = .stopped → ((∃ r, s.play.2 = .error r) ↔ s.program = none)) := by
  refine ⟨fun c r hc h => ⟨run_of_refusal hc h, ?_⟩, fun c command hcommand => ?_,
    fun c command phase h => ?_, fun c hc => ?_, fun hp => ?_⟩
  · rintro fault rfl
    cases refusal_iff.mp h with
    | unreadable _ hread => exact ⟨_, rfl, hread⟩
  · rw [refusal_iff]
    constructor
    · intro h
      cases h with
      | command _ hoffers => exact hoffers
    · exact .command hcommand
  · cases refusal_iff.mp h with
    | command hcommand hoffers =>
      refine ⟨hcommand, rfl, ?_⟩
      rintro rfl
      cases hoffers
  · rw [refusal_iff]
    constructor
    · intro h
      cases h with
      | busy _ hactive => exact hactive
    · exact .busy hc
  · constructor
    · rintro ⟨r, hr⟩
      cases (play_refused hr).1 with
      | busy hchange => cases hchange
      | command hcommand hoffers =>
        obtain rfl := Option.some.inj hcommand
        rw [hp] at hoffers
        cases hoffers
      | nothingToPlay _ hprogram => exact hprogram
    · intro hprogram
      exact ⟨_, congrArg Prod.snd (play_without_program hp hprogram)⟩

theorem refusals_change_nothing_in_a_move :
    let s := (Call.tick.run (Call.play.run sample).1).1
    let place : Edit := .placeTile ⟨4, 0⟩ ⟨.conveyor, .identity⟩
    s.play.1 = { s with events := s.events ++ [] } ∧
      (sample.load "").1 =
        { sample with events := sample.events ++ [.loadFailed LevelFault.empty.message] } ∧
      (sample.edit (Edit.applyAll [place])).1 =
        { sample with events := sample.events ++ [] } := by
  intro s place
  obtain ⟨hrun, -⟩ := refusals_change_nothing s
  obtain ⟨hrest, -⟩ := refusals_change_nothing sample
  have hplay : Call.play.refusal? (Call.play.run s).2 = some (.unavailable .play .running) := rfl
  have hload : (Call.load "").refusal? ((Call.load "").run sample).2 = some (.level .empty) := rfl
  have hedit : (Call.edit (Edit.applyAll [place])).refusal?
      ((Call.edit (Edit.applyAll [place])).run sample).2 = some (.edit (.reserved ⟨4, 0⟩)) := rfl
  have honce : (Call.edit (Edit.applyAll [place])).EditsOnce := by
    refine ⟨place, fun p => Prod.ext rfl ?_⟩
    cases (Edit.applyAll [place] p).2 <;> rfl
  exact ⟨(hrun .play _ trivial hplay).1, (hrest (.load "") _ trivial hload).1,
    (hrest (.edit (Edit.applyAll [place])) _ honce hedit).1⟩

end Session

end Tilewalk
