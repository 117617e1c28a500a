import Tilewalk.Level.Link
import Tilewalk.Session.Progress

/-! # What a session can be told

A program and its cases are changed only when there is no run. A command that is refused says
why.
-/

namespace Tilewalk.Session

variable {μ σ ε : Type} [Machine μ] [Screen σ] [Editor ε]

/-! ## The run -/

/-- Starts a run, or takes up a paused one. A level without cases gets the default one. -/
def play (s : Session μ σ ε) : Session μ σ ε × Except Refusal Unit :=
  match s.phase with
  | .running => (s, .error (.unavailable .play s.phase))
  | .paused => ({ s with phase := .running }, .ok ())
  | .stopped =>
    if s.program.isNone then (s, .error .noProgram)
    else
      let cases := if s.cases.isEmpty then [Case.default] else s.cases
      let s := { s with
        editor := Editor.forbid s.editor
        cases
        outcomes := []
        phase := .running }.tell (.runStarted cases.length)
      (s.beginCase, .ok ())

/-- Holds the run before its next step. -/
def pause (s : Session μ σ ε) : Session μ σ ε × Except Refusal Unit :=
  if s.phase = .running then ({ s with phase := .paused }, .ok ())
  else (s, .error (.unavailable .pause s.phase))

def stop (s : Session μ σ ε) : Session μ σ ε := s.close.tell .stopped

/-! ## Levels -/

/-- Puts what a level text holds in place. A bare program leaves the cases and the title. -/
def install (s : Session μ σ ε) : LevelContent → Session μ σ ε
  | .level l =>
    { s with program := some l.program, title := some l.title, cases := l.cases }.refresh.tell
      (.levelLoaded (some l.title))
  | .program p => { s with program := some p }.refresh.tell (.levelLoaded none)

/-- Takes the program, and what comes with it, from a level text or a share link. -/
def load (s : Session μ σ ε) (text : String) : Session μ σ ε × Except Refusal Unit :=
  if s.phase.isActive then (s, .error (.unavailable .load s.phase))
  else
    match Level.extract text >>= Level.decode with
    | .ok content => (s.install content, .ok ())
    | .error fault => (s.tell (.loadFailed fault.message), .error (.level fault))

/-- The link to the program and its cases, under the title of the settings. -/
def share (s : Session μ σ ε) : Except Refusal String :=
  match s.program with
  | none => .error .nothingToShare
  | some program =>
    .ok (Level.link s.settings.share.baseUrl ⟨s.settings.share.title, s.cases, program⟩)

/-! ## Changes -/

def newGrid (s : Session μ σ ε) (cols rows : Nat) : Session μ σ ε × Except Refusal Unit :=
  if s.phase.isActive then (s, .error .busy)
  else
    match Program.blank cols rows with
    | .ok p => ({ s with program := some p }.refresh, .ok ())
    | .error fault => (s, .error (.edit fault))

/-- Lets `f` change the program. What `f` has done before it fails remains. -/
def edit {α : Type} (s : Session μ σ ε) (f : Program → Program × Except EditFault α) :
    Session μ σ ε × Except Refusal α :=
  if s.phase.isActive then (s, .error .busy)
  else
    match s.program with
    | none => (s, .error .noProgram)
    | some p =>
      let (p, result) := f p
      let s := { s with program := some p }
      match result with
      | .ok a => (s.refresh, .ok a)
      | .error fault => (s, .error (.edit fault))

def replaceCases (s : Session μ σ ε) (cases : List Case) : Session μ σ ε × Except Refusal Unit :=
  if s.phase.isActive then (s, .error .busy) else ({ s with cases }, .ok ())

/-! ## The first state -/

/-- Loads the level of the settings; one that is refused is passed over. -/
def loadInitial (s : Session μ σ ε) : Session μ σ ε :=
  match s.settings.initialLevel with
  | some text => (s.load text).1
  | none => s

/-- Falls back on the empty grid of the settings. -/
def orBlank (s : Session μ σ ε) : Session μ σ ε :=
  match s.program, Program.blank s.settings.run.defaultCols s.settings.run.defaultRows with
  | none, .ok p => { s with program := some p }.refresh
  | _, _ => s

/-- A session without a run, on the level of the settings or else on an empty grid. -/
def initial (fresh : Nat → μ) (settings : Settings) (screen : σ) (editor : ε) : Session μ σ ε :=
  let s : Session μ σ ε :=
    { fresh, settings, stage := { screen }, editor := Editor.allow editor }
  s.loadInitial.orBlank

end Tilewalk.Session
