import Tilewalk.CommandLine.Report
import Tilewalk.Machine.Walker
import Tilewalk.Screen.Clocked
import Tilewalk.Screen.Instant

/-! # Playing a level from the command line

The exit status is 0 when every case was judged and has passed, and 1 otherwise.
-/

namespace Tilewalk.CommandLine

structure RunOptions where
  json : Bool := false
  /-- The number of ticks after which a run is given up. -/
  maxTicks : Nat := 1000000

/-- A session that plays for the command line. -/
abbrev Play (σ : Type) := Session Walker σ EditorSwitch

section Plays

variable {σ : Type} [Screen σ]

/-- A session with the level of a text, and not with that of the settings. -/
def openLevel (settings : Settings) (screen : σ) (text : String) : Except String (Play σ) :=
  let settings := { settings with initialLevel := none }
  match (Session.initial (fun _ => {}) settings screen ⟨true, 0⟩ : Play σ).load text with
  | (s, .ok ()) => .ok s
  | (_, .error refusal) => .error refusal.message

/-- A session with the level of a text whose run has begun. -/
def beginRun (settings : Settings) (screen : σ) (text : String) : Except String (Play σ) := do
  let s ← openLevel settings screen text
  match s.play with
  | (s, .ok ()) => .ok s
  | (_, .error refusal) => .error refusal.message

/-- Whether every case was judged and has passed. -/
def allPassed (s : Play σ) : Bool :=
  s.outcomes.length == s.cases.length && s.outcomes.all Outcome.passed

def summary (options : RunOptions) (seconds : String) (s : Play σ) : String :=
  if options.json then
    String.ofList ((Json.Value.list (s.outcomes.map Outcome.toJson)).pretty 0) ++ "\n"
  else
    let passed := (s.outcomes.filter Outcome.passed).length
    s!"{passed}/{s.cases.length} cases passed\n" ++ "\n" ++ s.tally.report seconds ++ "\n"

def endReport (options : RunOptions) (seconds : String) (s : Play σ) : Report :=
  let (s, events) := s.takeEvents
  ⟨if allPassed s then 0 else 1, eventsText options.json events ++ summary options seconds s, none⟩

/-- Plays to the end, or gives up when the ticks are used up. -/
def playThrough (maxTicks : Nat) (s : Play σ) : Play σ :=
  match s.tickAtMost maxTicks with
  | (s, .ran) => s.stop
  | (s, _) => s

end Plays

/-! ## Paced runs -/

/-- The time between two ticks of a paced run that waits. -/
def pause : Duration := .ofMillis 16

/-- One tick of a paced run. While it waits for a move of the token, the clock moves on. -/
def paceTick (s : Play ClockedScreen) : Play ClockedScreen × Tick :=
  match s.tick with
  | (s, .waiting) => (s.onScreen (·.elapse pause), .waiting)
  | result => result

/-- Plays tick by tick, or gives up when the ticks are used up. What is done `between` two ticks is
told what the first of them did. -/
def paceWith {m : Type → Type} [Monad m]
    (between : Tick → Play ClockedScreen → m (Play ClockedScreen)) :
    Nat → Play ClockedScreen → m (Play ClockedScreen)
  | 0, s => pure s.stop
  | budget + 1, s =>
    match paceTick s with
    | (s, .idle) => pure s
    | (s, tick) => between tick s >>= paceWith between budget

def pace (budget : Nat) (s : Play ClockedScreen) : Play ClockedScreen :=
  Id.run (paceWith (fun _ s => pure s) budget s)

/-- Waits with the run, and prints the events that it has told. -/
def showTick {m : Type → Type} [Monad m] (wait : m Unit) (print : String → m Unit)
    (options : RunOptions) (tick : Tick) (s : Play ClockedScreen) : m (Play ClockedScreen) := do
  if tick = .waiting then wait
  let (s, events) := s.takeEvents
  print (eventsText options.json events)
  return s

/-- Plays in real time, and prints the events as they come. -/
def paceAloud {m : Type → Type} [Monad m] (wait : m Unit) (print : String → m Unit)
    (options : RunOptions) : Nat → Play ClockedScreen → m (Play ClockedScreen) :=
  paceWith (showTick wait print options)

/-- The ticks of a paced run; there is at least one. -/
def pacedBudget (maxTicks : Nat) : Nat := max maxTicks 1

/-! ## Either way -/

/-- The text of a level argument: the argument itself, or what the file behind `@` holds. -/
def readLevel (files : Files) (argument : String) : Except String String :=
  match argument.toList with
  | '@' :: rest =>
    let name := String.ofList rest
    (files name).mapError fun fault => s!"{name}: {fault.message}"
  | _ => .ok argument

/-- The level text to play: that of the argument, or else that of the settings. -/
def levelText (files : Files) (settings : Settings) : Option String → Except String String
  | some argument => readLevel files argument
  | none =>
    match settings.initialLevel with
    | some text => .ok text
    | none => .error "no level given: pass LEVEL or set initial_level"

/-- Plays every case of a level text and reports the verdicts. -/
def run (settings : Settings) (options : RunOptions) (paced : Bool) (seconds : String)
    (text : String) : Except String Report := do
  if paced then
    let s ← beginRun settings ({ layout := settings.view.layout } : ClockedScreen) text
    return endReport options seconds (pace (pacedBudget options.maxTicks) s)
  else
    let s ← beginRun settings ({ layout := settings.view.layout } : InstantScreen) text
    return endReport options seconds (playThrough options.maxTicks s)

end Tilewalk.CommandLine
