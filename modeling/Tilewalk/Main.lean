import Tilewalk.CommandLine.Arguments

/-! # The program -/

namespace Tilewalk.CommandLine

/-! ## Files -/

/-- The fault with this number, which may come negated in 32 bits. -/
def numberedFault (number : UInt32) (reason : String) : FileFault :=
  match min number (0 - number) with
  | 2 => .missing
  | 13 => .denied
  | 21 => .directory
  | 36 => .longName
  | n => .system reason n.toNat

/-- What the system says when it does not let a file be read. -/
def fileFault : IO.Error → FileFault
  | .noFileOrDirectory _ number reason | .permissionDenied _ number reason
  | .invalidArgument _ number reason | .inappropriateType _ number reason
  | .resourceExhausted _ number reason | .noSuchThing _ number reason
  | .otherError number reason => numberedFault number reason
  | error => .other (toString error)

def lookUp (name : String) : IO (Except FileFault String) := do
  try
    let bytes ← IO.FS.readBinFile name
    return (String.fromUTF8? bytes).elim (.error .notText) .ok
  catch error => return .error (fileFault error)

/-- The name behind the `@` of a level argument. -/
def levelName (argument : String) : Option String :=
  match argument.toList with
  | '@' :: name => some (String.ofList name)
  | _ => none

def namedFiles (a : Arguments) : IO Files := do
  let names := a.settings.toList ++ (a.level.bind levelName).toList
  names.foldlM (fun files name => return files.insert name (← lookUp name)) Files.empty

/-! ## Paced runs -/

def secondsText (millis : Nat) : String :=
  let rest := toString (millis % 1000)
  s!"{millis / 1000}." ++ String.ofList (List.replicate (3 - rest.length) '0') ++ rest ++ "0"

/-- Plays a level text in real time. -/
def playPaced (settings : Settings) (options : RunOptions) (text : String) :
    IO (Except String Report) := do
  let begun ← IO.monoMsNow
  match beginRun settings ({ layout := settings.view.layout } : ClockedScreen) text with
  | .error reason => return .error reason
  | .ok s =>
    let s ← paceAloud (IO.sleep 16) IO.print options (pacedBudget options.maxTicks) s
    let ended ← IO.monoMsNow
    return .ok (endReport options (secondsText (ended - begun)) s)

/-! ## Requests -/

/-- Carries out a request; a paced run is shown as it goes on. -/
def carryOut (files : Files) (settings : Settings) : Request → IO (Except String Report)
  | .run options true level =>
    match levelText files settings level with
    | .error reason => return .error reason
    | .ok text => playPaced settings options text
  | request => return perform files settings "0.0000" request

/-- Reads the settings and carries out the request of the arguments. -/
def serve (a : Arguments) (request : Request) : IO (Except String Report) := do
  let files ← namedFiles a
  match readSettings files a.settings with
  | .error reason => return .error reason
  | .ok settings => carryOut files settings request

def deliver (report : Report) : IO UInt32 := do
  IO.print report.output
  if report.refusal.isSome then IO.eprintln report.errorText
  return UInt32.ofNat report.exit

def runProgram (args : List String) : IO UInt32 := do
  let report ← match Arguments.read args with
    | .error reason => pure (.error reason)
    | .ok a =>
      match a.request with
      | .error reason => pure (.error reason)
      | .ok request => serve a request
  deliver (.ofExcept report)

end Tilewalk.CommandLine

def main (args : List String) : IO UInt32 := Tilewalk.CommandLine.runProgram args
