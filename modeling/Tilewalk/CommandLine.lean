import Tilewalk.CommandLine.Run

/-! # The command line -/

namespace Tilewalk.CommandLine

/-! ## Sharing and describing -/

def share (settings : Settings) (baseUrl : Option String) (text : String) :
    Except String Report := do
  let settings := { settings with
    share := { settings.share with baseUrl := baseUrl.getD settings.share.baseUrl } }
  let s ← openLevel settings ({ layout := settings.view.layout } : InstantScreen) text
  let link ← s.share.mapError Refusal.message
  return ⟨0, link ++ "\n", none⟩

/-- The title and the cases of a level text; a bare program has neither. -/
def titleAndCases : LevelContent → String × List Case
  | .level l => (l.title, l.cases)
  | .program _ => ("(legacy program)", [])

def describe (text : String) : Except String Report := do
  let content ← (Level.extract text >>= Level.decode).mapError LevelFault.message
  let (title, cases) := titleAndCases content
  let p := content.toProgram
  return ⟨0, s!"{title}  [{p.cols}x{p.rows}, {p.tileCount} tiles]\n\n" ++ gridText p ++ "\n" ++
    casesText cases, none⟩

/-! ## Requests -/

/-- What the command line asks for. A level is given as a text, or as `@` and the name of a
file. -/
inductive Request where
  | run (options : RunOptions) (paced : Bool) (level : Option String)
  | share (baseUrl : Option String) (level : String)
  | describe (level : String)

/-- The settings: those of the file with this name, if one is given. -/
def readSettings (files : Files) : Option String → Except String Settings
  | none => .ok {}
  | some name => (Settings.readFile files name).mapError fun fault => s!"{name}: {fault.message}"

/-- Carries out a request. `seconds` is what the report of a run gives as its length. -/
def perform (files : Files) (settings : Settings) (seconds : String) :
    Request → Except String Report
  | .run options paced level => do
    let text ← levelText files settings level
    run settings options paced seconds text
  | .share baseUrl level => do
    let text ← readLevel files level
    share settings baseUrl text
  | .describe level => do
    let text ← readLevel files level
    describe text

/-- Reads the settings file, if one is named, and carries out a request. -/
def execute (files : Files) (settingsName : Option String) (seconds : String)
    (request : Request) : Report :=
  .ofExcept do
    let settings ← readSettings files settingsName
    perform files settings seconds request

end Tilewalk.CommandLine
