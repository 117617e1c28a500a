import Tilewalk.CommandLine

/-! # Command line arguments -/

namespace Tilewalk.CommandLine

structure Arguments where
  /-- The name of the settings file. -/
  settings : Option String := none
  command : Option String := none
  level : Option String := none
  paced : Bool := false
  options : RunOptions := {}
  baseUrl : Option String := none

namespace Arguments

def usage : String :=
  "usage: [--config FILE] run [LEVEL] [--paced] [--json] [--max-ticks N]\n" ++
    "       [--config FILE] share LEVEL [--base-url URL]\n" ++
    "       [--config FILE] show LEVEL"

/-- Takes up the arguments in turn. The log level is accepted, as nothing is logged. -/
def readFrom (a : Arguments) : List String → Except String Arguments
  | [] => .ok a
  | "--paced" :: rest => readFrom { a with paced := true } rest
  | "--json" :: rest => readFrom { a with options := { a.options with json := true } } rest
  | "--config" :: file :: rest => readFrom { a with settings := some file } rest
  | "--log-level" :: _ :: rest => readFrom a rest
  | "--base-url" :: url :: rest => readFrom { a with baseUrl := some url } rest
  | "--max-ticks" :: count :: rest =>
    match count.toNat? with
    | some n => readFrom { a with options := { a.options with maxTicks := n } } rest
    | none => .error usage
  | word :: rest =>
    if a.command.isNone then readFrom { a with command := some word } rest
    else if a.level.isNone then readFrom { a with level := some word } rest
    else .error usage

def read (args : List String) : Except String Arguments := readFrom {} args

def request (a : Arguments) : Except String Request :=
  match a.command, a.level with
  | some "run", level => .ok (.run a.options a.paced level)
  | some "share", some level => .ok (.share a.baseUrl level)
  | some "show", some level => .ok (.describe level)
  | _, _ => .error usage

end Arguments

end Tilewalk.CommandLine
