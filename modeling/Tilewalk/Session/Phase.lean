/-! # Phases of a run and the buttons that follow from them -/

namespace Tilewalk

/-- Whether a run goes on, is held, or there is none. -/
inductive Phase where
  | stopped
  | running
  | paused
deriving DecidableEq

inductive Command where
  | play
  | pause
  | stop
  | load
  | share
deriving DecidableEq

/-- Which buttons can be pressed. -/
structure Buttons where
  play : Bool
  pause : Bool
  stop : Bool
deriving DecidableEq

namespace Phase

/-- Whether there is a run. -/
def isActive : Phase → Bool
  | stopped => false
  | running | paused => true

def display : Phase → String
  | stopped => "stopped"
  | running => "running"
  | paused => "paused"

def buttons : Phase → Buttons
  | stopped => ⟨true, false, false⟩
  | running => ⟨false, true, true⟩
  | paused => ⟨true, false, true⟩

end Phase

namespace Command

def all : List Command := [play, pause, stop, load, share]

def display : Command → String
  | play => "play"
  | pause => "pause"
  | stop => "stop"
  | load => "load"
  | share => "share"

end Command

namespace Buttons

/-- Whether a command is offered. A level can be loaded when there is no run to stop, and shared
at any time. -/
def offers (b : Buttons) : Command → Bool
  | .play => b.play
  | .pause => b.pause
  | .stop => b.stop
  | .load => !b.stop
  | .share => true

end Buttons

end Tilewalk
