import Tilewalk.Screen.Basic

/-! # Screens without delay

Every move ends when it starts. The frames are kept, so that the path of the token can be seen.
-/

namespace Tilewalk

structure InstantScreen where
  layout : Layout
  /-- The frames shown, the latest first. -/
  history : List Frame := []
  refreshed : Nat := 0

namespace InstantScreen

def frames (s : InstantScreen) : List Frame := s.history.reverse

def forgetFrames (s : InstantScreen) : InstantScreen := { s with history := [] }

def draw (s : InstantScreen) (frame : Frame) : InstantScreen :=
  { s with history := frame :: s.history }

instance : Screen InstantScreen where
  corner s := s.layout.corner
  put s target fill := (s.draw ⟨target, fill, none⟩, [])
  glide s target fill length ticket := (s.draw ⟨target, fill, some length⟩, [ticket])
  refresh s _ := ({ s with refreshed := s.refreshed + 1 }, [])

@[simp] theorem frames_draw (s : InstantScreen) (frame : Frame) :
    (s.draw frame).frames = s.frames ++ [frame] := by
  simp [frames, draw]

end InstantScreen

end Tilewalk
