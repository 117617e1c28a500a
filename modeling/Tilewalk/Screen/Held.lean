import Tilewalk.Screen.Basic

/-! # Screens that hold their tickets

Every move lasts until the screen is told to let go of its ticket.
-/

namespace Tilewalk

structure HeldScreen where
  layout : Layout
  /-- The tickets held, the oldest first. -/
  held : List Ticket := []
  puts : Nat := 0
  glides : Nat := 0
  last : Option Frame := none

namespace HeldScreen

def releaseAll (s : HeldScreen) : HeldScreen × List Ticket := ({ s with held := [] }, s.held)

/-- Settles the oldest ticket held. -/
def releaseFirst (s : HeldScreen) : HeldScreen × List Ticket :=
  ({ s with held := s.held.tail }, s.held.take 1)

instance : Screen HeldScreen where
  corner s := s.layout.corner
  put s target fill := ({ s with puts := s.puts + 1, last := some ⟨target, fill, none⟩ }, [])
  glide s target fill length ticket :=
    ({ s with
        held := s.held ++ [ticket]
        glides := s.glides + 1
        last := some ⟨target, fill, some length⟩ }, [])
  refresh s _ := (s, [])

end HeldScreen

end Tilewalk
