import Tilewalk.Screen.Basic

/-! # Screens with a clock

The clock is moved by whoever holds the screen. A move ends when the clock first reaches its end.
Whatever takes the place of a move ends it early, so that nobody waits for it in vain.
-/

namespace Tilewalk

structure Move where
  source : Point
  target : Point
  begun : Duration
  length : Duration
  ticket : Ticket

structure ClockedScreen where
  layout : Layout
  now : Duration := 0
  /-- Where the token rests when it does not move. -/
  resting : Point := .origin
  fill : Fill := ""
  move : Option Move := none

namespace ClockedScreen

def isMoving (s : ClockedScreen) : Bool := s.move.isSome

/-- The ticket of the move under way, if there is one. -/
def openTickets (s : ClockedScreen) : List Ticket := (s.move.map Move.ticket).toList

def elapse (s : ClockedScreen) (time : Duration) : ClockedScreen × List Ticket :=
  let s := { s with now := s.now + time }
  match s.move with
  | none => (s, [])
  | some m =>
    if m.begun + m.length ≤ s.now then ({ s with resting := m.target, move := none }, [m.ticket])
    else (s, [])

/-- Where the token is at this moment. -/
def token (s : ClockedScreen) : Point :=
  match s.move with
  | none => s.resting
  | some m =>
    if m.length = 0 then m.target
    else
      let progress := Duration.toSeconds (s.now - m.begun) / Duration.toSeconds m.length
      m.source.between m.target progress

def put (s : ClockedScreen) (target : Point) (fill : Fill) : ClockedScreen × List Ticket :=
  ({ s with resting := target, fill, move := none }, s.openTickets)

/-- Starts a move from where the token rests. One that takes no time has ended already. -/
def glide (s : ClockedScreen) (target : Point) (fill : Fill) (length : Duration)
    (ticket : Ticket) : ClockedScreen × List Ticket :=
  if length = 0 then
    ({ s with resting := target, fill, move := none }, s.openTickets ++ [ticket])
  else
    ({ s with fill, move := some ⟨s.resting, target, s.now, length, ticket⟩ }, s.openTickets)

instance : Screen ClockedScreen where
  corner s := s.layout.corner
  put := put
  glide := glide
  refresh s _ := (s, [])

end ClockedScreen

end Tilewalk
