import Tilewalk.Program
import Tilewalk.Screen.Ticket
import Tilewalk.Settings

/-! # Screens

A screen shows the token. It may take its time over a move, and settles the ticket of the move
when that is done.
-/

namespace Tilewalk

/-- Something that shows the token. Each action gives the screen after it and the tickets that it
has settled. -/
class Screen (σ : Type) where
  /-- Where the corner of a cell is. -/
  corner : σ → Position → Point
  /-- Shows the token somewhere at once. -/
  put : σ → Point → Fill → σ × List Ticket
  /-- Starts a move of the token that takes some time. -/
  glide : σ → Point → Fill → Duration → Ticket → σ × List Ticket
  /-- Shows a program that has been replaced. -/
  refresh : σ → Program → σ × List Ticket

/-- One thing that a screen was asked to show. What is shown at once has no length. -/
structure Frame where
  target : Point
  fill : Fill
  length : Option Duration

/-! ## Screens with their tickets -/

/-- A screen with the ledger of the tickets that it was handed. -/
structure Stage (σ : Type) where
  screen : σ
  ledger : Ledger := {}

namespace Stage

variable {σ : Type}

/-- Lets the screen act and notes what it settles. -/
def act (s : Stage σ) (action : σ → σ × List Ticket) : Stage σ :=
  let (screen, settled) := action s.screen
  ⟨screen, s.ledger.settleAll settled⟩

variable [Screen σ]

def corner (s : Stage σ) (p : Position) : Point := Screen.corner s.screen p

def put (s : Stage σ) (target : Point) (fill : Fill) : Stage σ :=
  s.act fun screen => Screen.put screen target fill

/-- Starts a move under the next ticket of the ledger. -/
def glide (s : Stage σ) (target : Point) (fill : Fill) (length : Duration) : Stage σ :=
  { s with ledger := s.ledger.issue }.act fun screen =>
    Screen.glide screen target fill length s.ledger.next

def refresh (s : Stage σ) (p : Program) : Stage σ :=
  s.act fun screen => Screen.refresh screen p

end Stage

end Tilewalk
