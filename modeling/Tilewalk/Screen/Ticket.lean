/-! # Tickets for moves

A run waits for the moves of its token without knowing how they are shown. Each move gets a
ticket, and whoever shows it settles the ticket when the move has ended. A ledger keeps the
tickets that have been handed out and are still open.
-/

namespace Tilewalk

/-- The ticket of one move, by the order in which they are handed out. -/
structure Ticket where
  serial : Nat
deriving DecidableEq

/-- The number of tickets handed out, and those of them that are open, the latest first. -/
structure Ledger where
  issued : Nat := 0
  pending : List Ticket := []

namespace Ledger

/-- The ticket that is handed out next. -/
def next (l : Ledger) : Ticket := ⟨l.issued⟩

def issue (l : Ledger) : Ledger := ⟨l.issued + 1, l.next :: l.pending⟩

/-- Settles a ticket. One that is not open changes nothing. -/
def settle (l : Ledger) (t : Ticket) : Ledger := { l with pending := l.pending.filter (· ≠ t) }

def settleAll (l : Ledger) (ts : List Ticket) : Ledger := ts.foldl settle l

/-- Whether a ticket has been handed out and settled. -/
def isSettled (l : Ledger) (t : Ticket) : Bool := t.serial < l.issued && t ∉ l.pending

theorem mem_pending_settle {l : Ledger} {t u : Ticket} :
    u ∈ (l.settle t).pending ↔ u ∈ l.pending ∧ u ≠ t := by
  simp [settle]

@[simp] theorem issued_settleAll (l : Ledger) (ts : List Ticket) :
    (l.settleAll ts).issued = l.issued := by
  induction ts generalizing l with
  | nil => rfl
  | cons t ts ih => exact ih _

theorem mem_pending_settleAll {l : Ledger} {ts : List Ticket} {u : Ticket} :
    u ∈ (l.settleAll ts).pending ↔ u ∈ l.pending ∧ u ∉ ts := by
  induction ts generalizing l with
  | nil => simp [settleAll]
  | cons t ts ih =>
    have h : u ∈ (l.settleAll (t :: ts)).pending ↔ u ∈ (l.settle t).pending ∧ u ∉ ts := ih
    rw [h, mem_pending_settle, List.mem_cons, not_or, and_assoc]

end Ledger

end Tilewalk
