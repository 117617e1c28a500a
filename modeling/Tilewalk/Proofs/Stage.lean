import Tilewalk.Screen.Instant

/-! # Tickets of a stage

Whatever a screen does, only a move hands out a ticket.
-/

namespace Tilewalk

/-! ## Ledgers -/

namespace Ledger

theorem settle_of_not_mem {l : Ledger} {t : Ticket} (h : t ∉ l.pending) : l.settle t = l := by
  unfold settle
  rw [List.filter_eq_self.mpr]
  intro u hu
  simpa using fun hut : u = t => h (hut ▸ hu)

theorem settle_comm (l : Ledger) (t u : Ticket) :
    (l.settle t).settle u = (l.settle u).settle t := by
  unfold settle
  simp only [List.filter_filter, Bool.and_comm]

theorem settle_settleAll (l : Ledger) (t : Ticket) (us : List Ticket) :
    (l.settle t).settleAll us = (l.settleAll us).settle t := by
  induction us generalizing l with
  | nil => rfl
  | cons u us ih =>
    simp only [settleAll, List.foldl_cons] at ih ⊢
    rw [settle_comm, ih]

theorem settle_issue {l : Ledger} {t : Ticket} (h : l.next ≠ t) :
    (l.settle t).issue = l.issue.settle t := by
  simp [settle, issue, next, show (⟨l.issued⟩ : Ticket) ≠ t from h]

end Ledger

/-! ## Stages -/

namespace Stage

variable {σ : Type}

/-- The stage when a ticket has been settled, whoever has done that. -/
def settle (s : Stage σ) (t : Ticket) : Stage σ := { s with ledger := s.ledger.settle t }

theorem settle_act (s : Stage σ) (t : Ticket) (action : σ → σ × List Ticket) :
    (s.settle t).act action = (s.act action).settle t := by
  simp only [act, settle, Ledger.settle_settleAll]

theorem settle_glide [Screen σ] {s : Stage σ} {t : Ticket} (h : s.ledger.next ≠ t)
    (target : Point) (fill : Fill) (length : Duration) :
    (s.settle t).glide target fill length = (s.glide target fill length).settle t := by
  unfold glide
  rw [← settle_act]
  simp only [settle, Ledger.settle_issue h]
  rfl

theorem pending_act (s : Stage σ) (action : σ → σ × List Ticket) :
    (s.act action).ledger.pending ⊆ s.ledger.pending :=
  fun _ h => (Ledger.mem_pending_settleAll.mp h).1

theorem pending_glide [Screen σ] (s : Stage σ) (target : Point) (fill : Fill)
    (length : Duration) :
    (s.glide target fill length).ledger.pending ⊆ s.ledger.next :: s.ledger.pending :=
  pending_act ..

@[simp] theorem issued_act (s : Stage σ) (action : σ → σ × List Ticket) :
    (s.act action).ledger.issued = s.ledger.issued := by
  simp [act]

@[simp] theorem issued_glide [Screen σ] (s : Stage σ) (target : Point) (fill : Fill)
    (length : Duration) : (s.glide target fill length).ledger.issued = s.ledger.issued + 1 := by
  simp [glide, Ledger.issue]

/-- What is settled stays settled, whatever the screen does. -/
theorem isSettled_act {s : Stage σ} {t : Ticket} (h : s.ledger.isSettled t = true)
    (action : σ → σ × List Ticket) : (s.act action).ledger.isSettled t = true := by
  simp only [Ledger.isSettled, Bool.and_eq_true, decide_eq_true_eq] at h ⊢
  refine ⟨by simpa using h.1, fun ht => h.2 ?_⟩
  exact (Ledger.mem_pending_settleAll.mp ht).1

theorem isSettled_glide (s : Stage InstantScreen) (target : Point) (fill : Fill)
    (length : Duration) : (s.glide target fill length).ledger.isSettled s.ledger.next = true := by
  have hissued : s.ledger.next.serial < (s.glide target fill length).ledger.issued := by
    simp [Ledger.next]
  have hpending : s.ledger.next ∉ (s.glide target fill length).ledger.pending := by
    intro h
    exact (Ledger.mem_pending_settleAll.mp h).2 List.mem_cons_self
  simp only [Ledger.isSettled, hissued, hpending, decide_true, not_false_eq_true, Bool.and_self]

end Stage

end Tilewalk
