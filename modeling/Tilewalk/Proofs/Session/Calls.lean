import Mathlib.Tactic.SplitIfs
import Tilewalk.Session

/-! # What can happen to a session

A host calls a session, one call after the other. Between two calls anyone may act on the screen
and settle tickets of moves, old or new.
-/

namespace Tilewalk

/-- A call that always comes back. -/
inductive Call : Type 1 where
  | play
  | pause
  | stop
  | tick
  | load (text : String)
  | share
  | newGrid (cols rows : Nat)
  | edit {α : Type} (f : Program → Program × Except EditFault α)
  | replaceCases (cases : List Case)
  | takeEvents

namespace Call

def Reply : Call → Type
  | play | pause | load _ | newGrid _ _ | replaceCases _ => Except Refusal Unit
  | stop => Unit
  | tick => Tick
  | share => Except Refusal String
  | @edit α _ => Except Refusal α
  | takeEvents => List Event

variable {μ σ ε : Type} [Machine μ] [Screen σ] [Editor ε]

def run : (c : Call) → Session μ σ ε → Session μ σ ε × c.Reply
  | play, s => s.play
  | pause, s => s.pause
  | stop, s => (s.stop, ())
  | tick, s => s.tick
  | load text, s => s.load text
  | share, s => (s, s.share)
  | newGrid cols rows, s => s.newGrid cols rows
  | edit f, s => s.edit f
  | replaceCases cases, s => s.replaceCases cases
  | takeEvents, s => s.takeEvents

end Call

namespace Session

variable {μ σ ε : Type} [Machine μ] [Screen σ] [Editor ε]

/-! ## Ticking without a bound -/

/-- Ticking until there is nothing to do at once comes back, with the last tick. -/
def Drains (s t : Session μ σ ε) (last : Tick) : Prop :=
  last ≠ .ran ∧ ∃ n, s.tickAtMost n = (t, last)

theorem tickAtMost_succ (n : Nat) (s : Session μ σ ε) :
    s.tickAtMost (n + 1) = if s.tick.2 = .ran then s.tick.1.tickAtMost n else s.tick := by
  rw [tickAtMost]
  rcases s.tick with ⟨t, a⟩
  cases a <;> rfl

theorem drains_of_tick {s : Session μ σ ε} (h : s.tick.2 ≠ .ran) : Drains s s.tick.1 s.tick.2 :=
  ⟨h, 1, by rw [tickAtMost_succ, if_neg h]⟩

theorem Drains.of_ran {s t : Session μ σ ε} {last : Tick} (hs : s.tick.2 = .ran)
    (h : Drains s.tick.1 t last) : Drains s t last := by
  obtain ⟨hlast, n, hn⟩ := h
  exact ⟨hlast, n + 1, by rw [tickAtMost_succ, if_pos hs, hn]⟩

/-- Where ticking comes back depends on the session alone, not on how long one is ready to wait. -/
theorem Drains.unique {s t u : Session μ σ ε} {a b : Tick} (ht : Drains s t a)
    (hu : Drains s u b) : t = u ∧ a = b := by
  obtain ⟨ha, n, hn⟩ := ht
  obtain ⟨hb, m, hm⟩ := hu
  induction n generalizing s m with
  | zero =>
    simp only [tickAtMost, Prod.mk.injEq] at hn
    exact absurd hn.2.symm ha
  | succ n ih =>
    cases m with
    | zero =>
      simp only [tickAtMost, Prod.mk.injEq] at hm
      exact absurd hm.2.symm hb
    | succ m =>
      rw [tickAtMost_succ] at hn hm
      split_ifs at hn hm
      · exact ih hn m hm
      · rw [hn] at hm
        exact Prod.mk.inj hm

/-! ## Reachable sessions -/

/-- The sessions that a host can have, whatever it has called and whatever has been done to the
screen. -/
inductive Reachable : Session μ σ ε → Prop where
  | initial (fresh : Nat → μ) (settings : Settings) (screen : σ) (editor : ε) :
      Reachable (initial fresh settings screen editor)
  | call {s : Session μ σ ε} (c : Call) : Reachable s → Reachable (c.run s).1
  | tickAtMost {s : Session μ σ ε} (budget : Nat) : Reachable s → Reachable (s.tickAtMost budget).1
  | drain {s t : Session μ σ ε} {last : Tick} : Reachable s → Drains s t last → Reachable t
  | screen {s : Session μ σ ε} (action : σ → σ × List Ticket) :
      Reachable s → Reachable (s.onScreen action)

theorem tickAtMost_keeps {P : Session μ σ ε → Prop} (htick : ∀ s, P s → P s.tick.1) (n : Nat) :
    ∀ s, P s → P (s.tickAtMost n).1 := by
  induction n with
  | zero => exact fun _ h => h
  | succ n ih =>
    intro s h
    rw [tickAtMost_succ]
    split_ifs
    · exact ih _ (htick s h)
    · exact htick s h

/-- What holds at first, and is kept by each call and by whatever is done to the screen, holds of
every reachable session. Many ticks keep what one tick keeps. -/
theorem Reachable.invariant {P : Session μ σ ε → Prop}
    (hinitial : ∀ fresh settings screen editor, P (Session.initial fresh settings screen editor))
    (hcall : ∀ s (c : Call), P s → P (c.run s).1)
    (hscreen : ∀ s (action : σ → σ × List Ticket), P s → P (s.onScreen action))
    {s : Session μ σ ε} (h : Reachable s) : P s := by
  have hticks := tickAtMost_keeps (P := P) fun s hs => hcall s .tick hs
  induction h with
  | initial fresh settings screen editor => exact hinitial fresh settings screen editor
  | call c _ ih => exact hcall _ c ih
  | tickAtMost budget _ ih => exact hticks budget _ ih
  | drain _ hd ih =>
    obtain ⟨-, n, hn⟩ := hd
    simpa [hn] using hticks n _ ih
  | screen action _ ih => exact hscreen _ action ih

end Session

end Tilewalk
