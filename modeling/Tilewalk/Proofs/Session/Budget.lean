import Tilewalk.Proofs.Session.FailFast

/-! # A budget of ticks

Ticking with a budget does what ticking without a bound does, until the budget is used up. Whether
there was anything left to do then, nobody has looked.
-/

namespace Tilewalk.Session

variable {μ σ ε : Type} [Machine μ] [Screen σ] [Editor ε]

/-- Ticking without a bound comes back from `s` to `t`: so many ticks do something, and the next one
does nothing and says why. -/
structure RestsAfter (n : Nat) (s t : Session μ σ ε) (why : Tick) : Prop where
  ran : Ran n s t
  rest : t.tick = (t, why)
  why_ne_ran : why ≠ .ran

variable {n budget : Nat} {s t u : Session μ σ ε} {why : Tick}

theorem restsAfter_zero (h : s.tick.2 ≠ .ran) : RestsAfter 0 s s.tick.1 s.tick.2 := by
  have hsame := tick_of_ne_ran h
  refine ⟨?_, ?_, h⟩
  · rw [hsame]
    exact .refl s
  · rw [hsame]
    exact Prod.ext hsame rfl

theorem RestsAfter.of_ran (hs : s.tick.2 = .ran) (h : RestsAfter n s.tick.1 t why) :
    RestsAfter (n + 1) s t why :=
  ⟨.tick (Prod.ext rfl hs) h.ran, h.rest, h.why_ne_ran⟩

/-! ## Ticks that do something are taken off the budget -/

theorem Ran.tickAtMost_add (h : Ran n s t) (left : Nat) :
    s.tickAtMost (n + left) = t.tickAtMost left := by
  induction h with
  | refl => rw [Nat.zero_add]
  | tick htick _ ih =>
    rw [Nat.add_right_comm, tickAtMost_succ, htick, if_pos rfl]
    exact ih

theorem Ran.tickAtMost_eq (h : Ran n s t) : s.tickAtMost n = (t, .ran) := h.tickAtMost_add 0

theorem Ran.unique (ht : Ran n s t) (hu : Ran n s u) : t = u :=
  congrArg Prod.fst (ht.tickAtMost_eq.symm.trans hu.tickAtMost_eq)

theorem ran_of_tickAtMost (n : Nat) :
    ∀ {s : Session μ σ ε}, (s.tickAtMost n).2 = .ran → Ran n s (s.tickAtMost n).1 := by
  induction n with
  | zero => exact fun _ => .refl _
  | succ n ih =>
    intro s h
    rw [tickAtMost_succ] at h ⊢
    split_ifs at h ⊢ with hran
    · exact .tick (Prod.ext rfl hran) (ih h)
    · exact absurd h hran

theorem restsAfter_of_tickAtMost (budget : Nat) :
    ∀ {s : Session μ σ ε}, (s.tickAtMost budget).2 ≠ .ran →
      ∃ n < budget, RestsAfter n s (s.tickAtMost budget).1 (s.tickAtMost budget).2 := by
  induction budget with
  | zero => exact fun h => absurd rfl h
  | succ budget ih =>
    intro s h
    rw [tickAtMost_succ] at h ⊢
    split_ifs at h ⊢ with hran
    · obtain ⟨n, hn, hrests⟩ := ih h
      exact ⟨n + 1, Nat.succ_lt_succ hn, hrests.of_ran hran⟩
    · exact ⟨0, Nat.zero_lt_succ _, restsAfter_zero hran⟩

theorem RestsAfter.tickAtMost_of_lt (h : RestsAfter n s t why) (hn : n < budget) :
    s.tickAtMost budget = (t, why) := by
  obtain ⟨left, rfl⟩ := Nat.exists_eq_add_of_lt hn
  have hnot : t.tick.2 ≠ .ran := by simpa [h.rest] using h.why_ne_ran
  rw [Nat.add_assoc, h.ran.tickAtMost_add, tickAtMost_succ, if_neg hnot, h.rest]

theorem drains_iff_restsAfter : Drains s t why ↔ ∃ n, RestsAfter n s t why := by
  constructor
  · rintro ⟨hwhy, budget, hbudget⟩
    obtain ⟨n, -, hn⟩ := restsAfter_of_tickAtMost budget (s := s) (by simpa [hbudget] using hwhy)
    rw [hbudget] at hn
    exact ⟨n, hn⟩
  · rintro ⟨n, hn⟩
    exact ⟨hn.why_ne_ran, n + 1, hn.tickAtMost_of_lt (Nat.lt_succ_self n)⟩

/-- To tick out is to tick without a bound, unless that takes more ticks than anyone can wait for. -/
theorem tickOut_of_drains (h : Drains s t why) :
    s.tickOut = (t, why) ∨ ∃ n, unbounded ≤ n ∧ RestsAfter n s t why := by
  obtain ⟨n, hn⟩ := drains_iff_restsAfter.mp h
  rcases Nat.lt_or_ge n unbounded with hlt | hge
  · exact .inl (hn.tickAtMost_of_lt hlt)
  · exact .inr ⟨n, hge, hn⟩

theorem drains_iff_tickOut (h : s.tickOut.2 ≠ .ran) : Drains s t why ↔ s.tickOut = (t, why) := by
  have hdrains : Drains s s.tickOut.1 s.tickOut.2 := ⟨h, unbounded, rfl⟩
  constructor
  · intro ht
    obtain ⟨hsession, hwhy⟩ := hdrains.unique ht
    exact Prod.ext hsession hwhy
  · intro hout
    rwa [hout] at hdrains

/-! ## What is said at the end of the budget -/

theorem tickAtMost_ran_iff :
    (s.tickAtMost budget).2 = .ran ↔ ∀ n < budget, ∀ t why, ¬ RestsAfter n s t why := by
  constructor
  · intro h n hn t why hrests
    rw [hrests.tickAtMost_of_lt hn] at h
    exact hrests.why_ne_ran h
  · intro h
    apply Decidable.byContradiction
    intro hnot
    obtain ⟨n, hn, hrests⟩ := restsAfter_of_tickAtMost budget hnot
    exact h n hn _ _ hrests

/-- When the budget is used up, there is nothing left to do just if its last tick has done the last
thing. -/
theorem idle_of_used_up (h : (s.tickAtMost budget).2 = .ran) :
    (s.tickAtMost budget).1.tick.2 = .idle ↔ ∃ t, RestsAfter budget s t .idle := by
  have hran := ran_of_tickAtMost budget h
  constructor
  · intro hidle
    have hsame := tick_of_ne_ran (s := (s.tickAtMost budget).1) (by simp [hidle])
    exact ⟨_, hran, Prod.ext hsame hidle, by simp⟩
  · rintro ⟨t, hrests⟩
    rw [hran.unique hrests.ran, hrests.rest]

end Tilewalk.Session
