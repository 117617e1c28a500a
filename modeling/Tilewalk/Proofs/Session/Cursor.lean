import Tilewalk.Proofs.Session.Changes
import Tilewalk.Screen.Instant

/-! # Where the cursor is

While there is a machine, the cursor has the case of the machine and its index. When a case has
passed, the index goes on to the next case at once, but the test only when the next case is begun.
Until then the cursor has the test of one case and the index of another.
-/

namespace Tilewalk.Session

variable {μ σ ε : Type}

/-- The index of the cursor is one ahead of its test, if it has one. -/
def IsAhead (s : Session μ σ ε) : Prop :=
  ∀ test, s.cursor.test = some test →
    ∃ before, s.cursor.index = before + 1 ∧ s.cases[before]? = some test

theorem isAhead_of_blank {s : Session μ σ ε} (h : s.cursor = {}) : IsAhead s := by
  intro test ht
  rw [h] at ht
  cases ht

variable [Machine μ] [Screen σ] [Editor ε]

/-- The index goes ahead when the machine of a passed case is left, and that is the only way to be
without a machine in a run. -/
theorem isAhead_change {s t : Session μ σ ε} {notes : List Note}
    (h : s.machine = none → IsAhead s) (hchange : Change s notes t) :
    t.machine = none → IsAhead t := by
  intro hnone
  cases hchange with
  | paused | resumed | turned | landed | continued | taken | screen => exact h hnone
  | started | refused | moved | broke => cases hnone
  | opened rest | changed rest => exact isAhead_of_blank rest.cursor
  | finished | stopped => exact isAhead_of_blank rfl
  | passed atEnd =>
    intro test ht
    exact ⟨s.cursor.index, rfl, atEnd.midway.onCase.2.symm.trans ht⟩

theorem Reachable.isAhead {s : Session μ σ ε} (h : Reachable s) (hm : s.machine = none) :
    IsAhead s := by
  obtain ⟨fresh, settings, screen, editor, deeds, rfl⟩ := reachable_iff_after.mp h
  obtain ⟨notes, hpath, -⟩ := path_after_initial fresh settings screen editor deeds
  have hstart : (unloaded fresh settings screen editor).machine = none →
      IsAhead (unloaded fresh settings screen editor) := fun _ => isAhead_of_blank rfl
  refine hpath.invariant (P := fun _ s => s.machine = none → IsAhead s) [] ?_ hstart hm
  exact fun _ _ _ _ => isAhead_change

/-- The test of the cursor is the case under its index while there is a machine. Otherwise the next
case is still to be begun, and the test is the case before the one under the index. -/
theorem test_of_cursor {s : Session μ σ ε} (h : Reachable s) {test : Case}
    (ht : s.cursor.test = some test) :
    (s.machine.isSome ∧ s.cases[s.cursor.index]? = some test) ∨
      (s.machine = none ∧ s.tasks = [.nextCase] ∧ ∃ before next, s.cursor.index = before + 1 ∧
        s.cases[before]? = some test ∧ s.cases[s.cursor.index]? = some next) := by
  have hactive : s.phase ≠ .stopped := by
    intro hstopped
    rw [(h.orderly.atRest hstopped).cursor] at ht
    cases ht
  cases h.orderly.oneThing hactive with
  | move _ _ _ _ hcase | step _ _ hcase => exact .inl ⟨hcase.1, hcase.2.symm.trans ht⟩
  | nextCase _ htasks hmachine =>
    obtain ⟨before, hindex, hbefore⟩ := h.isAhead hmachine test ht
    obtain ⟨next, hnext⟩ := (h.orderly.onCourse hactive).test
    exact .inr ⟨hmachine, htasks, before, next, hindex, hbefore, hnext⟩

/-- A session with two cases, of which one is to be accepted and the other one rejected. The first
has passed, and the run is held before the second. -/
def betweenCases : Session ScriptedMachine InstantScreen EditorSwitch :=
  (initial (ScriptedMachine.nth [{ steps := 1 }, { steps := 1 }]) {} { layout := ⟨0, 0, 1⟩ }
    { on := true }).after
    [.call (.replaceCases [.default, { Case.default with accept := false }]), .call .play,
      .call .tick, .call .tick, .call .pause]

theorem reachable_betweenCases : Reachable betweenCases :=
  reachable_iff_after.mpr ⟨_, _, _, _, _, rfl⟩

theorem test_of_cursor_between_cases :
    betweenCases.cursor.test = some .default ∧ betweenCases.tasks = [.nextCase] ∧
      betweenCases.cases[0]? = some .default := by
  have ht : betweenCases.cursor.test = some .default := rfl
  have hmachine : betweenCases.machine = none := rfl
  have hindex : betweenCases.cursor.index = 1 := rfl
  obtain ⟨hsome, -⟩ | ⟨-, htasks, before, next, hbefore, htest, -⟩ :=
    test_of_cursor reachable_betweenCases ht
  · simp [hmachine] at hsome
  · obtain rfl : before = 0 := by omega
    exact ⟨ht, htasks, htest⟩

/-- Between two cases the test of the cursor need not be the case under its index. -/
theorem test_is_not_under_index :
    Reachable betweenCases ∧ betweenCases.phase = .paused ∧
      ∃ test next, betweenCases.cursor.test = some test ∧
        betweenCases.cases[betweenCases.cursor.index]? = some next ∧ (test == next) = false :=
  ⟨reachable_betweenCases, rfl, _, _, rfl, rfl, rfl⟩

end Tilewalk.Session
