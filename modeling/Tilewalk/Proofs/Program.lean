import Mathlib.Tactic.SplitIfs
import Tilewalk.Program
import Tilewalk.Proofs.Result

/-! # Well-formed programs

Whatever is edited, the endpoints and the tiles lie inside the grid, and no tile lies on an
endpoint. Both endpoints can be the same cell, as they are on an empty grid with a single row.
-/

namespace Tilewalk

namespace Program

structure WellFormed (p : Program) : Prop where
  cols : isDimension p.cols = true
  rows : isDimension p.rows = true
  start : p.contains p.start.position = true
  goal : p.contains p.goal.position = true
  inside : ∀ place ∈ p.cells, p.contains place = true
  freeStart : p.start.position ∉ p.cells
  freeGoal : p.goal.position ∉ p.cells

theorem isDimension_iff {n : Nat} : isDimension n = true ↔ 0 < n ∧ n ≤ maxDimension := by
  simp [isDimension]

theorem contains_iff {p : Program} {place : Position} : p.contains place = true ↔
    (0 ≤ place.x ∧ place.x < p.cols) ∧ 0 ≤ place.y ∧ place.y < p.rows := by
  simp only [contains, Bool.and_eq_true, decide_eq_true_eq]
  omega

theorem mem_of_tile?_isSome {p : Program} {place : Position} (h : (p.tile? place).isSome) :
    place ∈ p.cells := by
  unfold tile? at h
  simpa using h

/-! ## When an edit succeeds, and what it does -/

theorem blank_eq_ok {cols rows : Nat} {p : Program} :
    blank cols rows = .ok p ↔ (isDimension cols = true ∧ isDimension rows = true) ∧
      p = ⟨cols, rows, ∅, defaultStart cols, defaultGoal cols rows⟩ := by
  unfold blank
  split_ifs with h
  · simp only [Bool.and_eq_true] at h
    simp only [Except.ok.injEq, h, and_self, true_and]
    exact eq_comm
  · simp only [Bool.and_eq_true] at h
    simp [h]

/-- The grid that `blank` makes. -/
def emptyGrid (cols rows : Nat) : Program :=
  ⟨cols, rows, ∅, defaultStart cols, defaultGoal cols rows⟩

theorem blank_of_isDimension {cols rows : Nat} (hcols : isDimension cols = true)
    (hrows : isDimension rows = true) : blank cols rows = .ok (emptyGrid cols rows) :=
  blank_eq_ok.mpr ⟨⟨hcols, hrows⟩, rfl⟩

theorem requireInside_of_contains {p : Program} {place : Position}
    (h : p.contains place = true) : p.requireInside place = .ok () := by
  rw [requireInside, if_pos h]

theorem requireInside_bind_eq_ok {p q : Program} {place : Position}
    {f : Unit → Except EditFault Program} :
    (p.requireInside place >>= f) = .ok q ↔ p.contains place = true ∧ f () = .ok q := by
  unfold requireInside
  split_ifs with h <;> simp [h]

theorem refuse_eq_ok {c : Prop} [Decidable c] {fault : EditFault} {p q : Program} :
    (if c then .error fault else .ok p) = (.ok q : Except EditFault Program) ↔ ¬ c ∧ q = p := by
  split_ifs with h
  · simp [h]
  · simp [h, eq_comm]

theorem placeTile_eq_ok {p q : Program} {place : Position} {tile : Tile} :
    p.placeTile place tile = .ok q ↔
      (p.contains place = true ∧ place ≠ p.start.position ∧ place ≠ p.goal.position) ∧
      q = { p with cells := p.cells.insert place tile } := by
  unfold placeTile
  rw [requireInside_bind_eq_ok, refuse_eq_ok, not_or, and_assoc, and_assoc, and_assoc]

theorem moveStart_eq_ok {p q : Program} {start : Endpoint} :
    p.moveStart start = .ok q ↔
      (p.contains start.position = true ∧ start.position ≠ p.goal.position) ∧
      q = { p with cells := p.cells.erase start.position, start } := by
  unfold moveStart
  rw [requireInside_bind_eq_ok, refuse_eq_ok, and_assoc]

theorem moveGoal_eq_ok {p q : Program} {goal : Endpoint} :
    p.moveGoal goal = .ok q ↔
      (p.contains goal.position = true ∧ goal.position ≠ p.start.position) ∧
      q = { p with cells := p.cells.erase goal.position, goal } := by
  unfold moveGoal
  rw [requireInside_bind_eq_ok, refuse_eq_ok, and_assoc]

theorem moveEndpoints_eq_ok {p q : Program} {start goal : Endpoint} :
    p.moveEndpoints start goal = .ok q ↔
      (p.contains start.position = true ∧ p.contains goal.position = true ∧
        start.position ≠ goal.position) ∧
      q = { p with
        cells := (p.cells.erase start.position).erase goal.position, start, goal } := by
  unfold moveEndpoints
  rw [requireInside_bind_eq_ok, requireInside_bind_eq_ok, refuse_eq_ok, and_assoc, and_assoc]

theorem moveEndpoints_of_eq {p : Program} {start goal : Endpoint}
    (hstart : p.contains start.position = true) (hgoal : p.contains goal.position = true)
    (heq : start.position = goal.position) :
    p.moveEndpoints start goal = .error (.reserved goal.position) := by
  unfold moveEndpoints
  rw [requireInside_of_contains hstart, requireInside_of_contains hgoal, ok_bind, ok_bind,
    if_pos heq]

/-! ## Edits keep programs well formed -/

theorem wellFormed_blank {cols rows : Nat} {p : Program} (h : blank cols rows = .ok p) :
    p.WellFormed := by
  obtain ⟨⟨hcols, hrows⟩, rfl⟩ := blank_eq_ok.mp h
  have hc := isDimension_iff.mp hcols
  have hr := isDimension_iff.mp hrows
  refine ⟨hcols, hrows, ?_, ?_, by simp, by simp, by simp⟩
  · rw [contains_iff]
    simp only [defaultStart]
    omega
  · rw [contains_iff]
    simp only [defaultGoal]
    omega

theorem wellFormed_placeTile {p q : Program} (h : p.WellFormed) {place : Position} {tile : Tile}
    (hq : p.placeTile place tile = .ok q) : q.WellFormed := by
  obtain ⟨⟨hinside, hstart, hgoal⟩, rfl⟩ := placeTile_eq_ok.mp hq
  exact {
    cols := h.cols
    rows := h.rows
    start := h.start
    goal := h.goal
    inside := by
      intro other hother
      rcases Std.ExtTreeMap.mem_insert.mp hother with heq | hmem
      · rwa [← Std.LawfulEqOrd.eq_of_compare heq]
      · exact h.inside other hmem
    freeStart := by simp [hstart, h.freeStart]
    freeGoal := by simp [hgoal, h.freeGoal] }

/-- Tiles can be taken away, and the endpoints moved to cells without a tile. -/
theorem WellFormed.shrink {p : Program} (h : p.WellFormed) {cells : Cells} {start goal : Endpoint}
    (hcells : ∀ place ∈ cells, place ∈ p.cells) (hstart : p.contains start.position = true)
    (hgoal : p.contains goal.position = true) (freeStart : start.position ∉ cells)
    (freeGoal : goal.position ∉ cells) : WellFormed { p with cells, start, goal } where
  cols := h.cols
  rows := h.rows
  start := hstart
  goal := hgoal
  inside := fun place hplace => h.inside place (hcells place hplace)
  freeStart := freeStart
  freeGoal := freeGoal

theorem wellFormed_removeTile {p : Program} (h : p.WellFormed) (place : Position) :
    (p.removeTile place).WellFormed := by
  apply h.shrink _ h.start h.goal <;> simp +contextual [h.freeStart, h.freeGoal]

theorem wellFormed_moveStart {p q : Program} (h : p.WellFormed) {start : Endpoint}
    (hq : p.moveStart start = .ok q) : q.WellFormed := by
  obtain ⟨⟨hinside, -⟩, rfl⟩ := moveStart_eq_ok.mp hq
  apply h.shrink _ hinside h.goal <;> simp +contextual [h.freeGoal]

theorem wellFormed_moveGoal {p q : Program} (h : p.WellFormed) {goal : Endpoint}
    (hq : p.moveGoal goal = .ok q) : q.WellFormed := by
  obtain ⟨⟨hinside, -⟩, rfl⟩ := moveGoal_eq_ok.mp hq
  apply h.shrink _ h.start hinside <;> simp +contextual [h.freeStart]

theorem wellFormed_moveEndpoints {p q : Program} (h : p.WellFormed) {start goal : Endpoint}
    (hq : p.moveEndpoints start goal = .ok q) : q.WellFormed := by
  obtain ⟨⟨hstart, hgoal, -⟩, rfl⟩ := moveEndpoints_eq_ok.mp hq
  apply h.shrink _ hstart hgoal <;> simp +contextual

end Program

theorem Edit.wellFormed_apply {p q : Program} (h : p.WellFormed) {e : Edit}
    (hq : e.apply p = .ok q) : q.WellFormed := by
  cases e with
  | placeTile place tile => exact Program.wellFormed_placeTile h hq
  | removeTile place =>
    cases hq
    exact Program.wellFormed_removeTile h place
  | moveStart start => exact Program.wellFormed_moveStart h hq
  | moveGoal goal => exact Program.wellFormed_moveGoal h hq
  | moveEndpoints start goal => exact Program.wellFormed_moveEndpoints h hq

end Tilewalk
