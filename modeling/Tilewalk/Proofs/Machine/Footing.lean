import Tilewalk.Proofs.Level.Document
import Tilewalk.Proofs.Level.Reachable
import Tilewalk.Proofs.Machine.Steps

/-! # Where the token stands

The token never leaves the grid, and while it walks it stands on the start or on a tile. What ended
a walk can be told from where the token is then.
-/

namespace Tilewalk

/-- The start, or a cell with a tile. -/
def Program.IsFloor (p : Program) (place : Position) : Prop :=
  place = p.start.position ∨ (p.tile? place).isSome

namespace Walker

variable {p : Program} {limit : UInt32} {w v : Walker} {place : Position}

/-! ## The floor of a program -/

theorem not_isFloor_iff :
    ¬ p.IsFloor place ↔ place ≠ p.start.position ∧ p.tile? place = none := by
  unfold Program.IsFloor
  rw [not_or, Bool.not_eq_true, Option.isSome_eq_false_iff, Option.isNone_iff_eq_none]

theorem contains_of_isFloor (hp : p.WellFormed) (h : p.IsFloor place) :
    p.contains place = true := by
  rcases h with rfl | h
  · exact hp.start
  · exact hp.inside place (Program.mem_of_tile?_isSome h)

theorem start_eq_goal_of_isFloor (hp : p.WellFormed) (h : p.IsFloor p.goal.position) :
    p.start.position = p.goal.position := by
  rcases h with h | h
  · exact h.symm
  · exact absurd (Program.mem_of_tile?_isSome h) hp.freeGoal

theorem exit?_ne_none (h : p.IsFloor place) (tape : Tape) : exit? p place tape ≠ none := by
  unfold exit?
  split_ifs with hstart
  · simp
  · simpa [Option.isSome_iff_ne_none] using h.resolve_left hstart

theorem inRange_neighbour (hp : p.WellFormed) (h : p.contains place = true) (heading : Heading) :
    (place.neighbour heading).InRange := by
  have hcols := (Program.isDimension_iff.mp hp.cols).2
  have hrows := (Program.isDimension_iff.mp hp.rows).2
  have hinside := Program.contains_iff.mp h
  unfold Program.maxDimension at hcols hrows
  unfold Position.InRange Position.neighbour
  cases heading <;> simp only [Heading.delta] <;> omega

/-! ## The footing of a walker -/

/-- What an ending says of a walker, or of one that has none. -/
def Explains (p : Program) (limit : UInt32) (w : Walker) : Option Ending → Prop
  | none => p.IsFloor w.position ∧ (limit.toNat = 0 ∨ w.steps < limit.toNat)
  | some .goal => w.position = p.goal.position
  | some .edge => p.IsFloor w.position
  | some .gap => p.contains w.position = true ∧ ¬ p.IsFloor w.position ∧
      w.position ≠ p.goal.position
  | some .limit => p.IsFloor w.position ∧ 0 < limit ∧ w.steps = limit.toNat

structure Footing (p : Program) (limit : UInt32) (w : Walker) : Prop where
  runs : w.isRunning = w.ending.isNone
  explains : Explains p limit w w.ending

theorem Footing.halted_iff (h : Footing p limit w) : w.isRunning = false ↔ w.ending ≠ none := by
  rw [h.runs]
  cases w.ending <;> simp

theorem Footing.ending_eq_none (h : Footing p limit w) (hruns : w.isRunning = true) :
    w.ending = none := by
  rw [h.runs] at hruns
  exact Option.isNone_iff_eq_none.mp hruns

theorem Footing.isFloor (h : Footing p limit w) (hruns : w.isRunning = true) :
    p.IsFloor w.position := by
  have hexplains := h.explains
  rw [h.ending_eq_none hruns] at hexplains
  exact hexplains.1

theorem footing_setOff (w : Walker) (p : Program) (tape : Tape) (limit : UInt32) :
    Footing p limit (w.setOff p tape limit) := by
  refine ⟨rfl, .inl rfl, ?_⟩
  show limit.toNat = 0 ∨ 0 < limit.toNat
  omega

theorem isFloor_of_endingAt (h : endingAt p place = none) : p.IsFloor place :=
  (endingAt_eq_none.mp h).2

theorem footing_checkLimit (hlimit : w.limit = limit) (hruns : w.isRunning = true)
    (hending : w.ending = none) (hfloor : p.IsFloor w.position)
    (hsteps : limit.toNat = 0 ∨ w.steps ≤ limit.toNat) : Footing p limit w.checkLimit := by
  unfold checkLimit
  have hpos : 0 < limit ↔ 0 < limit.toNat := Iff.rfl
  rw [hlimit]
  split_ifs with h <;> rw [hpos] at h
  · refine ⟨rfl, hfloor, h.1, ?_⟩
    show w.steps = limit.toNat
    omega
  · refine ⟨by simp [hruns, hending], ?_⟩
    rw [hending]
    exact ⟨hfloor, by omega⟩

theorem footing_move (hon : w.IsOn p limit) (hruns : w.isRunning = true)
    (h : Footing p limit w) : Footing p limit (w.move p) := by
  have hending := h.ending_eq_none hruns
  obtain ⟨hfloor, hsteps⟩ : Explains p limit w none := hending ▸ h.explains
  have hmoves := moves_move p w
  generalize w.move p = v at hmoves ⊢
  cases hmoves with
  | stuck hexit => exact absurd hexit (exit?_ne_none hfloor w.tape)
  | blocked hexit hnext => exact ⟨rfl, hfloor⟩
  | @ended heading tape ending hexit hnext hne =>
    refine ⟨rfl, ?_⟩
    show Explains p limit _ (some ending)
    cases ending with
    | goal => exact (endingAt_eq_goal.mp hnext).2
    | edge => exact absurd rfl hne
    | gap =>
      obtain ⟨⟨hinside, hgoal⟩, hstart, htile⟩ := endingAt_eq_gap.mp hnext
      exact ⟨hinside, not_isFloor_iff.mpr ⟨hstart, htile⟩, hgoal⟩
    | limit => exact absurd hnext endingAt_ne_limit
  | went hexit hnext =>
    refine footing_checkLimit hon.limit hruns hending (isFloor_of_endingAt hnext) ?_
    show limit.toNat = 0 ∨ min (w.steps + 1) maxSteps ≤ limit.toNat
    omega

theorem footing_afterSteps (w : Walker) (p : Program) (tape : Tape) (limit : UInt32) (n : Nat) :
    Footing p limit (afterSteps (w.setOff p tape limit) n) :=
  (afterSteps_induction (isOn_setOff w p tape limit) (footing_setOff w p tape limit)
    (fun _ => footing_move) n).2

/-! ## What can be read off it -/

theorem Footing.contains (hp : p.WellFormed) (h : Footing p limit w) :
    p.contains w.position = true := by
  have hexplains := h.explains
  unfold Explains at hexplains
  split at hexplains
  · exact contains_of_isFloor hp hexplains.1
  · rw [hexplains]
    exact hp.goal
  · exact contains_of_isFloor hp hexplains
  · exact hexplains.1
  · exact contains_of_isFloor hp hexplains.1

theorem Footing.ending_on_goal (hp : p.WellFormed) (h : Footing p limit w)
    (hne : p.start.position ≠ p.goal.position) (hgoal : w.position = p.goal.position) :
    w.ending = some .goal := by
  have hexplains := h.explains
  have hfloor : ¬ p.IsFloor w.position := by
    rw [hgoal]
    exact fun hfloor => hne (start_eq_goal_of_isFloor hp hfloor)
  unfold Explains at hexplains
  split at hexplains
  · exact absurd hexplains.1 hfloor
  · assumption
  · exact absurd hexplains hfloor
  · exact absurd hgoal hexplains.2.2
  · exact absurd hexplains.1 hfloor

theorem Moves.blocked_of_edge (h : Moves p w v) (hw : w.ending = none)
    (hv : v.ending = some .edge) :
    ∃ heading, exit? p w.position w.tape = some (heading, v.tape) ∧ w.position = v.position ∧
      p.contains (w.position.neighbour heading) = false := by
  cases h with
  | stuck => cases hv
  | blocked hexit hnext => exact ⟨_, hexit, rfl, endingAt_eq_edge.mp hnext⟩
  | ended hexit hnext hne => exact absurd (Option.some.inj hv) hne
  | went hexit hnext =>
    unfold checkLimit at hv
    split_ifs at hv
    · cases hv
    · rw [show w.ending = some .edge from hv] at hw
      cases hw

/-! ## The theorem -/

/-- On a program that can come about the token stays on the grid, and walks on the floor. The way in
which a walk has ended tells where the token is then, and nothing happens any more after that. -/
theorem walk_keeps_its_footing {p : Program} (hp : p.Reachable) (w : Walker) (tape : Tape)
    (limit : UInt32) (n : Nat) :
    let walk := afterSteps (w.setOff p tape limit)
    let v := walk n
    p.contains v.position = true ∧
    (∀ heading, (v.position.neighbour heading).InRange) ∧
    (v.isRunning = true →
      (v.position = p.start.position ∨ ∃ tile, p.tile? v.position = some tile) ∧
        exit? p v.position v.tape ≠ none) ∧
    (v.isRunning = false ↔ v.ending ≠ none) ∧
    (v.ending = some .goal → v.position = p.goal.position) ∧
    (p.start.position ≠ p.goal.position → v.position = p.goal.position →
      v.ending = some .goal) ∧
    (v.ending = some .gap → p.contains v.position = true ∧ p.tile? v.position = none ∧
      v.position ≠ p.start.position ∧ v.position ≠ p.goal.position) ∧
    (v.ending = some .edge → ∃ m < n, ∃ heading, (walk m).isRunning = true ∧ walk (m + 1) = v ∧
      (walk m).position = v.position ∧
      exit? p (walk m).position (walk m).tape = some (heading, v.tape) ∧
      p.contains (v.position.neighbour heading) = false) ∧
    (v.ending = some .limit → 0 < limit ∧ v.steps = limit.toNat) ∧
    (v.isRunning = false → ∀ m, Machine.step (afterSteps v m) = (v, .error .halted)) := by
  intro walk v
  have hwell := hp.wellFormed
  have hon : v.IsOn p limit := isOn_afterSteps (isOn_setOff w p tape limit) n
  have hfooting : ∀ m, Footing p limit (walk m) := footing_afterSteps w p tape limit
  have hv : Footing p limit v := hfooting n
  have hinside : p.contains v.position = true := hv.contains hwell
  have hends : ∀ ending, v.ending = ending → Explains p limit v ending :=
    fun _ h => h ▸ hv.explains
  refine ⟨hinside, inRange_neighbour hwell hinside, fun hruns => ?_, hv.halted_iff, hends (some .goal),
    hv.ending_on_goal hwell, fun hgap => ?_, fun hedge => ?_,
    fun hlimit => (hends _ hlimit).2, fun hhalted m => ?_⟩
  · have hfloor := hv.isFloor hruns
    exact ⟨hfloor.imp_right Option.isSome_iff_exists.mp, exit?_ne_none hfloor v.tape⟩
  · obtain ⟨-, hfloor, hgoal⟩ := hends _ hgap
    obtain ⟨hstart, htile⟩ := not_isFloor_iff.mp hfloor
    exact ⟨hinside, htile, hstart, hgoal⟩
  · have hhalted : v.isRunning = false := hv.halted_iff.mpr (by simp [hedge])
    obtain ⟨m, hm, hruns, hmove, hlast⟩ :=
      exists_last_move (isOn_setOff w p tape limit) rfl hhalted
    have hbefore : (walk m).ending = none := (hfooting m).ending_eq_none hruns
    have hmoves : Moves p (walk m) v := by
      rw [show v = (walk m).move p from hlast.trans hmove]
      exact moves_move p _
    obtain ⟨heading, hexit, hplace, hnext⟩ := hmoves.blocked_of_edge hbefore hedge
    exact ⟨m, hm, heading, hruns, hlast.symm, hplace, hexit, hplace ▸ hnext⟩
  · rw [afterSteps_of_halted (m := 0) hon hhalted m.zero_le]
    exact step_halted hon hhalted

/-- A writer above a branch. One side exit of the branch leads to a cell without a tile, and the other
one over a conveyor out of the grid. -/
def crossing : Program where
  cols := 3
  rows := 4
  cells := (((∅ : Cells).insert ⟨1, 1⟩ ⟨.writer .blue, .identity⟩).insert ⟨1, 2⟩
    ⟨.branchBlueRed, .identity⟩).insert ⟨2, 2⟩ ⟨.conveyor, .turned3⟩
  start := Program.defaultStart 3
  goal := Program.defaultGoal 3 4

theorem reachable_crossing : crossing.Reachable := by
  have hempty : Program.blank 3 4 =
      .ok ⟨3, 4, ∅, Program.defaultStart 3, Program.defaultGoal 3 4⟩ := rfl
  have hwriter := (Program.Reachable.blank hempty).edit (.placeTile ⟨1, 1⟩ ⟨.writer .blue, .identity⟩) rfl
  have hbranch := hwriter.edit (.placeTile ⟨1, 2⟩ ⟨.branchBlueRed, .identity⟩) rfl
  exact hbranch.edit (.placeTile ⟨2, 2⟩ ⟨.conveyor, .turned3⟩) rfl

theorem walk_keeps_its_footing_on_a_crossing :
    let walk := fun colours limit n =>
      afterSteps (({} : Walker).setOff crossing (.ofColours colours) limit) n
    exit? crossing (walk [.red] 0 2).position (walk [.red] 0 2).tape ≠ none ∧
    (walk [.green] 0 3).position = crossing.goal.position ∧
    crossing.tile? (walk [] 0 3).position = none ∧
    (∃ m < 4, (walk [.red] 0 m).position = (walk [.red] 0 4).position) ∧
    (walk [.green] 2 2).steps = 2 ∧
    Machine.step (walk [.green] 2 2) = (walk [.green] 2 2, .error .halted) := by
  intro walk
  have hpassing := walk_keeps_its_footing reachable_crossing {} (.ofColours [.red]) 0 2
  have hgoal := walk_keeps_its_footing reachable_crossing {} (.ofColours [.green]) 0 3
  have hgap := walk_keeps_its_footing reachable_crossing {} (.ofColours []) 0 3
  have hedge := walk_keeps_its_footing reachable_crossing {} (.ofColours [.red]) 0 4
  have hlimit := walk_keeps_its_footing reachable_crossing {} (.ofColours [.green]) 2 2
  obtain ⟨-, -, hexit, -⟩ := hpassing
  obtain ⟨-, -, -, -, hplace, hending, -⟩ := hgoal
  obtain ⟨-, -, -, -, -, -, htile, -⟩ := hgap
  obtain ⟨-, -, -, -, -, -, -, hblocked, -⟩ := hedge
  obtain ⟨-, -, -, -, -, -, -, -, hsteps, hrest⟩ := hlimit
  have hon : (walk [.green] 0 3).position = crossing.goal.position := hplace rfl
  have hgoalEnding := hending (by decide) hon
  obtain ⟨m, hm, -, -, -, hstays, -⟩ := hblocked rfl
  exact ⟨(hexit rfl).2, hplace hgoalEnding, (htile rfl).2.1, ⟨m, hm, hstays⟩, (hsteps rfl).2,
    hrest rfl 0⟩

end Walker

end Tilewalk
