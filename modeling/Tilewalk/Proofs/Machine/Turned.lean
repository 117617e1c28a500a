import Tilewalk.Proofs.Level.RoundTrip
import Tilewalk.Proofs.Machine.Footing

/-! # Turned programs

A program can be turned by a quarter, with all that lies on it. A token then takes the same walk,
turned by a quarter. Only a branch with its sides swapped cannot be turned: the orientations have no
turn of it.
-/

namespace Tilewalk

/-! ## Quarter turns -/

/-- A quarter turn clockwise. The sides of what is mirrored are not told apart. -/
def Orientation.turned : Orientation → Orientation
  | identity | mirrored => turned1
  | turned1 => turned2
  | turned2 => turned3
  | turned3 => identity

def Tile.turned (t : Tile) : Tile := { t with orientation := t.orientation.turned }

namespace Program

/-- Where a cell comes to lie when the grid is turned clockwise. -/
def turn (p : Program) (place : Position) : Position := ⟨p.rows - 1 - place.y, place.x⟩

/-- The program, turned clockwise. The goal is never left, so it may lie as it did. -/
def turned (p : Program) : Program where
  cols := p.rows
  rows := p.cols
  cells := (∅ : Cells).insertMany (p.tiles.map fun (place, tile) => (p.turn place, tile.turned))
  start := ⟨p.turn p.start.position, p.start.orientation.turned⟩
  goal := ⟨p.turn p.goal.position, p.goal.orientation⟩

variable {p : Program} {place other : Position}

@[simp] theorem turn_inj : p.turn place = p.turn other ↔ place = other := by
  cases place
  cases other
  simp only [turn, Position.mk.injEq]
  omega

theorem exists_turn (p : Program) (place : Position) : ∃ other, p.turn other = place := by
  refine ⟨⟨place.y, p.rows - 1 - place.x⟩, ?_⟩
  cases place
  simp only [turn, Position.mk.injEq, and_true]
  omega

theorem turn_neighbour (p : Program) (place : Position) (heading : Heading) :
    p.turn (place.neighbour heading) = (p.turn place).neighbour heading.clockwise := by
  unfold turn Position.neighbour
  cases heading <;> simp [Heading.delta, Heading.clockwise] <;> omega

theorem turn_eq_start : p.turn place = p.turned.start.position ↔ place = p.start.position := turn_inj

theorem turn_eq_goal : p.turn place = p.turned.goal.position ↔ place = p.goal.position := turn_inj

theorem contains_turned : p.turned.contains (p.turn place) = p.contains place := by
  rw [Bool.eq_iff_iff, contains_iff, contains_iff]
  simp only [turned, turn]
  omega

theorem tile?_turned : p.turned.tile? (p.turn place) = (p.tile? place).map Tile.turned := by
  have hdistinct : (p.tiles.map fun (place, tile) => (p.turn place, tile.turned)).Pairwise
      fun first second => first.1 ≠ second.1 := by
    rw [List.pairwise_map]
    exact (distinct_toList p.cells).imp fun hne heq => hne (turn_inj.mp heq)
  apply Option.ext
  intro tile
  have hlisted : p.turned.tile? (p.turn place) = some tile ↔
      (p.turn place, tile) ∈ p.tiles.map fun (place, tile) => (p.turn place, tile.turned) :=
    getElem?_insertMany hdistinct
  rw [hlisted]
  simp only [tiles, tile?, List.mem_map, Prod.exists, Std.ExtTreeMap.mem_toList_iff_getElem?_eq_some,
    Prod.mk.injEq, turn_inj, Option.map_eq_some_iff]
  constructor
  · rintro ⟨_, lying, hlying, rfl, hturned⟩
    exact ⟨lying, hlying, hturned⟩
  · rintro ⟨lying, hlying, hturned⟩
    exact ⟨place, lying, hlying, rfl, hturned⟩

theorem mem_turned : p.turn place ∈ p.turned.cells ↔ place ∈ p.cells := by
  have hlook : (p.turned.tile? (p.turn place)).isSome = ((p.tile? place).map Tile.turned).isSome :=
    congrArg Option.isSome tile?_turned
  rw [Option.isSome_map] at hlook
  rw [Std.ExtTreeMap.mem_iff_isSome_getElem?, Std.ExtTreeMap.mem_iff_isSome_getElem?]
  exact Bool.eq_iff_iff.mp hlook

theorem WellFormed.turned (h : p.WellFormed) : p.turned.WellFormed where
  cols := h.rows
  rows := h.cols
  start := contains_turned.trans h.start
  goal := contains_turned.trans h.goal
  inside := by
    intro place hplace
    obtain ⟨other, rfl⟩ := p.exists_turn place
    exact contains_turned.trans (h.inside other (mem_turned.mp hplace))
  freeStart := mt mem_turned.mp h.freeStart
  freeGoal := mt mem_turned.mp h.freeGoal

/-- A well-formed program can be read from a document, when its endpoints are not the same cell. -/
theorem WellFormed.reachable (h : p.WellFormed) (hne : p.start.position ≠ p.goal.position) :
    p.Reachable := by
  let level : Level := ⟨"", [], p⟩
  have hdecode : Level.decode level.encode = .ok (.level level.restarted) := by
    rw [Level.decode_encode_eq h, Level.toLevel_ofLevel h hne]
    rfl
  exact .decode hdecode

theorem reachable_turned (h : p.Reachable) (hne : p.start.position ≠ p.goal.position) :
    p.turned.Reachable :=
  h.wellFormed.turned.reachable (mt turn_inj.mp hne)

/-- No branch has its sides swapped. -/
def NoSwappedBranches (p : Program) : Prop :=
  ∀ place tile, p.tile? place = some tile → tile.kind.branchColours ≠ none →
    tile.orientation.isMirrored = false

end Program

/-! ## Ways out -/

theorem Orientation.forward_turned (o : Orientation) : o.turned.forward = o.forward.clockwise := by
  cases o <;> rfl

theorem Tile.forward_turned (t : Tile) : t.turned.forward = t.forward.clockwise :=
  t.orientation.forward_turned

theorem Tile.exits_turned {t : Tile} (h : t.orientation.isMirrored = false) :
    t.turned.exitOnFirst = t.exitOnFirst.clockwise ∧
      t.turned.exitOnSecond = t.exitOnSecond.clockwise := by
  obtain ⟨kind, orientation⟩ := t
  cases orientation with
  | mirrored => cases h
  | identity | turned1 | turned2 | turned3 => exact ⟨rfl, rfl⟩

namespace Walker

variable {p : Program} {limit : UInt32} {v w : Walker} {place : Position} {tape : Tape}

theorem tileExit_turned {tile : Tile}
    (h : tile.kind.branchColours ≠ none → tile.orientation.isMirrored = false) :
    tileExit tile.turned tape = (tileExit tile tape).map Heading.clockwise id := by
  unfold tileExit
  rw [show tile.turned.kind = tile.kind from rfl, tile.forward_turned]
  cases hbranch : tile.kind.branchColours with
  | none => rfl
  | some colours =>
    obtain ⟨hfirst, hsecond⟩ := Tile.exits_turned (h (by simp [hbranch]))
    unfold branchExit
    dsimp only
    rw [hfirst, hsecond, tile.forward_turned]
    split_ifs <;> rfl

theorem exit?_turned (h : p.NoSwappedBranches) (place : Position) (tape : Tape) :
    exit? p.turned (p.turn place) tape =
      (exit? p place tape).map (Prod.map Heading.clockwise id) := by
  unfold exit?
  simp only [Program.turn_eq_start, Program.tile?_turned]
  split_ifs
  · simp [Program.turned, Orientation.forward_turned]
  · cases htile : p.tile? place with
    | none => rfl
    | some tile => simpa using tileExit_turned (h place tile htile)

theorem endingAt_turned (p : Program) (place : Position) :
    endingAt p.turned (p.turn place) = endingAt p place := by
  unfold endingAt
  simp only [Program.contains_turned, Program.turn_eq_start, Program.turn_eq_goal,
    Program.tile?_turned, ne_eq, Option.map_eq_none_iff]

/-! ## Turned walkers -/

/-- The walker, turned with the program that it is on. -/
def turned (p : Program) (w : Walker) : Walker :=
  { w with program := some p.turned, position := p.turn w.position }

theorem turned_checkLimit (w : Walker) : w.checkLimit.turned p = (w.turned p).checkLimit := by
  unfold checkLimit
  rw [apply_ite (turned p)]
  rfl

/-- Whatever becomes of the token in a move, it becomes of the turned one. -/
theorem Moves.turned (h : p.NoSwappedBranches) (hmoves : Moves p w v) :
    Moves p.turned (w.turned p) (v.turned p) := by
  have hway : exit? p.turned (w.turned p).position (w.turned p).tape = _ :=
    exit?_turned h w.position w.tape
  have hnext : ∀ heading, (w.turned p).position.neighbour heading.clockwise =
      p.turn (w.position.neighbour heading) := fun heading =>
    (p.turn_neighbour w.position heading).symm
  cases hmoves with
  | stuck hexit =>
    rw [hexit] at hway
    exact .stuck hway
  | blocked hexit hending =>
    rw [hexit] at hway
    refine .blocked hway ?_
    rw [hnext, endingAt_turned, hending]
  | ended hexit hending hne =>
    rw [hexit] at hway
    have hmoves := Moves.ended hway (by rwa [hnext, endingAt_turned]) hne
    rwa [hnext] at hmoves
  | went hexit hending =>
    rw [hexit] at hway
    have hmoves := Moves.went hway (by rwa [hnext, endingAt_turned])
    rw [hnext] at hmoves
    rwa [turned_checkLimit]

theorem move_turned (h : p.NoSwappedBranches) (w : Walker) :
    (w.turned p).move p.turned = (w.move p).turned p :=
  (moves_move p w).turned h |>.move_eq

theorem step_turned (h : p.NoSwappedBranches) (hon : w.IsOn p limit) :
    Machine.step (w.turned p) = ((Machine.step w).1.turned p, (Machine.step w).2) := by
  have hon' : (w.turned p).IsOn p.turned limit := ⟨rfl, hon.started, hon.limit⟩
  cases hruns : w.isRunning with
  | true => rw [step_running hon hruns, step_running hon' hruns, move_turned h]
  | false => rw [step_halted hon hruns, step_halted hon' hruns]

theorem afterSteps_turned (h : p.NoSwappedBranches) (hon : w.IsOn p limit) (n : Nat) :
    afterSteps (w.turned p) n = (afterSteps w n).turned p := by
  induction n with
  | zero => rfl
  | succ n ih => rw [afterSteps_succ, afterSteps_succ, ih, step_turned h (isOn_afterSteps hon n)]

/-! ## The theorem -/

/-- When a program is turned by a quarter, the result is a program that can come about, with the
tiles where they have been turned to. A token walks on it as on the first one, turned by a quarter,
whatever the tape, the limit and the number of steps. -/
theorem walks_turn_with_the_program {p : Program} (hp : p.Reachable)
    (hne : p.start.position ≠ p.goal.position) (hbranches : p.NoSwappedBranches) (u u' : Walker)
    (tape : Tape) (limit : UInt32) (n : Nat) :
    (p.turned.Reachable ∧ ∀ place,
      p.turned.contains (p.turn place) = p.contains place ∧
        p.turned.tile? (p.turn place) = (p.tile? place).map Tile.turned) ∧
    let v := afterSteps (u.setOff p tape limit) n
    let v' := afterSteps (u'.setOff p.turned tape limit) n
    (v'.steps = v.steps ∧ v'.tape = v.tape ∧ v'.isRunning = v.isRunning ∧ v'.ending = v.ending ∧
      v'.accepts = v.accepts) ∧
    v'.position = p.turn v.position ∧ (Machine.step v').2 = (Machine.step v).2 := by
  refine ⟨⟨Program.reachable_turned hp hne, fun place =>
    ⟨Program.contains_turned, Program.tile?_turned⟩⟩, ?_⟩
  intro v v'
  have hon := isOn_setOff u p tape limit
  have hv : v' = v.turned p := by
    rw [← afterSteps_turned hbranches hon n]
    rfl
  rw [hv]
  refine ⟨⟨rfl, rfl, rfl, rfl, rfl⟩, rfl, ?_⟩
  rw [step_turned hbranches (isOn_afterSteps hon n)]

theorem noSwappedBranches_crossing : crossing.NoSwappedBranches := by
  intro place tile htile _
  simp only [crossing, Program.tile?, Std.ExtTreeMap.getElem?_insert] at htile
  split_ifs at htile <;> simp_all <;> simp [← htile, Orientation.isMirrored]

theorem walks_turn_with_the_program_on_a_crossing :
    let walk := fun p => afterSteps (({} : Walker).setOff p (.ofColours [.red]) 0) 4
    crossing.Reachable ∧ crossing.start.position ≠ crossing.goal.position ∧
    crossing.NoSwappedBranches ∧ crossing.turned.Reachable ∧
    crossing.turned.tile? ⟨1, 2⟩ = some ⟨.conveyor, .identity⟩ ∧
    (walk crossing).position = ⟨2, 2⟩ ∧ (walk crossing.turned).position = ⟨1, 2⟩ ∧
    (walk crossing.turned).ending = some .edge ∧ (walk crossing.turned).tape.unread = [.blue] := by
  intro walk
  have hne : crossing.start.position ≠ crossing.goal.position := by decide
  obtain ⟨⟨hreachable, hplaces⟩, ⟨-, htape, -, hending, -⟩, hposition, -⟩ :=
    walks_turn_with_the_program reachable_crossing hne noSwappedBranches_crossing {} {}
      (.ofColours [.red]) 0 4
  have htile : crossing.turned.tile? (crossing.turn ⟨2, 2⟩) = _ := (hplaces ⟨2, 2⟩).2
  refine ⟨reachable_crossing, hne, noSwappedBranches_crossing, hreachable, htile, rfl, hposition,
    hending, ?_⟩
  show (walk crossing.turned).tape.unread = (walk crossing).tape.unread
  exact congrArg Tape.unread htape

end Walker

end Tilewalk
