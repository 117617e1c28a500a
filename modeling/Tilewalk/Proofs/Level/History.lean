import Tilewalk.Proofs.Level.Canonical
import Tilewalk.Proofs.Level.InPlace

/-! # What is left of the edits

A program that was made empty is what its calls have made of it. Each cell is as the last call left
it that succeeded and touched it, and so is each endpoint.
-/

namespace Tilewalk

/-! ## Cells -/

namespace Cells

theorem getElem?_insert (cells : Cells) (place other : Position) (tile : Tile) :
    (cells.insert place tile)[other]? = if other = place then some tile else cells[other]? := by
  simp [Std.ExtTreeMap.getElem?_insert, eq_comm (a := other)]

theorem getElem?_erase (cells : Cells) (place other : Position) :
    (cells.erase place)[other]? = if other = place then none else cells[other]? := by
  simp [Std.ExtTreeMap.getElem?_erase, eq_comm (a := other)]

end Cells

/-! ## What an edit writes -/

namespace Edit

/-- The cells that an edit leaves in a state of its own. -/
def cells : Edit → List Position
  | placeTile place _ | removeTile place => [place]
  | moveStart start => [start.position]
  | moveGoal goal => [goal.position]
  | moveEndpoints start goal => [start.position, goal.position]

def touches (place : Position) (e : Edit) : Bool := place ∈ e.cells

/-- What lies on the cells of an edit once it has been applied. -/
def leaves : Edit → Option Tile
  | placeTile _ tile => some tile
  | removeTile _ | moveStart _ | moveGoal _ | moveEndpoints .. => none

def start? : Edit → Option Endpoint
  | moveStart start | moveEndpoints start _ => some start
  | placeTile .. | removeTile _ | moveGoal _ => none

def goal? : Edit → Option Endpoint
  | moveGoal goal | moveEndpoints _ goal => some goal
  | placeTile .. | removeTile _ | moveStart _ => none

variable {e : Edit} {p q : Program}

theorem leaves_of_touches {place : Position} {tile : Tile} (h : e.touches place = true) :
    e.leaves = some tile ↔ e = .placeTile place tile := by
  unfold touches at h
  cases e <;> simp_all [cells, leaves]

theorem apply_of_call (h : (e.call p).1 = .ok ()) : e.apply p = .ok (e.call p).2 := by
  cases hq : e.apply p with
  | ok q => rw [call_of_ok hq]
  | error fault => simp [call_of_error hq] at h

theorem look_apply (h : e.apply p = .ok q) :
    q.start = e.start?.getD p.start ∧ q.goal = e.goal?.getD p.goal ∧
      ∀ place, q.tile? place = if e.touches place then e.leaves else p.tile? place := by
  unfold touches Program.tile?
  cases e with
  | placeTile place tile =>
    obtain ⟨-, rfl⟩ := Program.placeTile_eq_ok.mp h
    exact ⟨rfl, rfl, fun other => by simp [cells, leaves, Cells.getElem?_insert]⟩
  | removeTile place =>
    cases h
    exact ⟨rfl, rfl, fun other => by
      simp [Program.removeTile, cells, leaves, Cells.getElem?_erase]⟩
  | moveStart start =>
    obtain ⟨-, rfl⟩ := Program.moveStart_eq_ok.mp h
    exact ⟨rfl, rfl, fun other => by simp [cells, leaves, Cells.getElem?_erase]⟩
  | moveGoal goal =>
    obtain ⟨-, rfl⟩ := Program.moveGoal_eq_ok.mp h
    exact ⟨rfl, rfl, fun other => by simp [cells, leaves, Cells.getElem?_erase]⟩
  | moveEndpoints start goal =>
    obtain ⟨-, rfl⟩ := Program.moveEndpoints_eq_ok.mp h
    refine ⟨rfl, rfl, fun other => ?_⟩
    simp only [cells, leaves, Cells.getElem?_erase, List.mem_cons, List.not_mem_nil, or_false,
      decide_eq_true_eq]
    split_ifs <;> simp_all

end Edit

/-! ## The last edit -/

namespace Program

variable {p q r : Program}

def succeeded (p : Program) (edits : List Edit) : List Edit :=
  (p.answers edits).filterMap fun (e, answer) => answer.toOption.map fun _ => e

theorem succeeded_cons (p : Program) (e : Edit) (rest : List Edit) :
    p.succeeded (e :: rest) = match e.apply p with
      | .ok q => e :: q.succeeded rest
      | .error _ => p.succeeded rest := by
  unfold succeeded
  rw [answers]
  cases he : e.apply p with
  | ok q => simp [Edit.call_of_ok he, Except.toOption]
  | error fault => simp [Edit.call_of_error he, Except.toOption]

/-- What every edit writes, or else leaves as it was, is what the last edit has written. -/
theorem last_write {α : Type} {look : Program → α} {writes : Edit → Option α}
    (happly : ∀ (e : Edit) (p q : Program), e.apply p = .ok q →
      look q = (writes e).getD (look p)) (p : Program) (edits : List Edit) :
    look (p.afterCalls edits) = ((p.succeeded edits).findSomeRev? writes).getD (look p) := by
  induction edits generalizing p with
  | nil => rfl
  | cons e rest ih =>
    rw [afterCalls, ih, succeeded_cons]
    cases he : e.apply p with
    | error fault => rw [Edit.call_of_error he]
    | ok q =>
      rw [Edit.call_of_ok he, happly e p q he, List.findSomeRev?]
      cases (q.succeeded rest).findSomeRev? writes <;> simp

theorem findSomeRev?_leaves (place : Position) (edits : List Edit) :
    edits.findSomeRev? (fun e => if e.touches place then some e.leaves else none) =
      (edits.findRev? (·.touches place)).map Edit.leaves := by
  induction edits with
  | nil => rfl
  | cons e rest ih =>
    rw [List.findSomeRev?, List.findRev?, ih]
    cases rest.findRev? (·.touches place) <;> simp [apply_ite]

theorem tile?_afterCalls (p : Program) (edits : List Edit) (place : Position) :
    (p.afterCalls edits).tile? place =
      (((p.succeeded edits).findRev? (·.touches place)).map Edit.leaves).getD (p.tile? place) := by
  let look (r : Program) : Option Tile := r.tile? place
  have happly : ∀ (e : Edit) (p q : Program), e.apply p = .ok q →
      look q = (if e.touches place then some e.leaves else none).getD (look p) := by
    intro e p q h
    simp only [look, (Edit.look_apply h).2.2 place]
    split_ifs <;> rfl
  rw [← findSomeRev?_leaves]
  exact last_write happly p edits

theorem start_afterCalls (p : Program) (edits : List Edit) :
    (p.afterCalls edits).start = ((p.succeeded edits).findSomeRev? Edit.start?).getD p.start :=
  last_write (fun _ _ _ h => (Edit.look_apply h).1) p edits

theorem goal_afterCalls (p : Program) (edits : List Edit) :
    (p.afterCalls edits).goal = ((p.succeeded edits).findSomeRev? Edit.goal?).getD p.goal :=
  last_write (fun _ _ _ h => (Edit.look_apply h).2.1) p edits

/-! ## The listing -/

theorem mem_tiles {place : Position} {tile : Tile} :
    (place, tile) ∈ p.tiles ↔ p.tile? place = some tile :=
  Std.ExtTreeMap.mem_toList_iff_getElem?_eq_some

theorem ordered_tiles (p : Program) :
    p.tiles.Pairwise fun a b => a.1.x < b.1.x ∨ a.1.x = b.1.x ∧ a.1.y < b.1.y :=
  Std.ExtTreeMap.ordered_keys_toList.imp Position.compare_eq_lt

theorem length_tiles (p : Program) : p.tiles.length = p.tileCount := Std.ExtTreeMap.length_toList

/-! ## Both endpoints -/

theorem moveEndpoints_of_moves {start goal : Endpoint} (hstart : p.moveStart start = .ok q)
    (hgoal : q.moveGoal goal = .ok r) : p.moveEndpoints start goal = .ok r := by
  obtain ⟨⟨hstartInside, -⟩, rfl⟩ := moveStart_eq_ok.mp hstart
  obtain ⟨⟨hgoalInside, hne⟩, rfl⟩ := moveGoal_eq_ok.mp hgoal
  exact moveEndpoints_eq_ok.mpr ⟨⟨hstartInside, hgoalInside, hne.symm⟩, rfl⟩

/-! ## The theorem -/

/-- However an empty grid is edited, a tile lies on a cell just when the last call that succeeded
and touched the cell has put it there. The listing holds each tile once, in the order of the cells.
The endpoints are those of the last calls that set them, or else those of the empty grid. It makes
no difference whether they are moved one after the other or at once. -/
theorem last_edits_decide {cols rows : Nat} (h : blank cols rows = .ok p) (edits : List Edit) :
    let q := p.afterCalls edits
    let done := p.succeeded edits
    (∀ place tile, q.tile? place = some tile ↔
      done.findRev? (·.touches place) = some (.placeTile place tile)) ∧
    ((∀ place tile, (place, tile) ∈ q.tiles ↔ q.tile? place = some tile) ∧
      q.tiles.Pairwise (fun a b => a.1.x < b.1.x ∨ a.1.x = b.1.x ∧ a.1.y < b.1.y) ∧
      q.tileCount = q.tiles.length) ∧
    (q.start = (done.findSomeRev? Edit.start?).getD (defaultStart cols) ∧
      q.goal = (done.findSomeRev? Edit.goal?).getD (defaultGoal cols rows)) ∧
    ∀ start goal, (q.answers [.moveStart start, .moveGoal goal]).map Prod.snd = [.ok (), .ok ()] →
      (Edit.moveEndpoints start goal).call q =
        (.ok (), q.afterCalls [.moveStart start, .moveGoal goal]) := by
  intro q done
  obtain ⟨-, rfl⟩ := blank_eq_ok.mp h
  refine ⟨fun place tile => ?_, ⟨fun _ _ => mem_tiles, ordered_tiles q, (length_tiles q).symm⟩,
    ⟨start_afterCalls _ edits, goal_afterCalls _ edits⟩, fun start goal hanswers => ?_⟩
  · have htile : q.tile? place = ((done.findRev? (·.touches place)).map Edit.leaves).getD none :=
      tile?_afterCalls _ edits place
    rw [htile]
    cases hlast : done.findRev? (·.touches place) with
    | none => simp
    | some e =>
      have htouches : e.touches place = true := by
        rw [List.findRev?_eq_find?_reverse] at hlast
        exact List.find?_some hlast
      simpa using Edit.leaves_of_touches htouches
  · simp only [answers, List.map_cons, List.map_nil, List.cons.injEq, and_true] at hanswers
    obtain ⟨hstart, hgoal⟩ := hanswers
    have hboth := moveEndpoints_of_moves (Edit.apply_of_call hstart) (Edit.apply_of_call hgoal)
    exact Edit.call_of_ok (e := .moveEndpoints start goal) hboth

/-- A tile takes the place of another one, and the start that of a tile. A tile then lies where the
start was. The last two calls are refused. -/
def movedStart : List Edit :=
  [.placeTile ⟨0, 0⟩ ⟨.conveyor, .identity⟩, .placeTile ⟨0, 0⟩ ⟨.writer .red, .turned1⟩,
    .placeTile ⟨2, 0⟩ ⟨.conveyor, .turned3⟩, .moveStart ⟨⟨2, 0⟩, .turned1⟩,
    .placeTile ⟨1, 0⟩ ⟨.branchBlueRed, .mirrored⟩, .placeTile ⟨2, 0⟩ ⟨.conveyor, .identity⟩,
    .moveGoal ⟨⟨2, 0⟩, .identity⟩]

theorem last_edits_decide_of_a_moved_start :
    let q := (emptyGrid 3 2).afterCalls movedStart
    let moves := [.moveStart ⟨⟨0, 0⟩, .turned2⟩, .moveGoal ⟨⟨2, 0⟩, .identity⟩]
    blank 3 2 = .ok (emptyGrid 3 2) ∧
    q.tile? ⟨0, 0⟩ = some ⟨.writer .red, .turned1⟩ ∧
    (⟨1, 0⟩, ⟨.branchBlueRed, .mirrored⟩) ∈ q.tiles ∧
    q.tile? ⟨2, 0⟩ = none ∧
    q.start = ⟨⟨2, 0⟩, .turned1⟩ ∧ q.goal = defaultGoal 3 2 ∧
    (q.answers moves).map Prod.snd = [.ok (), .ok ()] ∧
    ((Edit.moveEndpoints ⟨⟨0, 0⟩, .turned2⟩ ⟨⟨2, 0⟩, .identity⟩).call q).2 = q.afterCalls moves := by
  intro q moves
  have hblank : blank 3 2 = .ok (emptyGrid 3 2) := rfl
  obtain ⟨htile, ⟨htiles, -, -⟩, ⟨hstart, hgoal⟩, hmoves⟩ := last_edits_decide hblank movedStart
  have hfree : q.tile? ⟨2, 0⟩ = none :=
    Option.eq_none_iff_forall_ne_some.mpr fun tile h => by
      cases (htile _ _).mp h
  refine ⟨hblank, (htile _ _).mpr rfl, (htiles _ _).mpr ((htile _ _).mpr rfl), hfree, hstart, hgoal,
    rfl, ?_⟩
  rw [hmoves _ _ rfl]

end Program

end Tilewalk
