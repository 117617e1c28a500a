import Mathlib.Data.Finset.Card
import Tilewalk.Proofs.Level.RoundTrip
import Tilewalk.Proofs.Level.Rows

/-! # Programs that are edited in place

The edits as calls that change a program where it is, one assignment after the other. Nothing holds
a caller back from going on after a call that has failed.
-/

namespace Tilewalk

/-! ## The calls -/

abbrev InPlace := ExceptT EditFault (StateM Program)

namespace InPlace

def requireInside (place : Position) : InPlace Unit := do
  let p ← get
  unless p.contains place do throw (.outOfBounds place p.cols p.rows)

def placeTile (place : Position) (tile : Tile) : InPlace Unit := do
  requireInside place
  let p ← get
  if place = p.start.position ∨ place = p.goal.position then throw (.reserved place)
  modify fun p => { p with cells := p.cells.insert place tile }

def removeTile (place : Position) : InPlace Unit :=
  modify fun p => { p with cells := p.cells.erase place }

def moveStart (start : Endpoint) : InPlace Unit := do
  requireInside start.position
  let p ← get
  if start.position = p.goal.position then throw (.reserved start.position)
  removeTile start.position
  modify fun p => { p with start }

def moveGoal (goal : Endpoint) : InPlace Unit := do
  requireInside goal.position
  let p ← get
  if goal.position = p.start.position then throw (.reserved goal.position)
  removeTile goal.position
  modify fun p => { p with goal }

def moveEndpoints (start goal : Endpoint) : InPlace Unit := do
  requireInside start.position
  requireInside goal.position
  if start.position = goal.position then throw (.reserved goal.position)
  removeTile start.position
  removeTile goal.position
  modify fun p => { p with start }
  modify fun p => { p with goal }

/-- What a call answers, and the program that it leaves behind. -/
def runOn {α : Type} (call : InPlace α) (p : Program) : Except EditFault α × Program := call.run.run p

end InPlace

namespace Edit

def inPlace : Edit → InPlace Unit
  | placeTile place tile => InPlace.placeTile place tile
  | removeTile place => InPlace.removeTile place
  | moveStart start => InPlace.moveStart start
  | moveGoal goal => InPlace.moveGoal goal
  | moveEndpoints start goal => InPlace.moveEndpoints start goal

def call (e : Edit) (p : Program) : Except EditFault Unit × Program := e.inPlace.runOn p

def movesEndpoint : Edit → Bool
  | placeTile .. | removeTile _ => false
  | moveStart _ | moveGoal _ | moveEndpoints .. => true

end Edit

namespace Program

def afterCalls : Program → List Edit → Program
  | p, [] => p
  | p, e :: rest => afterCalls (e.call p).2 rest

/-- The calls with what each of them has answered. -/
def answers : Program → List Edit → List (Edit × Except EditFault Unit)
  | _, [] => []
  | p, e :: rest => (e, (e.call p).1) :: answers (e.call p).2 rest

/-- No call that moves an endpoint has succeeded. -/
def NeverMoved (p : Program) (edits : List Edit) : Prop :=
  ∀ answer ∈ p.answers edits, answer.1.movesEndpoint = true → answer.2 ≠ .ok ()

end Program

/-! ## A call is an edit -/

namespace InPlace

section Running

variable {α : Type} {call : Unit → InPlace α} {p q : Program} {place : Position} {fault : EditFault}

theorem runOn_get_bind (call : Program → InPlace α) (p : Program) :
    (get >>= call : InPlace α).runOn p = (call p).runOn p := rfl

theorem runOn_requireInside_bind : (requireInside place >>= call).runOn p =
    if p.contains place then (call ()).runOn p
    else (.error (.outOfBounds place p.cols p.rows), p) := by
  unfold requireInside
  rw [bind_assoc, runOn_get_bind]
  split_ifs <;> rfl

/-- An edit gives a new program, or leaves the old one. -/
def kept (p : Program) : Except EditFault Program → Except EditFault Unit × Program
  | .ok q => (.ok (), q)
  | .error fault => (.error fault, p)

theorem kept_requireInside_bind {edit : Unit → Except EditFault Program} :
    kept p (p.requireInside place >>= edit) =
      if p.contains place then kept p (edit ())
      else (.error (.outOfBounds place p.cols p.rows), p) := by
  unfold Program.requireInside
  split_ifs <;> rfl

theorem kept_refuse {c : Prop} [Decidable c] :
    kept p (if c then .error fault else .ok q) = if c then (.error fault, p) else (.ok (), q) := by
  split_ifs <;> rfl

end Running

theorem runOn_placeTile (place : Position) (tile : Tile) (p : Program) :
    (placeTile place tile).runOn p = kept p (p.placeTile place tile) := by
  unfold placeTile Program.placeTile
  rw [runOn_requireInside_bind, kept_requireInside_bind, kept_refuse, runOn_get_bind]
  split_ifs <;> rfl

theorem runOn_moveStart (start : Endpoint) (p : Program) :
    (moveStart start).runOn p = kept p (p.moveStart start) := by
  unfold moveStart Program.moveStart
  rw [runOn_requireInside_bind, kept_requireInside_bind, kept_refuse, runOn_get_bind]
  split_ifs <;> rfl

theorem runOn_moveGoal (goal : Endpoint) (p : Program) :
    (moveGoal goal).runOn p = kept p (p.moveGoal goal) := by
  unfold moveGoal Program.moveGoal
  rw [runOn_requireInside_bind, kept_requireInside_bind, kept_refuse, runOn_get_bind]
  split_ifs <;> rfl

theorem runOn_moveEndpoints (start goal : Endpoint) (p : Program) :
    (moveEndpoints start goal).runOn p = kept p (p.moveEndpoints start goal) := by
  unfold moveEndpoints Program.moveEndpoints
  rw [runOn_requireInside_bind, kept_requireInside_bind, runOn_requireInside_bind,
    kept_requireInside_bind, kept_refuse]
  split_ifs <;> rfl

end InPlace

namespace Edit

variable {e : Edit} {p q : Program} {fault : EditFault}

theorem call_eq_kept (e : Edit) (p : Program) : e.call p = InPlace.kept p (e.apply p) := by
  unfold call inPlace apply
  cases e with
  | placeTile place tile => exact InPlace.runOn_placeTile place tile p
  | removeTile place => rfl
  | moveStart start => exact InPlace.runOn_moveStart start p
  | moveGoal goal => exact InPlace.runOn_moveGoal goal p
  | moveEndpoints start goal => exact InPlace.runOn_moveEndpoints start goal p

theorem call_of_ok (h : e.apply p = .ok q) : e.call p = (.ok (), q) := by
  rw [call_eq_kept, h]
  rfl

theorem call_of_error (h : e.apply p = .error fault) : e.call p = (.error fault, p) := by
  rw [call_eq_kept, h]
  rfl

theorem call_eq_applyAll (e : Edit) (p : Program) :
    applyAll [e] p = ((e.call p).2, (e.call p).1) := by
  unfold applyAll
  cases h : e.apply p with
  | ok q =>
    rw [call_of_ok h]
    rfl
  | error fault => rw [call_of_error h]

theorem call_of_refused (h : (e.call p).1 = .error fault) : (e.call p).2 = p := by
  cases hq : e.apply p with
  | ok q =>
    rw [call_of_ok hq] at h
    cases h
  | error other => rw [call_of_error hq]

end Edit

/-! ## What edits leave as it is -/

namespace Program

variable {p q r : Program} {place : Position}

/-- Only the tiles of `q` can be others than those of `p`. -/
structure SameGrid (p q : Program) : Prop where
  cols : q.cols = p.cols
  rows : q.rows = p.rows
  start : q.start = p.start
  goal : q.goal = p.goal

theorem SameGrid.refl (p : Program) : SameGrid p p := ⟨rfl, rfl, rfl, rfl⟩

theorem SameGrid.trans (h : SameGrid p q) (h' : SameGrid q r) : SameGrid p r :=
  ⟨h'.cols.trans h.cols, h'.rows.trans h.rows, h'.start.trans h.start, h'.goal.trans h.goal⟩

theorem sameGrid_placeTile {tile : Tile} (h : p.placeTile place tile = .ok q) : SameGrid p q := by
  obtain ⟨-, rfl⟩ := placeTile_eq_ok.mp h
  exact ⟨rfl, rfl, rfl, rfl⟩

end Program

theorem Edit.size_apply {e : Edit} {p q : Program} (h : e.apply p = .ok q) :
    q.cols = p.cols ∧ q.rows = p.rows := by
  cases e with
  | placeTile place tile =>
    obtain ⟨-, rfl⟩ := Program.placeTile_eq_ok.mp h
    exact ⟨rfl, rfl⟩
  | removeTile place =>
    cases h
    exact ⟨rfl, rfl⟩
  | moveStart start =>
    obtain ⟨-, rfl⟩ := Program.moveStart_eq_ok.mp h
    exact ⟨rfl, rfl⟩
  | moveGoal goal =>
    obtain ⟨-, rfl⟩ := Program.moveGoal_eq_ok.mp h
    exact ⟨rfl, rfl⟩
  | moveEndpoints start goal =>
    obtain ⟨-, rfl⟩ := Program.moveEndpoints_eq_ok.mp h
    exact ⟨rfl, rfl⟩

theorem Edit.meet_apply {e : Edit} {p q : Program} (h : e.apply p = .ok q) :
    q.start.position = q.goal.position ↔
      e.movesEndpoint = false ∧ p.start.position = p.goal.position := by
  unfold movesEndpoint
  cases e with
  | placeTile place tile =>
    have hsame := Program.sameGrid_placeTile h
    simp [hsame.start, hsame.goal]
  | removeTile place =>
    cases h
    simp [Program.removeTile]
  | moveStart start =>
    obtain ⟨⟨-, hne⟩, rfl⟩ := Program.moveStart_eq_ok.mp h
    simp [hne]
  | moveGoal goal =>
    obtain ⟨⟨-, hne⟩, rfl⟩ := Program.moveGoal_eq_ok.mp h
    simp [hne.symm]
  | moveEndpoints start goal =>
    obtain ⟨⟨-, -, hne⟩, rfl⟩ := Program.moveEndpoints_eq_ok.mp h
    simp [hne]

/-! ## Many calls -/

namespace Program

variable {p q : Program}

theorem afterCalls_induction {P : Program → Prop} (hfirst : P p)
    (happly : ∀ (q r : Program) (e : Edit), P q → e.apply q = .ok r → P r) (edits : List Edit) :
    P (p.afterCalls edits) := by
  induction edits generalizing p with
  | nil => exact hfirst
  | cons e rest ih =>
    unfold afterCalls
    cases he : e.apply p with
    | ok q =>
      rw [Edit.call_of_ok he]
      exact ih (happly _ _ _ hfirst he)
    | error fault =>
      rw [Edit.call_of_error he]
      exact ih hfirst

theorem meet_afterCalls (p : Program) (edits : List Edit) :
    (p.afterCalls edits).start.position = (p.afterCalls edits).goal.position ↔
      p.start.position = p.goal.position ∧ p.NeverMoved edits := by
  unfold NeverMoved
  induction edits generalizing p with
  | nil => simp [afterCalls, answers]
  | cons e rest ih =>
    unfold afterCalls answers
    rw [ih, List.forall_mem_cons]
    cases he : e.apply p with
    | ok q =>
      rw [Edit.call_of_ok he, Edit.meet_apply he]
      simp only [ne_eq, not_true_eq_false, imp_false, Bool.not_eq_true]
      tauto
    | error fault =>
      rw [Edit.call_of_error he]
      simp

/-! ## Sound programs -/

/-- What can be relied on in a grid of `cols` columns and `rows` rows. -/
structure Sound (cols rows : Nat) (p : Program) : Prop where
  cols_eq : p.cols = cols
  rows_eq : p.rows = rows
  cols_range : 1 ≤ cols ∧ cols ≤ 0x7fffffff
  rows_range : 1 ≤ rows ∧ rows ≤ 0x7fffffff
  start : p.contains p.start.position = true
  goal : p.contains p.goal.position = true
  tile : ∀ place tile, p.tile? place = some tile →
    p.contains place = true ∧ place ≠ p.start.position ∧ place ≠ p.goal.position
  room : p.tileCount + ({p.start.position, p.goal.position} : Finset Position).card ≤ cols * rows

theorem tileCount_add_endpoints_le (h : p.WellFormed) :
    p.tileCount + ({p.start.position, p.goal.position} : Finset Position).card ≤
      p.cols * p.rows := by
  have hcount : p.cells.keys.toFinset.card = p.tileCount := by
    rw [List.toFinset_card_of_nodup Std.ExtTreeMap.nodup_keys, Std.ExtTreeMap.length_keys]
    rfl
  have hdisjoint : Disjoint p.cells.keys.toFinset {p.start.position, p.goal.position} := by
    simp [h.freeStart, h.freeGoal]
  have hinside : p.cells.keys.toFinset ∪ {p.start.position, p.goal.position} ⊆
      (Positional.places p).toFinset := by
    intro place hplace
    apply List.mem_toFinset.mpr
    apply mem_places
    simp only [Finset.mem_union, List.mem_toFinset, Std.ExtTreeMap.mem_keys, Finset.mem_insert,
      Finset.mem_singleton] at hplace
    rcases hplace with hmem | rfl | rfl
    · exact h.inside place hmem
    · exact h.start
    · exact h.goal
  calc p.tileCount + ({p.start.position, p.goal.position} : Finset Position).card
      = (p.cells.keys.toFinset ∪ {p.start.position, p.goal.position}).card := by
        rw [Finset.card_union_of_disjoint hdisjoint, hcount]
    _ ≤ (Positional.places p).toFinset.card := Finset.card_le_card hinside
    _ ≤ (Positional.places p).length := List.toFinset_card_le _
    _ = p.cols * p.rows := length_places p

theorem WellFormed.sound (h : p.WellFormed) : p.Sound p.cols p.rows where
  cols_eq := rfl
  rows_eq := rfl
  cols_range := isDimension_iff.mp h.cols
  rows_range := isDimension_iff.mp h.rows
  start := h.start
  goal := h.goal
  tile := fun place tile htile => by
    have hmem : place ∈ p.cells := mem_of_tile?_isSome (htile ▸ rfl)
    exact ⟨h.inside place hmem, fun heq => h.freeStart (heq ▸ hmem),
      fun heq => h.freeGoal (heq ▸ hmem)⟩
  room := tileCount_add_endpoints_le h

theorem WellFormed.sound_afterCalls (h : p.WellFormed) (edits : List Edit) :
    (p.afterCalls edits).Sound p.cols p.rows := by
  have hwell : (p.afterCalls edits).WellFormed :=
    afterCalls_induction h (fun _ _ _ hwell => Edit.wellFormed_apply hwell) edits
  have hsize : (p.afterCalls edits).cols = p.cols ∧ (p.afterCalls edits).rows = p.rows := by
    refine afterCalls_induction (P := fun q => q.cols = p.cols ∧ q.rows = p.rows) ⟨rfl, rfl⟩ ?_ edits
    intro q r e hq hr
    obtain ⟨hcols, hrows⟩ := Edit.size_apply hr
    exact ⟨hcols.trans hq.1, hrows.trans hq.2⟩
  rw [← hsize.1, ← hsize.2]
  exact hwell.sound

theorem grid_of_blank {cols rows : Nat} (h : blank cols rows = .ok p) :
    (p.cols = cols ∧ p.rows = rows) ∧ (p.start.position = p.goal.position ↔ rows = 1) := by
  obtain ⟨-, rfl⟩ := blank_eq_ok.mp h
  refine ⟨⟨rfl, rfl⟩, ?_⟩
  simp only [defaultStart, defaultGoal, Position.mk.injEq, true_and]
  omega

/-! ## Programs that are read -/

theorem sameGrid_placeAll {cells : List (Position × Tile)} {seen : Std.ExtTreeMap Position Unit}
    (h : Blueprint.placeAll cells seen p = .ok q) : SameGrid p q :=
  Blueprint.placeAll_induction h (SameGrid.refl p) fun _ _ _ _ hsame hplace =>
    hsame.trans (sameGrid_placeTile hplace)

theorem sameGrid_placeFrom {index : Nat} {cs : List Char}
    (h : Positional.placeFrom index cs p = .ok q) : SameGrid p q :=
  Positional.placeFrom_induction h (SameGrid.refl p) fun _ _ _ _ hsame hplace =>
    hsame.trans (sameGrid_placeTile hplace)

theorem grid_of_build {b : Blueprint} (h : b.build = .ok p) :
    p.cols = b.cols ∧ p.rows = b.rows ∧ p.start.position ≠ p.goal.position := by
  obtain ⟨blank, moved, hblank, hmoved, hplaced⟩ := Blueprint.build_eq_ok h
  obtain ⟨-, rfl⟩ := blank_eq_ok.mp hblank
  obtain ⟨⟨-, -, hne⟩, rfl⟩ := moveEndpoints_eq_ok.mp hmoved
  have hsame := sameGrid_placeAll hplaced
  refine ⟨hsame.cols, hsame.rows, ?_⟩
  rw [hsame.start, hsame.goal]
  exact hne

theorem grid_of_positional {text : List Char} (h : Positional.decode text = .ok p) :
    ∃ cols rows cells c r, text = Positional.opening ++ cols ++ 'x' :: rows ++ ':' :: cells ∧
      Positional.count? cols = some c ∧ Positional.count? rows = some r ∧
      (p.cols = c ∧ p.rows = r) ∧ (p.start.position = p.goal.position ↔ r = 1) := by
  obtain ⟨blank, cells, hheader, hplaced⟩ := Positional.decode_eq_ok h
  obtain ⟨cols, rows, c, r, htext, hcols, hrows, hblank⟩ := Positional.header_eq_ok hheader
  obtain ⟨⟨rfl, rfl⟩, hmeet⟩ := grid_of_blank hblank
  have hsame := sameGrid_placeFrom hplaced
  refine ⟨cols, rows, cells, _, _, htext, hcols, hrows, ⟨hsame.cols, hsame.rows⟩, ?_⟩
  rw [hsame.start, hsame.goal]
  exact hmeet

/-! ## The theorem -/

/-- A program that has been made empty or read, and then edited by any calls, is sound. Its endpoints
share a cell only on a single row, and while no call has moved one. A call that fails has changed
nothing. -/
theorem programs_are_sound :
    (∀ (cols rows : Nat) (p : Program), blank cols rows = .ok p → ∀ edits,
      let q := p.afterCalls edits
      q.Sound cols rows ∧
        (q.start.position = q.goal.position ↔ rows = 1 ∧ p.NeverMoved edits)) ∧
    (∀ (text : List Char) (l : Level), Level.decodeDocument text = .ok l →
      ∃ d, Json.readDocument levelShape.read text = .ok d ∧ ∀ edits,
        let q := l.program.afterCalls edits
        q.Sound d.program.cols d.program.rows ∧ q.start.position ≠ q.goal.position) ∧
    (∀ (text : List Char) (p : Program), Positional.decode text = .ok p →
      ∃ cols rows cells c r, text = Positional.opening ++ cols ++ 'x' :: rows ++ ':' :: cells ∧
        Positional.count? cols = some c ∧ Positional.count? rows = some r ∧ ∀ edits,
        let q := p.afterCalls edits
        q.Sound c r ∧
          (q.start.position = q.goal.position ↔ r = 1 ∧ p.NeverMoved edits)) ∧
    ∀ (e : Edit) (p : Program), Edit.applyAll [e] p = ((e.call p).2, (e.call p).1) ∧
      ∀ fault, (e.call p).1 = .error fault → (e.call p).2 = p := by
  refine ⟨fun cols rows p hblank edits => ?_, fun text l hl => ?_, fun text p hp => ?_,
    fun e p => ⟨e.call_eq_applyAll p, fun fault => Edit.call_of_refused⟩⟩
  · obtain ⟨⟨rfl, rfl⟩, hmeet⟩ := grid_of_blank hblank
    refine ⟨(wellFormed_blank hblank).sound_afterCalls edits, ?_⟩
    rw [meet_afterCalls, hmeet]
  · obtain ⟨d, hd, hl⟩ := bind_eq_ok.mp hl
    have hbuild := LevelDocument.build_of_toLevel hl
    obtain ⟨hcols, hrows, hne⟩ := grid_of_build hbuild
    refine ⟨d, mapError_eq_ok.mp hd, fun edits => ⟨?_, ?_⟩⟩
    · rw [← hcols, ← hrows]
      exact (Blueprint.wellFormed_build hbuild).sound_afterCalls edits
    · rw [Ne, meet_afterCalls]
      exact fun hmeet => hne hmeet.1
  · obtain ⟨cols, rows, cells, c, r, htext, hcols, hrows, ⟨rfl, rfl⟩, hmeet⟩ := grid_of_positional hp
    refine ⟨cols, rows, cells, p.cols, p.rows, htext, hcols, hrows, fun edits => ⟨?_, ?_⟩⟩
    · exact (Positional.wellFormed_decode hp).sound_afterCalls edits
    · rw [meet_afterCalls, hmeet]

/-- A conveyor is placed, and neither endpoint moved, as one call names the cell of the other
endpoint and one a cell beside the grid. -/
def refusedMoves : List Edit :=
  [.placeTile ⟨0, 0⟩ ⟨.conveyor, .identity⟩, .moveGoal ⟨⟨1, 0⟩, .turned1⟩,
    .moveStart ⟨⟨2, 0⟩, .identity⟩]

theorem programs_are_sound_on_small_grids :
    let row : Program := ⟨2, 1, ∅, defaultStart 2, defaultGoal 2 1⟩
    ((row.afterCalls refusedMoves).Sound 2 1 ∧ (row.afterCalls refusedMoves).start.position =
      (row.afterCalls refusedMoves).goal.position) ∧
    (Level.onGrid 3 2).restarted.program.start.position ≠
      (Level.onGrid 3 2).restarted.program.goal.position ∧
    (∃ p, Positional.decode ['l', 'v', 'l', '2', 'x', '1', ':', 'c', '0', '.', '.'] = .ok p ∧
      p.tileCount = 1 ∧ ∃ cols rows, p.Sound cols rows) ∧
    ((Edit.moveGoal ⟨⟨1, 0⟩, .turned1⟩).call row).2 = row := by
  intro row
  obtain ⟨hblank, hdocument, hpositional, hcall⟩ := programs_are_sound
  have hgrid : blank 3 2 = .ok (Level.onGrid 3 2).program := rfl
  have hencoded : Level.decodeDocument (Level.onGrid 3 2).encode.toList =
      .ok (Level.onGrid 3 2).restarted := by
    rw [Level.decodeDocument_encode (wellFormed_blank hgrid)]
    exact Level.toLevel_ofLevel (wellFormed_blank hgrid) (by decide)
  refine ⟨?_, ?_, ?_, (hcall _ row).2 (.reserved ⟨1, 0⟩) rfl⟩
  · obtain ⟨hsound, hmeet⟩ := hblank 2 1 row rfl refusedMoves
    refine ⟨hsound, hmeet.mpr ⟨rfl, ?_⟩⟩
    intro answer hanswer hmoves
    simp only [refusedMoves, answers, List.mem_cons, List.not_mem_nil, or_false] at hanswer
    rcases hanswer with rfl | rfl | rfl
    · cases hmoves
    · exact nofun
    · exact nofun
  · obtain ⟨d, -, hread⟩ := hdocument _ _ hencoded
    exact (hread []).2
  · have hdecoded : Positional.decode ['l', 'v', 'l', '2', 'x', '1', ':', 'c', '0', '.', '.'] =
        .ok { row with cells := (∅ : Cells).insert ⟨0, 0⟩ ⟨.conveyor, .identity⟩ } := rfl
    obtain ⟨cols, rows, cells, c, r, -, -, -, hread⟩ := hpositional _ _ hdecoded
    exact ⟨_, hdecoded, rfl, c, r, (hread []).1⟩

end Program

end Tilewalk
