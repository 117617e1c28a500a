import Tilewalk.Proofs.Level.Document
import Tilewalk.Proofs.Level.Reachable

/-! # Which documents describe a program

The grid is made and its endpoints are moved before any tile is placed. So a document is held
against the endpoints that it gives, never against those of an empty grid, and the order in which
it lists its cells cannot matter.
-/

namespace Tilewalk

/-! ## Listed cells -/

theorem getElem?_insertMany {cells : List (Position × Tile)}
    (hdistinct : cells.Pairwise fun first second => first.1 ≠ second.1) {place : Position}
    {tile : Tile} : ((∅ : Cells).insertMany cells)[place]? = some tile ↔ (place, tile) ∈ cells := by
  have hfound : ∀ other, (place, other) ∈ cells →
      ((∅ : Cells).insertMany cells)[place]? = some other := by
    intro other hmem
    refine Std.ExtTreeMap.getElem?_insertMany_list_of_mem Std.ReflCmp.compare_self ?_ hmem
    exact hdistinct.imp fun hne heq => hne (Std.LawfulEqOrd.eq_of_compare heq)
  refine ⟨fun h => ?_, hfound tile⟩
  have hplace : place ∈ (∅ : Cells).insertMany cells :=
    Std.ExtTreeMap.mem_iff_isSome_getElem?.mpr (by simp [h])
  rw [Std.ExtTreeMap.mem_insertMany_list] at hplace
  obtain ⟨cell, hcell, rfl⟩ : ∃ cell ∈ cells, cell.1 = place := by simpa using hplace
  rw [hfound cell.2 hcell] at h
  cases h
  exact hcell

/-! ## Blueprints that fit -/

namespace Blueprint

def Inside (b : Blueprint) (place : Position) : Prop :=
  (0 ≤ place.x ∧ place.x < b.cols) ∧ 0 ≤ place.y ∧ place.y < b.rows

/-- What a blueprint has to be like to describe a program. -/
structure Fits (b : Blueprint) : Prop where
  cols : 1 ≤ b.cols ∧ b.cols ≤ 0x7fffffff
  rows : 1 ≤ b.rows ∧ b.rows ≤ 0x7fffffff
  start : b.Inside b.start.position
  goal : b.Inside b.goal.position
  apart : b.start.position ≠ b.goal.position
  inside : ∀ cell ∈ b.cells, b.Inside cell.1
  free : ∀ cell ∈ b.cells, cell.1 ≠ b.start.position ∧ cell.1 ≠ b.goal.position
  distinct : b.cells.Pairwise fun first second => first.1 ≠ second.1

instance (b : Blueprint) (place : Position) : Decidable (b.Inside place) :=
  inferInstanceAs (Decidable (_ ∧ _))

instance (b : Blueprint) : Decidable b.Fits :=
  decidable_of_iff
    ((1 ≤ b.cols ∧ b.cols ≤ 0x7fffffff) ∧ (1 ≤ b.rows ∧ b.rows ≤ 0x7fffffff) ∧
      b.Inside b.start.position ∧ b.Inside b.goal.position ∧
      b.start.position ≠ b.goal.position ∧ (∀ cell ∈ b.cells, b.Inside cell.1) ∧
      (∀ cell ∈ b.cells, cell.1 ≠ b.start.position ∧ cell.1 ≠ b.goal.position) ∧
      b.cells.Pairwise fun first second => first.1 ≠ second.1)
    ⟨fun ⟨cols, rows, start, goal, apart, inside, free, distinct⟩ =>
      ⟨cols, rows, start, goal, apart, inside, free, distinct⟩,
    fun h => ⟨h.cols, h.rows, h.start, h.goal, h.apart, h.inside, h.free, h.distinct⟩⟩

/-- The grid with all that is listed on it. -/
def drawn (b : Blueprint) : Program :=
  ⟨b.cols, b.rows, (∅ : Cells).insertMany b.cells, b.start, b.goal⟩

variable {b : Blueprint} {p q : Program} {cells : List (Position × Tile)}
  {seen : Std.ExtTreeMap Position Unit}

theorem placeAll_of_free {cells : List (Position × Tile)} {seen : Std.ExtTreeMap Position Unit}
    {p : Program} (hdistinct : cells.Pairwise fun a b => a.1 ≠ b.1)
    (hnew : ∀ cell ∈ cells, cell.1 ∉ seen)
    (hfree : ∀ cell ∈ cells, p.contains cell.1 = true ∧
      cell.1 ≠ p.start.position ∧ cell.1 ≠ p.goal.position) :
    placeAll cells seen p = .ok { p with cells := p.cells.insertMany cells } := by
  induction cells generalizing seen p with
  | nil =>
    rw [Std.ExtTreeMap.insertMany_nil]
    rfl
  | cons cell cells ih =>
    obtain ⟨place, tile⟩ := cell
    obtain ⟨hfirst, hrest⟩ := List.pairwise_cons.mp hdistinct
    have hplace : p.placeTile place tile = .ok { p with cells := p.cells.insert place tile } :=
      Program.placeTile_eq_ok.mpr ⟨hfree (place, tile) List.mem_cons_self, rfl⟩
    have hunseen : ¬ seen.contains place = true := hnew (place, tile) List.mem_cons_self
    have hnew' : ∀ cell ∈ cells, cell.1 ∉ seen.insert place () := by
      intro cell hcell hmem
      rcases Std.ExtTreeMap.mem_insert.mp hmem with heq | hmem
      · exact hfirst cell hcell (Std.LawfulEqOrd.eq_of_compare heq)
      · exact hnew cell (List.mem_cons_of_mem _ hcell) hmem
    have htail := ih (p := { p with cells := p.cells.insert place tile }) hrest hnew'
      fun cell hcell => hfree cell (List.mem_cons_of_mem _ hcell)
    rw [placeAll, if_neg hunseen, hplace]
    dsimp only
    rw [htail, Std.ExtTreeMap.insertMany_cons]

/-- What is asked of the cells does not depend on the tiles that have been placed, so a cell that is
placed late has been free from the first. -/
theorem free_of_placeAll (h : placeAll cells seen p = .ok q) :
    (cells.Pairwise fun first second => first.1 ≠ second.1) ∧
      (∀ cell ∈ cells, cell.1 ∉ seen) ∧
      ∀ cell ∈ cells, p.contains cell.1 = true ∧
        cell.1 ≠ p.start.position ∧ cell.1 ≠ p.goal.position := by
  induction cells generalizing seen p with
  | nil => simp
  | cons cell cells ih =>
    obtain ⟨place, tile⟩ := cell
    unfold placeAll at h
    split_ifs at h with hseen
    cases hplaced : p.placeTile place tile with
    | error fault => simp [hplaced] at h
    | ok placed =>
      simp only [hplaced] at h
      obtain ⟨hfree, rfl⟩ := Program.placeTile_eq_ok.mp hplaced
      obtain ⟨hdistinct, hunseen, hrest⟩ := ih h
      have hnew : ∀ cell ∈ cells, ¬ compare place cell.1 = .eq ∧ cell.1 ∉ seen := by
        intro cell hcell
        have hnot := hunseen cell hcell
        rwa [Std.ExtTreeMap.mem_insert, not_or] at hnot
      refine ⟨List.pairwise_cons.mpr ⟨fun cell hcell heq => ?_, hdistinct⟩,
        List.forall_mem_cons.mpr ⟨hseen, fun cell hcell => (hnew cell hcell).2⟩,
        List.forall_mem_cons.mpr ⟨hfree, hrest⟩⟩
      exact (hnew cell hcell).1 (Std.LawfulEqOrd.compare_eq_iff_eq.mpr heq)

/-- A blueprint gives a program exactly when it fits, and then the one that it lists. -/
theorem build_eq_ok_iff : b.build = .ok p ↔ b.Fits ∧ p = b.drawn := by
  have hcontains : ∀ place cells start goal,
      (Program.mk b.cols b.rows cells start goal).contains place = true ↔ b.Inside place :=
    fun _ _ _ _ => Program.contains_iff
  constructor
  · intro h
    obtain ⟨blank, moved, hblank, hmoved, hplaced⟩ := build_eq_ok h
    obtain ⟨⟨hcols, hrows⟩, rfl⟩ := Program.blank_eq_ok.mp hblank
    obtain ⟨⟨hstart, hgoal, hapart⟩, rfl⟩ := Program.moveEndpoints_eq_ok.mp hmoved
    obtain ⟨hdistinct, hunseen, hfree⟩ := free_of_placeAll hplaced
    rw [placeAll_of_free hdistinct hunseen hfree] at hplaced
    refine ⟨?_, ?_⟩
    · exact {
        cols := Program.isDimension_iff.mp hcols
        rows := Program.isDimension_iff.mp hrows
        start := (hcontains _ _ _ _).mp hstart
        goal := (hcontains _ _ _ _).mp hgoal
        apart := hapart
        inside := fun cell hcell => (hcontains _ _ _ _).mp (hfree cell hcell).1
        free := fun cell hcell => (hfree cell hcell).2
        distinct := hdistinct }
    · cases hplaced
      simp [drawn]
  · rintro ⟨h, rfl⟩
    have hblank := Program.blank_of_isDimension (Program.isDimension_iff.mpr h.cols)
      (Program.isDimension_iff.mpr h.rows)
    have hmoved : (Program.emptyGrid b.cols b.rows).moveEndpoints b.start b.goal =
        .ok { b.drawn with cells := ∅ } := by
      rw [Program.moveEndpoints_eq_ok]
      exact ⟨⟨(hcontains _ _ _ _).mpr h.start, (hcontains _ _ _ _).mpr h.goal, h.apart⟩,
        by simp [Program.emptyGrid, drawn]⟩
    unfold build
    rw [hblank, mapError_ok, ok_bind, hmoved, mapError_ok, ok_bind]
    exact placeAll_of_free h.distinct (fun _ _ => Std.ExtTreeMap.not_mem_empty) fun cell hcell =>
      ⟨(hcontains _ _ _ _).mpr (h.inside cell hcell), h.free cell hcell⟩

/-! ## What is drawn -/

theorem tile?_drawn (h : b.Fits) {place : Position} {tile : Tile} :
    b.drawn.tile? place = some tile ↔ (place, tile) ∈ b.cells :=
  getElem?_insertMany h.distinct

theorem Fits.perm (h : b.Fits) (hperm : cells.Perm b.cells) : { b with cells }.Fits :=
  { h with
    inside := fun cell hcell => h.inside cell (hperm.mem_iff.mp hcell)
    free := fun cell hcell => h.free cell (hperm.mem_iff.mp hcell)
    distinct := hperm.symm.pairwise h.distinct Ne.symm }

theorem drawn_perm (h : b.Fits) (hperm : cells.Perm b.cells) :
    { b with cells }.drawn = b.drawn := by
  have hcells : (∅ : Cells).insertMany cells = (∅ : Cells).insertMany b.cells := by
    apply Std.ExtTreeMap.ext_getElem?
    intro place
    apply Option.ext
    intro tile
    rw [getElem?_insertMany (h.perm hperm).distinct, getElem?_insertMany h.distinct,
      hperm.mem_iff]
  unfold drawn
  rw [hcells]

end Blueprint

/-! ## Cases -/

/-- The tapes of the cases that count are spelled with the letters of the four colours. -/
def LevelDocument.SpellsTapes (d : LevelDocument) : Prop :=
  ∀ entry ∈ d.entries, ∀ letter ∈ entry.input ++ entry.output, letter ∈ ['R', 'B', 'G', 'Y']

theorem Tape.exists_readLetters {letters : List Char}
    (h : ∀ letter ∈ letters, letter ∈ ['R', 'B', 'G', 'Y']) :
    ∃ colours, readLetters letters = .ok colours := by
  induction letters with
  | nil => exact ⟨[], rfl⟩
  | cons letter letters ih =>
    obtain ⟨hfirst, hrest⟩ := List.forall_mem_cons.mp h
    obtain ⟨colours, hcolours⟩ := ih hrest
    obtain ⟨colour, hcolour⟩ : ∃ colour, Colour.ofLetter? letter = some colour := by
      simp only [List.mem_cons, List.not_mem_nil, or_false] at hfirst
      rcases hfirst with rfl | rfl | rfl | rfl <;> exact ⟨_, rfl⟩
    unfold readLetters
    rw [hcolour, hcolours]
    exact ⟨_, rfl⟩

theorem exists_readTape {letters : List Char}
    (h : ∀ letter ∈ letters, letter ∈ ['R', 'B', 'G', 'Y']) :
    ∃ tape, readTape letters = .ok tape := by
  obtain ⟨colours, hcolours⟩ := Tape.exists_readLetters h
  unfold readTape
  rw [hcolours]
  exact ⟨_, rfl⟩

theorem LevelDocument.SpellsTapes.exists_cases {d : LevelDocument} (h : d.SpellsTapes) :
    ∃ cases, d.entries.mapM CaseEntry.toCase = .ok cases := by
  unfold SpellsTapes at h
  generalize d.entries = entries at h
  induction entries with
  | nil => exact ⟨[], rfl⟩
  | cons entry entries ih =>
    obtain ⟨hfirst, hrest⟩ := List.forall_mem_cons.mp h
    obtain ⟨hinput, houtput⟩ := List.forall_mem_append.mp hfirst
    obtain ⟨input, hinput⟩ := exists_readTape hinput
    obtain ⟨output, houtput⟩ := exists_readTape houtput
    obtain ⟨cases, hcases⟩ := ih hrest
    have hcase : entry.toCase = .ok ⟨entry.accept, input, output, UInt32.ofNat entry.limit⟩ := by
      unfold CaseEntry.toCase
      rw [hinput, houtput, ok_bind, ok_bind]
    rw [List.mapM_cons, hcase, ok_bind, hcases, ok_bind]
    exact ⟨_, rfl⟩

/-! ## Documents -/

namespace LevelDocument

variable {d : LevelDocument} {l : Level}

/-- The document with its cells listed in another way. -/
def relisted (d : LevelDocument) (cells : List (Position × Tile)) : LevelDocument :=
  { d with program := { d.program with cells } }

theorem program_of_toLevel (h : d.toLevel = .ok l) :
    d.program.Fits ∧ l.program = d.program.drawn :=
  Blueprint.build_eq_ok_iff.mp (build_of_toLevel h)

theorem toLevel_of_parts {p : Program} {cases : List Case} (hprogram : d.program.build = .ok p)
    (hcases : d.entries.mapM CaseEntry.toCase = .ok cases) :
    d.toLevel = .ok ⟨String.ofList d.title, cases, p⟩ := by
  unfold toLevel
  rw [hprogram, mapError_ok, ok_bind, hcases, ok_bind]

theorem exists_toLevel (h : d.program.Fits) (htapes : d.SpellsTapes) :
    ∃ l, d.toLevel = .ok l := by
  obtain ⟨cases, hcases⟩ := htapes.exists_cases
  exact ⟨_, toLevel_of_parts (Blueprint.build_eq_ok_iff.mpr ⟨h, rfl⟩) hcases⟩

theorem toLevel_of_not_fits (h : ¬ d.program.Fits) :
    ∃ fault, d.toLevel = .error (.schema fault) := by
  unfold toLevel
  cases hbuild : d.program.build with
  | ok p => exact absurd (Blueprint.build_eq_ok_iff.mp hbuild).1 h
  | error fault => exact ⟨fault, rfl⟩

theorem toLevel_relisted {cells : List (Position × Tile)} (h : d.program.Fits)
    (hperm : cells.Perm d.program.cells) : (d.relisted cells).toLevel = d.toLevel := by
  have hbuild : { d.program with cells }.build = d.program.build := by
    rw [Blueprint.build_eq_ok_iff.mpr ⟨h.perm hperm, rfl⟩, Blueprint.drawn_perm h hperm,
      Blueprint.build_eq_ok_iff.mpr ⟨h, rfl⟩]
  unfold toLevel relisted entries
  rw [hbuild]

end LevelDocument

namespace Level

theorem decodeDocument_of_read {text : List Char} {d : LevelDocument}
    (h : Json.readDocument levelShape.read text = .ok d) : decodeDocument text = d.toLevel := by
  unfold decodeDocument
  rw [h, mapError_ok, ok_bind]

/-! ## The theorem -/

/-- A document of the right shape is read as a level exactly when its blueprint fits, and is refused
for its program otherwise. The level has the listed tiles and no others, on the grid and with the
endpoints that are given. In whatever order the cells are listed, the result is the same. -/
theorem documents_are_drawn_as_listed {text : List Char} {d : LevelDocument}
    (hread : Json.readDocument levelShape.read text = .ok d) (htapes : d.SpellsTapes) :
    ((∃ l, decodeDocument text = .ok l) ↔ d.program.Fits) ∧
    (¬ d.program.Fits → ∃ fault, decodeDocument text = .error (.schema fault)) ∧
    (∀ l, decodeDocument text = .ok l →
      (l.program.cols = d.program.cols ∧ l.program.rows = d.program.rows) ∧
      (l.program.start = d.program.start ∧ l.program.goal = d.program.goal) ∧
      ∀ place tile, l.program.tile? place = some tile ↔ (place, tile) ∈ d.program.cells) ∧
    ∀ text' cells, Json.readDocument levelShape.read text' = .ok (d.relisted cells) →
      cells.Perm d.program.cells →
      (∀ l, decodeDocument text' = .ok l ↔ decodeDocument text = .ok l) ∧
      ((∃ fault, decodeDocument text' = .error (.schema fault)) ↔
        ∃ fault, decodeDocument text = .error (.schema fault)) := by
  rw [decodeDocument_of_read hread]
  refine ⟨⟨fun ⟨l, hl⟩ => (LevelDocument.program_of_toLevel hl).1,
    fun hfits => LevelDocument.exists_toLevel hfits htapes⟩,
    LevelDocument.toLevel_of_not_fits, fun l hl => ?_, fun text' cells hread' hperm => ?_⟩
  · obtain ⟨hfits, hprogram⟩ := LevelDocument.program_of_toLevel hl
    rw [hprogram]
    exact ⟨⟨rfl, rfl⟩, ⟨rfl, rfl⟩, fun place tile => Blueprint.tile?_drawn hfits⟩
  · rw [decodeDocument_of_read hread']
    by_cases hfits : d.program.Fits
    · rw [LevelDocument.toLevel_relisted hfits hperm]
      exact ⟨fun l => Iff.rfl, Iff.rfl⟩
    · have hfits' : ¬ (d.relisted cells).program.Fits := fun h => hfits (h.perm hperm.symm)
      obtain ⟨fault, hfault⟩ := LevelDocument.toLevel_of_not_fits hfits
      obtain ⟨fault', hfault'⟩ := LevelDocument.toLevel_of_not_fits hfits'
      rw [hfault, hfault']
      exact ⟨fun l => by simp, by simp⟩

/-- Both tiles lie where the endpoints of an empty grid of this size would be. -/
def betweenCorners : LevelDocument where
  title := ['t']
  tapes := []
  cases := some [⟨true, ['R', 'B'], ['Y'], 7⟩]
  program := {
    cols := 3
    rows := 2
    cells := [(⟨1, 1⟩, ⟨.writer .red, .mirrored⟩), (⟨1, 0⟩, ⟨.conveyor, .turned3⟩)]
    start := ⟨⟨0, 0⟩, .turned3⟩
    goal := ⟨⟨2, 1⟩, .identity⟩ }

theorem documents_are_drawn_as_listed_between_corners :
    let turned := betweenCorners.relisted betweenCorners.program.cells.reverse
    let spilt := betweenCorners.relisted [(⟨-1, 0⟩, ⟨.conveyor, .identity⟩)]
    (∃ l, decodeDocument betweenCorners.toJson.compact = .ok l ∧
      decodeDocument turned.toJson.compact = .ok l ∧
      l.program.tile? ⟨1, 0⟩ = some ⟨.conveyor, .turned3⟩) ∧
    ∃ fault, decodeDocument spilt.toJson.compact = .error (.schema fault) := by
  intro turned spilt
  have hread : ∀ cells : List (Position × Tile), (∀ cell ∈ cells, cell.1.InRange) →
      Json.readDocument levelShape.read (betweenCorners.relisted cells).toJson.compact =
        .ok (betweenCorners.relisted cells) := by
    intro cells hcells
    apply readDocument_toJson
    refine ⟨⟨?_, ?_, hcells, ?_, ?_⟩, ?_⟩
    all_goals simp [betweenCorners, LevelDocument.relisted, Position.InRange]
  have htapes : betweenCorners.SpellsTapes := by
    intro entry hentry letter hletter
    obtain rfl := List.mem_singleton.mp hentry
    simp only [List.cons_append, List.nil_append, List.mem_cons, List.not_mem_nil,
      or_false] at hletter
    rcases hletter with rfl | rfl | rfl <;> decide
  obtain ⟨hsome, -, hdrawn, hperm⟩ :=
    documents_are_drawn_as_listed (hread betweenCorners.program.cells
      (by simp [betweenCorners, Position.InRange])) htapes
  obtain ⟨l, hl⟩ := hsome.mpr (by decide)
  refine ⟨⟨l, hl, ?_, ?_⟩, ?_⟩
  · have hturned := hread betweenCorners.program.cells.reverse
      (by simp [betweenCorners, Position.InRange])
    exact ((hperm _ _ hturned (List.reverse_perm _)).1 l).mpr hl
  · exact ((hdrawn l hl).2.2 _ _).mpr (by decide)
  · have hspilt := documents_are_drawn_as_listed
      (hread [(⟨-1, 0⟩, ⟨.conveyor, .identity⟩)] (by simp [Position.InRange])) htapes
    exact hspilt.2.1 (by decide)

end Level

end Tilewalk
