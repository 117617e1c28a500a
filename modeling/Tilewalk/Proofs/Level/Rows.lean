import Mathlib.Data.List.Basic
import Tilewalk.Proofs.Level.Blueprint

/-! # Programs row by row

The cells of a grid can be listed row by row, and the letters of a positional program are those of
such a list. Reading puts the listed tiles on an empty grid, which fails where one of them lies on an
endpoint of the empty grid.
-/

open Tilewalk.Number (digits)

namespace Tilewalk

/-! ## Places -/

namespace Program

theorem mem_places {place : Position} (h : p.contains place = true) :
    place ∈ Positional.places p := by
  obtain ⟨hx, hy⟩ := contains_iff.mp h
  unfold Positional.places
  simp only [List.mem_flatMap, List.mem_map, List.mem_range]
  refine ⟨place.y.toNat, by omega, place.x.toNat, by omega, ?_⟩
  rw [Int.toNat_of_nonneg hx.1, Int.toNat_of_nonneg hy.1]

theorem length_places (p : Program) : (Positional.places p).length = p.cols * p.rows := by
  unfold Positional.places
  simp [Nat.mul_comm]

end Program

namespace Positional

/-! ## Letters -/

theorem kindOf?_kindLetter (k : Kind) : kindOf? (kindLetter k) = some k := by
  rcases k with _ | _ | _ | ⟨_ | _ | _ | _⟩ <;> rfl

theorem orientationOf?_orientationLetter (o : Orientation) :
    orientationOf? (orientationLetter o) = some o := by
  cases o <;> rfl

theorem kindLetter_ne_point (k : Kind) : kindLetter k ≠ '.' := by
  rcases k with _ | _ | _ | ⟨_ | _ | _ | _⟩ <;> decide

@[simp] theorem length_cellLetters (t : Option Tile) : (cellLetters t).length = 2 := by
  cases t <;> rfl

theorem readCell_letters (place : Position) (tile : Tile) :
    readCell place (kindLetter tile.kind) (orientationLetter tile.orientation) =
      .ok (some tile) := by
  unfold readCell
  rw [if_neg (kindLetter_ne_point _), kindOf?_kindLetter, orientationOf?_orientationLetter]

theorem cellLetters_of_readCell {place : Position} {kind orientation : Char} {t : Option Tile}
    (h : readCell place kind orientation = .ok t) : cellLetters t = [kind, orientation] := by
  unfold readCell at h
  split_ifs at h with hkind horientation
  · cases h
    rw [hkind, horientation]
    rfl
  · split at h
    · cases h
    next k hk =>
      split at h
      · cases h
      next o ho =>
        cases h
        have hletter : kindLetter k = kind := by simpa using List.find?_some hk
        have horientation : orientationLetter o = orientation := by simpa using List.find?_some ho
        rw [← hletter, ← horientation]
        rfl

/-! ## Cells in a row -/

/-- The tiles of a list of cells, which begins with the cell number `index`, with their places. -/
def listed (cols : Nat) : Nat → List (Option Tile) → List (Position × Tile)
  | _, [] => []
  | index, none :: rest => listed cols (index + 1) rest
  | index, some tile :: rest => (cellAt cols index, tile) :: listed cols (index + 1) rest

theorem mem_listed {cols index : Nat} {tiles : List (Option Tile)} {place : Position} {tile : Tile} :
    (place, tile) ∈ listed cols index tiles ↔
      ∃ k, tiles[k]? = some (some tile) ∧ place = cellAt cols (index + k) := by
  induction tiles generalizing index with
  | nil => simp [listed]
  | cons t tiles ih =>
    rw [← Nat.or_exists_add_one]
    simp only [List.getElem?_cons_zero, List.getElem?_cons_succ, Option.some.injEq, Nat.add_zero,
      ← Nat.add_assoc, Nat.add_right_comm index _ 1]
    cases t with
    | none => simp [listed, ih]
    | some other => simp [listed, ih, and_comm, eq_comm]

theorem cellAt_inj {cols j k : Nat} : cellAt cols j = cellAt cols k ↔ j = k := by
  refine ⟨fun h => ?_, fun h => h ▸ rfl⟩
  simp only [cellAt, Position.mk.injEq, Int.natCast_inj] at h
  calc j = cols * (j / cols) + j % cols := (Nat.div_add_mod j cols).symm
    _ = cols * (k / cols) + k % cols := by rw [h.1, h.2]
    _ = k := Nat.div_add_mod k cols

theorem cellAt_eq_iff {cols x y k : Nat} (hx : x < cols) :
    cellAt cols k = ⟨x, y⟩ ↔ k = y * cols + x := by
  simp only [cellAt, Position.mk.injEq, Int.natCast_inj]
  rw [and_comm, Nat.div_mod_unique (Nat.zero_lt_of_lt hx), and_iff_left hx, Nat.mul_comm,
    Nat.add_comm, eq_comm]

theorem distinct_listed (cols index : Nat) (tiles : List (Option Tile)) :
    (listed cols index tiles).Pairwise fun first second => first.1 ≠ second.1 := by
  induction tiles generalizing index with
  | nil => exact .nil
  | cons t tiles ih =>
    cases t with
    | none => exact ih (index + 1)
    | some tile =>
      refine List.pairwise_cons.mpr ⟨fun cell hcell heq => ?_, ih (index + 1)⟩
      obtain ⟨k, -, hplace⟩ := mem_listed.mp hcell
      have hindex := cellAt_inj.mp (heq.trans hplace)
      omega

/-! ## Reading the letters of a list of cells -/

theorem placeFrom_some (index : Nat) (tile : Tile) (rest : List Char) (p : Program) :
    placeFrom index (cellLetters (some tile) ++ rest) p =
      (p.placeTile (cellAt p.cols index) tile).mapError .edit >>= placeFrom (index + 1) rest := by
  have hletters : cellLetters (some tile) ++ rest =
      kindLetter tile.kind :: orientationLetter tile.orientation :: rest := rfl
  rw [hletters, placeFrom, readCell_letters]
  rfl

theorem placeFrom_none (index : Nat) (rest : List Char) (p : Program) :
    placeFrom index (cellLetters none ++ rest) p = placeFrom (index + 1) rest p := rfl

/-- The tiles of a list of cells are put on a grid exactly when all of them lie inside it and none
on an endpoint. -/
theorem placeFrom_eq_ok_iff {index : Nat} {tiles : List (Option Tile)} {p q : Program} :
    placeFrom index (tiles.flatMap cellLetters) p = .ok q ↔
      (∀ cell ∈ listed p.cols index tiles, p.contains cell.1 = true ∧
        cell.1 ≠ p.start.position ∧ cell.1 ≠ p.goal.position) ∧
      q = { p with cells := p.cells.insertMany (listed p.cols index tiles) } := by
  induction tiles generalizing index p with
  | nil =>
    have hread : placeFrom index (([] : List (Option Tile)).flatMap cellLetters) p = .ok p := rfl
    rw [hread, Except.ok.injEq, listed, Std.ExtTreeMap.insertMany_nil]
    simpa using eq_comm
  | cons t tiles ih =>
    rw [List.flatMap_cons]
    cases t with
    | none => rw [placeFrom_none, ih, listed]
    | some tile =>
      rw [placeFrom_some, bind_eq_ok, listed, List.forall_mem_cons, Std.ExtTreeMap.insertMany_cons]
      simp only [mapError_eq_ok, Program.placeTile_eq_ok]
      constructor
      · rintro ⟨placed, ⟨hfree, rfl⟩, hrest⟩
        obtain ⟨hothers, hq⟩ := ih.mp hrest
        exact ⟨⟨hfree, hothers⟩, hq⟩
      · rintro ⟨⟨hfree, hothers⟩, hq⟩
        exact ⟨_, ⟨hfree, rfl⟩, ih.mpr ⟨hothers, hq⟩⟩

theorem exists_tiles_of_placeFrom {index : Nat} {cs : List Char} {p q : Program}
    (h : placeFrom index cs p = .ok q) (hlength : 2 ∣ cs.length) :
    ∃ tiles : List (Option Tile), cs = tiles.flatMap cellLetters := by
  induction index, cs, p using placeFrom.induct with
  | case1 index kind orientation rest p ihNone ihSome =>
    unfold placeFrom at h
    obtain ⟨t, ht, h⟩ := bind_eq_ok.mp h
    have hrest : 2 ∣ rest.length := by
      simp only [List.length_cons] at hlength
      omega
    have htiles : ∃ tiles : List (Option Tile), rest = tiles.flatMap cellLetters := by
      cases t with
      | none => exact ihNone h hrest
      | some tile =>
        obtain ⟨placed, -, h⟩ := bind_eq_ok.mp h
        exact ihSome placed h hrest
    obtain ⟨tiles, rfl⟩ := htiles
    refine ⟨t :: tiles, ?_⟩
    rw [List.flatMap_cons, cellLetters_of_readCell ht]
    rfl
  | case2 cs p index hpair =>
    rcases cs with _ | ⟨c, _ | ⟨d, rest⟩⟩
    · exact ⟨[], rfl⟩
    · simp at hlength
    · exact absurd rfl (hpair c d rest)

/-! ## Programs and their lists of cells -/

def ofTiles (cols rows : Nat) (tiles : List (Option Tile)) : Program :=
  { Program.emptyGrid cols rows with cells := (∅ : Cells).insertMany (listed cols 0 tiles) }

def tilesOf (p : Program) : List (Option Tile) := (places p).map p.tile?

/-- No tile is listed for the cells where an empty grid has its endpoints. -/
def EndsFree (cols rows : Nat) (tiles : List (Option Tile)) : Prop :=
  ∀ cell ∈ listed cols 0 tiles,
    cell.1 ≠ (Program.defaultStart cols).position ∧ cell.1 ≠ (Program.defaultGoal cols rows).position

variable {cols rows : Nat} {tiles : List (Option Tile)}

theorem tile?_ofTiles {place : Position} {tile : Tile} :
    (ofTiles cols rows tiles).tile? place = some tile ↔ (place, tile) ∈ listed cols 0 tiles :=
  getElem?_insertMany (distinct_listed cols 0 tiles)

theorem tile?_cellAt {k : Nat} {t : Option Tile} (h : tiles[k]? = some t) :
    (ofTiles cols rows tiles).tile? (cellAt cols k) = t := by
  apply Option.ext
  intro tile
  rw [tile?_ofTiles, mem_listed]
  constructor
  · rintro ⟨j, hj, hplace⟩
    rw [Nat.zero_add, cellAt_inj] at hplace
    rw [← hplace, h] at hj
    exact Option.some.inj hj
  · rintro rfl
    exact ⟨k, h, by rw [Nat.zero_add]⟩

theorem contains_cellAt {p : Program} {k : Nat} (h : k < p.cols * p.rows) :
    p.contains (cellAt p.cols k) = true := by
  have hcols : 0 < p.cols := Nat.pos_of_mul_pos_right (Nat.zero_lt_of_lt h)
  have hx : k % p.cols < p.cols := Nat.mod_lt k hcols
  have hy : k / p.cols < p.rows := Nat.div_lt_of_lt_mul h
  rw [Program.contains_iff]
  exact ⟨⟨Int.natCast_nonneg _, Int.ofNat_lt.mpr hx⟩, Int.natCast_nonneg _, Int.ofNat_lt.mpr hy⟩

theorem places_eq_map (p : Program) :
    places p = (List.range (p.cols * p.rows)).map (cellAt p.cols) := by
  unfold places
  induction p.rows with
  | zero => rfl
  | succ r ih =>
    rw [List.range_succ, List.flatMap_append, ih, List.flatMap_singleton, Nat.mul_succ,
      List.range_add, List.map_append, List.map_map, List.append_cancel_left_eq]
    refine List.map_congr_left fun x hx => ?_
    rw [Function.comp_apply, eq_comm, cellAt_eq_iff (List.mem_range.mp hx), Nat.mul_comm]

theorem tilesOf_ofTiles (hlength : tiles.length = cols * rows) :
    tilesOf (ofTiles cols rows tiles) = tiles := by
  unfold tilesOf
  rw [places_eq_map, List.map_map]
  apply List.ext_getElem
  · simp [hlength, ofTiles, Program.emptyGrid]
  · intro k hk hk'
    rw [List.getElem_map, List.getElem_range, Function.comp_apply]
    exact tile?_cellAt (List.getElem?_eq_getElem hk')

theorem getElem?_tilesOf {p : Program} {k : Nat} {t : Option Tile} :
    (tilesOf p)[k]? = some t ↔ k < p.cols * p.rows ∧ p.tile? (cellAt p.cols k) = t := by
  unfold tilesOf
  rw [places_eq_map, List.map_map, List.getElem?_map, Option.map_eq_some_iff]
  simp only [List.getElem?_eq_some_iff, List.length_range, List.getElem_range]
  constructor
  · rintro ⟨_, ⟨hk, rfl⟩, ht⟩
    exact ⟨hk, ht⟩
  · rintro ⟨hk, ht⟩
    exact ⟨k, ⟨hk, rfl⟩, ht⟩

theorem length_tilesOf (p : Program) : (tilesOf p).length = p.cols * p.rows := by
  unfold tilesOf
  rw [List.length_map, Program.length_places]

theorem encode_eq (p : Program) :
    encode p = opening ++ digits p.cols ++ 'x' :: digits p.rows ++
      ':' :: (tilesOf p).flatMap cellLetters := by
  unfold encode tilesOf
  rw [List.flatMap_map]

theorem exists_cellAt {p : Program} {place : Position} (h : p.contains place = true) :
    ∃ k < p.cols * p.rows, cellAt p.cols k = place := by
  have hmem := Program.mem_places h
  rw [places_eq_map] at hmem
  simpa using hmem

theorem mem_listed_tilesOf {p : Program} (h : p.WellFormed) {place : Position} {tile : Tile} :
    (place, tile) ∈ listed p.cols 0 (tilesOf p) ↔ p.tile? place = some tile := by
  simp only [mem_listed, getElem?_tilesOf, Nat.zero_add]
  constructor
  · rintro ⟨k, ⟨-, htile⟩, rfl⟩
    exact htile
  · intro htile
    have hinside := h.inside place (Program.mem_of_tile?_isSome (htile ▸ rfl))
    obtain ⟨k, hk, rfl⟩ := exists_cellAt hinside
    exact ⟨k, ⟨hk, htile⟩, rfl⟩

/-- A program comes back from its cells, with its endpoints where an empty grid has them. -/
theorem ofTiles_tilesOf {p : Program} (h : p.WellFormed) :
    ofTiles p.cols p.rows (tilesOf p) =
      { p with
        start := Program.defaultStart p.cols
        goal := Program.defaultGoal p.cols p.rows } := by
  have hcells : (∅ : Cells).insertMany (listed p.cols 0 (tilesOf p)) = p.cells := by
    apply Std.ExtTreeMap.ext_getElem?
    intro place
    apply Option.ext
    intro tile
    exact (getElem?_insertMany (distinct_listed _ _ _)).trans (mem_listed_tilesOf h)
  unfold ofTiles
  rw [hcells]
  rfl

theorem endsFree_tilesOf {p : Program} (h : p.WellFormed) :
    EndsFree p.cols p.rows (tilesOf p) ↔
      p.tile? (Program.defaultStart p.cols).position = none ∧
        p.tile? (Program.defaultGoal p.cols p.rows).position = none := by
  have hfree : ∀ place, (∀ cell ∈ listed p.cols 0 (tilesOf p), cell.1 ≠ place) ↔
      p.tile? place = none := by
    intro place
    rw [Option.eq_none_iff_forall_ne_some]
    constructor
    · intro hall tile htile
      exact hall (place, tile) ((mem_listed_tilesOf h).mpr htile) rfl
    · rintro hnone ⟨_, tile⟩ hmem rfl
      exact hnone tile ((mem_listed_tilesOf h).mp hmem)
  unfold EndsFree
  rw [← hfree, ← hfree, forall₂_and]

theorem placeFrom_emptyGrid (hlength : tiles.length = cols * rows) {p : Program} :
    placeFrom 0 (tiles.flatMap cellLetters) (Program.emptyGrid cols rows) = .ok p ↔
      EndsFree cols rows tiles ∧ p = ofTiles cols rows tiles := by
  rw [placeFrom_eq_ok_iff]
  refine and_congr_left fun _ => forall₂_congr fun cell hcell => and_iff_right ?_
  obtain ⟨k, hk, hplace⟩ := mem_listed.mp hcell
  rw [hplace, Nat.zero_add]
  apply contains_cellAt (p := Program.emptyGrid cols rows)
  obtain ⟨hlt, -⟩ := List.getElem?_eq_some_iff.mp hk
  rwa [hlength] at hlt

end Positional

end Tilewalk
