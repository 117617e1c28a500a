import Tilewalk.Proofs.Level.Blueprint
import Tilewalk.Proofs.Tape

/-! # Levels come back from their documents

A document does not say where the head of a tape was, only what was left to read. For equality of
levels that is all that counts.
-/

open Tilewalk.Json

namespace Tilewalk

/-! ## Programs -/

theorem distinct_toList (cells : Cells) :
    cells.toList.Pairwise fun first second => first.1 ≠ second.1 := by
  refine Std.ExtTreeMap.distinct_keys_toList.imp fun hne heq => hne ?_
  rw [heq]
  exact Std.ReflCmp.compare_self

theorem insertMany_toList (cells : Cells) : (∅ : Cells).insertMany cells.toList = cells := by
  apply Std.ExtTreeMap.ext_getElem?
  intro place
  apply Option.ext
  intro tile
  rw [getElem?_insertMany (distinct_toList cells), Std.ExtTreeMap.mem_toList_iff_getElem?_eq_some]

namespace Blueprint

section WellFormed

variable {p : Program} (h : p.WellFormed)

include h

theorem build_ofProgram_eq :
    (ofProgram p).build =
      ((Program.emptyGrid p.cols p.rows).moveEndpoints p.start p.goal).mapError .edit >>=
        placeAll p.tiles ∅ := by
  unfold build ofProgram
  dsimp only
  rw [Program.blank_of_isDimension h.cols h.rows, mapError_ok, ok_bind]

theorem tiles_free {cell : Position × Tile} (hcell : cell ∈ p.tiles) :
    p.contains cell.1 = true ∧ cell.1 ≠ p.start.position ∧ cell.1 ≠ p.goal.position := by
  have hmem : cell.1 ∈ p.cells := by
    rw [← Std.ExtTreeMap.mem_keys, ← Std.ExtTreeMap.map_fst_toList_eq_keys]
    exact List.mem_map_of_mem hcell
  refine ⟨h.inside _ hmem, ?_, ?_⟩
  · intro heq
    exact h.freeStart (heq ▸ hmem)
  · intro heq
    exact h.freeGoal (heq ▸ hmem)

theorem fits_ofProgram (hne : p.start.position ≠ p.goal.position) : (ofProgram p).Fits where
  cols := Program.isDimension_iff.mp h.cols
  rows := Program.isDimension_iff.mp h.rows
  start := Program.contains_iff.mp h.start
  goal := Program.contains_iff.mp h.goal
  apart := hne
  inside := fun _ hcell => Program.contains_iff.mp (tiles_free h hcell).1
  free := fun _ hcell => (tiles_free h hcell).2
  distinct := distinct_toList p.cells

/-- A well-formed program is built from its blueprint, unless its endpoints are the same cell. -/
theorem build_ofProgram (hne : p.start.position ≠ p.goal.position) :
    (ofProgram p).build = .ok p := by
  rw [build_eq_ok_iff]
  refine ⟨fits_ofProgram h hne, ?_⟩
  unfold drawn ofProgram Program.tiles
  rw [insertMany_toList]

theorem build_ofProgram_of_eq (heq : p.start.position = p.goal.position) :
    (ofProgram p).build = .error (.edit (.reserved p.goal.position)) := by
  rw [build_ofProgram_eq h, Program.moveEndpoints_of_eq (p := Program.emptyGrid p.cols p.rows)
    h.start h.goal heq]
  rfl

theorem inRange_ofProgram : (ofProgram p).InRange := by
  have hcols := (Program.isDimension_iff.mp h.cols).2
  have hrows := (Program.isDimension_iff.mp h.rows).2
  unfold Program.maxDimension at hcols hrows
  have hinside : ∀ place, p.contains place = true → place.InRange := by
    intro place hplace
    have hcontains := Program.contains_iff.mp hplace
    unfold Position.InRange
    omega
  exact {
    cols := Nat.lt_of_le_of_lt hcols (by decide)
    rows := Nat.lt_of_le_of_lt hrows (by decide)
    cells := fun cell hcell => hinside _ (tiles_free h hcell).1
    start := hinside _ h.start
    goal := hinside _ h.goal }

end WellFormed

end Blueprint

/-! ## Cases -/

/-- The tape with the same colours to read, none of which have been read so far. -/
def Tape.restarted (t : Tape) : Tape := .ofColours t.unread

def Case.restarted (c : Case) : Case := { c with input := c.input.restarted, output := c.output.restarted }

theorem readTape_letters (t : Tape) : readTape t.letters = .ok t.restarted := by
  rw [readTape, Tape.letters_eq, Tape.readLetters_map_letter]
  rfl

theorem CaseEntry.toCase_ofCase (c : Case) : (ofCase c).toCase = .ok c.restarted := by
  unfold toCase ofCase
  dsimp only
  rw [readTape_letters, readTape_letters, ok_bind, ok_bind, UInt32.ofNat_toNat]
  rfl

theorem CaseEntry.mapM_toCase {list : Case → CaseEntry} {found : Case → Case}
    (h : ∀ c, (list c).toCase = .ok (found c)) (cases : List Case) :
    (cases.map list).mapM toCase = .ok (cases.map found) := by
  rw [List.mapM_map, show toCase ∘ list = fun c => pure (found c) from funext h]
  exact List.mapM_pure

theorem Tape.restarted_beq (t : Tape) : (t.restarted == t) = true := by
  rw [beq_iff]
  exact unread_ofColours _

theorem Case.restarted_beq (c : Case) : (c.restarted == c) = true := by
  show (_ && _ && _ && _) = true
  simp [restarted, Tape.restarted_beq]

theorem Case.map_restarted_beq (cases : List Case) : (cases.map restarted == cases) = true := by
  induction cases with
  | nil => rfl
  | cons c cases ih =>
    rw [List.map_cons, List.cons_beq_cons, restarted_beq, ih]
    rfl

/-! ## Levels -/

namespace Level

def restarted (l : Level) : Level := { l with cases := l.cases.map Case.restarted }

theorem restarted_beq (l : Level) : (l.restarted == l) = true := by
  show (_ && _ && _) = true
  simp [restarted, Case.map_restarted_beq]

theorem inRange_ofLevel {l : Level} (h : l.program.WellFormed) :
    (LevelDocument.ofLevel l).InRange where
  program := Blueprint.inRange_ofProgram h
  limits := by
    intro cases hcases c hc
    cases hcases
    obtain ⟨test, -, rfl⟩ := List.mem_map.mp hc
    exact test.limit.toNat_lt

theorem toLevel_ofLevel {l : Level} (h : l.program.WellFormed)
    (hne : l.program.start.position ≠ l.program.goal.position) :
    (LevelDocument.ofLevel l).toLevel = .ok l.restarted := by
  have hcases : (LevelDocument.ofLevel l).entries.mapM CaseEntry.toCase =
      .ok (l.cases.map Case.restarted) := CaseEntry.mapM_toCase CaseEntry.toCase_ofCase l.cases
  have hprogram : (LevelDocument.ofLevel l).program.build = .ok l.program :=
    Blueprint.build_ofProgram h hne
  rw [LevelDocument.toLevel_of_parts hprogram hcases]
  unfold LevelDocument.ofLevel
  rw [String.ofList_toList]
  rfl

theorem toLevel_ofLevel_of_eq {l : Level} (h : l.program.WellFormed)
    (heq : l.program.start.position = l.program.goal.position) :
    (LevelDocument.ofLevel l).toLevel =
      .error (.schema (.edit (.reserved l.program.goal.position))) := by
  unfold LevelDocument.toLevel LevelDocument.ofLevel
  dsimp only
  rw [Blueprint.build_ofProgram_of_eq h heq]
  rfl

end Level

/-! ## Texts -/

theorem Text.trim_of_ends {c d : Char} (cs : List Char) (hc : isBlank c = false)
    (hd : isBlank d = false) : trim (c :: (cs ++ [d])) = c :: (cs ++ [d]) := by
  unfold trim
  rw [List.dropWhile_cons_of_neg (by simp [hc]), List.reverse_cons, List.reverse_append]
  simp [hd]

namespace Level

theorem decodeDocument_encode {l : Level} (h : l.program.WellFormed) :
    decodeDocument l.encode.toList = (LevelDocument.ofLevel l).toLevel := by
  unfold decodeDocument Level.encode
  rw [String.toList_ofList, readDocument_toJson (inRange_ofLevel h), mapError_ok, ok_bind]

/-- An object is closed in braces, so there is nothing to trim and no positional program in it. -/
theorem decode_compact_object (ms : List (String × Value)) :
    Level.decode (String.ofList (Value.object ms).compact) =
      (decodeDocument (Value.object ms).compact).map .level := by
  obtain ⟨cs, hcs⟩ := compact_object_closed ms
  unfold Level.decode
  rw [String.toList_ofList, hcs, Text.trim_of_ends cs (by decide) (by decide)]
  dsimp only
  rw [if_neg (by simp), if_neg (by simp [Positional.opening])]

theorem decode_encode_eq {l : Level} (h : l.program.WellFormed) :
    Level.decode l.encode = ((LevelDocument.ofLevel l).toLevel).map .level := by
  have hread := decodeDocument_encode h
  unfold Level.encode at hread ⊢
  rw [String.toList_ofList] at hread
  rw [LevelDocument.toJson] at hread ⊢
  rw [decode_compact_object, hread]

/-- A level whose program can come about is read back from its document, unless the endpoints of
the program are the same cell. Then its document describes no program. -/
theorem decode_encode {l : Level} (h : l.program.Reachable) :
    (l.program.start.position ≠ l.program.goal.position →
      ∃ copy, Level.decode l.encode = .ok (.level copy) ∧ (copy == l) = true) ∧
    (l.program.start.position = l.program.goal.position →
      ∃ fault, Level.decode l.encode = .error (.schema fault)) := by
  have hwell := h.wellFormed
  rw [decode_encode_eq hwell]
  constructor
  · intro hne
    rw [toLevel_ofLevel hwell hne]
    exact ⟨l.restarted, rfl, l.restarted_beq⟩
  · intro heq
    rw [toLevel_ofLevel_of_eq hwell heq]
    exact ⟨_, rfl⟩

/-- A level on an empty grid of the given size, with one case whose input has been read from. -/
def onGrid (cols rows : Nat) : Level where
  title := "\"Tür\"\n"
  cases := [⟨true, (Tape.ofColours [.red, .blue]).advance, .empty, 4294967295⟩]
  program := ⟨cols, rows, ∅, Program.defaultStart cols, Program.defaultGoal cols rows⟩

theorem decode_encode_on_grids :
    (∃ copy, Level.decode (onGrid 3 2).encode = .ok (.level copy) ∧ (copy == onGrid 3 2) = true) ∧
      ∃ fault, Level.decode (onGrid 3 1).encode = .error (.schema fault) := by
  have htwo : Program.blank 3 2 = .ok (onGrid 3 2).program := rfl
  have hone : Program.blank 3 1 = .ok (onGrid 3 1).program := rfl
  exact ⟨(decode_encode (.blank htwo)).1 (by decide), (decode_encode (.blank hone)).2 (by decide)⟩

end Level

end Tilewalk
