import Mathlib.Data.List.Forall2
import Mathlib.Tactic.MkIffOfInductiveProp
import Tilewalk.Proofs.Level.RoundTrip

/-! # Equal levels have one document

Nothing of how a program has been edited, or of what has been read of a tape, is left in the
document of a level. All else is: two documents are the same only when the levels agree in
everything that can be seen of them, also where a document describes no program because its
endpoints are the same cell.
-/

open Tilewalk.Json

namespace Tilewalk

/-! ## What can be seen of a level -/

/-- Cases that ask for the same, on tapes with the same colours left to read. -/
@[mk_iff]
structure Case.Agree (c d : Case) : Prop where
  accept : c.accept = d.accept
  input : c.input.unread = d.input.unread
  output : c.output.unread = d.output.unread
  limit : c.limit = d.limit

/-- Levels with the same title, the same endpoints and tiles on grids of the same size, and cases
that agree one by one. -/
@[mk_iff]
structure Level.Agree (l m : Level) : Prop where
  title : l.title = m.title
  cols : l.program.cols = m.program.cols
  rows : l.program.rows = m.program.rows
  start : l.program.start = m.program.start
  goal : l.program.goal = m.program.goal
  tiles : ∀ place, l.program.tile? place = m.program.tile? place
  cases : List.Forall₂ Case.Agree l.cases m.cases

/-! ## Equal levels -/

theorem Case.beq_iff {c d : Case} : (c == d) = true ↔ c.Agree d := by
  show (c.accept == d.accept && c.input == d.input && c.output == d.output && c.limit == d.limit) =
    true ↔ _
  simp only [Bool.and_eq_true, beq_iff_eq, Tape.beq_iff, Case.agree_iff, and_assoc]

theorem Case.list_beq_iff {cs ds : List Case} :
    (cs == ds) = true ↔ List.Forall₂ Case.Agree cs ds := by
  induction cs generalizing ds with
  | nil => cases ds <;> simp
  | cons c cs ih =>
    cases ds with
    | nil => simp
    | cons d ds => rw [List.cons_beq_cons, Bool.and_eq_true, Case.beq_iff, ih, List.forall₂_cons]

theorem Program.eq_iff {p q : Program} : p = q ↔ p.cols = q.cols ∧ p.rows = q.rows ∧
    p.start = q.start ∧ p.goal = q.goal ∧ ∀ place, p.tile? place = q.tile? place := by
  constructor
  · rintro rfl
    exact ⟨rfl, rfl, rfl, rfl, fun _ => rfl⟩
  · rintro ⟨hcols, hrows, hstart, hgoal, htiles⟩
    have hcells : p.cells = q.cells := Std.ExtTreeMap.ext_getElem? htiles
    cases p
    cases q
    simp_all

theorem Level.beq_iff {l m : Level} : (l == m) = true ↔ l.Agree m := by
  show (l.title == m.title && l.cases == m.cases && l.program == m.program) = true ↔ _
  simp only [Bool.and_eq_true, beq_iff_eq, Case.list_beq_iff, Program.eq_iff, Level.agree_iff]
  tauto

/-! ## Equal documents -/

theorem Tape.letters_eq_iff {t u : Tape} : t.letters = u.letters ↔ t.unread = u.unread := by
  have hletter : Function.Injective Colour.letter := by
    intro a b
    cases a <;> cases b <;> simp [Colour.letter]
  rw [letters_eq, letters_eq]
  exact (List.map_injective_iff.mpr hletter).eq_iff

theorem CaseEntry.ofCase_eq_iff {c d : Case} : ofCase c = ofCase d ↔ c.Agree d := by
  simp only [ofCase, CaseEntry.mk.injEq, Tape.letters_eq_iff, UInt32.toNat_inj, Case.agree_iff]

theorem CaseEntry.map_ofCase_eq_iff {cs ds : List Case} :
    cs.map ofCase = ds.map ofCase ↔ List.Forall₂ Case.Agree cs ds := by
  simp only [← List.forall₂_eq_eq_eq, List.forall₂_map_left_iff, List.forall₂_map_right_iff,
    ofCase_eq_iff]

/-- The tiles are listed in their order, whatever the order was in which they were placed. -/
theorem Blueprint.ofProgram_inj {p q : Program} : ofProgram p = ofProgram q ↔ p = q := by
  constructor
  · intro h
    simp only [ofProgram, Blueprint.mk.injEq] at h
    obtain ⟨hcols, hrows, htiles, hstart, hgoal⟩ := h
    have hcells : p.cells = q.cells := by
      rw [← insertMany_toList p.cells, ← insertMany_toList q.cells]
      exact congrArg _ htiles
    cases p
    cases q
    simp_all
  · rintro rfl
    rfl

theorem LevelDocument.ofLevel_eq_iff {l m : Level} : ofLevel l = ofLevel m ↔ l.Agree m := by
  rw [← Level.beq_iff]
  show _ ↔ (l.title == m.title && l.cases == m.cases && l.program == m.program) = true
  simp only [Bool.and_eq_true, beq_iff_eq, Case.list_beq_iff, ofLevel, LevelDocument.mk.injEq,
    String.toList_inj, Option.some.injEq, CaseEntry.map_ofCase_eq_iff, Blueprint.ofProgram_inj]
  constructor
  · rintro ⟨htitle, -, hcases, hprogram⟩
    exact ⟨⟨htitle, hcases⟩, hprogram⟩
  · rintro ⟨⟨htitle, hcases⟩, hprogram⟩
    -- The short list of tapes says nothing that the full list of cases does not say.
    have htapes := congrArg (List.map CaseEntry.input) (CaseEntry.map_ofCase_eq_iff.mpr hcases)
    simp only [List.map_map] at htapes
    exact ⟨htitle, htapes, hcases, hprogram⟩

/-! ## Equal texts -/

theorem Position.compare_eq_lt {a b : Position} (h : compare a b = .lt) :
    a.x < b.x ∨ a.x = b.x ∧ a.y < b.y := by
  have h : (compare a.x b.x).then (compare a.y b.y) = .lt := h
  rw [Ordering.then_eq_lt] at h
  simpa [Int.compare_eq_lt] using h

namespace Level

theorem readDocument_encode {l : Level} (h : l.program.WellFormed) :
    readDocument levelShape.read l.encode.toList = .ok (.ofLevel l) := by
  rw [encode, String.toList_ofList, readDocument_toJson (inRange_ofLevel h)]

theorem encode_eq_iff {l m : Level} (hl : l.program.WellFormed) (hm : m.program.WellFormed) :
    l.encode = m.encode ↔ l.Agree m := by
  rw [← LevelDocument.ofLevel_eq_iff]
  constructor
  · intro h
    have hread := readDocument_encode hl
    rw [h, readDocument_encode hm] at hread
    exact (Except.ok.inj hread).symm
  · intro h
    unfold encode
    rw [h]

/-- Two levels are written as one text exactly when they are equal, and so agree in all that can be
seen of them. The text lists the tiles by column, and within a column by row, each cell once. -/
theorem encoding_is_canonical {l m : Level} (hl : l.program.Reachable) (hm : m.program.Reachable) :
    (l.encode = m.encode ↔ (l == m) = true) ∧ ((l == m) = true ↔ l.Agree m) ∧
      ∃ document, readDocument levelShape.read l.encode.toList = .ok document ∧
        document.program.cells.Pairwise
          (fun a b => a.1.x < b.1.x ∨ a.1.x = b.1.x ∧ a.1.y < b.1.y) ∧
        ∀ place tile, (place, tile) ∈ document.program.cells ↔
          l.program.tile? place = some tile := by
  refine ⟨?_, beq_iff, _, readDocument_encode hl.wellFormed, ?_, fun place tile => ?_⟩
  · rw [beq_iff, encode_eq_iff hl.wellFormed hm.wellFormed]
  · exact Std.ExtTreeMap.ordered_keys_toList.imp Position.compare_eq_lt
  · exact Std.ExtTreeMap.mem_toList_iff_getElem?_eq_some

/-- Two tiles have been placed one after the other, beside endpoints on the same cell. -/
def tilesInTurn (first second : Position) : Level where
  title := "\"\\\n"
  cases := [⟨true, (Tape.ofColours [.red, .blue]).advance, .empty, 0⟩]
  program :=
    { Program.emptyGrid 3 1 with
      cells := ((∅ : Cells).insert first ⟨.conveyor, .identity⟩).insert second
        ⟨.conveyor, .identity⟩ }

theorem reachable_tilesInTurn {first second : Position} (hfirst : first ∈ [⟨0, 0⟩, ⟨2, 0⟩])
    (hsecond : second ∈ [⟨0, 0⟩, ⟨2, 0⟩]) : (tilesInTurn first second).program.Reachable := by
  have hfree : ∀ place ∈ [⟨0, 0⟩, ⟨2, 0⟩], (Program.emptyGrid 3 1).contains place = true ∧
      place ≠ (Program.emptyGrid 3 1).start.position ∧
      place ≠ (Program.emptyGrid 3 1).goal.position := by decide
  have hblank : Program.blank 3 1 = .ok (Program.emptyGrid 3 1) := rfl
  apply Program.Reachable.edit (.placeTile second ⟨.conveyor, .identity⟩)
  · exact .edit (.placeTile first ⟨.conveyor, .identity⟩) (.blank hblank)
      (Program.placeTile_eq_ok.mpr ⟨hfree first hfirst, rfl⟩)
  · exact Program.placeTile_eq_ok.mpr ⟨hfree second hsecond, rfl⟩

theorem encoding_is_canonical_of_tiles_in_turn :
    let l := tilesInTurn ⟨0, 0⟩ ⟨2, 0⟩
    let m := { tilesInTurn ⟨2, 0⟩ ⟨0, 0⟩ with cases := [⟨true, .ofColours [.blue], .empty, 0⟩] }
    l.encode = m.encode ∧ l.encode ≠ (onGrid 3 1).encode := by
  have hl : (tilesInTurn ⟨0, 0⟩ ⟨2, 0⟩).program.Reachable :=
    reachable_tilesInTurn (by decide) (by decide)
  have hm : (tilesInTurn ⟨2, 0⟩ ⟨0, 0⟩).program.Reachable :=
    reachable_tilesInTurn (by decide) (by decide)
  have hgrid : Program.blank 3 1 = .ok (onGrid 3 1).program := rfl
  constructor
  · obtain ⟨htext, hagree, -⟩ := encoding_is_canonical (l := tilesInTurn ⟨0, 0⟩ ⟨2, 0⟩)
      (m := { tilesInTurn ⟨2, 0⟩ ⟨0, 0⟩ with
        cases := [⟨true, .ofColours [.blue], .empty, 0⟩] }) hl hm
    refine htext.mpr (hagree.mpr ⟨rfl, rfl, rfl, rfl, rfl, fun place => ?_, ?_⟩)
    · simp only [tilesInTurn, Program.tile?, Std.ExtTreeMap.getElem?_insert]
      split_ifs <;> rfl
    · exact .cons ⟨rfl, rfl, rfl, rfl⟩ .nil
  · obtain ⟨htext, hagree, -⟩ := encoding_is_canonical hl (.blank hgrid)
    intro h
    exact absurd (hagree.mp (htext.mp h)).title (by decide)

end Level

end Tilewalk
