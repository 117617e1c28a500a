import Tilewalk.Level.Document
import Tilewalk.Proofs.Json.Record

/-! # Level documents are read as they are written -/

open Tilewalk.Json

namespace Tilewalk

/-! ## What a document can hold -/

def Position.InRange (place : Position) : Prop :=
  (-0x80000000 ≤ place.x ∧ place.x ≤ 0x7fffffff) ∧
    (-0x80000000 ≤ place.y ∧ place.y ≤ 0x7fffffff)

structure Blueprint.InRange (b : Blueprint) : Prop where
  cols : b.cols < 0x100000000
  rows : b.rows < 0x100000000
  cells : ∀ cell ∈ b.cells, cell.1.InRange
  start : b.start.position.InRange
  goal : b.goal.position.InRange

structure LevelDocument.InRange (d : LevelDocument) : Prop where
  program : d.program.InRange
  limits : ∀ cases, d.cases = some cases → ∀ c ∈ cases, c.limit < 0x100000000

/-! ## Reading -/

theorem reads_orientation (o : Orientation) : Reads readOrientation (.text o.name.toList) o :=
  reads_variant (by cases o <;> rfl)

theorem reads_kind (k : Kind) : Reads readKind (.text k.name.toList) k := by
  apply reads_variant
  rcases k with _ | _ | _ | ⟨_ | _ | _ | _⟩ <;> rfl

theorem reads_endpoint {e : Endpoint} (h : e.position.InRange) :
    Reads endpointShape.read e.toJson e := by
  apply reads_object (by decide)
  apply Fills.member ((reads_int32 h.1).store _ _)
  apply Fills.member ((reads_int32 h.2).store _ _)
  apply Fills.member ((reads_orientation e.orientation).store _ _)
  exact .nil _

theorem reads_cell {c : Position × Tile} (h : c.1.InRange) :
    Reads cellShape.read (cellToJson c) c := by
  apply reads_object (by decide)
  apply Fills.member ((reads_int32 h.1).store _ _)
  apply Fills.member ((reads_int32 h.2).store _ _)
  apply Fills.member ((reads_orientation c.2.orientation).store _ _)
  apply Fills.member ((reads_kind c.2.kind).store _ _)
  exact .nil _

theorem reads_blueprint {b : Blueprint} (h : b.InRange) :
    Reads programShape.read b.toJson b := by
  apply reads_object (by decide)
  apply Fills.member ((reads_nat32 h.cols).store _ _)
  apply Fills.member ((reads_nat32 h.rows).store _ _)
  apply Fills.member ((reads_list fun c hc => reads_cell (h.cells c hc)).store _ _)
  apply Fills.member ((reads_endpoint h.start).store _ _)
  apply Fills.member ((reads_endpoint h.goal).store _ _)
  exact .nil _

theorem reads_caseEntry {e : CaseEntry} (h : e.limit < 0x100000000) :
    Reads caseShape.read e.toJson e := by
  apply reads_object (by decide)
  apply Fills.member ((reads_boolean e.accept).store _ _)
  apply Fills.member ((reads_text e.input).store _ _)
  apply Fills.member ((reads_text e.output).store _ _)
  apply Fills.member ((reads_nat32 h).store _ _)
  exact .nil _

/-- Between the tapes and the program may stand any value that is read as the cases. -/
theorem reads_levelDocument_with_cases {d : LevelDocument} (h : d.program.InRange) {v : Value}
    (hcases : Reads (readOption (readList caseShape.read)) v d.cases) :
    Reads levelShape.read (.object [("title", .text d.title), ("tape", .list (d.tapes.map .text)),
      ("testCases", v), ("program", d.program.toJson)]) d := by
  apply reads_object (by decide)
  apply Fills.member ((reads_text d.title).store _ _)
  apply Fills.member ((reads_list fun tape _ => reads_text tape).store _ _)
  apply Fills.member (hcases.store _ _)
  apply Fills.member ((reads_blueprint h).store _ _)
  exact .nil _

theorem reads_levelDocument {d : LevelDocument} (h : d.InRange) :
    Reads levelShape.read d.toJson d := by
  obtain ⟨title, tapes, cases, program⟩ := d
  cases cases with
  | none =>
    apply reads_object (by decide)
    apply Fills.member ((reads_text title).store _ _)
    apply Fills.member ((reads_list fun tape _ => reads_text tape).store _ _)
    apply Fills.absent rfl
    apply Fills.member ((reads_blueprint h.program).store _ _)
    exact .nil _
  | some cases =>
    have hread := reads_list fun c hc => reads_caseEntry (h.limits cases rfl c hc)
    exact reads_levelDocument_with_cases h.program (reads_option_list hread)

theorem readDocument_of_reads {v : Value} {d : LevelDocument} (h : Reads levelShape.read v d) :
    readDocument levelShape.read v.compact = .ok d := by
  have hread := h [] (.inl rfl)
  rw [List.append_nil] at hread
  unfold readDocument
  rw [hread, ok_bind]
  rfl

theorem readDocument_toJson {d : LevelDocument} (h : d.InRange) :
    readDocument levelShape.read d.toJson.compact = .ok d :=
  readDocument_of_reads (reads_levelDocument h)

end Tilewalk
