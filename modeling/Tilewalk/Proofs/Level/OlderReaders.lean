import Tilewalk.Proofs.Level.Canonical

/-! # Documents for older readers

A document lists the cases a second time, by their input tapes alone. Without the full list, or with
nothing in its place, the short list counts: the program is the same, and it is to accept the same
inputs in the same order, whatever the cases ask for otherwise.
-/

open Tilewalk.Json

namespace Tilewalk

/-! ## Members left out -/

namespace Json.Value

/-- An object without the members of this name. -/
def without (key : String) : Value → Value
  | object ms => object (ms.filter fun m => m.1 ≠ key)
  | v => v

/-- An object whose members of this name hold nothing. -/
def voided (key : String) : Value → Value
  | object ms => object (ms.map fun m => if m.1 = key then (key, null) else m)
  | v => v

/-- A member behind others, with the comma in front of it. -/
def memberText (m : String × Value) : List Char := ',' :: (writeText m.1.toList ++ ':' :: m.2.compact)

theorem compactMembers_append (ms ns : List (String × Value)) :
    compactMembers (ms ++ ns) = ms.flatMap memberText ++ compactMembers ns := by
  induction ms with
  | nil => rfl
  | cons m ms ih =>
    rw [List.cons_append, compactMembers, ih, List.flatMap_cons]
    simp [memberText]

/-- Members in the middle of an object stand between the same texts, whatever they are. -/
theorem exists_text_around (m : String × Value) (ms ns : List (String × Value)) :
    ∃ before after, ∀ inner : List (String × Value),
      (object (m :: (ms ++ (inner ++ ns)))).compact = before ++ inner.flatMap memberText ++ after := by
  refine ⟨'\x7b' :: (writeText m.1.toList ++ ':' :: (m.2.compact ++ ms.flatMap memberText)),
    compactMembers ns, fun inner => ?_⟩
  rw [compact, compactMembers_append, compactMembers_append]
  simp

end Json.Value

/-! ## Documents by their tapes -/

/-- The case that the input tape of `c` stands for alone. -/
def Case.byTape (c : Case) : Case := { Case.default with input := c.input.restarted }

def Level.byTapes (l : Level) : Level := { l with cases := l.cases.map Case.byTape }

theorem CaseEntry.toCase_ofTape (c : Case) : (ofTape c.input.letters).toCase = .ok c.byTape := by
  unfold toCase ofTape
  dsimp only
  rw [readTape_letters, ok_bind]
  rfl

namespace LevelDocument

/-- The document with the short list alone. -/
def byTapes (d : LevelDocument) : LevelDocument := { d with cases := none }

/-- A document with `inner` where the full list would stand. -/
def around (d : LevelDocument) (inner : List (String × Value)) : Value :=
  .object (("title", .text d.title) :: ([("tape", .list (d.tapes.map .text))] ++
    (inner ++ [("program", d.program.toJson)])))

section Document

variable (l : Level)

theorem toJson_ofLevel : (ofLevel l).toJson =
    (ofLevel l).around [("testCases", .list ((l.cases.map .ofCase).map CaseEntry.toJson))] := rfl

theorem without_ofLevel :
    (ofLevel l).toJson.without "testCases" = (ofLevel l).around [] := by
  simp [toJson_ofLevel, around, Value.without]

theorem voided_ofLevel :
    (ofLevel l).toJson.voided "testCases" = (ofLevel l).around [("testCases", .null)] := by
  simp [toJson_ofLevel, around, Value.voided]

/-- Only the text of the full list is another, or is missing. -/
theorem exists_text_around (d : LevelDocument) :
    ∃ before after, ∀ inner : List (String × Value),
      (d.around inner).compact = before ++ inner.flatMap Value.memberText ++ after :=
  Value.exists_text_around _ _ _

end Document

theorem readDocument_around {d : LevelDocument} (h : d.program.InRange)
    {inner : List (String × Value)} (hinner : inner = [] ∨ inner = [("testCases", .null)]) :
    readDocument levelShape.read (d.around inner).compact = .ok d.byTapes := by
  rcases hinner with rfl | rfl
  · have hrange : d.byTapes.InRange := ⟨h, fun cases hcases => nomatch hcases⟩
    have hdocument : d.around [] = d.byTapes.toJson := by simp [around, toJson, byTapes]
    rw [hdocument, readDocument_toJson hrange]
  · have hnull : Reads (readOption (readList caseShape.read)) .null d.byTapes.cases :=
      reads_option_null _
    exact readDocument_of_reads (reads_levelDocument_with_cases (d := d.byTapes) h hnull)

theorem toLevel_byTapes {l : Level} (h : l.program.WellFormed)
    (hne : l.program.start.position ≠ l.program.goal.position) :
    (ofLevel l).byTapes.toLevel = .ok l.byTapes := by
  have hentries : (ofLevel l).byTapes.entries =
      l.cases.map fun c => CaseEntry.ofTape c.input.letters := by
    simp [entries, byTapes, ofLevel]
  have hcases := CaseEntry.mapM_toCase CaseEntry.toCase_ofTape l.cases
  rw [← hentries] at hcases
  have hprogram : (ofLevel l).byTapes.program.build = .ok l.program :=
    Blueprint.build_ofProgram h hne
  rw [toLevel_of_parts hprogram hcases]
  unfold byTapes ofLevel
  rw [String.ofList_toList]
  rfl

end LevelDocument

namespace Level

theorem decode_around {l : Level} (h : l.program.WellFormed)
    (hne : l.program.start.position ≠ l.program.goal.position) {inner : List (String × Value)}
    (hinner : inner = [] ∨ inner = [("testCases", .null)]) :
    Level.decode (String.ofList ((LevelDocument.ofLevel l).around inner).compact) =
      .ok (.level l.byTapes) := by
  have hread := LevelDocument.readDocument_around (inRange_ofLevel h).program hinner
  unfold LevelDocument.around at hread ⊢
  rw [decode_compact_object, decodeDocument_of_read hread, LevelDocument.toLevel_byTapes h hne]
  rfl

end Level

/-! ## The theorem -/

/-- `old` asks for nothing but that the input of `c` be accepted. -/
structure Case.SeenByTape (c old : Case) : Prop where
  input : old.input.unread = c.input.unread
  accept : old.accept = true
  output : old.output = .empty
  limit : old.limit = 0

/-- When the full list of cases is cut out of the text of a level, or nothing is put in its place, the
text is still read. The title and the program stay, and so do the inputs of the cases, one by one. -/
theorem Level.older_readers_see_the_inputs {l : Level} (h : l.program.Reachable)
    (hne : l.program.start.position ≠ l.program.goal.position) :
    let document := (LevelDocument.ofLevel l).toJson
    l.encode = String.ofList document.compact ∧
    (∃ before cases after,
      document.compact = before ++ Value.memberText ("testCases", cases) ++ after ∧
      (document.without "testCases").compact = before ++ after ∧
      (document.voided "testCases").compact =
        before ++ Value.memberText ("testCases", .null) ++ after) ∧
    ∀ rest ∈ [document.without "testCases", document.voided "testCases"],
      ∃ old, Level.decode (String.ofList rest.compact) = .ok (.level old) ∧
        old.title = l.title ∧ old.program = l.program ∧
        List.Forall₂ Case.SeenByTape l.cases old.cases := by
  intro document
  have hdocument : document = _ := LevelDocument.toJson_ofLevel l
  have hwithout : document.without "testCases" = _ := LevelDocument.without_ofLevel l
  have hvoided : document.voided "testCases" = _ := LevelDocument.voided_ofLevel l
  refine ⟨rfl, ?_, fun rest hrest => ⟨l.byTapes, ?_, rfl, rfl, ?_⟩⟩
  · obtain ⟨before, after, htext⟩ := (LevelDocument.ofLevel l).exists_text_around
    refine ⟨before, .list ((l.cases.map .ofCase).map CaseEntry.toJson), after, ?_, ?_, ?_⟩
    · rw [hdocument, htext, List.flatMap_singleton]
    · rw [hwithout, htext, List.flatMap_nil, List.append_nil]
    · rw [hvoided, htext, List.flatMap_singleton]
  · rw [List.mem_pair, hwithout, hvoided] at hrest
    rcases hrest with rfl | rfl
    · exact decode_around h.wellFormed hne (.inl rfl)
    · exact decode_around h.wellFormed hne (.inr rfl)
  · refine List.forall₂_map_right_iff.mpr (List.forall₂_same.mpr fun c _ => ?_)
    exact ⟨Tape.unread_ofColours _, rfl, rfl, rfl⟩

/-- The first case is to be rejected within some steps, with something left on the tape. Its input has
been read from. -/
def Level.demanding : Level :=
  { onGrid 3 2 with
    cases := [⟨false, (Tape.ofColours [.red, .blue]).advance, .ofColours [.green], 7⟩,
      .default] }

theorem Level.older_readers_see_the_inputs_of_demanding_cases :
    let document := (LevelDocument.ofLevel demanding).toJson
    ∀ rest ∈ [document.without "testCases", document.voided "testCases"],
      ∃ old, Level.decode (String.ofList rest.compact) = .ok (.level old) ∧
        old.program = demanding.program ∧
        old.cases.map (fun c => (c.accept, c.input.unread, c.limit)) =
          [(true, [.blue], 0), (true, [], 0)] := by
  intro document rest hrest
  have htwo : Program.blank 3 2 = .ok demanding.program := rfl
  obtain ⟨-, -, hold⟩ := older_readers_see_the_inputs (.blank htwo) (by decide)
  obtain ⟨old, hdecode, -, hprogram, hcases⟩ := hold rest hrest
  obtain ⟨first, others, hfirst, hothers, hlist⟩ := List.forall₂_cons_left_iff.mp hcases
  obtain ⟨second, none, hsecond, hnone, rfl⟩ := List.forall₂_cons_left_iff.mp hothers
  obtain rfl := List.forall₂_nil_left_iff.mp hnone
  refine ⟨old, hdecode, hprogram, ?_⟩
  rw [hlist, List.map_cons, List.map_cons, hfirst.accept, hfirst.input, hfirst.limit,
    hsecond.accept, hsecond.input, hsecond.limit]
  rfl

end Tilewalk
