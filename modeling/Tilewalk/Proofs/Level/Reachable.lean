import Tilewalk.Level.Link
import Tilewalk.Proofs.Program
import Tilewalk.Proofs.Result

/-! # Reachable programs

A program is made as an empty grid or read from a level text, and then edited. All of these are
well formed.
-/

namespace Tilewalk

/-! ## Programs of documents -/

theorem Blueprint.placeAll_induction {P : Program → Prop} {cells : List (Position × Tile)}
    {seen : Std.ExtTreeMap Position Unit} {p q : Program} (hq : placeAll cells seen p = .ok q)
    (hfirst : P p)
    (hplace : ∀ (p q : Program) (place : Position) (tile : Tile),
      P p → p.placeTile place tile = .ok q → P q) : P q := by
  induction cells generalizing seen p with
  | nil =>
    cases hq
    exact hfirst
  | cons cell cells ih =>
    unfold placeAll at hq
    split_ifs at hq
    cases hplaced : p.placeTile cell.1 cell.2 with
    | error fault => simp [hplaced] at hq
    | ok placed =>
      simp only [hplaced] at hq
      exact ih hq (hplace _ _ _ _ hfirst hplaced)

theorem Blueprint.build_eq_ok {b : Blueprint} {p : Program} (h : b.build = .ok p) :
    ∃ blank moved, Program.blank b.cols b.rows = .ok blank ∧
      blank.moveEndpoints b.start b.goal = .ok moved ∧ placeAll b.cells ∅ moved = .ok p := by
  obtain ⟨blank, hblank, h⟩ := bind_eq_ok.mp h
  obtain ⟨moved, hmoved, h⟩ := bind_eq_ok.mp h
  exact ⟨blank, moved, mapError_eq_ok.mp hblank, mapError_eq_ok.mp hmoved, h⟩

theorem Blueprint.wellFormed_build {b : Blueprint} {p : Program} (h : b.build = .ok p) :
    p.WellFormed := by
  obtain ⟨blank, moved, hblank, hmoved, hplaced⟩ := build_eq_ok h
  have hwell := Program.wellFormed_blank hblank
  exact placeAll_induction hplaced (Program.wellFormed_moveEndpoints hwell hmoved)
    fun _ _ _ _ hwell => Program.wellFormed_placeTile hwell

theorem LevelDocument.build_of_toLevel {d : LevelDocument} {l : Level} (h : d.toLevel = .ok l) :
    d.program.build = .ok l.program := by
  obtain ⟨program, hprogram, h⟩ := bind_eq_ok.mp h
  obtain ⟨cases, -, h⟩ := bind_eq_ok.mp h
  cases h
  exact mapError_eq_ok.mp hprogram

/-! ## Positional programs -/

namespace Positional

theorem header_eq_ok {text cells : List Char} {p : Program} (h : header text = .ok (p, cells)) :
    ∃ cols rows c r, text = opening ++ cols ++ 'x' :: rows ++ ':' :: cells ∧
      count? cols = some c ∧ count? rows = some r ∧ Program.blank c r = .ok p := by
  unfold header at h
  by_cases hopening : opening.isPrefixOf text = true
  · simp only [hopening, not_true_eq_false, if_false] at h
    -- Of the branches, only the one where all the parts are there gives a grid.
    split at h
    next dimensions cells' hcells =>
      split at h
      next cols rows hdimensions =>
        split at h
        next c hcols =>
          split at h
          next r hrows =>
            obtain ⟨blank, hblank, h⟩ := bind_eq_ok.mp h
            cases h
            refine ⟨cols, rows, c, r, ?_, hcols, hrows, mapError_eq_ok.mp hblank⟩
            obtain ⟨body, rfl⟩ := List.isPrefixOf_iff_prefix.mp hopening
            rw [List.drop_left] at hcells
            rw [(Text.eq_of_cut? hcells).1, (Text.eq_of_cut? hdimensions).1]
            simp
          next => cases h
        next => cases h
      next => cases h
    next => cases h
  · simp only [hopening] at h
    cases h

theorem placeFrom_induction {P : Program → Prop} {index : Nat} {cs : List Char} {p q : Program}
    (hq : placeFrom index cs p = .ok q) (hfirst : P p)
    (hplace : ∀ (p q : Program) (place : Position) (tile : Tile),
      P p → p.placeTile place tile = .ok q → P q) : P q := by
  induction index, cs, p using placeFrom.induct with
  | case1 index kind orientation rest p ihNone ihSome =>
    unfold placeFrom at hq
    obtain ⟨tile, -, hq⟩ := bind_eq_ok.mp hq
    cases tile with
    | none => exact ihNone hq hfirst
    | some tile =>
      obtain ⟨placed, hplaced, hq⟩ := bind_eq_ok.mp hq
      exact ihSome placed hq (hplace _ _ _ _ hfirst (mapError_eq_ok.mp hplaced))
  | case2 =>
    simp only [placeFrom] at hq
    cases hq
    exact hfirst

theorem decode_eq_ok {text : List Char} {p : Program} (h : decode text = .ok p) :
    ∃ blank cells, header text = .ok (blank, cells) ∧ placeFrom 0 cells blank = .ok p := by
  obtain ⟨⟨blank, cells⟩, hheader, h⟩ := bind_eq_ok.mp h
  dsimp only at h
  split_ifs at h
  exact ⟨blank, cells, hheader, h⟩

theorem wellFormed_decode {text : List Char} {p : Program} (h : decode text = .ok p) :
    p.WellFormed := by
  obtain ⟨blank, cells, hheader, hplaced⟩ := decode_eq_ok h
  obtain ⟨_, _, _, _, -, -, -, hblank⟩ := header_eq_ok hheader
  exact placeFrom_induction hplaced (Program.wellFormed_blank hblank)
    fun _ _ _ _ hwell => Program.wellFormed_placeTile hwell

end Positional

/-! ## Reachable programs -/

theorem Level.wellFormed_decode {text : String} {content : LevelContent}
    (h : Level.decode text = .ok content) : content.toProgram.WellFormed := by
  unfold Level.decode at h
  dsimp only at h
  split_ifs at h
  · obtain ⟨p, hp, rfl⟩ := map_eq_ok.mp h
    exact Positional.wellFormed_decode (mapError_eq_ok.mp hp)
  · obtain ⟨l, hl, rfl⟩ := map_eq_ok.mp h
    obtain ⟨d, -, hl⟩ := bind_eq_ok.mp hl
    exact Blueprint.wellFormed_build (LevelDocument.build_of_toLevel hl)

/-- The programs that can come about. -/
inductive Program.Reachable : Program → Prop where
  | blank {cols rows : Nat} {p : Program} : Program.blank cols rows = .ok p → Reachable p
  | decode {text : String} {content : LevelContent} :
      Level.decode text = .ok content → Reachable content.toProgram
  | edit {p q : Program} (e : Edit) : Reachable p → e.apply p = .ok q → Reachable q

theorem Program.Reachable.wellFormed {p : Program} (h : p.Reachable) : p.WellFormed := by
  induction h with
  | blank hp => exact wellFormed_blank hp
  | decode hcontent => exact Level.wellFormed_decode hcontent
  | edit e _ hq ih => exact Edit.wellFormed_apply ih hq

end Tilewalk
