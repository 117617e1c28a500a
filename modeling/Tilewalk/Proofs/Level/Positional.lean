import Mathlib.Tactic.Choose
import Tilewalk.Proofs.Level.Link
import Tilewalk.Proofs.Level.Rows

/-! # Which texts are positional programs

A text is read when its numerals, the number of its letters and every pair of letters are right, and
when the pairs for the endpoints of an empty grid are points. A program is read back with those
endpoints, whatever its own are.
-/

open Tilewalk.Number (digits natural)

namespace Tilewalk.Positional

/-! ## Numerals -/

/-- Decimal digits, behind at most one plus sign, with a value of 32 bits. -/
def IsNumeral (cs : List Char) (n : Nat) : Prop :=
  ∃ ds, (cs = ds ∨ cs = '+' :: ds) ∧ ds ≠ [] ∧ (∀ d ∈ ds, d.isDigit = true) ∧
    natural ds = n ∧ n < UInt32.size

theorem unsigned_of_digits {ds : List Char} (h : ∀ d ∈ ds, d.isDigit = true) :
    unsigned ds = ds := by
  unfold unsigned
  split
  · exact absurd (h '+' List.mem_cons_self) (by decide)
  · rfl

theorem eq_unsigned (cs : List Char) : cs = unsigned cs ∨ cs = '+' :: unsigned cs := by
  unfold unsigned
  split
  · exact .inr rfl
  · exact .inl rfl

theorem count?_eq_some_iff {cs : List Char} {n : Nat} :
    count? cs = some n ↔ IsNumeral cs n := by
  unfold count?
  dsimp only
  constructor
  · intro h
    split_ifs at h with hnumeral
    cases h
    obtain ⟨hne, hdigits, hsize⟩ := hnumeral
    exact ⟨unsigned cs, eq_unsigned cs, hne, List.all_eq_true.mp hdigits, rfl, hsize⟩
  · rintro ⟨ds, hcs, hne, hdigits, rfl, hsize⟩
    have hunsigned : unsigned cs = ds := by
      rcases hcs with rfl | rfl
      · exact unsigned_of_digits hdigits
      · rfl
    rw [hunsigned, if_pos ⟨hne, List.all_eq_true.mpr hdigits, hsize⟩]

theorem IsNumeral.not_mem {cs : List Char} {n : Nat} (h : IsNumeral cs n) {mark : Char}
    (hdigit : mark.isDigit = false) (hplus : mark ≠ '+') : mark ∉ cs := by
  obtain ⟨ds, hcs, -, hdigits, -⟩ := h
  have hnot : mark ∉ ds := fun hmem => by simp [hdigits mark hmem] at hdigit
  rcases hcs with rfl | rfl
  · exact hnot
  · simp [hplus, hnot]

theorem isNumeral_digits {n : Nat} (h : n < UInt32.size) : IsNumeral (digits n) n :=
  ⟨digits n, .inl rfl, Number.digits_ne_nil n, fun _ => Number.isDigit_of_mem_digits,
    Number.natural_digits n, h⟩

/-! ## Pairs of letters -/

/-- The pair of letters with this number. -/
def pairAt (body : List Char) (k : Nat) : List Char := (body.drop (2 * k)).take 2

/-- Two points, or a letter for a kind and one for an orientation. -/
def IsCellPair (pair : List Char) : Prop :=
  pair = ['.', '.'] ∨
    ∃ kind ∈ ['c', 'b', 'g', 'R', 'B', 'G', 'Y'], ∃ orientation ∈ ['0', '1', '2', '3', 'm'],
      pair = [kind, orientation]

theorem mem_kindLetters {c : Char} :
    c ∈ ['c', 'b', 'g', 'R', 'B', 'G', 'Y'] ↔ ∃ k, c = kindLetter k := by
  constructor
  · intro h
    simp only [List.mem_cons, List.not_mem_nil, or_false] at h
    rcases h with rfl | rfl | rfl | rfl | rfl | rfl | rfl
    · exact ⟨.conveyor, rfl⟩
    · exact ⟨.branchBlueRed, rfl⟩
    · exact ⟨.branchGreenYellow, rfl⟩
    · exact ⟨.writer .red, rfl⟩
    · exact ⟨.writer .blue, rfl⟩
    · exact ⟨.writer .green, rfl⟩
    · exact ⟨.writer .yellow, rfl⟩
  · rintro ⟨_ | _ | _ | ⟨_ | _ | _ | _⟩, rfl⟩ <;> decide

theorem mem_orientationLetters {c : Char} :
    c ∈ ['0', '1', '2', '3', 'm'] ↔ ∃ o, c = orientationLetter o := by
  constructor
  · intro h
    simp only [List.mem_cons, List.not_mem_nil, or_false] at h
    rcases h with rfl | rfl | rfl | rfl | rfl
    · exact ⟨.identity, rfl⟩
    · exact ⟨.turned1, rfl⟩
    · exact ⟨.turned2, rfl⟩
    · exact ⟨.turned3, rfl⟩
    · exact ⟨.mirrored, rfl⟩
  · rintro ⟨o, rfl⟩
    cases o <;> decide

theorem isCellPair_iff {pair : List Char} : IsCellPair pair ↔ ∃ t, pair = cellLetters t := by
  constructor
  · rintro (rfl | ⟨kind, hkind, orientation, horientation, rfl⟩)
    · exact ⟨none, rfl⟩
    · obtain ⟨k, rfl⟩ := mem_kindLetters.mp hkind
      obtain ⟨o, rfl⟩ := mem_orientationLetters.mp horientation
      exact ⟨some ⟨k, o⟩, rfl⟩
  · rintro ⟨_ | tile, rfl⟩
    · exact .inl rfl
    · exact .inr ⟨_, mem_kindLetters.mpr ⟨_, rfl⟩, _, mem_orientationLetters.mpr ⟨_, rfl⟩, rfl⟩

theorem length_flatMap_cellLetters (tiles : List (Option Tile)) :
    (tiles.flatMap cellLetters).length = 2 * tiles.length := by
  simp [List.length_flatMap, List.map_const', Nat.mul_comm]

theorem pairAt_flatMap {tiles : List (Option Tile)} {k : Nat} {t : Option Tile}
    (h : tiles[k]? = some t) : pairAt (tiles.flatMap cellLetters) k = cellLetters t := by
  unfold pairAt
  induction tiles generalizing k with
  | nil => simp at h
  | cons first tiles ih =>
    rw [List.flatMap_cons]
    cases k with
    | zero =>
      obtain rfl : first = t := by simpa using h
      rw [Nat.mul_zero, List.drop_zero, List.take_left' (length_cellLetters first)]
    | succ k =>
      have hdrop : 2 * (k + 1) = (cellLetters first).length + 2 * k := by
        rw [length_cellLetters]
        omega
      rw [hdrop, List.drop_length_add_append]
      exact ih (by simpa using h)

theorem flatMap_pairAt (body : List Char) (n : Nat) :
    (List.range n).flatMap (pairAt body) = body.take (2 * n) := by
  induction n with
  | zero => simp
  | succ n ih =>
    rw [List.range_succ, List.flatMap_append, ih, List.flatMap_singleton, Nat.mul_add_one,
      List.take_add]
    rfl

theorem exists_tiles_of_pairs {body : List Char} {n : Nat} (hlength : body.length = 2 * n)
    (hpairs : ∀ k < n, IsCellPair (pairAt body k)) :
    ∃ tiles : List (Option Tile), tiles.length = n ∧ body = tiles.flatMap cellLetters := by
  have hread : ∀ k, ∃ t, k < n → pairAt body k = cellLetters t := by
    intro k
    by_cases hk : k < n
    · obtain ⟨t, ht⟩ := isCellPair_iff.mp (hpairs k hk)
      exact ⟨t, fun _ => ht⟩
    · exact ⟨none, fun h => absurd h hk⟩
  choose tileAt htileAt using hread
  refine ⟨(List.range n).map tileAt, by simp, ?_⟩
  calc body = body.take (2 * n) := (List.take_of_length_le hlength.le).symm
    _ = (List.range n).flatMap (pairAt body) := (flatMap_pairAt body n).symm
    _ = (List.range n).flatMap (fun k => cellLetters (tileAt k)) :=
      List.flatMap_congr fun k hk => htileAt k (List.mem_range.mp hk)
    _ = ((List.range n).map tileAt).flatMap cellLetters := (List.flatMap_map ..).symm

variable {cols rows : Nat} {tiles : List (Option Tile)}

theorem pairAt_eq_points_iff (hlength : tiles.length = cols * rows) {x y : Nat} (hx : x < cols)
    (hy : y < rows) : pairAt (tiles.flatMap cellLetters) (y * cols + x) = ['.', '.'] ↔
      ∀ cell ∈ listed cols 0 tiles, cell.1 ≠ ⟨x, y⟩ := by
  have hk : y * cols + x < tiles.length :=
    calc y * cols + x < y * cols + cols := Nat.add_lt_add_left hx _
      _ = (y + 1) * cols := (Nat.succ_mul y cols).symm
      _ ≤ rows * cols := Nat.mul_le_mul_right cols hy
      _ = tiles.length := by rw [hlength, Nat.mul_comm]
  obtain ⟨t, ht⟩ : ∃ t, tiles[y * cols + x]? = some t := ⟨_, List.getElem?_eq_getElem hk⟩
  have hcell : cellAt cols (y * cols + x) = ⟨x, y⟩ := (cellAt_eq_iff hx).mpr rfl
  rw [pairAt_flatMap ht]
  constructor
  · intro hpoints cell hmem heq
    obtain ⟨k, hk, hplace⟩ := mem_listed.mp hmem
    rw [heq, Nat.zero_add, eq_comm, cellAt_eq_iff hx] at hplace
    rw [← hplace, hk] at ht
    cases ht
    have hletter := List.head_eq_of_cons_eq hpoints
    exact kindLetter_ne_point _ hletter
  · intro hfree
    cases t with
    | none => rfl
    | some tile =>
      have hmem : (⟨x, y⟩, tile) ∈ listed cols 0 tiles :=
        mem_listed.mpr ⟨_, ht, by rw [Nat.zero_add, hcell]⟩
      exact absurd rfl (hfree _ hmem)

/-! ## Headers -/

theorem header_of_parts {cols rows : List Char} {c r : Nat} (hcols : IsNumeral cols c)
    (hrows : IsNumeral rows r) (body : List Char) :
    header (opening ++ cols ++ 'x' :: rows ++ ':' :: body) =
      (Program.blank c r).mapError .edit >>= fun blank => .ok (blank, body) := by
  have htext : opening ++ cols ++ 'x' :: rows ++ ':' :: body =
      opening ++ (cols ++ 'x' :: rows ++ ':' :: body) := by simp
  have hcolon : ':' ∉ cols ++ 'x' :: rows := by
    simp [hcols.not_mem, hrows.not_mem]
  have hx : 'x' ∉ cols := hcols.not_mem (by decide) (by decide)
  unfold header
  rw [htext, if_neg (by simp), List.drop_left, Text.cut?_append hcolon]
  dsimp only
  rw [Text.cut?_append hx]
  dsimp only
  rw [count?_eq_some_iff.mpr hcols]
  dsimp only
  rw [count?_eq_some_iff.mpr hrows]
  rfl

theorem decode_of_parts {cols rows : List Char} {c r : Nat} (hcols : IsNumeral cols c)
    (hrows : IsNumeral rows r) (hc : Program.isDimension c = true)
    (hr : Program.isDimension r = true) (body : List Char) :
    decode (opening ++ cols ++ 'x' :: rows ++ ':' :: body) =
      if body.length = 2 * c * r then placeFrom 0 body (Program.emptyGrid c r)
      else .error (.wrongLength (2 * c * r) body.length) := by
  unfold decode
  rw [header_of_parts hcols hrows, Program.blank_of_isDimension hc hr]
  rfl

/-! ## The texts of programs -/

/-- A text for a grid of `c` columns and `r` rows, with the letters `body` behind its colon. -/
structure Written (text : List Char) (c r : Nat) (body : List Char) : Prop where
  parts : ∃ cols rows, text = ['l', 'v', 'l'] ++ cols ++ 'x' :: rows ++ ':' :: body ∧
    IsNumeral cols c ∧ IsNumeral rows r
  cols : 1 ≤ c ∧ c ≤ 0x7fffffff
  rows : 1 ≤ r ∧ r ≤ 0x7fffffff
  length : body.length = 2 * c * r
  pairs : ∀ k < c * r, IsCellPair (pairAt body k)
  start : pairAt body (c / 2) = ['.', '.']
  goal : pairAt body ((r - 1) * c + c / 2) = ['.', '.']

theorem endsFree_iff (hlength : tiles.length = cols * rows) (hcols : 1 ≤ cols) (hrows : 1 ≤ rows) :
    EndsFree cols rows tiles ↔ pairAt (tiles.flatMap cellLetters) (cols / 2) = ['.', '.'] ∧
      pairAt (tiles.flatMap cellLetters) ((rows - 1) * cols + cols / 2) = ['.', '.'] := by
  have hmiddle : cols / 2 < cols := Nat.div_lt_self hcols (by decide)
  have hstart := pairAt_eq_points_iff hlength hmiddle hrows
  have hgoal := pairAt_eq_points_iff hlength hmiddle (Nat.sub_lt hrows Nat.one_pos)
  have hrow : ((rows - 1 : Nat) : Int) = (rows : Int) - 1 := by omega
  rw [Nat.zero_mul, Nat.zero_add] at hstart
  rw [hstart, hgoal, hrow, ← forall₂_and]
  rfl

/-- The text is read as the program with the cells that its letters list. -/
theorem Written.exists_tiles {text body : List Char} (h : Written text cols rows body) :
    ∃ tiles : List (Option Tile), tiles.length = cols * rows ∧
      body = tiles.flatMap cellLetters ∧ decode text = .ok (ofTiles cols rows tiles) := by
  obtain ⟨tiles, hlength, rfl⟩ := exists_tiles_of_pairs (h.length.trans (Nat.mul_assoc ..)) h.pairs
  obtain ⟨_, _, rfl, hcols, hrows⟩ := h.parts
  have hdecode := decode_of_parts hcols hrows (Program.isDimension_iff.mpr h.cols)
    (Program.isDimension_iff.mpr h.rows) (tiles.flatMap cellLetters)
  rw [if_pos h.length] at hdecode
  refine ⟨tiles, hlength, rfl, hdecode.trans ((placeFrom_emptyGrid hlength).mpr ⟨?_, rfl⟩)⟩
  exact (endsFree_iff hlength h.cols.1 h.rows.1).mpr ⟨h.start, h.goal⟩

theorem exists_written {text : List Char} {p : Program} (h : decode text = .ok p) :
    ∃ c r body, Written text c r body := by
  obtain ⟨blank, body, hheader, -⟩ := decode_eq_ok h
  obtain ⟨cols, rows, c, r, rfl, hcols, hrows, hblank⟩ := header_eq_ok hheader
  obtain ⟨⟨hc, hr⟩, -⟩ := Program.blank_eq_ok.mp hblank
  rw [count?_eq_some_iff] at hcols hrows
  rw [decode_of_parts hcols hrows hc hr] at h
  split_ifs at h with hlength
  obtain ⟨tiles, rfl⟩ := exists_tiles_of_placeFrom h ⟨c * r, by rw [hlength, Nat.mul_assoc]⟩
  have htiles : tiles.length = c * r := by
    rw [length_flatMap_cellLetters, Nat.mul_assoc] at hlength
    exact Nat.eq_of_mul_eq_mul_left (by decide) hlength
  have hdims := And.intro (Program.isDimension_iff.mp hc) (Program.isDimension_iff.mp hr)
  obtain ⟨hstart, hgoal⟩ := (endsFree_iff htiles hdims.1.1 hdims.2.1).mp
    ((placeFrom_emptyGrid htiles).mp h).1
  refine ⟨c, r, _, ⟨cols, rows, rfl, hcols, hrows⟩, hdims.1, hdims.2, hlength, ?_, hstart, hgoal⟩
  intro k hk
  rw [← htiles] at hk
  rw [pairAt_flatMap (List.getElem?_eq_getElem hk), isCellPair_iff]
  exact ⟨_, rfl⟩

theorem length_lt_of_header {text body : List Char} {blank : Program}
    (h : header text = .ok (blank, body)) : 2 * blank.cols * blank.rows < UInt64.size := by
  obtain ⟨_, _, c, r, -, -, -, hblank⟩ := header_eq_ok h
  obtain ⟨⟨hc, hr⟩, rfl⟩ := Program.blank_eq_ok.mp hblank
  have hcols : c ≤ 0x7fffffff := (Program.isDimension_iff.mp hc).2
  have hrows : r ≤ 0x7fffffff := (Program.isDimension_iff.mp hr).2
  calc 2 * c * r ≤ 2 * 0x7fffffff * 0x7fffffff :=
        Nat.mul_le_mul (Nat.mul_le_mul_left 2 hcols) hrows
    _ < UInt64.size := by decide

/-- A text is read exactly when it has the form of a positional program. Then each pair of letters
stands for its cell, row by row, and only the dimensions can be written in another way than they
were read. The number of letters that is asked for always fits in 64 bits. -/
theorem positional_texts_have_one_form (text : List Char) :
    ((∃ p, decode text = .ok p) ↔ ∃ c r body, Written text c r body) ∧
    ((¬ ∃ c r body, Written text c r body) → ∃ fault, decode text = .error fault) ∧
    (∀ c r body p, Written text c r body → decode text = .ok p →
      (p.cols = c ∧ p.rows = r) ∧
      (p.start = ⟨⟨(c / 2 : Nat), 0⟩, .identity⟩ ∧
        p.goal = ⟨⟨(c / 2 : Nat), (r : Int) - 1⟩, .identity⟩) ∧
      (∀ k < c * r, pairAt body k = cellLetters (p.tile? ⟨(k % c : Nat), (k / c : Nat)⟩)) ∧
      encode p = ['l', 'v', 'l'] ++ digits c ++ 'x' :: digits r ++ ':' :: body) ∧
    ∀ blank body, header text = .ok (blank, body) → 2 * blank.cols * blank.rows < UInt64.size := by
  have hiff : (∃ p, decode text = .ok p) ↔ ∃ c r body, Written text c r body := by
    refine ⟨fun ⟨p, hp⟩ => exists_written hp, fun ⟨c, r, body, h⟩ => ?_⟩
    obtain ⟨tiles, -, -, hdecode⟩ := h.exists_tiles
    exact ⟨_, hdecode⟩
  refine ⟨hiff, fun hnone => ?_, fun c r body p h hp => ?_, fun _ _ => length_lt_of_header⟩
  · rw [← hiff] at hnone
    cases hdecode : decode text with
    | ok p => exact absurd ⟨p, hdecode⟩ hnone
    | error fault => exact ⟨fault, rfl⟩
  · obtain ⟨tiles, hlength, rfl, hdecode⟩ := h.exists_tiles
    obtain rfl : ofTiles c r tiles = p := Except.ok.inj (hdecode.symm.trans hp)
    refine ⟨⟨rfl, rfl⟩, ⟨rfl, rfl⟩, fun k hk => ?_, ?_⟩
    · rw [← hlength] at hk
      have ht := List.getElem?_eq_getElem hk
      rw [pairAt_flatMap ht]
      exact congrArg cellLetters (tile?_cellAt ht).symm
    · rw [encode_eq, tilesOf_ofTiles hlength]
      rfl

theorem positional_texts_have_one_form_on_single_rows :
    (∃ p, decode ['l', 'v', 'l', '+', '0', '3', 'x', '1', ':', 'c', 'm', '.', '.', 'R', '3'] = .ok p ∧
      ['R', '3'] = cellLetters (p.tile? ⟨2, 0⟩) ∧
      encode p = ['l', 'v', 'l', '3', 'x', '1', ':', 'c', 'm', '.', '.', 'R', '3']) ∧
    ∃ fault, decode ['l', 'v', 'l', '1', 'x', '1', ':', 'c', '0'] = .error fault := by
  constructor
  · have hwritten : Written
        ['l', 'v', 'l', '+', '0', '3', 'x', '1', ':', 'c', 'm', '.', '.', 'R', '3'] 3 1
        ['c', 'm', '.', '.', 'R', '3'] := {
      parts := ⟨['+', '0', '3'], ['1'], rfl, count?_eq_some_iff.mp rfl, count?_eq_some_iff.mp rfl⟩
      cols := by decide
      rows := by decide
      length := rfl
      pairs := by
        intro k hk
        rcases k with _ | _ | _ | k
        · exact .inr ⟨'c', by decide, 'm', by decide, rfl⟩
        · exact .inl rfl
        · exact .inr ⟨'R', by decide, '3', by decide, rfl⟩
        · omega
      start := rfl
      goal := rfl }
    obtain ⟨hform, -, hread, -⟩ := positional_texts_have_one_form
      ['l', 'v', 'l', '+', '0', '3', 'x', '1', ':', 'c', 'm', '.', '.', 'R', '3']
    obtain ⟨p, hp⟩ := hform.mpr ⟨_, _, _, hwritten⟩
    obtain ⟨-, -, hpairs, hencode⟩ := hread _ _ _ p hwritten hp
    exact ⟨p, hp, hpairs 2 (by decide), hencode⟩
  · obtain ⟨hform, hother, -⟩ :=
      positional_texts_have_one_form ['l', 'v', 'l', '1', 'x', '1', ':', 'c', '0']
    apply hother
    rw [← hform]
    rintro ⟨p, hp⟩
    have hreserved : decode ['l', 'v', 'l', '1', 'x', '1', ':', 'c', '0'] =
        .error (.edit (.reserved ⟨0, 0⟩)) := rfl
    rw [hreserved] at hp
    cases hp

/-! ## Programs that are read back -/

theorem length_letters (p : Program) :
    ((tilesOf p).flatMap cellLetters).length = 2 * p.cols * p.rows := by
  rw [length_flatMap_cellLetters, length_tilesOf, Nat.mul_assoc]

theorem decode_of_encode {p : Program} (h : p.WellFormed) :
    decode (encode p) =
      placeFrom 0 ((tilesOf p).flatMap cellLetters) (Program.emptyGrid p.cols p.rows) := by
  have hsize : ∀ {n : Nat}, Program.isDimension n = true → n < UInt32.size := fun hn =>
    Nat.lt_of_le_of_lt (Program.isDimension_iff.mp hn).2 (by decide)
  rw [encode_eq, decode_of_parts (isNumeral_digits (hsize h.cols)) (isNumeral_digits (hsize h.rows))
    h.cols h.rows, if_pos (length_letters p)]

theorem cut?_encode (p : Program) : ∃ head body, Text.cut? ':' (encode p) = some (head, body) ∧
    body.length = 2 * p.cols * p.rows := by
  have hdigits : ∀ n, ':' ∉ digits n := fun n hmem =>
    absurd (Number.isDigit_of_mem_digits hmem) (by decide)
  have hcolon : ':' ∉ opening ++ digits p.cols ++ 'x' :: digits p.rows := by
    simp [opening, hdigits]
  exact ⟨_, _, (congrArg _ (encode_eq p)).trans (Text.cut?_append hcolon _), length_letters p⟩

/-- A program with no tile where an empty grid has its endpoints is read back with its size, its tiles
and those endpoints. A program with such a tile is not read back. -/
theorem programs_are_copied_without_endpoints {p : Program} (h : p.Reachable) :
    let start : Endpoint := ⟨⟨(p.cols / 2 : Nat), 0⟩, .identity⟩
    let goal : Endpoint := ⟨⟨(p.cols / 2 : Nat), (p.rows : Int) - 1⟩, .identity⟩
    let vacant := p.tile? start.position = none ∧ p.tile? goal.position = none
    (vacant → decode (encode p) = .ok { p with start, goal } ∧
      (decode (encode p) = .ok p ↔ p.start = start ∧ p.goal = goal)) ∧
    (¬ vacant → ∃ fault, decode (encode p) = .error fault) ∧
    ∃ head body, Text.cut? ':' (encode p) = some (head, body) ∧
      body.length = 2 * p.cols * p.rows := by
  intro start goal vacant
  have hwell := h.wellFormed
  have hread : ∀ q, decode (encode p) = .ok q ↔ vacant ∧ q = { p with start, goal } := by
    intro q
    rw [decode_of_encode hwell, placeFrom_emptyGrid (length_tilesOf p), endsFree_tilesOf hwell,
      ofTiles_tilesOf hwell]
    rfl
  refine ⟨fun hvacant => ⟨(hread _).mpr ⟨hvacant, rfl⟩, ?_⟩, fun hvacant => ?_, cut?_encode p⟩
  · rw [hread, and_iff_right hvacant]
    constructor
    · intro heq
      exact ⟨congrArg Program.start heq, congrArg Program.goal heq⟩
    · rintro ⟨hstart, hgoal⟩
      rw [← hstart, ← hgoal]
  · cases hdecode : decode (encode p) with
    | ok q => exact absurd ((hread q).mp hdecode).1 hvacant
    | error fault => exact ⟨fault, rfl⟩

/-- The start has been moved off the middle of its row, and no tile placed yet. -/
def offCentre : Program :=
  { Program.emptyGrid 3 2 with
    cells := (∅ : Cells).erase ⟨0, 0⟩
    start := ⟨⟨0, 0⟩, .turned3⟩ }

theorem reachable_offCentre : offCentre.Reachable := by
  have hblank : Program.blank 3 2 = .ok (Program.emptyGrid 3 2) := rfl
  have hmoved : (Program.emptyGrid 3 2).moveStart ⟨⟨0, 0⟩, .turned3⟩ = .ok offCentre :=
    Program.moveStart_eq_ok.mpr ⟨by decide, rfl⟩
  exact .edit (.moveStart ⟨⟨0, 0⟩, .turned3⟩) (.blank hblank) hmoved

theorem programs_are_copied_without_endpoints_off_centre :
    decode (encode offCentre) = .ok { offCentre with start := ⟨⟨1, 0⟩, .identity⟩ } ∧
      ∃ p, offCentre.placeTile ⟨1, 0⟩ ⟨.conveyor, .identity⟩ = .ok p ∧
        ∃ fault, decode (encode p) = .error fault := by
  constructor
  · have hvacant : offCentre.tile? ⟨1, 0⟩ = none ∧ offCentre.tile? ⟨1, 1⟩ = none := ⟨rfl, rfl⟩
    exact ((programs_are_copied_without_endpoints reachable_offCentre).1 hvacant).1
  · have hplaced : offCentre.placeTile ⟨1, 0⟩ ⟨.conveyor, .identity⟩ =
        .ok { offCentre with cells := offCentre.cells.insert ⟨1, 0⟩ ⟨.conveyor, .identity⟩ } :=
      Program.placeTile_eq_ok.mpr ⟨by decide, rfl⟩
    refine ⟨_, hplaced, ?_⟩
    apply (programs_are_copied_without_endpoints
      (.edit (.placeTile ⟨1, 0⟩ ⟨.conveyor, .identity⟩) reachable_offCentre hplaced)).2.1
    rintro ⟨hstart, -⟩
    cases hstart

end Tilewalk.Positional
