import Tilewalk.Colour

/-! # Tapes

All that has been written stays on a tape. Reading moves the head over the cells, and writing appends
a cell behind all others, so the cells from the head on are a queue of colours. They are all that later
reads can show.
-/

namespace Tilewalk

namespace Tape

/-- Reads tape letters. The error is the first character that is none. -/
def readLetters : List Char → Except Char (List Colour)
  | [] => .ok []
  | c :: rest =>
    match Colour.ofLetter? c with
    | none => .error c
    | some colour => (readLetters rest).map (colour :: ·)

/-! ## Cells and a head -/

/-- The cells of a tape, and how many of them the head has passed. -/
structure Raw where
  symbols : Array Symbol
  consumed : Nat

namespace Raw

def empty : Raw := ⟨#[], 0⟩

def ofColours (colours : List Colour) : Raw := ⟨(colours.map some).toArray, 0⟩

/-- Cells that hold `symbols` without the empty ones. -/
def ofSymbols (symbols : List Symbol) : Raw := ⟨(symbols.filter Option.isSome).toArray, 0⟩

/-- The cells that `letters` spells, the head on the first letter. -/
def ofLetters (letters : String) : Except Char Raw := (readLetters letters.toList).map ofColours

/-- What the head reads; past the last cell it is nothing. -/
def head (t : Raw) : Symbol := t.symbols[t.consumed]?.getD none

/-- Moves the head over one cell; past the last cell it stays. -/
def advance (t : Raw) : Raw :=
  if t.consumed < t.symbols.size then { t with consumed := t.consumed + 1 } else t

/-- Reads the symbol under the head and moves over it. -/
def pop (t : Raw) : Symbol × Raw := (t.head, t.advance)

/-- Writes a symbol behind all others; writing nothing leaves the cells as they are. -/
def push (t : Raw) (symbol : Symbol) : Raw :=
  if symbol.isSome then { t with symbols := t.symbols.push symbol } else t

/-- The cells from the head on. There is no such slice when the head is behind the last cell. -/
def contents? (t : Raw) : Option (List Symbol) :=
  if t.consumed ≤ t.symbols.size then some (t.symbols.toList.drop t.consumed) else none

def length? (t : Raw) : Option Nat := t.contents?.map List.length

def isEmpty? (t : Raw) : Option Bool := t.contents?.map List.isEmpty

/-- Whether the same is left to read of both. -/
def equal? (t u : Raw) : Option Bool := do
  return (← t.contents?) == (← u.contents?)

/-- What is left to read as a text. -/
def display? (t : Raw) : Option String :=
  t.contents?.map fun symbols => String.ofList (symbols.map Symbol.display)

/-! ## What every operation keeps -/

/-- The head is on a cell or right behind the last one, and every cell holds a colour. -/
structure WellFormed (t : Raw) : Prop where
  le : t.consumed ≤ t.symbols.size
  filled : none ∉ t.symbols

theorem wellFormed_empty : empty.WellFormed := ⟨Nat.le_refl 0, by simp [empty]⟩

theorem wellFormed_ofColours (colours : List Colour) : (ofColours colours).WellFormed :=
  ⟨Nat.zero_le _, by simp [ofColours]⟩

theorem wellFormed_ofSymbols (symbols : List Symbol) : (ofSymbols symbols).WellFormed :=
  ⟨Nat.zero_le _, by simp [ofSymbols]⟩

variable {t : Raw}

theorem WellFormed.advance (h : t.WellFormed) : t.advance.WellFormed := by
  unfold Raw.advance
  by_cases hmore : t.consumed < t.symbols.size
  · rw [if_pos hmore]
    exact ⟨hmore, h.filled⟩
  · rw [if_neg hmore]
    exact h

theorem WellFormed.push (h : t.WellFormed) (symbol : Symbol) : (t.push symbol).WellFormed := by
  cases symbol with
  | none => exact h
  | some colour =>
    refine ⟨?_, ?_⟩
    · exact Nat.le_trans h.le (by simp [Raw.push])
    · simpa [Raw.push] using h.filled

/-! ## What is left to read -/

/-- The colours still to be read, head first. -/
def unread (t : Raw) : List Colour := (t.symbols.toList.drop t.consumed).filterMap id

theorem WellFormed.map_unread (h : t.WellFormed) :
    t.unread.map some = t.symbols.toList.drop t.consumed := by
  rw [unread, List.map_filterMap_some_eq_filter_map_isSome, List.map_id, List.filter_eq_self]
  intro symbol hsymbol
  rw [Option.isSome_iff_ne_none]
  rintro rfl
  exact h.filled (Array.mem_toList_iff.mp (List.mem_of_mem_drop hsymbol))

theorem WellFormed.contents?_eq (h : t.WellFormed) : t.contents? = some (t.unread.map some) := by
  rw [contents?, if_pos h.le, h.map_unread]

theorem WellFormed.head_eq (h : t.WellFormed) : t.head = t.unread.head? := by
  rw [head, ← Array.getElem?_toList, ← List.head?_drop, ← h.map_unread, List.head?_map]
  cases t.unread.head? <;> rfl

theorem WellFormed.unread_advance (h : t.WellFormed) : t.advance.unread = t.unread.tail := by
  have hmap : t.advance.unread.map some = t.unread.tail.map some := by
    rw [h.advance.map_unread, List.map_tail, h.map_unread, List.tail_drop]
    unfold Raw.advance
    by_cases hmore : t.consumed < t.symbols.size
    · rw [if_pos hmore]
    · have hsize : t.symbols.toList.length ≤ t.consumed := Nat.le_of_not_lt hmore
      rw [if_neg hmore, List.drop_of_length_le hsize,
        List.drop_of_length_le (Nat.le_succ_of_le hsize)]
  exact (List.map_inj_right fun _ _ => Option.some.inj).mp hmap

theorem WellFormed.unread_push (h : t.WellFormed) (symbol : Symbol) :
    (t.push symbol).unread = t.unread ++ symbol.toList := by
  cases symbol with
  | none => exact (List.append_nil _).symm
  | some colour =>
    show ((t.symbols.push (some colour)).toList.drop t.consumed).filterMap id = _
    rw [Array.toList_push, List.drop_append_of_le_length h.le, List.filterMap_append]
    rfl

@[simp] theorem unread_ofColours (colours : List Colour) : (ofColours colours).unread = colours := by
  simp [unread, ofColours, List.filterMap_map]

theorem unread_ofSymbols (symbols : List Symbol) :
    (ofSymbols symbols).unread = symbols.filterMap id := by
  show (symbols.filter Option.isSome).filterMap id = _
  rw [List.filterMap_filter]
  congr 1
  funext symbol
  cases symbol <;> rfl

end Raw

end Tape

/-! ## Tapes -/

/-- A tape whose head can be nowhere but on its cells or right behind them. -/
structure Tape extends Tape.Raw where
  wellFormed : toRaw.WellFormed

namespace Tape

def empty : Tape := ⟨.empty, Raw.wellFormed_empty⟩

/-- A tape whose head is on the first of `colours`. -/
def ofColours (colours : List Colour) : Tape := ⟨.ofColours colours, Raw.wellFormed_ofColours colours⟩

def ofSymbols (symbols : List Symbol) : Tape := ⟨.ofSymbols symbols, Raw.wellFormed_ofSymbols symbols⟩

def ofLetters (letters : String) : Except Char Tape := (readLetters letters.toList).map ofColours

def head (t : Tape) : Symbol := t.toRaw.head

def advance (t : Tape) : Tape := ⟨t.toRaw.advance, t.wellFormed.advance⟩

def pop (t : Tape) : Symbol × Tape := (t.head, t.advance)

def push (t : Tape) (symbol : Symbol) : Tape := ⟨t.toRaw.push symbol, t.wellFormed.push symbol⟩

def contents (t : Tape) : List Symbol :=
  t.toRaw.contents?.get (by rw [t.wellFormed.contents?_eq]; rfl)

def unread (t : Tape) : List Colour := t.toRaw.unread

def length (t : Tape) : Nat := t.contents.length

def isEmpty (t : Tape) : Bool := t.contents.isEmpty

def letters (t : Tape) : List Char := t.contents.map Symbol.display

def display (t : Tape) : String := String.ofList t.letters

/-- Tapes are equal when the same is left to read. -/
instance : BEq Tape := ⟨fun t u => t.contents == u.contents⟩

theorem contents_eq (t : Tape) : t.contents = t.unread.map some := by
  unfold contents
  simp only [t.wellFormed.contents?_eq]
  rfl

@[simp] theorem unread_ofColours (colours : List Colour) : (ofColours colours).unread = colours :=
  Raw.unread_ofColours colours

@[simp] theorem unread_empty : empty.unread = [] := rfl

theorem head_eq (t : Tape) : t.head = t.unread.head? := t.wellFormed.head_eq

@[simp] theorem unread_advance (t : Tape) : t.advance.unread = t.unread.tail :=
  t.wellFormed.unread_advance

@[simp] theorem unread_push (t : Tape) (symbol : Symbol) :
    (t.push symbol).unread = t.unread ++ symbol.toList :=
  t.wellFormed.unread_push symbol

theorem length_eq (t : Tape) : t.length = t.unread.length := by
  rw [length, contents_eq, List.length_map]

theorem isEmpty_eq (t : Tape) : t.isEmpty = t.unread.isEmpty := by
  rw [isEmpty, contents_eq, List.isEmpty_map]

theorem letters_eq (t : Tape) : t.letters = t.unread.map Colour.letter := by
  rw [letters, contents_eq, List.map_map]
  rfl

theorem beq_iff (t u : Tape) : (t == u) = true ↔ t.unread = u.unread := by
  show (t.contents == u.contents) = true ↔ _
  rw [contents_eq, contents_eq, beq_iff_eq]
  exact List.map_inj_right fun _ _ => Option.some.inj

/-! ## Where the head is -/

theorem isEmpty_iff_size_le (t : Tape) : t.isEmpty = true ↔ t.symbols.size ≤ t.consumed := by
  rw [isEmpty_eq, ← List.isEmpty_map (f := some), unread, t.wellFormed.map_unread,
    List.isEmpty_iff, List.drop_eq_nil_iff, Array.length_toList]

theorem consumed_advance (t : Tape) :
    t.advance.consumed = t.consumed + if t.isEmpty then 0 else 1 := by
  show t.toRaw.advance.consumed = _
  unfold Raw.advance
  by_cases hempty : t.isEmpty = true
  · rw [if_pos hempty, if_neg (Nat.not_lt.mpr (t.isEmpty_iff_size_le.mp hempty))]
    rfl
  · rw [if_neg hempty, if_pos (Nat.lt_of_not_le (mt t.isEmpty_iff_size_le.mpr hempty))]

theorem consumed_push (t : Tape) (symbol : Symbol) : (t.push symbol).consumed = t.consumed := by
  cases symbol <;> rfl

end Tape

end Tilewalk
