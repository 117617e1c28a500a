import Tilewalk.Json.Skip

/-! # Reading values of a known type -/

namespace Tilewalk.Json

/-! ## Values of another type -/

/-- The fault for a value that is not of the type `expected`. The value is read as far as the
message needs it, and a fault in it comes first. -/
def mismatch (expected : String) (cs : List Char) : Fault :=
  let found {α : Type} (display : α → Found) : Except Fault α → Fault
    | .ok a => .wrongType (display a) expected
    | .error fault => fault
  match cs with
  | [] => .endOfValue
  | '[' :: _ => .wrongType .list expected
  | '\x7b' :: _ => .wrongType .object expected
  | 'n' :: cs => found (fun _ => .null) (word ['u', 'l', 'l'] cs)
  | 't' :: cs => found (fun _ => .boolean true) (word ['r', 'u', 'e'] cs)
  | 'f' :: cs => found (fun _ => .boolean false) (word ['a', 'l', 's', 'e'] cs)
  | '"' :: cs => found (fun r => .text r.1) (text cs)
  | c :: cs =>
    if c = '-' ∨ c.isDigit then
      found (fun r => match r.1 with
        | .integer n => .integer n
        | .real x => .real x) (quantity (c :: cs))
    else .expectedValue

/-! ## Plain values -/

def readText : Read (List Char) := fun cs =>
  match skipSpace cs with
  | '"' :: cs => text cs
  | cs => .error (mismatch "a string" cs)

def readBoolean : Read Bool := fun cs =>
  match skipSpace cs with
  | 't' :: cs => do return (true, ← word ['r', 'u', 'e'] cs)
  | 'f' :: cs => do return (false, ← word ['a', 'l', 's', 'e'] cs)
  | cs => .error (mismatch "a boolean" cs)

/-- Reads a number; anything else is a mismatch with the type `expected`. -/
def readQuantity (expected : String) : Read Quantity := fun cs =>
  match skipSpace cs with
  | [] => .error .endOfValue
  | c :: cs =>
    if c = '-' ∨ c.isDigit then quantity (c :: cs) else .error (mismatch expected (c :: cs))

/-- Reads an integer from `low` to `high`, the range of the type `expected`. -/
def readInteger (expected : String) (low high : Int) : Read Int := fun cs => do
  let (q, cs) ← readQuantity expected cs
  match q with
  | .integer n => if low ≤ n ∧ n ≤ high then .ok (n, cs) else .error (.wrongValue n expected)
  | .real x => .error (.wrongType (.real x) expected)

def readInt32 : Read Int := readInteger "i32" Int32.minValue.toInt Int32.maxValue.toInt

def readNat32 : Read Nat := fun cs => do
  let (n, cs) ← readInteger "u32" 0 0xffffffff cs
  .ok (n.toNat, cs)

def readNat64 : Read Nat := fun cs => do
  let (n, cs) ← readInteger "u64" 0 0xffffffffffffffff cs
  .ok (n.toNat, cs)

/-- Reads a float; an integer stands for the float nearest to it. -/
def readFloat : Read Float := fun cs => do
  let (q, cs) ← readQuantity "f64" cs
  match q with
  | .integer n =>
    let size := (UInt64.ofNat n.natAbs).toFloat
    .ok (if n < 0 then -size else size, cs)
  | .real x => .ok (x, cs)

def readOption {α : Type} (read : Read α) : Read (Option α) := fun cs =>
  match skipSpace cs with
  | 'n' :: cs => do return (none, ← word ['u', 'l', 'l'] cs)
  | cs => do
    let (a, cs) ← read cs
    .ok (some a, cs)

/-! ## Lists -/

/-- Whether another element follows. At the end the closing bracket is passed over. -/
def nextElement (first : Bool) : Read Bool := fun cs =>
  match skipSpace cs with
  | [] => .error .endOfList
  | ']' :: cs => .ok (false, cs)
  | c :: cs =>
    if first then .ok (true, c :: cs)
    else if c = ',' then
      match skipSpace cs with
      | [] => .error .endOfValue
      | ']' :: _ => .error .trailingComma
      | cs => .ok (true, cs)
    else .error .expectedListEnd

/-- The elements from here on. The count bounds their number. -/
def elements {α : Type} (read : Read α) : Nat → Bool → Read (List α)
  | 0, _, _ => .error .endOfList
  | n + 1, first, cs => do
    let (more, cs) ← nextElement first cs
    if more then
      let (a, cs) ← read cs
      let (rest, cs) ← elements read n false cs
      .ok (a :: rest, cs)
    else .ok ([], cs)

def readList {α : Type} (read : Read α) : Read (List α) := fun cs =>
  match skipSpace cs with
  | '[' :: cs => elements read (cs.length + 1) true cs
  | cs => .error (mismatch "a sequence" cs)

/-! ## Names from a fixed list -/

def variant {α : Type} (names : List (String × α)) (name : List Char) : Except Fault α :=
  match names.find? fun entry => entry.1.toList == name with
  | some entry => .ok entry.2
  | none => .error (.unknownVariant name (names.map Prod.fst))

/-- What follows the key that names a value: a colon, `null` and the closing brace. -/
def variantTail (cs : List Char) : Except Fault (List Char) := do
  match skipSpace (← colon cs) with
  | 'n' :: cs =>
    match skipSpace (← word ['u', 'l', 'l'] cs) with
    | [] => .error .endOfObject
    | '\x7d' :: cs => .ok cs
    | _ => .error .expectedValue
  | cs => .error (mismatch "unit" cs)

/-- Reads a value by its name: a text, or an object whose only key is the name. -/
def readVariant {α : Type} (names : List (String × α)) : Read α := fun cs =>
  match skipSpace cs with
  | [] => .error .endOfValue
  | '"' :: cs => do
    let (name, cs) ← text cs
    return (← variant names name, cs)
  | '\x7b' :: cs =>
    match skipSpace cs with
    | [] => .error .endOfObject
    | '"' :: cs => do
      let (name, cs) ← text cs
      let a ← variant names name
      return (a, ← variantTail cs)
    | '\x7d' :: _ => .error .expectedValue
    | _ => .error .keyNotText
  | _ => .error .expectedValue

/-! ## Records -/

/-- A field of a record: how its value is read into the record. -/
structure Field (α : Type) where
  key : String
  required : Bool
  store : α → Read α

/-- How a record is read, as an object or as a list in the order of the fields. Fields that are
not required keep their value in `blank`; those that are have to be stored. -/
structure Shape (α : Type) where
  name : String
  blank : α
  fields : List (Field α)

namespace Field

/-- The field `key` that `read` reads and `set` puts into the record. -/
def ofRead {α β : Type} (key : String) (required : Bool) (read : Read β) (set : α → β → α) :
    Field α where
  key := key
  required := required
  store := fun a cs => do
    let (b, cs) ← read cs
    .ok (set a b, cs)

end Field

namespace Shape

variable {α : Type}

/-- Whether another key follows, its quote passed over. At the end the brace is passed over. -/
def nextKey (first : Bool) : Read Bool := fun cs =>
  match skipSpace cs with
  | [] => .error .endOfObject
  | '\x7d' :: cs => .ok (false, cs)
  | c :: cs =>
    if first then if c = '"' then .ok (true, cs) else .error .keyNotText
    else if c = ',' then
      match skipSpace cs with
      | [] => .error .endOfValue
      | '"' :: cs => .ok (true, cs)
      | '\x7d' :: _ => .error .trailingComma
      | _ => .error .keyNotText
    else .error .expectedObjectEnd

/-- Reads the value of the member `key`; one that the record does not have is passed over. The
keys that have been read come with the record. -/
def member (shape : Shape α) (key : List Char) (a : α) (seen : List String) :
    Read (α × List String) := fun cs =>
  match shape.fields.find? fun f => f.key.toList == key with
  | some f =>
    if f.key ∈ seen then .error (.duplicateField f.key)
    else do
      let (a, cs) ← f.store a (← colon cs)
      .ok ((a, f.key :: seen), cs)
  | none => do return ((a, seen), ← skip (← colon cs))

/-- The members from here on. The count bounds their number. -/
def members (shape : Shape α) : Nat → Bool → α → List String → Read α
  | 0, _, _, _, _ => .error .endOfObject
  | n + 1, first, a, seen, cs => do
    let (more, cs) ← nextKey first cs
    if more then
      let (key, cs) ← text cs
      let ((a, seen), cs) ← shape.member key a seen cs
      members shape n false a seen cs
    else
      match shape.fields.find? fun f => f.required && f.key ∉ seen with
      | some f => .error (.missingField f.key)
      | none => .ok (a, cs)

def closeList (cs : List Char) : Except Fault (List Char) :=
  match skipSpace cs with
  | [] => .error .endOfList
  | ']' :: cs => .ok cs
  | ',' :: cs =>
    match skipSpace cs with
    | ']' :: _ => .error .trailingComma
    | _ => .error .trailingCharacters
  | _ => .error .trailingCharacters

def entries (shape : Shape α) : List (Field α) → Nat → α → Read α
  | [], _, a, cs => do return (a, ← closeList cs)
  | f :: fields, index, a, cs => do
    let (more, cs) ← nextElement (index == 0) cs
    if more then
      let (a, cs) ← f.store a cs
      entries shape fields (index + 1) a cs
    else
      match (f :: fields).findIdx? Field.required with
      | some i => .error (.tooShort (index + i) shape.name shape.fields.length)
      | none => .ok (a, cs)

def read (shape : Shape α) : Read α := fun cs =>
  match skipSpace cs with
  | '[' :: cs => shape.entries shape.fields 0 shape.blank cs
  | '\x7b' :: cs => shape.members (cs.length + 1) true shape.blank [] cs
  | cs => .error (mismatch s!"struct {shape.name}" cs)

end Shape

/-! ## Documents -/

/-- Reads a whole document, after which only space may stand. -/
def readDocument {α : Type} (read : Read α) (cs : List Char) : Except Fault α := do
  let (a, cs) ← read cs
  if skipSpace cs = [] then .ok a else .error .trailingCharacters

end Tilewalk.Json
