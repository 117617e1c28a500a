import Tilewalk.Json.Fault

/-! # Words, texts and numbers of a document

Readers take the characters that are left of the document.
-/

open Tilewalk.Number (digitValue natural tenTo)

namespace Tilewalk.Json

/-- A reader gives its value with the characters that are left. -/
abbrev Read (α : Type) := List Char → Except Fault (α × List Char)

/-- The characters that may stand between tokens. -/
def isSpace (c : Char) : Bool := c == ' ' || c == '\n' || c == '\t' || c == '\r'

def skipSpace (cs : List Char) : List Char := cs.dropWhile isSpace

/-- Reads the letters of a word, the first of which is already read. -/
def word : List Char → List Char → Except Fault (List Char)
  | [], cs => .ok cs
  | _ :: _, [] => .error .endOfValue
  | letter :: letters, c :: cs => if c = letter then word letters cs else .error .expectedWord

/-! ## Texts -/

/-- Four hexadecimal digits. When fewer than four bytes are left the text has ended. -/
def hexQuad : Read Nat
  | a :: b :: c :: d :: rest =>
    match Text.hexValue? a, Text.hexValue? b, Text.hexValue? c, Text.hexValue? d with
    | some w, some x, some y, some z => .ok (4096 * w + 256 * x + 16 * y + z, rest)
    | _, _, _, _ => .error .invalidEscape
  | cs =>
    let bytes := cs.foldl (fun n c => n + c.utf8Size) 0
    .error (if bytes < 4 then .endOfText else .invalidEscape)

def isHighSurrogate (n : Nat) : Bool := 0xd800 ≤ n && n < 0xdc00

def isLowSurrogate (n : Nat) : Bool := 0xdc00 ≤ n && n < 0xe000

def joinSurrogates (high low : Nat) : Char :=
  Char.ofNat (0x10000 + 1024 * (high - 0xd800) + (low - 0xdc00))

def shortEscape? : Char → Option Char
  | '"' => some '"'
  | '\\' => some '\\'
  | '/' => some '/'
  | 'b' => some '\x08'
  | 'f' => some '\x0c'
  | 'n' => some '\n'
  | 'r' => some '\r'
  | 't' => some '\t'
  | _ => none

/-- What follows `\u`. Surrogates have to come in pairs. -/
def unicodeEscape : Read Char := fun cs => do
  let (n, cs) ← hexQuad cs
  if isLowSurrogate n then .error .loneSurrogate
  else if isHighSurrogate n then
    match cs with
    | [] | ['\\'] => .error .endOfText
    | '\\' :: 'u' :: cs =>
      let (m, cs) ← hexQuad cs
      if isLowSurrogate m then .ok (joinSurrogates n m, cs) else .error .loneSurrogate
    | _ => .error .unfinishedSurrogate
  else .ok (Char.ofNat n, cs)

/-- What follows `\u` in a text whose value is not needed. -/
def looseEscape : Read Char := fun cs => do
  let (n, cs) ← hexQuad cs
  .ok (Char.ofNat n, cs)

/-- What follows a backslash, `unicode` reading what follows `\u`. -/
def escape (unicode : Read Char) : Read Char
  | [] => .error .endOfText
  | 'u' :: cs => unicode cs
  | c :: cs =>
    match shortEscape? c with
    | some d => .ok (d, cs)
    | none => .error .invalidEscape

/-- The characters of a text up to its closing quote. The count bounds their number. -/
def textBody (unicode : Read Char) : Nat → Read (List Char)
  | 0, _ | _, [] => .error .endOfText
  | n + 1, c :: cs =>
    if c = '"' then .ok ([], cs)
    else if c = '\\' then do
      let (d, cs) ← escape unicode cs
      let (ds, cs) ← textBody unicode n cs
      .ok (d :: ds, cs)
    else if c.toNat < 0x20 then .error .controlCharacter
    else do
      let (ds, cs) ← textBody unicode n cs
      .ok (c :: ds, cs)

def text : Read (List Char) := fun cs => textBody unicodeEscape cs.length cs

/-- Passes over a text whose opening quote is already read; its surrogates need not pair up. -/
def skipText (cs : List Char) : Except Fault (List Char) := do
  let (_, cs) ← textBody looseEscape cs.length cs
  .ok cs

/-! ## Numbers -/

structure Numeral where
  negative : Bool
  whole : List Char
  fraction : List Char
  /-- Whether the exponent is negative, and its digits. -/
  exponent : Option (Bool × List Char)

/-- One digit or more, and what follows them. `missing` is the fault when there is none. -/
def digitRun (missing : List Char → Fault) : Read (List Char) := fun cs =>
  match cs.takeWhile Char.isDigit with
  | [] => .error (missing cs)
  | ds => .ok (ds, cs.dropWhile Char.isDigit)

def numeralWhole (missing : List Char → Fault) : Read (List Char) := fun cs => do
  let (ds, cs) ← digitRun missing cs
  match ds with
  | '0' :: _ :: _ => .error .invalidNumber
  | _ => .ok (ds, cs)

def numeralFraction (missing : List Char → Fault) : Read (List Char)
  | '.' :: cs => digitRun missing cs
  | cs => .ok ([], cs)

def exponentDigits (missing : List Char → Fault) (negative : Bool) :
    Read (Option (Bool × List Char)) := fun cs => do
  let (ds, cs) ← digitRun missing cs
  .ok (some (negative, ds), cs)

def numeralExponent (missing : List Char → Fault) : Read (Option (Bool × List Char))
  | 'e' :: '-' :: cs | 'E' :: '-' :: cs => exponentDigits missing true cs
  | 'e' :: '+' :: cs | 'E' :: '+' :: cs => exponentDigits missing false cs
  | 'e' :: cs | 'E' :: cs => exponentDigits missing false cs
  | cs => .ok (none, cs)

/-- Reads a numeral. The whole part has no leading zero. -/
def numeral (missing : List Char → Fault) : Read Numeral := fun cs => do
  let (negative, cs) := match cs with
    | '-' :: cs => (true, cs)
    | cs => (false, cs)
  let (whole, cs) ← numeralWhole missing cs
  let (fraction, cs) ← numeralFraction missing cs
  let (exponent, cs) ← numeralExponent missing cs
  .ok (⟨negative, whole, fraction, exponent⟩, cs)

/-- The fault where a digit has to stand in a number that is needed. -/
def missingDigit : List Char → Fault
  | [] => .endOfValue
  | _ => .invalidNumber

def skipNumber (cs : List Char) : Except Fault (List Char) := do
  let (_, cs) ← numeral (fun _ => .invalidNumber) cs
  .ok cs

inductive Quantity where
  | integer (value : Int)
  | real (value : Float)

/-- Appends digits to `n` as long as it stays below `2 ^ 64`; the digits from there on are left. -/
def absorb : Nat → List Char → Nat × List Char
  | n, [] => (n, [])
  | n, d :: ds =>
    if 10 * n + digitValue d < UInt64.size then absorb (10 * n + digitValue d) ds else (n, d :: ds)

def powerOfTen (n : Nat) : Float := (Number.Scaled.mk (tenTo n) 0).toFloat

/-- `x * 10 ^ e`, by steps of at most 308 places that are each rounded. Two divisions take any
significand below `2 ^ 64` to zero, so three steps suffice. -/
def scaleByTen : Nat → Float → Int → Except Fault Float
  | 0, x, _ => .ok x
  | steps + 1, x, e =>
    if e.natAbs ≤ 308 then
      if e < 0 then .ok (x / powerOfTen e.natAbs)
      else
        let y := x * powerOfTen e.natAbs
        if y.isInf then .error .numberOutOfRange else .ok y
    else if x == 0 then .ok x
    else if e < 0 then scaleByTen steps (x / powerOfTen 308) (e + 308)
    else .error .numberOutOfRange

namespace Numeral

/-- The value as a float: up to 64 bits of the digits, then the power of ten. -/
def toFloat (n : Numeral) : Except Fault Float := do
  let (leading, dropped) := absorb 0 n.whole
  let (significand, unused) := absorb leading n.fraction
  let places : Int := dropped.length - (n.fraction.length - unused.length : Nat)
  let (negative, digits) := n.exponent.getD (false, [])
  let size := natural digits
  let x ←
    if size < 0x80000000 then
      scaleByTen 3 (UInt64.ofNat significand).toFloat
        (if negative then places - size else places + size)
    else if significand = 0 ∨ negative then .ok 0
    else .error .numberOutOfRange
  .ok (if n.negative then -x else x)

/-- A whole number within 64 bits is an integer, except for a negative zero; any other number is
a float. -/
def value (n : Numeral) : Except Fault Quantity := do
  let size := natural n.whole
  let plain := n.fraction.isEmpty && n.exponent.isNone
  if plain && !n.negative && size < UInt64.size then .ok (.integer size)
  else if plain && n.negative && 0 < size && size ≤ 0x8000000000000000 then .ok (.integer (-size))
  else return .real (← n.toFloat)

end Numeral

def quantity : Read Quantity := fun cs => do
  let (n, cs) ← numeral missingDigit cs
  let value ← n.value
  .ok (value, cs)

end Tilewalk.Json
