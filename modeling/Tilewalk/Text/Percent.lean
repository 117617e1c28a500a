import Tilewalk.Text.Basic

/-! # Percent escapes

Every byte of the UTF-8 form that is not safe in a link becomes a percent sign and two upper-case
digits. Reading also takes lower-case digits, and keeps a percent sign that no two digits follow.
-/

namespace Tilewalk.Text.Percent

/-- The characters other than letters and digits that stand for themselves. -/
def safeMarks : List Char :=
  [';', ',', '/', '?', ':', '@', '&', '=', '+', '$', '-', '_', '.', '!', '~', '*', '\x27', '(',
    ')', '#']

def isSafe (b : UInt8) : Bool :=
  let c := Char.ofUInt8 b
  c.isAlphanum || safeMarks.contains c

def mark : UInt8 := 0x25

def escapeByte (b : UInt8) : List Char :=
  if isSafe b then [Char.ofUInt8 b]
  else ['%', upperHexDigit (b.toNat / 16), upperHexDigit (b.toNat % 16)]

def utf8 (s : String) : List UInt8 := s.toList.flatMap String.utf8EncodeChar

def encode (s : String) : String := String.ofList ((utf8 s).flatMap escapeByte)

def hexByte? (high low : UInt8) : Option UInt8 := do
  let x ← hexValue? (Char.ofUInt8 high)
  let y ← hexValue? (Char.ofUInt8 low)
  return UInt8.ofNat (16 * x + y)

def unescape : List UInt8 → List UInt8
  | [] => []
  | b :: high :: low :: rest =>
    match if b = mark then hexByte? high low else none with
    | some byte => byte :: unescape rest
    | none => b :: unescape (high :: low :: rest)
  | b :: rest => b :: unescape rest

/-- Undoes `encode`. There is no result when the bytes are not UTF-8. -/
def decode (s : String) : Option String := String.fromUTF8? (unescape (utf8 s)).toByteArray

end Tilewalk.Text.Percent
