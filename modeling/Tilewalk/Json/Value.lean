import Tilewalk.Number.Scaled

/-! # Writing documents -/

namespace Tilewalk.Json

/-- A document to be written. Objects keep the order of their members. -/
inductive Value where
  | null
  | boolean (b : Bool)
  | integer (n : Int)
  | text (cs : List Char)
  | list (items : List Value)
  | object (members : List (String × Value))

def writeInteger (n : Int) : List Char :=
  if n < 0 then '-' :: Number.digits n.natAbs else Number.digits n.natAbs

/-- One character of a text. Only quotes, backslashes and control characters are escaped. -/
def writeChar (c : Char) : List Char :=
  if c = '"' then ['\\', '"']
  else if c = '\\' then ['\\', '\\']
  else if c = '\x08' then ['\\', 'b']
  else if c = '\x0c' then ['\\', 'f']
  else if c = '\n' then ['\\', 'n']
  else if c = '\r' then ['\\', 'r']
  else if c = '\t' then ['\\', 't']
  else if c.toNat < 0x20 then
    ['\\', 'u', '0', '0', Nat.digitChar (c.toNat / 16), Nat.digitChar (c.toNat % 16)]
  else [c]

def writeText (cs : List Char) : List Char := '"' :: (cs.flatMap writeChar ++ ['"'])

def writeBoolean (b : Bool) : List Char :=
  if b then ['t', 'r', 'u', 'e'] else ['f', 'a', 'l', 's', 'e']

namespace Value

/-! ## On one line -/

mutual

def compact : Value → List Char
  | null => ['n', 'u', 'l', 'l']
  | boolean b => writeBoolean b
  | integer n => writeInteger n
  | text cs => writeText cs
  | list [] => ['[', ']']
  | list (v :: vs) => '[' :: (v.compact ++ compactItems vs)
  | object [] => ['\x7b', '\x7d']
  | object ((key, v) :: ms) =>
    '\x7b' :: (writeText key.toList ++ ':' :: (v.compact ++ compactMembers ms))

/-- The items after the first and the closing bracket. -/
def compactItems : List Value → List Char
  | [] => [']']
  | v :: vs => ',' :: (v.compact ++ compactItems vs)

/-- The members after the first and the closing brace. -/
def compactMembers : List (String × Value) → List Char
  | [] => ['\x7d']
  | (key, v) :: ms =>
    ',' :: (writeText key.toList ++ ':' :: (v.compact ++ compactMembers ms))

end

/-! ## One item on a line -/

/-- A line break and two spaces for every open bracket. -/
def lineBreak (depth : Nat) : List Char := '\n' :: List.replicate (2 * depth) ' '

mutual

def pretty (depth : Nat) : Value → List Char
  | list (v :: vs) =>
    '[' :: (lineBreak (depth + 1) ++ v.pretty (depth + 1) ++ prettyItems depth vs)
  | object ((key, v) :: ms) =>
    '\x7b' :: (lineBreak (depth + 1) ++ writeText key.toList ++ ':' :: ' ' ::
      (v.pretty (depth + 1) ++ prettyMembers depth ms))
  | v => v.compact

def prettyItems (depth : Nat) : List Value → List Char
  | [] => lineBreak depth ++ [']']
  | v :: vs => ',' :: (lineBreak (depth + 1) ++ v.pretty (depth + 1) ++ prettyItems depth vs)

def prettyMembers (depth : Nat) : List (String × Value) → List Char
  | [] => lineBreak depth ++ ['\x7d']
  | (key, v) :: ms =>
    ',' :: (lineBreak (depth + 1) ++ writeText key.toList ++ ':' :: ' ' ::
      (v.pretty (depth + 1) ++ prettyMembers depth ms))

end

end Value

end Tilewalk.Json
