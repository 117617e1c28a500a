import Tilewalk.Json.Token

/-! # Passing over values that are not needed

Only the syntax is checked, to any depth: the lists and objects that are open stand on a stack.
-/

namespace Tilewalk.Json

inductive Bracket where
  | list
  | object

namespace Bracket

def close : Bracket → Char
  | list => ']'
  | object => '\x7d'

/-- The fault when the document ends where it could be closed. -/
def atEnd : Bracket → Fault
  | list => .endOfList
  | object => .endOfObject

/-- The fault when something other than a comma or the closing bracket follows an item. -/
def atOther : Bracket → Fault
  | list => .expectedListEnd
  | object => .expectedObjectEnd

end Bracket

/-- What comes next: a value, the first item behind a bracket just opened, or what follows an
item. -/
inductive Due where
  | value
  | opened
  | closed

def colon (cs : List Char) : Except Fault (List Char) :=
  match skipSpace cs with
  | [] => .error .endOfObject
  | ':' :: cs => .ok cs
  | _ => .error .expectedColon

def skipKey (cs : List Char) : Except Fault (List Char) :=
  match skipSpace cs with
  | [] => .error .endOfObject
  | '"' :: cs => do colon (← skipText cs)
  | _ => .error .keyNotText

/-- Passes over what comes before the value of an item. -/
def skipLabel (brackets : List Bracket) (cs : List Char) : Except Fault (List Char) :=
  match brackets with
  | .object :: _ => skipKey cs
  | _ => .ok cs

/-- Passes over a value that is neither a list nor an object. -/
def skipAtom : List Char → Except Fault (List Char)
  | 'n' :: cs => word ['u', 'l', 'l'] cs
  | 't' :: cs => word ['r', 'u', 'e'] cs
  | 'f' :: cs => word ['a', 'l', 's', 'e'] cs
  | '"' :: cs => skipText cs
  | c :: cs => if c = '-' ∨ c.isDigit then skipNumber (c :: cs) else .error .expectedValue
  | [] => .error .endOfValue

/-- Passes over the rest of a value, the innermost open bracket first. The count bounds the moves:
between two of them that read a character at most one reads none. -/
def skipFrom : Nat → Due → List Bracket → List Char → Except Fault (List Char)
  | 0, _, _, _ => .error .endOfValue
  | n + 1, .value, brackets, cs =>
    match skipSpace cs with
    | '[' :: cs => skipFrom n .opened (.list :: brackets) cs
    | '\x7b' :: cs => skipFrom n .opened (.object :: brackets) cs
    | cs => do skipFrom n .closed brackets (← skipAtom cs)
  | _ + 1, _, [], cs => .ok cs
  | n + 1, .opened, bracket :: brackets, cs =>
    match skipSpace cs with
    | [] => .error bracket.atEnd
    | c :: rest =>
      if c = bracket.close then skipFrom n .closed brackets rest
      else do
        skipFrom n .value (bracket :: brackets) (← skipLabel (bracket :: brackets) (c :: rest))
  | n + 1, .closed, bracket :: brackets, cs =>
    match skipSpace cs with
    | [] => .error bracket.atEnd
    | c :: rest =>
      if c = ',' then do
        skipFrom n .value (bracket :: brackets) (← skipLabel (bracket :: brackets) rest)
      else if c = bracket.close then skipFrom n .closed brackets rest
      else .error bracket.atOther

def skip (cs : List Char) : Except Fault (List Char) := skipFrom (2 * cs.length + 2) .value [] cs

end Tilewalk.Json
