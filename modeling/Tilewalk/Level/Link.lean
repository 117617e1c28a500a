import Tilewalk.Level.Document
import Tilewalk.Level.Positional
import Tilewalk.Text.Basic
import Tilewalk.Text.Percent

/-! # Level texts and share links

A level text is a document or a positional program; its first characters alone say which. A share
link carries a document, percent-escaped, behind a hash mark.
-/

namespace Tilewalk

/-- What a level text holds. -/
inductive LevelContent where
  | level (level : Level)
  | program (program : Program)

namespace LevelContent

def toProgram : LevelContent → Program
  | level l => l.program
  | program p => p

end LevelContent

namespace Level

def decode (text : String) : Except LevelFault LevelContent :=
  let cs := Text.trim text.toList
  if cs = [] then .error .empty
  else if Positional.opening.isPrefixOf cs then
    ((Positional.decode cs).mapError .positional).map .program
  else (decodeDocument cs).map .level

/-- A link to the level: the base without its fragment, and the level as the fragment. -/
def link (base : String) (l : Level) : String :=
  String.ofList (base.toList.takeWhile (· ≠ '#')) ++ "#" ++ Text.Percent.encode l.encode

/-- Undoes percent escapes and takes off the blanks around the text. -/
def unescape (cs : List Char) : Except LevelFault String :=
  match Text.Percent.decode (String.ofList cs) with
  | some text => .ok (String.ofList (Text.trim text.toList))
  | none => .error .escape

/-- The level text in a bare text, a fragment or a link. A text that starts with a brace is bare;
of the others, those with a hash mark are links, as a positional program has none. -/
def extract (input : String) : Except LevelFault String :=
  let cs := Text.trim input.toList
  if ['\x7b'].isPrefixOf cs then .ok (String.ofList cs)
  else
    match Text.cut? '#' cs with
    | some (_, fragment) => unescape fragment
    | none => if Positional.opening.isPrefixOf cs then .ok (String.ofList cs) else unescape cs

end Level

end Tilewalk
