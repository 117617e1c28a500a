/-! # Files

What a program finds under the name of a file.
-/

namespace Tilewalk

inductive FileFault where
  /-- The system refuses, with the number of its error. -/
  | system (reason : String) (number : Nat)
  | notText
  | other (reason : String)

namespace FileFault

def missing : FileFault := system "No such file or directory" 2

def denied : FileFault := system "Permission denied" 13

def directory : FileFault := system "Is a directory" 21

def longName : FileFault := system "File name too long" 36

def message : FileFault → String
  | system reason number => s!"{reason} (os error {number})"
  | notText => "stream did not contain valid UTF-8"
  | other reason => reason

end FileFault

/-- The texts of the files there are, by name. -/
abbrev Files := String → Except FileFault String

namespace Files

/-- The parts of a name that lead out of the directory it starts from. -/
def parts (name : String) : List String :=
  (name.splitOn "/").filter fun part => part ≠ "" ∧ part ≠ "." ∧ part ≠ ".."

/-- A system without files. A name that goes nowhere is that of a directory, and a name or part of
a name can be too long to be looked up. -/
def empty : Files := fun name =>
  if name.isEmpty then .error .missing
  else if 4096 ≤ name.utf8ByteSize then .error .longName
  else
    match parts name with
    | [] => .error .directory
    | part :: _ => if 255 < part.utf8ByteSize then .error .longName else .error .missing

def insert (files : Files) (name : String) (found : Except FileFault String) : Files :=
  fun other => if other = name then found else files other

end Files

end Tilewalk
