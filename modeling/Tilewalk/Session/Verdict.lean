import Tilewalk.Json.Value
import Tilewalk.Level

/-! # Verdicts on cases -/

namespace Tilewalk

structure Verdict where
  acceptMatches : Bool
  outputMatches : Bool
  passed : Bool
deriving DecidableEq

structure Outcome where
  index : Nat
  verdict : Verdict
  /-- The verdict of the machine; after a fault it has rejected. -/
  accept : Bool
  steps : Nat
  fault : Option String
  tape : String
deriving DecidableEq

namespace Case

/-- The verdict on a case, from that of the machine and the tape that it leaves. A case without
an output asks for none. -/
def verdict (c : Case) (accept : Bool) (tape : Tape) : Verdict :=
  let acceptMatches := accept == c.accept
  let outputMatches := c.output.isEmpty || tape == c.output
  ⟨acceptMatches, outputMatches, acceptMatches && outputMatches⟩

theorem passed_verdict_iff {c : Case} {accept : Bool} {tape : Tape} :
    (c.verdict accept tape).passed = true ↔
      accept = c.accept ∧ (c.output.unread = [] ∨ tape.unread = c.output.unread) := by
  simp [verdict, Tape.isEmpty_eq, Tape.beq_iff]

end Case

namespace Outcome

def passed (o : Outcome) : Bool := o.verdict.passed

def toJson (o : Outcome) : Json.Value := .object [
  ("index", .integer o.index),
  ("verdict", .object [
    ("accept_matches", .boolean o.verdict.acceptMatches),
    ("output_matches", .boolean o.verdict.outputMatches),
    ("passed", .boolean o.verdict.passed)]),
  ("accept", .boolean o.accept),
  ("steps", .integer o.steps),
  ("fault", o.fault.elim .null fun fault => .text fault.toList),
  ("tape", .text o.tape.toList)]

end Outcome

end Tilewalk
