import Tilewalk.Number.Decimal

/-! # The tally of a session and its report -/

namespace Tilewalk

/-- What a session has counted, over all its runs. -/
structure Tally where
  steps : Nat := 0
  moves : Nat := 0
  started : Nat := 0
  passed : Nat := 0
  failed : Nat := 0
  faults : Nat := 0

namespace Tally

def addVerdict (t : Tally) (passed : Bool) : Tally :=
  if passed then { t with passed := t.passed + 1 } else { t with failed := t.failed + 1 }

def judged (t : Tally) : Nat := t.passed + t.failed

/-- The share of the judged cases that passed, in percent. -/
def passPercentage (t : Tally) : Float :=
  if t.judged = 0 then 0
  else 100 * Float.ofNat t.passed / Float.ofNat t.judged

def meanSteps (t : Tally) : Float :=
  if t.judged = 0 then 0 else Float.ofNat t.steps / Float.ofNat t.judged

/-! ## The report -/

def rule (c : Char) : String := String.ofList (List.replicate 58 c)

/-- The lines of the report; `seconds` is how long the session has been there. -/
def reportLines (t : Tally) (seconds : String) : List String := [
  rule '=',
  "TAPEWORKS RUN STATISTICS",
  rule '=',
  s!"host_seconds             {seconds} s",
  s!"steps                    {t.steps}",
  s!"animations               {t.moves}",
  s!"faults                   {t.faults}",
  rule '-',
  "CASES",
  s!"  cases.started          {t.started}",
  s!"  cases.passed           {t.passed}",
  s!"  cases.failed           {t.failed}",
  s!"  cases.pass_rate        {Number.twoPlaces t.passPercentage}%",
  s!"  cases.steps_avg        {Number.twoPlaces t.meanSteps}",
  rule '=']

def report (t : Tally) (seconds : String) : String :=
  String.join ((t.reportLines seconds).map (· ++ "\n"))

end Tally

end Tilewalk
