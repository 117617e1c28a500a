import Tilewalk.Proofs.Session.Calls

/-! # What a host sees of a session -/

namespace Tilewalk

/-- What a session shows, its screen apart. -/
structure View (μ : Type) where
  program : Option Program
  title : Option String
  cases : List Case
  phase : Phase
  cursor : Cursor
  machine : Option μ
  outcomes : List Outcome
  events : List Event
  tally : Tally

/-- What happens to a session: a call of the host, or something done to the screen. -/
inductive Deed (σ : Type) : Type 1 where
  | call (c : Call)
  | screen (action : σ → σ × List Ticket)

/-- A call, what came of it, and what the session showed before and after it. -/
structure Entry (μ : Type) : Type 1 where
  call : Call
  reply : call.Reply
  before : View μ
  after : View μ

def Tick.isWaiting : Tick → Bool
  | .waiting => true
  | _ => false

theorem Tick.isWaiting_iff {a : Tick} : a.isWaiting = true ↔ a = .waiting := by
  cases a <;> simp [isWaiting]

/-- Whether the call was a tick that found a move of the token under way. -/
def Entry.isWait {μ : Type} : Entry μ → Bool
  | ⟨.tick, reply, _, _⟩ => Tick.isWaiting reply
  | _ => false

namespace Session

variable {μ σ ε : Type}

def view (s : Session μ σ ε) : View μ where
  program := s.program
  title := s.title
  cases := s.cases
  phase := s.phase
  cursor := s.cursor
  machine := s.machine
  outcomes := s.outcomes
  events := s.events
  tally := s.tally

variable [Machine μ] [Screen σ] [Editor ε]

/-- The log of the calls. -/
def log : List (Deed σ) → Session μ σ ε → List (Entry μ)
  | [], _ => []
  | .screen action :: deeds, s => log deeds (s.onScreen action)
  | .call c :: deeds, s =>
    ⟨c, (c.run s).2, s.view, (c.run s).1.view⟩ :: log deeds (c.run s).1

end Session

end Tilewalk
