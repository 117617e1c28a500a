import Tilewalk.Proofs.Session.Log

/-! # One deed after the other

Whatever happens to a session is a list of deeds. A call that ticks many times is as many deeds as
it ticks.
-/

namespace Tilewalk

variable {μ σ ε : Type} [Machine μ] [Screen σ] [Editor ε]

namespace Deed

def run : Deed σ → Session μ σ ε → Session μ σ ε
  | .call c, s => (c.run s).1
  | .screen action, s => s.onScreen action

/-- The events that a deed hands over to the host. -/
def handed : Deed σ → Session μ σ ε → List Event
  | .call .takeEvents, s => s.events
  | _, _ => []

end Deed

namespace Session

def after (s : Session μ σ ε) (deeds : List (Deed σ)) : Session μ σ ε :=
  deeds.foldl (fun s deed => deed.run s) s

def handed : List (Deed σ) → Session μ σ ε → List Event
  | [], _ => []
  | deed :: deeds, s => deed.handed s ++ handed deeds (deed.run s)

/-- All the events told up to the end of the deeds, whether the host has taken them or not. -/
def told (deeds : List (Deed σ)) (s : Session μ σ ε) : List Event :=
  s.handed deeds ++ (s.after deeds).events

@[simp] theorem after_nil (s : Session μ σ ε) : s.after [] = s := rfl

@[simp] theorem after_cons (s : Session μ σ ε) (deed : Deed σ) (deeds : List (Deed σ)) :
    s.after (deed :: deeds) = (deed.run s).after deeds := rfl

@[simp] theorem after_append (s : Session μ σ ε) (first rest : List (Deed σ)) :
    s.after (first ++ rest) = (s.after first).after rest :=
  List.foldl_append

theorem after_keeps {P : Session μ σ ε → Prop} {deeds : List (Deed σ)}
    (hdeed : ∀ deed ∈ deeds, ∀ s, P s → P (deed.run s)) {s : Session μ σ ε} (h : P s) :
    P (s.after deeds) := by
  induction deeds generalizing s with
  | nil => exact h
  | cons deed deeds ih =>
    rw [after_cons]
    have hfirst := hdeed deed List.mem_cons_self s h
    exact ih (fun d hd => hdeed d (List.mem_cons_of_mem _ hd)) hfirst

/-! ## Reachable sessions -/

theorem reachable_iff_after {s : Session μ σ ε} : Reachable s ↔
    ∃ fresh settings screen editor deeds,
      (initial fresh settings screen editor : Session μ σ ε).after deeds = s := by
  constructor
  · apply Reachable.invariant
    · exact fun fresh settings screen editor => ⟨fresh, settings, screen, editor, [], rfl⟩
    · rintro _ c ⟨fresh, settings, screen, editor, deeds, rfl⟩
      exact ⟨fresh, settings, screen, editor, deeds ++ [.call c], by simp [Deed.run]⟩
    · rintro _ action ⟨fresh, settings, screen, editor, deeds, rfl⟩
      exact ⟨fresh, settings, screen, editor, deeds ++ [.screen action], by simp [Deed.run]⟩
  · rintro ⟨fresh, settings, screen, editor, deeds, rfl⟩
    refine after_keeps (P := Reachable) ?_ (.initial ..)
    intro deed _ s hs
    cases deed with
    | call c => exact .call c hs
    | screen action => exact .screen action hs

end Session

end Tilewalk
